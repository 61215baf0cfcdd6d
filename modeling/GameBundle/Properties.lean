import GameBundle.Color
import GameBundle.Error
import GameBundle.Project.Tiled

set_option autoImplicit false

/-! # Properties and their inheritance

What an entity is like comes from three places: the object on the map, the tile it is drawn with,
and the prototype of its type. A value from a more specific place wins unless it is *blank*:
missing, `null` or the empty string. Zero and `false` are values like any other. -/

namespace GameBundle

/-- Property values by name. -/
abbrev Properties : Type := Ordered Json

/-! ## Blank and true values -/

/-- Is there nothing to be seen in a value? -/
def isBlank : Option Json → Bool
  | none => true
  | some .null => true
  | some (.string text) => text.isEmpty
  | some _ => false

/-- Does a value switch an optional flag on? -/
def isTruthy : Option Json → Bool
  | none => false
  | some .null => false
  | some (.bool value) => value
  | some (.number n) => !(n.toFloat == Float.ofBits 0)
  | some (.string text) => !text.isEmpty
  | some (.array _) => true
  | some (.object _) => true

namespace Properties

/-! ## Reading -/

/-- A string that is not empty. -/
def text? (p : Properties) (key : String) : Option String :=
  match p.find? key with
  | some (.string text) => if text.isEmpty then none else some text
  | _ => none

/-- A number as a double. -/
def float? (p : Properties) (key : String) : Option Float := p.find? key >>= Json.asFloat?

/-- Is a flag switched on? -/
def flag (p : Properties) (key : String) : Bool := isTruthy (p.find? key)

/-! ## Inheritance -/

/-- The value a key has after `above` has been laid over `below`: the upper one unless it is blank,
    and `null` if both are. -/
def chosen (below : Option Json) (above : Json) : Json :=
  if !isBlank (some above) then above
  else match below with
    | some value => if isBlank (some value) then .null else value
    | none => .null

/-- Lay `above` over `below`. -/
def assign (below above : Properties) : Properties :=
  above.entries.foldl (fun acc e => acc.put e.1 (chosen (acc.find? e.1) e.2)) below

/-- Lay properties over each other, the most general first. -/
def overlay (layers : List Properties) : Properties := layers.foldl assign ∅

/-! ## Typed values -/

/-- A number, or a text that spells one. -/
def numeric? : Json → Option Float
  | .string text => Decimal.read? (String.ofList (Text.trim text.toList))
  | value => value.asFloat?

/-- The value of a property as its type demands. Integers are cut towards zero and brought into
    range; a reference to no object and an empty colour are `null`; types that are not listed keep
    the value as it is. -/
def convert? (kind : String) (value : Json) : Option Json :=
  match kind with
  | "object" => value.asUnsigned?.map fun id => if id = 0 then .null else .ofInt id
  | "bool" =>
    match value with
    | .bool b => some (.bool b)
    | _ => some (.bool false)
  | "color" =>
    match value with
    | .string text =>
      if text.isEmpty then some .null
      else (Color.ofArgb? text).map fun color => .ofInt color.toNat
    | _ => none
  | "int" => (numeric? value).map fun x => .ofInt (Binary64.trunc x).toSigned64
  | "float" => numeric? value >>= fun x =>
    if Binary64.isFinite x then some (.number (.real x)) else none
  | _ => some value

/-- Put the properties of an object, tile or type, each converted to its type. -/
def merge (context : String) (target : Properties) (properties : List Tiled.Property) :
    Except BuildError Properties :=
  properties.foldlM (fun target p =>
    match convert? p.kind p.value with
    | some value => .ok (target.put p.name value)
    | none =>
      .error (.malformed context
        s!"property \"{p.name}\" has a value {p.value.render} that is not a valid {p.kind}"))
    target

end Properties

end GameBundle
