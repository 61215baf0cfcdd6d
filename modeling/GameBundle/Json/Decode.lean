import GameBundle.Json.Value

set_option autoImplicit false

/-! # Decoders

A decoder turns a JSON tree into a domain value, or refuses it. It is strict: numbers, strings and
truth values are not converted into each other, and `null` stands for a missing value only where a
value may be missing. Fields that a record does not know are skipped unread; a known field that
occurs twice is refused. At most 127 containers may lie inside one another, and each decoder knows
how many more it may enter. -/

namespace GameBundle.Json

/-- A reader of trees: how deep it may go, and the tree. -/
abbrev Decoder (α : Type) : Type := Nat → Raw → Option α

namespace Decode

variable {α : Type}

/-! ## Single values -/

/-- Any value. -/
def any : Decoder Json := Raw.value?

/-- A string. -/
def text : Decoder String
  | _, .string value => value
  | _, _ => none

/-- `true` or `false`. -/
def flag : Decoder Bool
  | _, .bool value => some value
  | _, _ => none

/-- A number of either kind, as a double. -/
def real : Decoder Float
  | _, .number n => n.value?.map Number.toFloat
  | _, _ => none

/-- An integer between `0` and `limit`. -/
def natural (limit : Nat) : Decoder Nat
  | _, .number n => n.value? >>= Number.toUnsigned? >>= fun v => if v ≤ limit then some v else none
  | _, _ => none

/-- An unsigned 8-bit integer. -/
def u8 : Decoder UInt8 := fun depth raw => (natural 0xff depth raw).map UInt8.ofNat

/-- An unsigned 16-bit integer. -/
def u16 : Decoder UInt16 := fun depth raw => (natural 0xffff depth raw).map UInt16.ofNat

/-- An unsigned 32-bit integer. -/
def u32 : Decoder UInt32 := fun depth raw => (natural 0xffffffff depth raw).map UInt32.ofNat

/-- A value or `null`. -/
def nullable (d : Decoder α) : Decoder (Option α)
  | _, .null => some none
  | depth, raw => (d depth raw).map some

/-- A value that is read completely before `d` looks at it, so that nothing in it is skipped. -/
def whole (d : Decoder α) : Decoder α := fun depth raw => do
  let _ ← raw.value? depth
  d depth raw

/-! ## Containers -/

/-- An array. -/
def list (d : Decoder α) : Decoder (List α)
  | depth, .array items => if depth ≤ 1 then none else items.mapM (d (depth - 1))
  | _, _ => none

/-- An object with arbitrary keys. Of two fields with one key the later value stays, at the place of
    the earlier. -/
def dictionary (d : Decoder α) : Decoder (Ordered α)
  | depth, .object fields =>
    if depth ≤ 1 then none
    else
      let entries? := fields.mapM fun ((key, value) : Option String × Raw) => do
        return (← key, ← d (depth - 1) value)
      entries?.map Ordered.ofList
  | _, _ => none

/-- The fields of an object under their names. -/
structure Members where
  depth : Nat
  fields : List (String × Raw)

/-- The fields of an object. `canonical` maps other spellings of a name to the name; no name of
    `known` may occur twice. -/
def members? (known : List String) (canonical : String → String) (depth : Nat) :
    Raw → Option Members
  | .object fields => do
    if depth ≤ 1 then none
    let fields ← fields.mapM fun ((key, value) : Option String × Raw) => do
      return (canonical (← key), value)
    let twice := known.any fun name => (fields.filter fun f => f.1 == name).length > 1
    if twice then none else return ⟨depth - 1, fields⟩
  | _ => none

/-- The fields of an object whose names have one spelling each. -/
def record? (known : List String) (depth : Nat) (raw : Raw) : Option Members :=
  members? known id depth raw

namespace Members

/-- A field that has to be there. -/
def required (m : Members) (name : String) (d : Decoder α) : Option α :=
  m.fields.lookup name >>= d m.depth

/-- A field that has a default when it is missing. -/
def orElse (m : Members) (name : String) (d : Decoder α) (default : α) : Option α :=
  match m.fields.lookup name with
  | some raw => d m.depth raw
  | none => some default

/-- A field that may be missing or `null`. -/
def optional (m : Members) (name : String) (d : Decoder α) : Option (Option α) :=
  m.orElse name (nullable d) none

end Members

/-! ## Whole texts -/

/-- Decode a text. -/
def run (d : Decoder α) (text : String) : Option α := Raw.read? text >>= d 128

end Decode

end GameBundle.Json
