import GameBundle.Numeric.Decimal

set_option autoImplicit false

/-! # JSON values

Property values and action arguments keep whatever JSON the author wrote, with object keys in their
order and with integers apart from doubles: `1` and `1.0` are different values with different text.
`Json.render` is the compact text by which a value is quoted in messages. -/

namespace GameBundle

/-! ## Numbers -/

/-- A JSON number: an integer that fits 64 bits, signed or unsigned, or a finite double. -/
inductive Number
  | integer (value : Int)
  | real (value : Float)
  deriving Repr, Inhabited

namespace Number

/-- The double nearest to the number. -/
def toFloat : Number → Float
  | .integer value => Binary64.ofInt value
  | .real value => value

/-- The number as an unsigned integer. -/
def toUnsigned? : Number → Option Nat
  | .integer value => if 0 ≤ value then some value.toNat else none
  | .real _ => none

/-- The number as a signed 64-bit integer. -/
def toSigned? : Number → Option Int
  | .integer value => if value < 0x8000000000000000 then some value else none
  | .real _ => none

/-- Doubles are written out from a hundred-thousandth to below ten thousand million million, and
    with a power of ten outside. -/
def layout : Decimal.Layout := ⟨-5, 15⟩

/-- The text of a double. -/
def renderReal (x : Float) : String :=
  match Binary64.decode x with
  | .finite negative significand exponent =>
    (if negative then "-" else "") ++
      if significand = 0 then "0.0"
      else Decimal.render layout (Decimal.shortest significand exponent)
  | _ => "null"

/-- The text of a number. -/
def render : Number → String
  | .integer value => toString value
  | .real value => renderReal value

end Number

/-! ## Values -/

/-- A JSON value. The keys of an object are in their order and distinct. -/
inductive Json
  | null
  | bool (value : Bool)
  | number (value : Number)
  | string (value : String)
  | array (items : List Json)
  | object (fields : List (String × Json))
  deriving Repr, Inhabited

namespace Json

/-- An integer value. -/
def ofInt (value : Int) : Json := .number (.integer value)

/-- A double; what is not a number becomes `null`. -/
def ofFloat (x : Float) : Json := if Binary64.isFinite x then .number (.real x) else .null

/-- The text of a string value. -/
def asString? : Json → Option String
  | .string value => some value
  | _ => none

/-- A number value as a double. -/
def asFloat? : Json → Option Float
  | .number n => some n.toFloat
  | _ => none

/-- A number value as an unsigned integer. -/
def asUnsigned? : Json → Option Nat
  | .number n => n.toUnsigned?
  | _ => none

/-- A number value as a signed integer. -/
def asSigned? : Json → Option Int
  | .number n => n.toSigned?
  | _ => none

/-! ## Text -/

/-- A control character as `\u` and four digits. -/
def escapeCode (c : Char) : List Char :=
  let hex := fun n => (Nat.digitChar (c.toNat / n % 16))
  ['\\', 'u', hex 4096, hex 256, hex 16, hex 1]

/-- A character inside a quoted string. Quotes, backslashes and control characters are escaped. -/
def escapeChar (c : Char) : List Char :=
  if c = '"' then ['\\', '"']
  else if c = '\\' then ['\\', '\\']
  else if c = '\n' then ['\\', 'n']
  else if c = '\r' then ['\\', 'r']
  else if c = '\t' then ['\\', 't']
  else if c.toNat = 8 then ['\\', 'b']
  else if c.toNat = 12 then ['\\', 'f']
  else if c.toNat < 32 then escapeCode c
  else [c]

/-- A string in quotes. -/
def quote (text : String) : String :=
  "\"" ++ String.ofList (text.toList.flatMap escapeChar) ++ "\""

mutual

/-- The compact text of a value: no spaces, keys in their order. -/
def render : Json → String
  | .null => "null"
  | .bool true => "true"
  | .bool false => "false"
  | .number n => n.render
  | .string value => quote value
  | .array items => "[" ++ ",".intercalate (renderItems items) ++ "]"
  | .object fields => "\x7b" ++ ",".intercalate (renderFields fields) ++ "\x7d"

/-- The texts of the items of an array. -/
def renderItems : List Json → List String
  | [] => []
  | item :: rest => render item :: renderItems rest

/-- The texts of the fields of an object. -/
def renderFields : List (String × Json) → List String
  | [] => []
  | (key, value) :: rest => (quote key ++ ":" ++ render value) :: renderFields rest

end

end Json

end GameBundle
