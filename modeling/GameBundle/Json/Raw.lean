import GameBundle.Json.Token

set_option autoImplicit false

/-! # The tree of a JSON text

Before anything is known about what a text should contain, it is read into a tree of tokens. The
reader takes one token at a time and keeps the arrays and objects that are still open on a stack, so
it accepts exactly the grammar: no comma at an end, nothing after the value. What a number or a
string stands for is left to whoever looks at it; parts of a file that nobody looks at only have to
be well-formed. -/

namespace GameBundle.Json

/-- A value as it is written. -/
inductive Raw
  | null
  | bool (value : Bool)
  | number (value : Numeral)
  | string (text : Option String)
  | array (items : List Raw)
  | object (fields : List (Option String × Raw))
  deriving Repr, Inhabited

/-- A container that is still open. Its contents are kept last one first. -/
inductive Frame
  | array (items : List Raw)
  /-- An object with the key of the field being read. -/
  | object (fields : List (Option String × Raw)) (key : Option String)

/-- What may come next. -/
inductive Expect
  | value
  /-- The first item of an array, or its end. -/
  | firstItem
  | key
  /-- The first key of an object, or its end. -/
  | firstKey
  | colon
  /-- A comma, or the end of the container. -/
  | separator
  | finished (value : Raw)

/-- The open containers, innermost first, and what may come next. -/
structure Reader where
  stack : List Frame := []
  expect : Expect := .value

/-- A value is complete: put it into the innermost container. -/
def Reader.complete (stack : List Frame) (value : Raw) : Reader :=
  match stack with
  | [] => ⟨[], .finished value⟩
  | .array items :: rest => ⟨.array (value :: items) :: rest, .separator⟩
  | .object fields key :: rest => ⟨.object ((key, value) :: fields) none :: rest, .separator⟩

/-- A token where a value may start. -/
def Reader.value? (stack : List Frame) : Token → Option Reader
  | .null => some (complete stack .null)
  | .bool value => some (complete stack (.bool value))
  | .number value => some (complete stack (.number value))
  | .string text => some (complete stack (.string text))
  | .openArray => some ⟨.array [] :: stack, .firstItem⟩
  | .openObject => some ⟨.object [] none :: stack, .firstKey⟩
  | _ => none

/-- A token that ends the innermost container. -/
def Reader.close? (stack : List Frame) (token : Token) : Option Reader :=
  match stack, token with
  | .array items :: rest, .closeArray => some (complete rest (.array items.reverse))
  | .object fields _ :: rest, .closeObject => some (complete rest (.object fields.reverse))
  | _, _ => none

/-- A token where the key of the innermost object may start. -/
def Reader.key? (stack : List Frame) (token : Token) : Option Reader :=
  match stack, token with
  | .object fields _ :: rest, .string text => some ⟨.object fields text :: rest, .colon⟩
  | _, _ => none

/-- Read one token. -/
def Reader.step? (r : Reader) (token : Token) : Option Reader :=
  match r.expect with
  | .value => value? r.stack token
  | .firstItem => close? r.stack token <|> value? r.stack token
  | .key => key? r.stack token
  | .firstKey => close? r.stack token <|> key? r.stack token
  | .colon => if token = .colon then some ⟨r.stack, .value⟩ else none
  | .separator =>
    if token = .comma then
      match r.stack with
      | .array _ :: _ => some ⟨r.stack, .value⟩
      | .object _ _ :: _ => some ⟨r.stack, .key⟩
      | [] => none
    else close? r.stack token
  | .finished _ => none

/-- The tree of a text that holds exactly one value. -/
def Raw.read? (text : String) : Option Raw := do
  let tokens ← scan? text
  let r ← tokens.foldlM Reader.step? {}
  match r.expect with
  | .finished value => return value
  | _ => none

end GameBundle.Json
