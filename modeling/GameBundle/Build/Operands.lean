import GameBundle.Build.Dialogs
import GameBundle.Script.Opcode

set_option autoImplicit false

/-! # Operands of instructions

Each operand turns the argument of an action into the number its slot stores. Names become numbers
of entities, outlines, maps and types, texts go into their pools, and scripts and dialogs are built
when an action first names them. Whoever encodes an action says how scripts are compiled. -/

namespace GameBundle

/-! ## Arguments -/

/-- An argument that has to be a string. -/
def Action.text (a : Action) (property : String) : Except BuildError String :=
  match a.args.find? property >>= Json.asString? with
  | some text => .ok text
  | none => .error (.missingOperand a.name property "a string value")

/-- An argument that has to be a string with something in it. -/
def Action.nonEmptyText (a : Action) (property : String) : Except BuildError String := do
  let text ← a.text property
  if text.isEmpty then .error (.missingOperand a.name property "a non-empty string value")
  else return text

/-- An argument that has to be there. -/
def Action.value (a : Action) (property : String) : Except BuildError Json :=
  match a.args.find? property with
  | some value => .ok value
  | none => .error (.missingOperand a.name property "a value")

/-- The word that an argument spells, as a string or as the text of a number. -/
def keyWord? : Json → Option String
  | .string text => some text
  | .number n => some n.render
  | _ => none

/-- The code of an argument that has to be one of a list of words. -/
def Action.key (a : Action) (property : String) (keys : Keys) : Except BuildError Nat := do
  let value ← a.value property
  match keyWord? value >>= keys.code? with
  | some code => return code.toNat
  | none => .error (.unknownKey a.name property value.render keys.listing)

/-- An argument that has to be a number: cut towards zero, and not below it. -/
def Action.number (a : Action) (property : String) : Except BuildError Nat :=
  match a.args.find? property >>= Json.asFloat? with
  | some x =>
    if Binary64.isFinite x then
      let value := (Binary64.trunc x).toSigned64
      if value < 0 then
        .error (.invalidOperand a.name property (toString value)
          "must be greater than or equal to zero")
      else .ok value.toNat
    else .error (.missingOperand a.name property "a number value")
  | none => .error (.missingOperand a.name property "a number value")

/-- A number up to `limit`. -/
def Action.bounded (a : Action) (property : String) (limit : Nat) : Except BuildError Nat := do
  let value ← a.number property
  if limit < value then .error (.outOfRange a.name property value limit)
  else return value

/-- A number of quarter turns, stored as a byte in two's complement. -/
def Action.turn (a : Action) (property : String) : Except BuildError Nat := do
  let value ← a.value property
  let invalid := BuildError.invalidOperand a.name property value.render
    "value must be an integer from -3 to +3"
  match value.asSigned? with
  | some turns => if -3 ≤ turns ∧ turns ≤ 3 then return (turns % 256).toNat else .error invalid
  | none => .error invalid

/-- A colour with alpha last. -/
def Action.color (a : Action) (property : String) : Except BuildError Nat := do
  let text ← a.text property
  match Color.ofRgba? text with
  | some color => return color.toNat
  | none =>
    .error (.invalidOperand a.name property s!"\"{text}\""
      "expected a color like #RRGGBB or #RRGGBBAA")

/-- `true` or `false`. -/
def Action.bool (a : Action) (property : String) : Except BuildError Nat :=
  match a.args.find? property with
  | some (.bool value) => .ok value.toNat
  | _ => .error (.missingOperand a.name property "a (true | false) value")

/-- An operand that the engine has no use for is always refused. -/
def Action.unsupported (a : Action) (property : String) : BuildError :=
  .invalidOperand a.name property (((a.args.find? property).map Json.render).getD "undefined")
    "this operand is not supported by the engine yet"

/-! ## Resolution -/

/-- A name that has to be in a table of numbers. -/
def numberOf (numbers : Ordered UInt16) (context kind name : String) : Except BuildError UInt16 :=
  match numbers.find? name with
  | some index => .ok index
  | none => .error (.notFound context kind name "")

/-- The number that the slot of an operand stores. -/
def resolve (input : Input) (compile : String → Step MapState UInt16) (a : Action)
    (operand : Operand) : Step MapState Nat := do
  let property := operand.property
  match operand.kind with
  | .entity =>
    let name ← (a.nonEmptyText property : Except Failure String)
    let number ← ((← get).map.entityNumber name a.name : Except Failure UInt16)
    return number.toNat
  | .geometry =>
    let name ← (a.nonEmptyText property : Except Failure String)
    let number ← ((← get).map.geometryNumber name a.name : Except Failure UInt16)
    return number.toNat
  | .map =>
    let name ← (a.nonEmptyText property : Except Failure String)
    let number ← (numberOf (← get).project.maps a.name "map" name : Except Failure UInt16)
    return number.toNat
  | .entityType =>
    let name ← (a.nonEmptyText property : Except Failure String)
    match (← get).project.entityTypes.find? name with
    | some type => return type.index.toNat
    | none => reject (.notFound a.name "entity type" name "")
  | .script =>
    let name ← (a.nonEmptyText property : Except Failure String)
    return (← compile name).toNat
  | .text pool =>
    let text ← (a.text property : Except Failure String)
    return (← internOnMap pool text).toNat
  | .dialog =>
    let name ← (a.text property : Except Failure String)
    return (← buildDialog input compile name a.name).toNat
  | .serialDialog =>
    let name ← (a.text property : Except Failure String)
    return (← buildSerialDialog input compile name a.name).toNat
  | .key keys => (a.key property keys : Except Failure Nat)
  | .turn => (a.turn property : Except Failure Nat)
  | .color => (a.color property : Except Failure Nat)
  | .number => (a.bounded property (maxForWidth operand.width) : Except Failure Nat)
  | .byte => (a.bounded property 0xff : Except Failure Nat)
  | .twoBytes => (a.bounded property 0xffff : Except Failure Nat)
  | .bool => (a.bool property : Except Failure Nat)
  | .unsupported => reject (a.unsupported property)

end GameBundle
