import GameBundle.Build.Operands
import GameBundle.Script.Inline

set_option autoImplicit false

/-! # Scripts

A script is compiled when something on a map first refers to it, once for every map. It is listed
on the map before its actions are encoded, so a script that leads back to itself finds its own
number. Every compilation in progress has a script of its own, which bounds how many there can be
at once by the number of scripts. -/

namespace GameBundle

/-! ## Actions -/

/-- The instruction of an action. -/
def encodeAction (input : Input) (compile : String → Step MapState UInt16) (a : Action) :
    Step MapState Bytes := do
  let (number, opcode) ← orReject (Opcode.find? a.name) (.unknownAction a.name)
  let w ← (Writer.new instructionLength).write (.byte number)
  let w ← opcode.operands.foldlM (fun w operand => do
    let value ← resolve input compile a operand
    let context := s!"{a.name} \"{operand.property}\""
    (w.write (.number value operand.width context operand.order) : Except Failure Writer)) w
  return w.buffer

/-! ## Scripts -/

/-- The header of a script: its name and the number of its instructions. -/
def scriptHeader (name : String) (count : Nat) : Except Failure Bytes :=
  Record.encode 36 [.chars name 32, .long (UInt32.ofNat count)]

/-- List a script on the map and return its local number. -/
def listScript (name : String) (global : UInt16) : Step MapState UInt16 := do
  let number ← ((← get).map.nextScript : Except Failure UInt16)
  changeMap (·.listScript name global number)
  return number

/-- The local number of a script. One that is not listed on the map yet is expanded and handed to
    `start`. -/
def scriptNumber (input : Input) (start : String → Script → Step MapState UInt16) (name : String) :
    Step MapState UInt16 := do
  match (← get).map.scriptNumber? name with
  | some number => return number
  | none =>
    if name = nullScript then
      listScript name 0
    else
      let scripts := input.definitions.scripts
      let script ← orReject (scripts.find? name)
        (.notFound s!"map \"{(← get).map.name}\"" "script" name "")
      let actions ← (expandCopies scripts name script : Except Failure Script)
      start name actions

/-- Compile the actions of a script. Its record is claimed and listed before the first action is
    encoded. -/
def compileActions (input : Input) (compile : String → Step MapState UInt16) (name : String)
    (actions : Script) : Step MapState UInt16 := do
  let header ← scriptHeader name actions.length
  let global ← onProject (onTables (Tables.reserve .scripts name))
  let number ← listScript name global
  let instructions ← actions.mapM (encodeAction input compile)
  onProject (onTables (Tables.fill .scripts global (instructions.foldl (· ++ ·) header)))
  return number

/-- The local number of a script, which is compiled unless it is listed on the map already. At most
    `depth` compilations are in progress at a time; one more would be handed to `beyond`. -/
def compileWithin (input : Input) (beyond : String → Script → Step MapState UInt16) :
    Nat → String → Step MapState UInt16
  | 0 => scriptNumber input beyond
  | depth + 1 => scriptNumber input (compileActions input (compileWithin input beyond depth))

/-- The local number of a script on the map being built. -/
def compileScript (input : Input) : String → Step MapState UInt16 :=
  compileWithin input (fun _ _ => throw .overrun) input.definitions.scripts.size

/-- Add the script that does nothing. -/
def addNullScript : Step Project UInt16 := do
  let bytes ← scriptHeader nullScript 0
  onTables (Tables.push .scripts nullScript bytes)

/-! ## Variables -/

/-- The variables that actions name, in the order of their scripts. -/
def namedVariables (scripts : Ordered Script) : List String :=
  scripts.values.flatten.flatMap fun a =>
    ["variable", "source"].filterMap fun key =>
      nonEmpty? (a.args.find? key >>= Json.asString?)

/-- Store all variables that actions name, so that texts can refer to them wherever they are set. -/
def storeVariables (input : Input) : Step Project Unit :=
  (namedVariables input.definitions.scripts).forM fun name => do
    let _ ← intern .gameVariables none name

end GameBundle
