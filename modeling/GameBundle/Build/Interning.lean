import GameBundle.Build.State
import GameBundle.Text.Template

set_option autoImplicit false

/-! # Shared texts

Strings, save flags and variables are stored once and referred to by number. Before a text is
stored, tokens in it are replaced by numbers: `%NAME%` by the local number of an object of the map,
and `$NAME$` by the number of a variable. -/

namespace GameBundle

/-! ## Templates -/

/-- The number that stands for an object in a text. `text` is the whole text. -/
def objectToken (map : Option MapContext) (text name : String) : Except BuildError UInt16 :=
  match reservedNumber? s!"%{name}%" with
  | some index => .ok index
  | none =>
    let context := s!"string \"{text}\""
    match map with
    | some map => map.objectNumber name context
    | none => .error (.notFound context "object" name " outside of a map")

/-- The number that stands for a variable in a text. `text` is the whole text. -/
def variableToken (numbers : Ordered UInt16) (text name : String) : Except BuildError UInt16 :=
  match numbers.find? name with
  | some index => .ok index
  | none => .error (.notFound s!"string \"{text}\"" "variable" name "")

/-- Replace the tokens of a text, objects first. Numbers are put between doubled marks. -/
def templatize (map : Option MapContext) (numbers : Ordered UInt16) (text : String) :
    Except BuildError String := do
  let withObjects ← Text.replaceTokens '%'
    (fun name => do return s!"%%{← objectToken map text name}%%") text
  Text.replaceTokens '$'
    (fun name => do return s!"$${← variableToken numbers text name}$$") withObjects

/-! ## Storing -/

/-- The record of a text: its bytes and a zero byte behind them. -/
def encodeText (text : String) : Bytes := Bytes.pad (text.toUTF8.data.push 0)

/-- The number of variables a game can have. -/
def variableLimit : Nat := 255

/-- The number of a text in its pool. A text that is new gets a record. -/
def intern (pool : Pool) (map : Option MapContext) (text : String) : Step Project UInt16 := do
  let pools := (← get).pools
  let value ← templatize map pools.gameVariables text
  match (pools.get pool).find? value with
  | some index => return index
  | none =>
    if pool = .gameVariables ∧ variableLimit ≤ pools.gameVariables.size then
      reject (.tooManyVariables value)
    let index ← onTables (Tables.push pool.kind value (encodeText value))
    modify fun project => { project with pools := project.pools.put pool value index }
    return index

/-- The number of a text that belongs to the map being built. -/
def internOnMap (pool : Pool) (text : String) : Step MapState UInt16 := do
  let map := (← get).map
  onProject (intern pool (some map) text)

end GameBundle
