import GameBundle.Build.Interning
import GameBundle.Build.Types
import GameBundle.Script.Keys
import GameBundle.Text.Case

set_option autoImplicit false

/-! # Dialogs

A dialog is built when an action first shows it, once for every map that does, because it refers to
entities and scripts of the map. A serial dialog is built once; its scripts belong to the map that
shows it first. The responses of a dialog run scripts, and those may show the dialog again: then the
record that was built first is used. -/

namespace GameBundle

/-! ## Keys -/

/-- What a dialog of a map is known by. -/
def dialogKey (map dialog : String) : String :=
  let short := fun (start text : String) =>
    String.ofList (Text.removeFirst start.toList text.toList)
  "map:" ++ short "map-" map ++ ",dialog:" ++ short "dialog-" dialog

/-- What a serial dialog is known by. -/
def serialDialogKey (name : String) : String :=
  String.ofList (Text.removeFirst "serial_dialog-".toList name.toList)

/-! ## Parts of a screen -/

/-- What is stored for a screen without an entity. -/
def noEntity : UInt8 := 255

/-- The dialog frame of screens that name none. -/
def defaultSkin : String := "default"

/-- The text if there is one with something in it. -/
def nonEmpty? (text : Option String) : Option String :=
  match text with
  | some text => if text.isEmpty then none else some text
  | none => none

/-- The number of the object that speaks. -/
def Screen.entityByte (s : Screen) (map : MapContext) (context : String) :
    Except BuildError UInt8 :=
  match nonEmpty? s.entity with
  | some entity => do byteOf s!"{context} entity" (← map.objectNumber entity context).toNat
  | none => .ok noEntity

/-- The number of the portrait. -/
def Screen.portraitByte (s : Screen) (portraits : Ordered UInt16) (context : String) :
    Except BuildError UInt8 :=
  match nonEmpty? s.portrait with
  | some portrait =>
    match portraits.find? portrait with
    | some index => byteOf s!"{context} portrait" index.toNat
    | none => .error (.notFound context "portrait" portrait "")
  | none => .ok noPortrait

/-- The tileset of the frame. -/
def Screen.border (s : Screen) (skins : Ordered UInt16) (context : String) :
    Except BuildError UInt16 :=
  let skin := s.borderTileset.getD defaultSkin
  match skins.find? skin with
  | some tileset => .ok tileset
  | none => .error (.notFound context "dialog skin" skin "")

/-- The code of a word that may be missing. -/
def wordCode (keys : Keys) (word : Option String) (context property : String) :
    Except BuildError UInt8 :=
  match word with
  | none => .ok 0
  | some word =>
    match keys.code? word with
    | some code => .ok code
    | none => .error (.unknownKey context property s!"\"{word}\"" keys.listing)

/-- The fields of a screen before its messages, apart from the name. -/
def Screen.fixedFields (s : Screen) (map : MapContext) (project : Project) (context : String) :
    Except BuildError (List Field) := do
  let entity ← s.entityByte map context
  let portrait ← s.portraitByte project.portraits context
  let border ← s.border project.dialogSkins context
  let alignment ← wordCode Keys.alignment s.alignment context "alignment"
  let responseType ← wordCode Keys.responseType s.responseType context "response_type"
  let messages ← byteOf s!"{context} message count" s.messages.length
  let responses ← byteOf s!"{context} response count" s.options.length
  return [.word border, .byte alignment, .byte 0, .byte messages, .byte responseType,
    .byte responses, .byte entity, .byte portrait, .byte (s.emote.getD 0)]

/-- The name over a screen: its own, else that of its entity. -/
def Screen.title (s : Screen) : String := (nonEmpty? s.name <|> s.entity).getD ""

/-! ## Building -/

/-- The fields of a response: its text and its script. -/
def buildResponse (compile : String → Step MapState UInt16) (r : Response) :
    Step MapState (List Field) := do
  let label ← internOnMap .strings r.label
  let script ← compile r.script
  return [.word label, .word script]

/-- The record of a screen. -/
def buildScreen (compile : String → Step MapState UInt16) (s : Screen) (context : String) :
    Step MapState Bytes := do
  let state ← get
  let fixed ← (s.fixedFields state.map state.project context : Except Failure (List Field))
  let title ← internOnMap .strings s.title
  let messages ← s.messages.mapM (internOnMap .strings)
  let responses ← s.options.mapM (buildResponse compile)
  Record.encode (12 + 2 * s.messages.length + 4 * s.options.length) <|
    [.word title] ++ fixed ++ messages.map (fun id => .word id) ++ responses.flatten

/-- Use the record of a key if there is one, else add it and remember it. -/
def addOnce (kind : Kind) (find? : Project → Option UInt16) (record : String) (bytes : Bytes)
    (remember : UInt16 → Project → Project) : Step Project UInt16 := do
  match find? (← get) with
  | some index => return index
  | none =>
    let index ← onTables (Tables.push kind record bytes)
    modify (remember index)
    return index

/-- The record of a dialog on the map. `compile` compiles the script of a response. -/
def buildDialog (input : Input) (compile : String → Step MapState UInt16) (name context : String) :
    Step MapState UInt16 := do
  let key := dialogKey (← get).map.name name
  match (← get).project.dialogs.find? key with
  | some index => return index
  | none =>
    let screens ←
      orReject (input.definitions.dialogs.find? name) (.notFound context "dialog" name "")
    if screens.isEmpty then
      reject (.emptyDialog name)
    match screens.findIdx? fun s => s.messages.isEmpty with
    | some screen => reject (.emptyDialogScreen name screen)
    | none => pure ()
    let header ← Record.encode 36 [.chars key 32, .long (UInt32.ofNat screens.length)]
    let bodies ← screens.zipIdx.mapM fun (screen, i) =>
      buildScreen compile screen s!"dialog \"{name}\" screen {i}"
    onProject <| addOnce .dialogs (·.dialogs.find? key) key (bodies.foldl (· ++ ·) header)
      fun index project => { project with dialogs := project.dialogs.put key index }

/-- How a serial dialog is answered. -/
inductive SerialAnswers
  | none
  /-- By number. -/
  | numbered (options : List Response)
  /-- By typing a word, in letters of either case. -/
  | typed (options : List Response)
  deriving Repr

/-- The number of a way to answer. -/
def SerialAnswers.code : SerialAnswers → UInt8
  | none => 0
  | numbered _ => 1
  | typed _ => 2

def SerialAnswers.responses : SerialAnswers → List Response
  | none => []
  | numbered options => options
  | typed options => options

/-- How a serial dialog is answered. Typed answers are kept in small letters. -/
def SerialDialog.answers (d : SerialDialog) : SerialAnswers :=
  match (d.textOptions.getD ∅).entries with
  | [] => if d.options.isEmpty then .none else .numbered d.options
  | options => .typed (options.map fun (label, script) => ⟨Text.lowercase label, script⟩)

/-- The number of responses is stored in one byte. -/
def responseLimit : Nat := 255

/-- The record of a serial dialog. `compile` compiles the script of a response. -/
def buildSerialDialog (input : Input) (compile : String → Step MapState UInt16)
    (name context : String) : Step MapState UInt16 := do
  match (← get).project.serialDialogs.find? name with
  | some index => return index
  | none =>
    let dialog ← orReject (input.definitions.serialDialogs.find? name)
      (.notFound context "serial dialog" name "")
    if dialog.messages.isEmpty then
      reject (.emptySerialDialog name)
    if !dialog.options.isEmpty && dialog.textOptions.isSome then
      reject (.conflictingSerialOptions name)
    let answers := dialog.answers
    let count := answers.responses.length
    if responseLimit < count then
      reject (.tooManyResponses name count)
    let message ← internOnMap .strings ("\n".intercalate dialog.messages)
    let responses ← answers.responses.mapM (buildResponse compile)
    let key := serialDialogKey name
    let bytes ← Record.encode (36 + 4 * count) <|
      [.chars key 32, .word message, .byte answers.code, .byte (UInt8.ofNat count)] ++
        responses.flatten
    onProject <| addOnce .serialDialogs (·.serialDialogs.find? name) key bytes
      fun index project => { project with serialDialogs := project.serialDialogs.put name index }

end GameBundle
