import GameBundle.Project.Tiled

set_option autoImplicit false

/-! # Definitions of a project

The hand-written files of a project: the manifest with its maps, and the scripts, dialogs, entity
types and portraits it points to. The order in which an author writes definitions down is the order
in which they are numbered, so every table of definitions is `Ordered`. -/

namespace GameBundle

open Json (Decoder Raw)
open Json.Decode

/-! ## Maps -/

/-- What the manifest says about a map. -/
structure MapSettings where
  path : Option String := none
  onLoad : Option String := none
  onTick : Option String := none
  onLook : Option String := none
  /-- The script of each direction in which the map can be left. -/
  directions : Ordered String := ∅
  deriving Inhabited

/-- A map is given by its settings or by its path alone. -/
def MapSettings.decode : Decoder MapSettings := whole fun depth raw =>
  match raw with
  | .string path => path.map fun path => { path := some path }
  | raw => do
    let m ← record? ["path", "on_load", "on_tick", "on_look", "directions"] depth raw
    return {
      path := ← m.optional "path" text
      onLoad := ← m.optional "on_load" text
      onTick := ← m.optional "on_tick" text
      onLook := ← m.optional "on_look" text
      directions := ← m.orElse "directions" (dictionary text) ∅ }

/-- The file a project starts from. -/
structure Manifest where
  maps : Ordered MapSettings
  scriptPaths : List String
  dialogPaths : List String
  serialDialogPaths : List String
  /-- The tileset of each dialog frame. -/
  dialogSkins : Ordered String
  deriving Inhabited

def Manifest.decode : Decoder Manifest := fun depth raw => do
  let m ← record?
    ["maps", "scriptPaths", "dialogPaths", "serialDialogPaths", "dialogSkins"] depth raw
  return {
    maps := ← m.orElse "maps" (dictionary MapSettings.decode) ∅
    scriptPaths := ← m.orElse "scriptPaths" (list text) []
    dialogPaths := ← m.orElse "dialogPaths" (list text) []
    serialDialogPaths := ← m.orElse "serialDialogPaths" (list text) []
    dialogSkins := ← m.orElse "dialogSkins" (dictionary text) ∅ }

/-! ## Scripts -/

/-- One instruction of a script: its name and whatever arguments it carries. -/
structure Action where
  name : String
  args : Ordered Json
  deriving Inhabited

/-- A list of instructions. -/
abbrev Script : Type := List Action

/-- All fields but the name are arguments, so all of them are read. -/
def Action.decode : Decoder Action := whole fun depth raw => do
  let m ← record? ["action"] depth raw
  let name ← m.required "action" text
  let args ← (m.fields.filter fun f => f.1 != "action").mapM fun ((key, value) : String × Raw) => do
    return (key, ← any m.depth value)
  return ⟨name, Ordered.ofList args⟩

/-! ## Dialogs -/

/-- An answer the player can give, and the script it runs. -/
structure Response where
  label : String
  script : String
  deriving Repr, Inhabited

def Response.decode : Decoder Response := fun depth raw => do
  let m ← record? ["label", "script"] depth raw
  return { label := ← m.required "label" text, script := ← m.required "script" text }

/-- A screen of a dialog. -/
structure Screen where
  name : Option String
  entity : Option String
  portrait : Option String
  borderTileset : Option String
  alignment : Option String
  responseType : Option String
  emote : Option UInt8
  messages : List String
  options : List Response
  deriving Repr, Inhabited

def Screen.decode : Decoder Screen := fun depth raw => do
  let m ← record?
    ["name", "entity", "portrait", "border_tileset", "alignment", "response_type", "emote",
      "messages", "options"] depth raw
  return {
    name := ← m.optional "name" text
    entity := ← m.optional "entity" text
    portrait := ← m.optional "portrait" text
    borderTileset := ← m.optional "border_tileset" text
    alignment := ← m.optional "alignment" text
    responseType := ← m.optional "response_type" text
    emote := ← m.optional "emote" u8
    messages := ← m.orElse "messages" (list text) []
    options := ← m.orElse "options" (list Response.decode) [] }

/-- A dialog on the serial console. -/
structure SerialDialog where
  messages : List String
  /-- Answers chosen by number. -/
  options : List Response
  /-- The script of each typed answer. -/
  textOptions : Option (Ordered String)
  deriving Inhabited

def SerialDialog.decode : Decoder SerialDialog := fun depth raw => do
  let m ← record? ["messages", "options", "text_options"] depth raw
  return {
    messages := ← m.orElse "messages" (list text) []
    options := ← m.orElse "options" (list Response.decode) []
    textOptions := ← m.optional "text_options" (dictionary text) }

/-! ## Entity types and portraits -/

/-- Mirroring and turning of a tile as one byte. -/
def renderFlags (flipX flipY flipDiagonal : Bool) : UInt8 :=
  (if flipX then 4 else 0) + (if flipY then 2 else 0) + (if flipDiagonal then 1 else 0)

/-- A tile as it is shown for one direction or emote. -/
structure TileView where
  tileId : UInt32
  flipX : Bool
  flipY : Bool
  flipDiagonal : Bool
  deriving Repr, Inhabited

/-- The flips of a view as one byte. -/
def TileView.renderFlags (v : TileView) : UInt8 :=
  GameBundle.renderFlags v.flipX v.flipY v.flipDiagonal

def TileView.decode : Decoder TileView := fun depth raw => do
  let m ← record? ["tileid", "flip_x", "flip_y", "flip_diag"] depth raw
  return {
    tileId := ← m.required "tileid" u32
    flipX := ← m.orElse "flip_x" flag false
    flipY := ← m.orElse "flip_y" flag false
    flipDiagonal := ← m.orElse "flip_diag" flag false }

/-- The looks of a type of entity. -/
structure EntityTypeDef where
  tileset : String
  /-- The views of each animation, one for each direction. -/
  animations : Ordered (List TileView)
  portrait : Option String
  deriving Inhabited

def EntityTypeDef.decode : Decoder EntityTypeDef := fun depth raw => do
  let m ← record? ["tileset", "animations", "portrait"] depth raw
  return {
    tileset := ← m.required "tileset" text
    animations := ← m.orElse "animations" (dictionary (list TileView.decode)) ∅
    portrait := ← m.optional "portrait" text }

/-- The faces of a speaker. -/
structure PortraitDef where
  tileset : String
  emotes : Ordered TileView
  deriving Inhabited

def PortraitDef.decode : Decoder PortraitDef := fun depth raw => do
  let m ← record? ["tileset", "emotes"] depth raw
  return {
    tileset := ← m.required "tileset" text
    emotes := ← m.orElse "emotes" (dictionary TileView.decode) ∅ }

/-- The default properties of a type of object. -/
structure ObjectTypeDef where
  name : String
  properties : List Tiled.Property
  deriving Repr, Inhabited

def ObjectTypeDef.decode : Decoder ObjectTypeDef := fun depth raw => do
  let m ← record? ["name", "properties"] depth raw
  return {
    name := ← m.required "name" text
    properties := ← m.orElse "properties" (list Tiled.Property.decode) [] }

/-! ## All definitions -/

/-- Everything that is defined by the files of a project, apart from maps and tilesets, which are
    read when they are needed. -/
structure Definitions where
  maps : Ordered MapSettings := ∅
  scripts : Ordered Script := ∅
  dialogs : Ordered (List Screen) := ∅
  serialDialogs : Ordered SerialDialog := ∅
  dialogSkins : Ordered String := ∅
  entityTypes : Ordered EntityTypeDef := ∅
  objectTypes : List ObjectTypeDef := []
  portraits : Ordered PortraitDef := ∅
  deriving Inhabited

end GameBundle
