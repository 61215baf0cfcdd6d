import GameBundle.Build.Tilesets

set_option autoImplicit false

/-! # Entity types and portraits

An entity type is a tileset with animations, each seen from four directions; a portrait is a tileset
with a tile for each emote. Both refer to tiles in four bytes: an animation and zero if the tile is
animated, else the tile and its tileset plus one. -/

namespace GameBundle

/-! ## Prototypes -/

/-- The properties of a type that the editor's list of types does not have. -/
def defaultPrototype : List (String × Json) :=
  [("hackable_state_a", .ofInt 0), ("hackable_state_b", .ofInt 0), ("hackable_state_c", .ofInt 0),
    ("hackable_state_d", .ofInt 0), ("is_glitched", .bool false), ("is_player", .bool false),
    ("on_interact", .string ""), ("on_tick", .string ""), ("path", .null)]

/-- The properties that entities of a type start from. -/
def prototypeOf (types : List ObjectTypeDef) (name : String) : Except BuildError Properties :=
  let named : Properties := Ordered.empty.put "type" (.string name)
  match types.find? (·.name == name) with
  | some type => Properties.merge s!"object type \"{name}\"" named type.properties
  | none => .ok (named.putAll defaultPrototype)

/-- Claim a record for an entity type and work out its prototype. -/
def buildPrototype (types : List ObjectTypeDef) (name : String) (looks : EntityTypeDef) :
    Step Project Unit := do
  let prototype ← (prototypeOf types name : Except Failure Properties)
  let index ← onTables (Tables.reserve .entityTypes name)
  modify fun project =>
    { project with entityTypes := project.entityTypes.put name ⟨index, prototype, looks⟩ }

/-- Claim a record for every entity type. This comes before any tileset is loaded, because tiles
    inherit from prototypes. -/
def buildPrototypes (input : Input) : Step Project Unit :=
  input.definitions.entityTypes.entries.forM fun (name, looks) =>
    buildPrototype input.definitions.objectTypes name looks

/-! ## Tiles seen from a direction -/

/-- The fields that refer to a tile. -/
def directionFields (tileset : Tileset) (view : TileView) (context : String) : List Field :=
  let (id, source) :=
    match tileset.animation? view.tileId with
    | some animation => (animation.toNat, 0)
    | none => (view.tileId.toNat, tileset.index.toNat + 1)
  [.number id 2 s!"{context} tile id", .number source 1 s!"{context} tileset index",
    .byte view.renderFlags]

/-- The reference to a tile by itself. -/
def encodeDirection (tileset : Tileset) (view : TileView) (context : String) :
    Except Failure Bytes :=
  Record.encode 4 (directionFields tileset view context)

/-- A number that has to fit one byte. -/
def byteOf (context : String) (value : Nat) : Except BuildError UInt8 :=
  if value < UInt8.size then .ok (UInt8.ofNat value) else .error (.fieldOverflow context value 1)

/-! ## Portraits -/

/-- The record of a portrait. -/
def encodePortrait (name : String) (portrait : PortraitDef) (tileset : Tileset) :
    Except Failure Bytes := do
  let context := s!"portrait \"{name}\""
  let count ← byteOf s!"{context} emote count" portrait.emotes.size
  Record.encode (36 + 4 * portrait.emotes.size) <|
    [.chars name 32, .gap 3, .byte count] ++
      portrait.emotes.entries.flatMap fun (emote, view) =>
        directionFields tileset view s!"{context} emote \"{emote}\""

/-- Build one portrait. -/
def buildPortrait (input : Input) (name : String) (portrait : PortraitDef) :
    Step Project Unit := do
  let index ← onTables (Tables.reserve .portraits name)
  modify fun project => { project with portraits := project.portraits.put name index }
  let tileset ← loadTileset input portrait.tileset
  let bytes ← encodePortrait name portrait tileset
  onTables (Tables.fill .portraits index bytes)

/-- Build all portraits. -/
def buildPortraits (input : Input) : Step Project Unit :=
  input.definitions.portraits.entries.forM fun (name, portrait) => buildPortrait input name portrait

/-! ## Entity types -/

/-- What is stored for an entity type without a portrait. -/
def noPortrait : UInt8 := 255

/-- The portrait of an entity type: the one it names, else the one with its own name. -/
def portraitByte (portraits : Ordered UInt16) (name : String) (looks : EntityTypeDef)
    (context : String) : Except BuildError UInt8 :=
  match portraits.find? (looks.portrait.getD name), looks.portrait with
  | some index, _ => byteOf s!"{context} portrait" index.toNat
  | none, some portrait => .error (.notFound context "portrait" portrait "")
  | none, none => .ok noPortrait

/-- The views of an animation, one for each direction. -/
def directionCount : Nat := 4

/-- The fields of one animation, which has to have a view for each direction. -/
def animationFields (tileset : Tileset) (context name : String) (views : List TileView) :
    Except BuildError (List Field) :=
  if views.length ≠ directionCount then
    .error (.malformed context
      s!"animation \"{name}\" has {views.length} directions, expected {directionCount}")
  else
    .ok <| views.zipIdx.flatMap fun (view, i) =>
      directionFields tileset view s!"{context} animation \"{name}\" direction {i}"

/-- Write the animations of an entity type one after the other. -/
def writeAnimations (tileset : Tileset) (context : String) (w : Writer) :
    List (String × List TileView) → Except Failure Writer
  | [] => .ok w
  | (name, views) :: rest => do
    let fields ← (animationFields tileset context name views : Except BuildError (List Field))
    writeAnimations tileset context (← w.writeAll fields) rest

/-- The record of an entity type. -/
def encodeEntityType (portraits : Ordered UInt16) (name : String) (looks : EntityTypeDef)
    (tileset : Tileset) : Except Failure Bytes := do
  let context := s!"entity type \"{name}\""
  let portrait ← portraitByte portraits name looks context
  let count ← byteOf s!"{context} animation count" looks.animations.size
  let w ← (Writer.new (36 + looks.animations.size * directionCount * 4)).writeAll
    [.chars name 32, .gap 2, .byte portrait, .byte count]
  let w ← writeAnimations tileset context w looks.animations.entries
  return w.buffer

/-- Build one entity type. -/
def buildEntityType (input : Input) (name : String) (type : EntityType) : Step Project Unit := do
  let tileset ← loadTileset input type.looks.tileset
  let bytes ← encodeEntityType (← get).portraits name type.looks tileset
  onTables (Tables.fill .entityTypes type.index bytes)

/-- Build all entity types. -/
def buildEntityTypes (input : Input) : Step Project Unit := do
  (← get).entityTypes.entries.forM fun (name, type) => buildEntityType input name type

/-! ## Dialog frames -/

/-- Load the tileset of every dialog frame. -/
def loadDialogSkins (input : Input) : Step Project Unit :=
  input.definitions.dialogSkins.entries.forM fun (name, path) => do
    let tileset ← loadTileset input path
    modify fun project => { project with dialogSkins := project.dialogSkins.put name tileset.index }

end GameBundle
