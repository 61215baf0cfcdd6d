import GameBundle.Build.Tilesets

set_option autoImplicit false

/-! # Entities

An object that is drawn with a tile becomes an entity. Its properties are those of the object, laid
over those of the tile, laid over the prototype of its type. The record stores the few properties
the engine works with; scripts reach them by their offsets. -/

namespace GameBundle

/-! ## Global tile ids -/

/-- A tile of a tileset with the flips it is drawn with. -/
structure PlacedTile where
  tileset : Tileset
  tileIndex : UInt32
  flipX : Bool
  flipY : Bool
  flipDiagonal : Bool
  deriving Inhabited

/-- The flips of a tile as one byte. -/
def PlacedTile.renderFlags (t : PlacedTile) : UInt8 :=
  GameBundle.renderFlags t.flipX t.flipY t.flipDiagonal

/-- The bits of a global tile id that are not flips. -/
def tileIdMask : UInt32 := 0x1fffffff

/-- The tile a global id stands for. Each tileset of a map takes the ids from its first one up to
    the first one of the next tileset; the three highest bits of an id are flips. -/
def resolveTile (tilesets : List (UInt32 × Tileset)) (gid : UInt32) (context : String) :
    Except BuildError PlacedTile :=
  let id := gid &&& tileIdMask
  match (tilesets.takeWhile fun t => t.1 ≤ id).getLast? with
  | some (first, tileset) =>
    .ok {
      tileset
      tileIndex := id - first
      flipX := gid &&& 0x80000000 != 0
      flipY := gid &&& 0x40000000 != 0
      flipDiagonal := gid &&& 0x20000000 != 0 }
  | none => .error (.malformed context s!"tile gid {id} belongs to no tileset")

/-! ## Composition -/

/-- An entity with its properties put together. -/
structure Entity where
  properties : Properties
  tile : PlacedTile
  deriving Inhabited

namespace Entity

/-- The properties of an object by itself. -/
def ownProperties (object : Tiled.Object) : Except BuildError Properties :=
  let builtIn : Properties := Ordered.ofList
    [("name", .string object.name), ("type", .string object.kind), ("x", .ofFloat object.x),
      ("y", .ofFloat object.y)]
  Properties.merge s!"object {object.label}" builtIn object.properties

/-- Put the properties of an object, its tile and its type together. -/
def compose (types : Ordered EntityType) (object : Tiled.Object) (tile : PlacedTile) :
    Except BuildError Entity := do
  let own ← ownProperties object
  let tileProperties := ((tile.tileset.tile? tile.tileIndex).map Tile.properties).getD ∅
  let withTile := Properties.overlay [tileProperties, own]
  let prototype := ((withTile.text? "type" >>= types.find?).map EntityType.prototype).getD ∅
  return ⟨Properties.overlay [prototype, withTile], tile⟩

def isDebug (e : Entity) : Bool := e.properties.flag "is_debug"

def isPlayer (e : Entity) : Bool := e.properties.flag "is_player"

/-- The name of the entity's type. -/
def kind? (e : Entity) : Option String := e.properties.text? "type"

/-- The name, else the type, else nothing. -/
def label (e : Entity) : String := (e.properties.text? "name" <|> e.kind?).getD ""

/-- The id of the object whose outline the entity walks along, as the 32 bits that object ids
    have. -/
def path? (e : Entity) : Option UInt32 :=
  match e.properties.find? "path" >>= Json.asUnsigned? with
  | some id => if id = 0 then none else some (UInt32.ofNat id)
  | none => none

/-- The script that a property names. -/
def script? (e : Entity) (property : String) : Option String := e.properties.text? property

/-! ## Records -/

/-- The number under the first of some keys that has one, cut to a byte; zero if none has. -/
def byte (e : Entity) (keys : List String) : Except BuildError UInt8 :=
  match keys.findSome? fun key => (e.properties.float? key).map fun value => (key, value) with
  | none => .ok 0
  | some (key, value) =>
    let whole := Binary64.trunc value
    match whole.within 0xff with
    | some n => .ok (UInt8.ofNat n)
    | none => .error (.fieldOverflow s!"entity \"{e.label}\" {key}" whole.toSigned64 1)

/-- The place of a direction that shows the entity's tile. -/
def facing? (e : Entity) (views : List TileView) : Option Nat :=
  views.findIdx? fun v =>
    v.tileId == e.tile.tileIndex && v.flipX == e.tile.flipX && v.flipY == e.tile.flipY

/-- What an entity is drawn with. -/
inductive Look
  /-- A tile of a tileset. -/
  | tile (tileset index : UInt16)
  | animation (index : UInt16)
  /-- An entity type, facing in a direction. -/
  | type (index : UInt16) (direction : UInt8)
  deriving Repr, DecidableEq

/-- An entity of a known type is drawn as that type, facing in the first direction of any of its
    animations that shows the entity's tile. Any other is drawn with its animation or its tile. -/
def look (e : Entity) (types : Ordered EntityType) : Except BuildError Look :=
  match e.kind? >>= types.find?, e.tile.tileset.animation? e.tile.tileIndex with
  | some type, _ =>
    let direction := (type.looks.animations.values.findSome? e.facing?).getD 0
    .ok (.type type.index (UInt8.ofNat direction))
  | none, some animation => .ok (.animation animation)
  | none, none =>
    if e.tile.tileIndex.toNat < UInt16.size then
      .ok (.tile e.tile.tileset.index (UInt16.ofNat e.tile.tileIndex.toNat))
    else
      .error (.fieldOverflow s!"entity \"{e.label}\" tile index" e.tile.tileIndex.toNat 2)

/-- The number of the kind of look, then the first and the second number it is known by. -/
def Look.code : Look → UInt8 × UInt16 × UInt16
  | .tile tileset index => (0, tileset, index)
  | .animation index => (1, index, 0)
  | .type index _ => (2, index, 0)

/-- Direction or flips, and the flags that the properties add. -/
def flags (e : Entity) (l : Look) : UInt8 :=
  let low :=
    match l with
    | .type _ direction => direction
    | _ => e.tile.renderFlags
  let add := fun (flag : Bool) (bit : UInt8) (flags : UInt8) =>
    if flag then flags ||| bit else flags
  add (e.properties.flag "is_flipped_diagonal") 1 <|
    add e.isDebug 0x40 <| add (e.properties.flag "is_glitched") 0x80 low

/-- Where a record has its two scripts, and where a path takes the place of two of its states. -/
def interactOffset : Nat := 16

def tickOffset : Nat := 18

def pathOffset : Nat := 28

/-- A coordinate of the entity. -/
def position (e : Entity) (axis : String) : Except Failure UInt16 :=
  coordinate s!"entity \"{e.label}\" {axis}" ((e.properties.float? axis).getD (Float.ofBits 0))

/-- The record of an entity. Scripts come later; a path replaces the first two states. -/
def encode (e : Entity) (types : Ordered EntityType) (path : Option UInt16) :
    Except Failure Bytes := do
  let x ← e.position "x"
  let y ← e.position "y"
  let l ← (e.look types : Except BuildError Look)
  let (code, primary, secondary) := l.code
  let animation ← e.byte ["current_animation", "currentAnimation"]
  let frame ← e.byte ["current_frame"]
  let stateA ← e.byte ["hackable_state_a"]
  let stateB ← e.byte ["hackable_state_b"]
  let stateC ← e.byte ["hackable_state_c"]
  let stateD ← e.byte ["hackable_state_d"]
  let bytes ← Record.encode 32
    [.chars e.label 12, .word x, .word y, .word 0, .word 0, .word primary, .word secondary,
      .byte code, .byte animation, .byte frame, .byte (e.flags l), .byte stateA, .byte stateB,
      .byte stateC, .byte stateD]
  match path with
  | some path => bytes.patchWord pathOffset path
  | none => return bytes

end Entity

/-- Add the record of an entity. -/
def addEntity (e : Entity) (path : Option UInt16) : Step Project UInt16 := do
  let bytes ← e.encode (← get).entityTypes path
  onTables (Tables.push .entities e.label bytes)

end GameBundle
