import GameBundle.Build.State
import GameBundle.Picture.Quantize
import GameBundle.Shape.Outline

set_option autoImplicit false

/-! # Tilesets and their images

A tileset is loaded when something first asks for it, and so is its image. The record of a tileset
says how its picture is cut, and for each tile which outline is drawn on it. Tile animations are
records of their own. A load that fails leaves its claimed records empty, so the bundle cannot be
completed afterwards. -/

namespace GameBundle

open Tiled (TilesetFile TileDef)

/-! ## Images -/

/-- The image record of a file, whatever folders its path mentions. The first tileset to ask for an
    image decides how it is cut. -/
def loadImage (input : Input) (path : String) (layout : TileLayout) : Step Project UInt16 := do
  let file := Text.baseName path
  match (← get).images.find? file with
  | some index => return index
  | none =>
    let index ← onTables (Tables.reserve .images file)
    let palette ← onTables (Tables.reserve .palettes file)
    modify fun project => { project with images := project.images.put file index }
    let image ← (input.source.image file : Except Failure Raster)
    let picture ← quantize image layout file
    let colors ← encodePalette file picture.palette.toList
    onTables (Tables.fill .palettes palette colors)
    onTables (Tables.fill .images index (Bytes.pad picture.pixels))
    return index

/-! ## Tiles -/

/-- The record of an animation: its tileset and how long each tile is shown. -/
def encodeAnimation (tileset : UInt16) (frames : List Tiled.Frame) (context : String) :
    Except Failure Bytes :=
  Record.encode (4 + 4 * frames.length) <|
    [.word tileset, .number (frames.length % UInt32.size) 2 s!"{context} frame count"] ++
      frames.flatMap fun frame =>
        [.number frame.tileId.toNat 2 s!"{context} frame tile",
          .number frame.duration.toNat 2 s!"{context} frame duration"]

/-- The properties of a tile, laid over the prototype of its type. -/
def tileProperties (project : Project) (tile : TileDef) (context : String) :
    Except BuildError Properties := do
  let named : Properties :=
    if tile.kind.isEmpty then ∅ else Ordered.empty.put "type" (.string tile.kind)
  let own ← Properties.merge context named tile.properties
  let prototype := ((project.entityTypes.find? tile.kind).map EntityType.prototype).getD ∅
  return Properties.overlay [prototype, own]

/-- The word that stands for an outline in a tileset: its number plus one, since zero means none. -/
def outlineWord (context : String) (index : UInt16) : Except BuildError UInt16 :=
  if index.toNat + 1 < UInt16.size then .ok (index + 1)
  else .error (.fieldOverflow context (index.toNat + 1) 2)

/-- Add the record of an object's outline. -/
def addOutline (object : Tiled.Object) : Step Project UInt16 := do
  let bytes ← Outline.encodeObject object
  onTables (Tables.push .geometry object.name bytes)

/-- The word of the outline drawn on a tile, if there is one. -/
def loadShape (file : TilesetFile) (tile : TileDef) (context : String) :
    Step Project (Option UInt16) := do
  match tile.shapes with
  | none | some [] => return none
  | some [object] =>
    if file.tileCount ≤ tile.id then
      reject (.malformed context "tile id is outside the tileset")
    let index ← addOutline object
    let word ← (outlineWord context index : Except Failure UInt16)
    return some word
  | some _ => reject (.malformed context "has more than one geometry on a single tile")

/-- The animation record of a tile, if it has frames. -/
def loadAnimation (tileset : UInt16) (tile : TileDef) (context : String) :
    Step Project (Option UInt16) := do
  match tile.animation with
  | none | some [] => return none
  | some frames =>
    let bytes ← encodeAnimation tileset frames context
    let index ← onTables (Tables.push .animations context bytes)
    return some index

/-- What a build learns from the definition of a tile, and the word of its outline. -/
def loadTile (file : TilesetFile) (tileset : UInt16) (context : String) (tile : TileDef) :
    Step Project (Tile × Option UInt16) := do
  let context := s!"{context} tile {tile.id}"
  let properties ← (tileProperties (← get) tile context : Except Failure Properties)
  let shape ← loadShape file tile context
  let animation ← loadAnimation tileset tile context
  return (⟨properties, animation⟩, shape)

/-! ## Records -/

/-- A product that has to fit 32 bits. -/
def product32 (a b : Nat) : Except Failure Nat :=
  if a * b < UInt32.size then .ok (a * b) else .error .overrun

/-- The header of a tileset. The tiles form one column, so the picture is one tile wide and as many
    tiles high as the image has. -/
def encodeTilesetHeader (file : TilesetFile) (name context : String) (image : UInt16) :
    Except Failure Bytes := do
  let tiles ← product32 (file.imageHeight.toNat / file.tileHeight.toNat) file.columns.toNat
  let w ← (Writer.new 30).writeAll
    [.chars name 16, .word image, .number file.tileWidth.toNat 2 s!"{context} image width"]
  let height ← product32 tiles file.tileHeight.toNat
  let w ← w.writeAll
    [.number height 2 s!"{context} image height",
      .number file.tileWidth.toNat 2 s!"{context} tile width",
      .number file.tileHeight.toNat 2 s!"{context} tile height",
      .word 1,
      .number tiles 2 s!"{context} rows"]
  return w.buffer

/-- The outlines of all tiles, zero for tiles without one. -/
def encodeShapes (tileCount : Nat) (shapes : List (UInt32 × UInt16)) : Except Failure Bytes :=
  shapes.foldlM (fun bytes (id, word) => bytes.patchWord (2 * id.toNat) word)
    (Array.replicate (paddedLength (2 * tileCount)) 0)

/-! ## Loading -/

/-- Load the tileset at a path, or return it if it has been loaded. -/
def loadTileset (input : Input) (path : String) : Step Project Tileset := do
  let fileName := Text.baseName path
  match (← get).tilesets.find? fileName with
  | some tileset => return tileset
  | none =>
    let file ← (readJson input.source TilesetFile.decode fileName : Except Failure TilesetFile)
    let name := Text.stem fileName
    let context := s!"tileset \"{fileName}\""
    if file.tileWidth = 0 ∨ file.tileHeight = 0 then
      reject (.malformed context "tile width and height must be greater than zero")
    let index ← onTables (Tables.reserve .tilesets name)
    let loaded ← file.tiles.mapM fun tile => do return (tile.id, ← loadTile file index context tile)
    let layout : TileLayout :=
      ⟨file.tileWidth.toNat, file.tileHeight.toNat, file.columns.toNat⟩
    let image ← loadImage input file.image layout
    let header ← encodeTilesetHeader file name context image
    let shapes ← encodeShapes file.tileCount.toNat <|
      loaded.filterMap fun (id, _, shape) => shape.map fun word => (id, word)
    onTables (Tables.fill .tilesets index (header ++ shapes))
    let tiles := loaded.foldl (fun tiles (id, tile, _) => putEntry id tile tiles) []
    let tileset : Tileset := ⟨name, index, file.tileCount, tiles⟩
    modify fun project => { project with tilesets := project.tilesets.put fileName tileset }
    return tileset

end GameBundle
