import GameBundle.Json.Decode

set_option autoImplicit false

/-! # Maps and tilesets of the Tiled editor

The parts of the exported JSON files that a build looks at. Sizes, tile ids and durations are
unsigned 32-bit integers, positions are doubles. Newer versions of the editor call the type of an
object or tile its class; either name is read, but not both at once. -/

namespace GameBundle.Tiled

open Json (Decoder Raw)
open Json.Decode

/-- `class` is another name of the field `type`. -/
def classIsType (name : String) : String := if name = "class" then "type" else name

/-! ## Properties -/

/-- A property that the author added, with the type chosen in the editor. -/
structure Property where
  name : String
  kind : String
  value : Json
  deriving Repr, Inhabited

def Property.decode : Decoder Property := fun depth raw => do
  let m ← record? ["name", "type", "value"] depth raw
  return {
    name := ← m.required "name" text
    kind := ← m.orElse "type" text "string"
    value := ← m.orElse "value" any .null }

/-! ## Objects -/

/-- A vertex relative to the position of its object. -/
structure Point where
  x : Float
  y : Float
  deriving Repr, Inhabited

def Point.decode : Decoder Point := fun depth raw => do
  let m ← record? ["x", "y"] depth raw
  return { x := ← m.required "x" real, y := ← m.required "y" real }

/-- A shape or a tile placed on a map, or a shape drawn on a tile. An object with a global tile id
    is drawn with that tile. -/
structure Object where
  id : UInt32
  name : String
  kind : String
  x : Float
  y : Float
  width : Float
  height : Float
  rotation : Float
  gid : Option UInt32
  point : Bool
  ellipse : Bool
  polygon : Option (List Point)
  polyline : Option (List Point)
  properties : List Property
  deriving Repr, Inhabited

/-- How messages refer to an object. -/
def Object.label (o : Object) : String :=
  if o.name.isEmpty then s!"#{o.id}" else s!"\"{o.name}\" (#{o.id})"

/-- The text of a text box is read like all known fields, and then dropped. -/
def Object.decode : Decoder Object := fun depth raw => do
  let m ← members?
    ["id", "name", "type", "x", "y", "width", "height", "rotation", "gid", "point", "ellipse",
      "polygon", "polyline", "text", "properties"] classIsType depth raw
  let zero := Float.ofBits 0
  let _ ← m.optional "text" any
  return {
    id := ← m.orElse "id" u32 0
    name := ← m.orElse "name" text ""
    kind := ← m.orElse "type" text ""
    x := ← m.orElse "x" real zero
    y := ← m.orElse "y" real zero
    width := ← m.orElse "width" real zero
    height := ← m.orElse "height" real zero
    rotation := ← m.orElse "rotation" real zero
    gid := ← m.optional "gid" u32
    point := ← m.orElse "point" flag false
    ellipse := ← m.orElse "ellipse" flag false
    polygon := ← m.optional "polygon" (list Point.decode)
    polyline := ← m.optional "polyline" (list Point.decode)
    properties := ← m.orElse "properties" (list Property.decode) [] }

/-! ## Maps -/

/-- A tileset used by a map, with the global id of its first tile. -/
structure TilesetRef where
  firstGid : UInt32
  source : String
  deriving Repr, Inhabited

def TilesetRef.decode : Decoder TilesetRef := fun depth raw => do
  let m ← record? ["firstgid", "source"] depth raw
  return { firstGid := ← m.required "firstgid" u32, source := ← m.required "source" text }

/-- A layer of a map. -/
inductive Layer
  /-- Global tile ids, row after row; zero is an empty cell. -/
  | tiles (name : String) (cells : List UInt32)
  | objects (name : String) (objects : List Object)
  /-- A layer of any other type carries nothing for the engine. -/
  | other
  deriving Repr, Inhabited

/-- The type decides how a layer is read, so the layer is read completely before it is decoded. -/
def Layer.decode : Decoder Layer := whole fun depth raw => do
  let m ← record? ["type"] depth raw
  match ← m.required "type" text with
  | "tilelayer" =>
    let m ← record? ["name", "data"] depth raw
    return .tiles (← m.orElse "name" text "") (← m.orElse "data" (list u32) [])
  | "objectgroup" =>
    let m ← record? ["name", "objects"] depth raw
    return .objects (← m.orElse "name" text "") (← m.orElse "objects" (list Object.decode) [])
  | _ => return .other

/-- A map: its size in tiles, the size of a tile in pixels, and its contents. -/
structure Map where
  width : UInt32
  height : UInt32
  tileWidth : UInt32
  tileHeight : UInt32
  layers : List Layer
  tilesets : List TilesetRef
  properties : List Property
  deriving Repr, Inhabited

def Map.decode : Decoder Map := fun depth raw => do
  let m ← record?
    ["width", "height", "tilewidth", "tileheight", "layers", "tilesets", "properties"] depth raw
  return {
    width := ← m.required "width" u32
    height := ← m.required "height" u32
    tileWidth := ← m.required "tilewidth" u32
    tileHeight := ← m.required "tileheight" u32
    layers := ← m.orElse "layers" (list Layer.decode) []
    tilesets := ← m.orElse "tilesets" (list TilesetRef.decode) []
    properties := ← m.orElse "properties" (list Property.decode) [] }

/-- The objects of all object layers, in the order of the layers. -/
def Map.objects (map : Map) : List Object :=
  map.layers.flatMap fun
    | .objects _ objects => objects
    | _ => []

/-- The names and cells of the tile layers, in order. -/
def Map.tileLayers (map : Map) : List (String × List UInt32) :=
  map.layers.filterMap fun
    | .tiles name cells => some (name, cells)
    | _ => none

/-! ## Tilesets -/

/-- One step of a tile animation. -/
structure Frame where
  tileId : UInt32
  duration : UInt32
  deriving Repr, Inhabited

def Frame.decode : Decoder Frame := fun depth raw => do
  let m ← record? ["tileid", "duration"] depth raw
  return { tileId := ← m.required "tileid" u32, duration := ← m.required "duration" u32 }

/-- What a tileset says about one of its tiles. -/
structure TileDef where
  id : UInt32
  kind : String
  properties : List Property
  animation : Option (List Frame)
  /-- The shapes drawn on the tile, if it has a group for them. -/
  shapes : Option (List Object)
  deriving Repr, Inhabited

/-- The group of shapes of a tile. -/
def shapeGroup : Decoder (List Object) := fun depth raw => do
  let m ← record? ["objects"] depth raw
  m.orElse "objects" (list Object.decode) []

def TileDef.decode : Decoder TileDef := fun depth raw => do
  let m ← members? ["id", "type", "properties", "animation", "objectgroup"] classIsType depth raw
  return {
    id := ← m.required "id" u32
    kind := ← m.orElse "type" text ""
    properties := ← m.orElse "properties" (list Property.decode) []
    animation := ← m.optional "animation" (list Frame.decode)
    shapes := ← m.optional "objectgroup" shapeGroup }

/-- A tileset: how its image is cut into tiles, and what is known about them. -/
structure TilesetFile where
  tileWidth : UInt32
  tileHeight : UInt32
  tileCount : UInt32
  columns : UInt32
  image : String
  imageWidth : UInt32
  imageHeight : UInt32
  tiles : List TileDef
  deriving Repr, Inhabited

def TilesetFile.decode : Decoder TilesetFile := fun depth raw => do
  let m ← record?
    ["tilewidth", "tileheight", "tilecount", "columns", "image", "imagewidth", "imageheight",
      "tiles"] depth raw
  return {
    tileWidth := ← m.required "tilewidth" u32
    tileHeight := ← m.required "tileheight" u32
    tileCount := ← m.required "tilecount" u32
    columns := ← m.required "columns" u32
    image := ← m.required "image" text
    imageWidth := ← m.required "imagewidth" u32
    imageHeight := ← m.required "imageheight" u32
    tiles := ← m.orElse "tiles" (list TileDef.decode) [] }

end GameBundle.Tiled
