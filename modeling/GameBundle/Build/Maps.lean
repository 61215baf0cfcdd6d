import GameBundle.Build.Entities
import GameBundle.Build.Scripts

set_option autoImplicit false

/-! # Maps

A map is built in one go: its tilesets, its tile layers, its outlines, its entities, and then every
script that the map or anything on it refers to. Entities come in the order of the layers, except
that those for debugging come last. -/

namespace GameBundle

/-! ## Tile layers -/

/-- The bytes of one cell: the tile plus one, the tileset and the flips; zero for an empty cell. -/
def encodeCell (tilesets : List (UInt32 × Tileset)) (context : String) (gid : UInt32) :
    Except BuildError (List UInt8) :=
  if gid = 0 then .ok [0, 0, 0, 0]
  else do
    let tile ← resolveTile tilesets gid context
    let index := tile.tileIndex.toNat + 1
    if 0xffff < index then
      .error (.fieldOverflow s!"{context} tile index" index 2)
    let tileset ← byteOf s!"{context} tileset index" tile.tileset.index.toNat
    return ByteOrder.data.word (UInt16.ofNat index) ++ [tileset, tile.renderFlags]

/-- The bytes of a tile layer, which has to have a cell for every place of the map. -/
def encodeLayer (map : Tiled.Map) (tilesets : List (UInt32 × Tileset)) (context name : String)
    (cells : List UInt32) : Except BuildError Bytes := do
  let context := s!"{context} layer \"{name}\""
  let count := map.width.toNat * map.height.toNat
  if cells.length ≠ count then
    .error (.malformed context
      s!"has {cells.length} cells, expected {map.width} x {map.height} = {count}")
  return (← cells.mapM (encodeCell tilesets context)).flatten.toArray

/-- The bytes of the tile layers of a map, in order. -/
def encodeLayers (map : Tiled.Map) (tilesets : List (UInt32 × Tileset)) (context : String) :
    Except BuildError (List Bytes) :=
  map.tileLayers.mapM fun (name, cells) => encodeLayer map tilesets context name cells

/-! ## Objects -/

/-- The number of entities a map can have. -/
def entityLimit : Nat := 64

/-- Refuse turned objects and too many entities. -/
def checkObjects (map : String) (objects : List Tiled.Object) : Except BuildError Unit := do
  match objects.find? fun o => !(o.rotation == Float.ofBits 0) with
  | some rotated => .error (.rotatedObject map rotated.label)
  | none => pure ()
  let count := objects.countP fun o => o.gid.isSome
  if entityLimit < count then
    .error (.tooManyEntities map count entityLimit)

/-- Add the outlines of the objects without a tile, each at its place among all objects. -/
def placeOutlines (objects : List Tiled.Object) : Step MapState (List (Option ObjectSlot)) :=
  objects.mapM fun object => do
    if object.gid.isSome then return none
    let global ← onProject (addOutline object)
    let number := UInt16.ofNat (← get).map.geometry.size
    changeMap fun map => { map with geometry := map.geometry.push global }
    return some (.geometry number)

/-- Compose the entities, each with its place among all objects. -/
def composeEntities (types : Ordered EntityType) (tilesets : List (UInt32 × Tileset)) (map : String)
    (objects : List Tiled.Object) : Except BuildError (List (Nat × Entity)) := do
  let composed ← objects.zipIdx.mapM fun ((object, place) : Tiled.Object × Nat) => do
    match object.gid with
    | none => return none
    | some gid =>
      let tile ← resolveTile tilesets gid s!"map \"{map}\" object {object.label}"
      return some (place, ← Entity.compose types object tile)
  return composed.filterMap id

/-- Entities for debugging go behind the others. -/
def debugLast (entities : List (Nat × Entity)) : List (Nat × Entity) :=
  entities.filter (!·.2.isDebug) ++ entities.filter (·.2.isDebug)

/-- The outline an entity walks along, which has to be on the map. -/
def pathOf (map : MapContext) (e : Entity) : Except BuildError (Option UInt16) :=
  match e.path? with
  | none => .ok none
  | some id =>
    match map.geometryOfId? id with
    | some index => .ok (some index)
    | none =>
      .error (.notFound s!"entity \"{e.label}\" path" "geometry" s!"#{id}" map.scope)

/-- Add one entity. Only one on a map can be the player; `earlier` are the entities added before. -/
def placeEntity (earlier : List (UInt16 × Entity)) (e : Entity) : Step MapState UInt16 := do
  let map := (← get).map
  let path ← (pathOf map e : Except Failure (Option UInt16))
  let global ← onProject (addEntity e path)
  let number := UInt16.ofNat map.entities.size
  changeMap fun map => { map with entities := map.entities.push global }
  if e.isPlayer then
    match map.player with
    | some player =>
      let first := (earlier[player.toNat]?.map fun e => e.2.label).getD ""
      reject (.multiplePlayers map.name first e.label)
    | none => changeMap fun map => { map with player := some number }
  return global

/-- Add the entities in order and return them with their records. -/
def placeEntities (entities : List (Nat × Entity)) : Step MapState (List (UInt16 × Entity)) :=
  entities.foldlM (fun placed (_, e) => do
    let global ← placeEntity placed e
    return placed ++ [(global, e)]) []

/-- List the objects that have a slot on the map, in the order of the layers. -/
def listObjects (objects : List Tiled.Object) (slots : List (Option ObjectSlot))
    (map : MapContext) : MapContext :=
  (objects.zip slots).foldl (fun map (object, slot) =>
    match slot with
    | some slot => map.addObject object.id object.name slot
    | none => map) map

/-- Outlines can be found by id while entities are added, and all objects by name after that.
    Returns the entities in local order with their records. -/
def placeObjects (tiled : Tiled.Map) (tilesets : List (UInt32 × Tileset)) :
    Step MapState (List (UInt16 × Entity)) := do
  let objects := tiled.objects
  let name := (← get).map.name
  (checkObjects name objects : Except Failure Unit)
  let outlines ← placeOutlines objects
  changeMap (listObjects objects outlines)
  let types := (← get).project.entityTypes
  let composed ←
    (composeEntities types tilesets name objects : Except Failure (List (Nat × Entity)))
  let entities := debugLast composed
  let placed ← placeEntities entities
  let numbers := entities.zipIdx.map fun ((place, _), i) =>
    (place, ObjectSlot.entity (UInt16.ofNat i))
  let slots := outlines.zipIdx.map fun (slot, place) => slot <|> numbers.lookup place
  changeMap fun map => listObjects objects slots { map with objects := #[] }
  return placed

/-! ## Scripts of a map -/

/-- The events of a map that run a script, in the order of the record. -/
def mapEvents : List String := ["on_load", "on_tick", "on_look"]

/-- The scripts that the map file and the manifest give for the events of a map. An event that has
    one in both is refused. -/
def eventScripts (tiled : Tiled.Map) (settings : MapSettings) (map : String) :
    Except BuildError (List (String × String)) := do
  let ofFile := tiled.properties.filterMap fun p =>
    if p.name ∈ mapEvents then (nonEmpty? p.value.asString?).map fun script => (p.name, script)
    else none
  let ofManifest := (mapEvents.zip [settings.onLoad, settings.onTick, settings.onLook]).filterMap
    fun (event, script) => (nonEmpty? script).map fun script => (event, script)
  match ofManifest.find? fun e => ofFile.any fun f => f.1 == e.1 with
  | some (event, _) => .error (.duplicateMapScript map event)
  | none => return ofFile ++ ofManifest

/-- Compile scripts and return the local number of each under its key. -/
def compileAll (input : Input) (scripts : List (String × String)) :
    Step MapState (List (String × UInt16)) :=
  scripts.mapM fun (key, script) => do return (key, ← compileScript input script)

/-- Compile the scripts of the events. The script that does nothing always has number zero. -/
def compileEvents (input : Input) (tiled : Tiled.Map) (settings : MapSettings) :
    Step MapState (Ordered UInt16) := do
  let _ ← compileScript input nullScript
  let scripts ← (eventScripts tiled settings (← get).map.name :
    Except Failure (List (String × String)))
  return Ordered.ofList (← compileAll input scripts)

/-- Compile the scripts of an entity and put their numbers into its record. -/
def wireEntity (input : Input) (global : UInt16) (e : Entity) : Step MapState Unit :=
  [("on_interact", Entity.interactOffset), ("on_tick", Entity.tickOffset)].forM
    fun (property, offset) => do
      match e.script? property with
      | none => return ()
      | some script =>
        let number ← compileScript input script
        onProject (onTables (Tables.update .entities global (·.patchWord offset number)))

/-! ## Records -/

/-- What is stored for a map without a player. -/
def noPlayer : Nat := 255

/-- The header of a map: its name, sizes, scripts and counts, then the records of its entities,
    outlines and scripts, and the scripts of its directions. -/
def encodeMapHeader (tiled : Tiled.Map) (map : MapContext) (layers : Nat) (events : Ordered UInt16)
    (directions : List (String × UInt16)) : Except Failure Bytes :=
  let context := fun (field : String) => s!"map \"{map.name}\" {field}"
  let records := map.entities.toList ++ map.geometry.toList ++ map.scripts.toList
  Record.encode (40 + 2 * records.length + 16 * directions.length) <|
    [.chars map.name 16,
      .number tiled.tileWidth.toNat 2 (context "tile width"),
      .number tiled.tileHeight.toNat 2 (context "tile height"),
      .number tiled.width.toNat 2 (context "width"),
      .number tiled.height.toNat 2 (context "height")] ++
    mapEvents.map (fun event => .word ((events.find? event).getD 0)) ++
    [.number layers 1 (context "layer count"),
      .number ((map.player.map UInt16.toNat).getD noPlayer) 1 (context "player entity"),
      .number map.entities.size 2 (context "entity count"),
      .number map.geometry.size 2 (context "geometry count"),
      .number map.scripts.size 2 (context "script count"),
      .number directions.length 1 (context "direction count"),
      .gap 1] ++
    records.map (fun index => .word index) ++
    directions.flatMap fun (direction, script) => [.chars direction 12, .word script, .gap 2]

/-- Everything on a map that has a context of its own, and then its record. -/
def buildMapContents (input : Input) (settings : MapSettings) (tiled : Tiled.Map)
    (tilesets : List (UInt32 × Tileset)) (layers : List Bytes) : Step MapState Unit := do
  let entities ← placeObjects tiled tilesets
  let events ← compileEvents input tiled settings
  let directions ← compileAll input settings.directions.entries
  entities.forM fun (global, e) => wireEntity input global e
  let map := (← get).map
  let header ← encodeMapHeader tiled map layers.length events directions
  onProject (onTables (Tables.fill .maps map.index (layers.foldl (· ++ ·) header)))

/-- The tilesets of a map, each with its first global id. -/
def loadTilesets (input : Input) (tiled : Tiled.Map) : Step Project (List (UInt32 × Tileset)) :=
  tiled.tilesets.mapM fun r => do return (r.firstGid, ← loadTileset input r.source)

/-- Build a map. -/
def buildMap (input : Input) (name : String) (settings : MapSettings) : Step Project Unit := do
  let context := s!"map \"{name}\""
  let path ← orReject settings.path (.missingField context "path")
  let index ← orReject ((← get).maps.find? name) (.notFound context "map" name " in the scenario")
  let tiled ← (readJson input.source Tiled.Map.decode (Text.baseName path) :
    Except Failure Tiled.Map)
  let tilesets ← loadTilesets input tiled
  let layers ← (encodeLayers tiled tilesets context : Except Failure (List Bytes))
  onMap { name, index } (buildMapContents input settings tiled tilesets layers)

/-- Claim a record for every map, so that maps can refer to each other. -/
def reserveMaps (input : Input) : Step Project Unit :=
  input.definitions.maps.keys.forM fun name => do
    let index ← onTables (Tables.reserve .maps name)
    modify fun project => { project with maps := project.maps.put name index }

end GameBundle
