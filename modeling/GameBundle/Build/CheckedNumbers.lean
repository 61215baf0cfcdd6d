import GameBundle.Build.Run

set_option autoImplicit false

/-! # Numbers that are asked for

On a map, outlines, entities and scripts are numbered one by one, and a number is the length of a
list, cut down to a word. Here is the same build once more, except that nothing is cut down and no
length is checked: whenever something gets a number on a map, a rule is asked for it. The rule sees
how many are on the map so far, and the record that was added for the new one just before. -/

namespace GameBundle

/-! ## Rules -/

/-- What number comes next on a map, if `count` have been handed out and the next is for record
    `global`. -/
abbrev NumberRule : Type := Nat → UInt16 → Except Failure UInt16

/-- The exact count, which is a word because it does not exceed the record. If it does, that is left
    to `objection`. -/
def exactNumber (objection : NumberRule) : NumberRule := fun count global =>
  if h : count ≤ global.toNat then
    .ok (UInt16.ofNatLT count (Nat.lt_of_le_of_lt h global.toNat_lt))
  else objection count global

variable (rule : NumberRule)

/-! ## Objects -/

/-- Add the outlines of the objects without a tile. -/
def placeOutlinesBy (objects : List Tiled.Object) : Step MapState (List (Option ObjectSlot)) :=
  objects.mapM fun object => do
    if object.gid.isSome then return none
    let global ← onProject (addOutline object)
    let number ← rule (← get).map.geometry.size global
    changeMap fun map => { map with geometry := map.geometry.push global }
    return some (.geometry number)

/-- Add one entity. Only one on a map can be the player. -/
def placeEntityBy (earlier : List (UInt16 × Entity)) (e : Entity) : Step MapState UInt16 := do
  let map := (← get).map
  let path ← (pathOf map e : Except Failure (Option UInt16))
  let global ← onProject (addEntity e path)
  let number ← rule map.entities.size global
  changeMap fun map => { map with entities := map.entities.push global }
  if e.isPlayer then
    match map.player with
    | some player =>
      let first := (earlier[player.toNat]?.map fun e => e.2.label).getD ""
      reject (.multiplePlayers map.name first e.label)
    | none => changeMap fun map => { map with player := some number }
  return global

/-- Add the entities in order. -/
def placeEntitiesBy (entities : List (Nat × Entity)) : Step MapState (List (UInt16 × Entity)) :=
  entities.foldlM (fun placed (_, e) => do
    let global ← placeEntityBy rule placed e
    return placed ++ [(global, e)]) []

/-- The numbers of the entities, each under its place among all objects. -/
def entitySlotsBy (entities : List (Nat × Entity)) (placed : List (UInt16 × Entity)) :
    Except Failure (List (Nat × ObjectSlot)) :=
  entities.zipIdx.mapM fun ((place, _), i) => do
    let global := (placed[i]?.map Prod.fst).getD 0
    return (place, ObjectSlot.entity (← rule i global))

/-- Add all objects and list them with their numbers. -/
def placeObjectsBy (tiled : Tiled.Map) (tilesets : List (UInt32 × Tileset)) :
    Step MapState (List (UInt16 × Entity)) := do
  let objects := tiled.objects
  let name := (← get).map.name
  (checkObjects name objects : Except Failure Unit)
  let outlines ← placeOutlinesBy rule objects
  changeMap (listObjects objects outlines)
  let types := (← get).project.entityTypes
  let composed ←
    (composeEntities types tilesets name objects : Except Failure (List (Nat × Entity)))
  let entities := debugLast composed
  let placed ← placeEntitiesBy rule entities
  let numbers ← entitySlotsBy rule entities placed
  let slots := outlines.zipIdx.map fun (slot, place) => slot <|> numbers.lookup place
  changeMap fun map => listObjects objects slots { map with objects := #[] }
  return placed

/-! ## Scripts -/

/-- List a script on the map, however many there are. -/
def listScriptBy (name : String) (global : UInt16) : Step MapState UInt16 := do
  let number ← rule (← get).map.scripts.size global
  changeMap (·.listScript name global number)
  return number

/-- The local number of a script. The script that does nothing has record zero. -/
def scriptNumberBy (input : Input) (start : String → Script → Step MapState UInt16)
    (name : String) : Step MapState UInt16 := do
  match (← get).map.scriptNumber? name with
  | some number => return number
  | none =>
    if name = nullScript then
      listScriptBy rule name 0
    else
      let scripts := input.definitions.scripts
      let script ← orReject (scripts.find? name)
        (.notFound s!"map \"{(← get).map.name}\"" "script" name "")
      let actions ← (expandCopies scripts name script : Except Failure Script)
      start name actions

/-- Compile the actions of a script. -/
def compileActionsBy (input : Input) (compile : String → Step MapState UInt16) (name : String)
    (actions : Script) : Step MapState UInt16 := do
  let header ← scriptHeader name actions.length
  let global ← onProject (onTables (Tables.reserve .scripts name))
  let number ← listScriptBy rule name global
  let instructions ← actions.mapM (encodeAction input compile)
  onProject (onTables (Tables.fill .scripts global (instructions.foldl (· ++ ·) header)))
  return number

/-- The local number of a script, with at most `depth` compilations in progress at a time. -/
def compileWithinBy (input : Input) (beyond : String → Script → Step MapState UInt16) :
    Nat → String → Step MapState UInt16
  | 0 => scriptNumberBy rule input beyond
  | depth + 1 =>
    scriptNumberBy rule input
      (compileActionsBy rule input (compileWithinBy input beyond depth))

/-- The local number of a script on the map being built. -/
def compileScriptBy (input : Input) : String → Step MapState UInt16 :=
  compileWithinBy rule input (fun _ _ => throw .overrun) input.definitions.scripts.size

/-- Compile scripts and return the local number of each under its key. -/
def compileAllBy (input : Input) (scripts : List (String × String)) :
    Step MapState (List (String × UInt16)) :=
  scripts.mapM fun (key, script) => do return (key, ← compileScriptBy rule input script)

/-- Compile the scripts of the events, after the one that does nothing. -/
def compileEventsBy (input : Input) (tiled : Tiled.Map) (settings : MapSettings) :
    Step MapState (Ordered UInt16) := do
  let _ ← compileScriptBy rule input nullScript
  let scripts ← (eventScripts tiled settings (← get).map.name :
    Except Failure (List (String × String)))
  return Ordered.ofList (← compileAllBy rule input scripts)

/-- Compile the scripts of an entity and put their numbers into its record. -/
def wireEntityBy (input : Input) (global : UInt16) (e : Entity) : Step MapState Unit :=
  [("on_interact", Entity.interactOffset), ("on_tick", Entity.tickOffset)].forM
    fun (property, offset) => do
      match e.script? property with
      | none => return ()
      | some script =>
        let number ← compileScriptBy rule input script
        onProject (onTables (Tables.update .entities global (·.patchWord offset number)))

/-! ## Builds -/

/-- Everything on a map that has a context of its own, and then its record. -/
def buildMapContentsBy (input : Input) (settings : MapSettings) (tiled : Tiled.Map)
    (tilesets : List (UInt32 × Tileset)) (layers : List Bytes) : Step MapState Unit := do
  let entities ← placeObjectsBy rule tiled tilesets
  let events ← compileEventsBy rule input tiled settings
  let directions ← compileAllBy rule input settings.directions.entries
  entities.forM fun (global, e) => wireEntityBy rule input global e
  let map := (← get).map
  let header ← encodeMapHeader tiled map layers.length events directions
  onProject (onTables (Tables.fill .maps map.index (layers.foldl (· ++ ·) header)))

/-- Build a map. -/
def buildMapBy (input : Input) (name : String) (settings : MapSettings) : Step Project Unit := do
  let context := s!"map \"{name}\""
  let path ← orReject settings.path (.missingField context "path")
  let index ← orReject ((← get).maps.find? name) (.notFound context "map" name " in the scenario")
  let tiled ← (readJson input.source Tiled.Map.decode (Text.baseName path) :
    Except Failure Tiled.Map)
  let tilesets ← loadTilesets input tiled
  let layers ← (encodeLayers tiled tilesets context : Except Failure (List Bytes))
  onMap { name, index } (buildMapContentsBy rule input settings tiled tilesets layers)

/-- All passes of a build. -/
def buildAllBy (input : Input) : Step Project Unit := do
  buildShared input
  input.definitions.maps.entries.forM fun (name, settings) => buildMapBy rule input name settings

end GameBundle
