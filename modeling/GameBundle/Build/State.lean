import GameBundle.Build.MapContext
import GameBundle.Content.Tables
import GameBundle.Project.Load
import GameBundle.Properties

set_option autoImplicit false

/-! # The state of a build

A build reads an `Input` and changes a `Project`: the tables of the bundle and everything that has
to be remembered to refer to their records. Work on a single map changes a `MapState`, the project
together with the context of the map. Steps on a part of the state are steps on the whole. -/

namespace GameBundle

/-! ## What is built -/

/-- What is fixed before a build starts. -/
structure Input where
  source : Source
  definitions : Definitions

/-- What other parts of a build need to know about a tile. -/
structure Tile where
  /-- The properties of the tile laid over the prototype of its type. -/
  properties : Properties := ∅
  /-- The record of the animation, if the tile has one. -/
  animation : Option UInt16 := none
  deriving Inhabited

/-- A tileset that has been loaded. -/
structure Tileset where
  name : String
  index : UInt16
  tileCount : UInt32
  tiles : List (UInt32 × Tile)
  deriving Inhabited

/-- What is known about a tile. -/
def Tileset.tile? (t : Tileset) (id : UInt32) : Option Tile := t.tiles.lookup id

/-- The animation of a tile. -/
def Tileset.animation? (t : Tileset) (id : UInt32) : Option UInt16 := t.tile? id >>= Tile.animation

/-- An entity type with its record and the properties its entities start from. -/
structure EntityType where
  index : UInt16
  prototype : Properties
  looks : EntityTypeDef
  deriving Inhabited

/-- The record of each text of a pool. -/
structure Pools where
  strings : Ordered UInt16 := ∅
  saveFlags : Ordered UInt16 := ∅
  gameVariables : Ordered UInt16 := ∅
  deriving Inhabited

/-- The texts of one pool. -/
def Pools.get (p : Pools) : Pool → Ordered UInt16
  | .strings => p.strings
  | .saveFlags => p.saveFlags
  | .gameVariables => p.gameVariables

/-- Remember the record of a text. -/
def Pools.put (p : Pools) (pool : Pool) (text : String) (index : UInt16) : Pools :=
  match pool with
  | .strings => { p with strings := p.strings.put text index }
  | .saveFlags => { p with saveFlags := p.saveFlags.put text index }
  | .gameVariables => { p with gameVariables := p.gameVariables.put text index }

theorem Pools.get_put (p : Pools) (pool : Pool) (text : String) (index : UInt16) (q : Pool) :
    (p.put pool text index).get q = if q = pool then (p.get q).put text index else p.get q := by
  cases pool <;> cases q <;> rfl

/-- The tables of a bundle and what refers to them by name. -/
structure Project where
  tables : Tables := ∅
  pools : Pools := {}
  maps : Ordered UInt16 := ∅
  /-- Tilesets by file name. -/
  tilesets : Ordered Tileset := ∅
  /-- Images by file name. -/
  images : Ordered UInt16 := ∅
  entityTypes : Ordered EntityType := ∅
  portraits : Ordered UInt16 := ∅
  /-- The tileset of each dialog frame. -/
  dialogSkins : Ordered UInt16 := ∅
  /-- Dialogs by map and name. -/
  dialogs : Ordered UInt16 := ∅
  serialDialogs : Ordered UInt16 := ∅
  deriving Inhabited

/-- A project and the map that is being built. -/
structure MapState where
  map : MapContext
  project : Project
  deriving Inhabited

/-! ## Steps -/

/-- A step that changes the tables only. -/
def onTables {α : Type} (step : Step Tables α) : Step Project α := fun project =>
  let tables := project.tables
  let project := { project with tables := ∅ }
  let (result, tables) := step tables
  (result, { project with tables })

/-- A step that leaves the map alone. -/
def onProject {α : Type} (step : Step Project α) : Step MapState α := fun ⟨map, project⟩ =>
  let (result, project) := step project
  (result, ⟨map, project⟩)

/-- Build a map with a context of its own. -/
def onMap {α : Type} (map : MapContext) (step : Step MapState α) : Step Project α := fun project =>
  let (result, state) := step ⟨map, project⟩
  (result, state.project)

/-- Change the map and leave the project alone. -/
def changeMap (f : MapContext → MapContext) : Step MapState Unit :=
  modify fun (⟨map, project⟩ : MapState) => ⟨f map, project⟩

end GameBundle
