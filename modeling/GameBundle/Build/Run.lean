import GameBundle.Build.Maps
import GameBundle.Bundle.Assemble

set_option autoImplicit false

/-! # Whole builds

The order of the passes fixes all numbers of a bundle: variables and maps first, then prototypes,
dialog frames, portraits and entity types, the script that does nothing, and finally the maps one by
one. -/

namespace GameBundle

/-- Build everything that the maps share. -/
def buildShared (input : Input) : Step Project Unit := do
  storeVariables input
  reserveMaps input
  buildPrototypes input
  loadDialogSkins input
  buildPortraits input
  buildEntityTypes input
  let _ ← addNullScript

/-- All passes of a build. -/
def buildAll (input : Input) : Step Project Unit := do
  buildShared input
  input.definitions.maps.entries.forM fun (name, settings) => buildMap input name settings

/-- The tables of a project. -/
def build (input : Input) : Except Failure Tables :=
  let (result, project) := buildAll input {}
  result.map fun _ => project.tables

/-- The bundle of the project behind a source. -/
def bundleOf (source : Source) : Except Failure Bytes := do
  let definitions ← (Definitions.load source : Except BuildError Definitions)
  let tables ← build { source, definitions }
  Bundle.assemble tables

end GameBundle
