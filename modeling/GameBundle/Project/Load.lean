import GameBundle.Project.Scenario
import GameBundle.Project.Source

set_option autoImplicit false

/-! # Loading the definitions of a project

`load` reads the manifest and every file it points to, and merges them. A name may be defined only
once: defining it again in another file is refused, never an override. -/

namespace GameBundle

open Json (Decoder)
open Json.Decode

/-! ## Files and names -/

/-- The manifest. -/
def scenarioFile : String := "scenario.json"

/-- Further maps. -/
def mapsFile : String := "maps.json"

def entityTypesFile : String := "entity_types.json"

def objectTypesFile : String := "object_types.json"

def portraitsFile : String := "portraits.json"

/-- The script that does nothing. It always exists and has number zero. -/
def nullScript : String := "null_script"

/-- Read and decode a file. -/
def readJson {α : Type} (source : Source) (d : Decoder α) (name : String) :
    Except BuildError α := do
  let contents ← source.read name
  match String.fromUTF8? contents >>= run d with
  | some value => return value
  | none => .error (.badJson name)

/-- Read and decode a file that may be missing. -/
def readOptionalJson {α : Type} (source : Source) (d : Decoder α) (name : String) (missing : α) :
    Except BuildError α :=
  if source.contains name then readJson source d name else .ok missing

/-! ## Merging -/

/-- Add the definitions of one file to those of earlier ones. The first name that is taken already
    is refused with `clash`. -/
def mergeInto {α : Type} (clash : String → BuildError) (merged : Ordered α)
    (items : List (String × α)) : Except BuildError (Ordered α) :=
  items.foldlM (fun merged (name, item) =>
    if merged.contains name then .error (clash name) else .ok (merged.put name item)) merged

/-- Merge the definition files at `paths`. -/
def mergeNamed {α : Type} (source : Source) (d : Decoder α) (kind : String) (paths : List String) :
    Except BuildError (Ordered α) :=
  paths.foldlM (fun merged path => do
    let file := Text.baseName path
    let items ← readJson source (dictionary d) file
    mergeInto (.duplicateName kind · file) merged items.entries) ∅

/-- The maps of the manifest, then those of the file of further maps. Each needs a path. -/
def mergeMaps (source : Source) (manifest : Ordered MapSettings) :
    Except BuildError (Ordered MapSettings) := do
  let extra ← readOptionalJson source (dictionary MapSettings.decode) mapsFile ∅
  let maps ←
    mergeInto (.duplicateName "map" · s!"both {scenarioFile} and {mapsFile}") manifest extra.entries
  for (name, settings) in maps.entries do
    if (settings.path.getD "").isEmpty then
      .error (.missingField s!"map \"{name}\"" "path")
  return maps

/-! ## The whole project -/

/-- Read all definitions of a project. -/
def Definitions.load (source : Source) : Except BuildError Definitions := do
  let manifest ← readJson source Manifest.decode scenarioFile
  let maps ← mergeMaps source manifest.maps
  let scripts ← mergeNamed source (list Action.decode) "scripts" manifest.scriptPaths
  if scripts.contains nullScript then
    .error (.reservedName "script" nullScript)
  let dialogs ← mergeNamed source (list Screen.decode) "dialogs" manifest.dialogPaths
  let serialDialogs ←
    mergeNamed source SerialDialog.decode "serialDialogs" manifest.serialDialogPaths
  let entityTypes ← readOptionalJson source (dictionary EntityTypeDef.decode) entityTypesFile ∅
  let objectTypes ← readOptionalJson source (list ObjectTypeDef.decode) objectTypesFile []
  let portraits ← readOptionalJson source (dictionary PortraitDef.decode) portraitsFile ∅
  return { maps, scripts, dialogs, serialDialogs, dialogSkins := manifest.dialogSkins, entityTypes,
           objectTypes, portraits }

end GameBundle
