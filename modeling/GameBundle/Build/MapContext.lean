import GameBundle.Error
import GameBundle.Ordered

set_option autoImplicit false

/-! # Names on a map

While a map is built, objects and scripts on it are known by map-local numbers. A `MapContext` holds
these numbers: the objects of the map with the numbers of their entities or outlines, and the
scripts that have been compiled for the map. A few reserved words stand for fixed numbers instead of
objects. -/

namespace GameBundle

/-! ## Reserved words -/

/-- The words that stand for a fixed number wherever an object may be named. -/
def reservedWords : List (String × UInt16) :=
  [("%MAP%", 255), ("%SELF%", 254), ("%PLAYER%", 253), ("%ENTITY_PATH%", 65535)]

/-- The number of a reserved word. -/
def reservedNumber? (word : String) : Option UInt16 := reservedWords.lookup word

/-! ## The context -/

/-- The local number of an object, as an entity or as an outline. -/
inductive ObjectSlot
  | entity (index : UInt16)
  | geometry (index : UInt16)
  deriving Repr, DecidableEq, Inhabited

namespace ObjectSlot

/-- The number, whichever list it counts in. -/
def index : ObjectSlot → UInt16
  | entity index => index
  | geometry index => index

def isEntity : ObjectSlot → Bool
  | entity _ => true
  | geometry _ => false

def isGeometry : ObjectSlot → Bool
  | entity _ => false
  | geometry _ => true

end ObjectSlot

/-- An object of a map: its id in the editor, its name and its local number. -/
structure MapObject where
  id : UInt32
  name : String
  slot : ObjectSlot
  deriving Repr, DecidableEq, Inhabited

/-- The names and numbers of one map. The lists give the record of each local number. -/
structure MapContext where
  name : String
  index : UInt16
  /-- All objects, in the order of the layers. -/
  objects : Array MapObject := #[]
  entities : Array UInt16 := #[]
  geometry : Array UInt16 := #[]
  scripts : Array UInt16 := #[]
  /-- The local number of each script by its name. -/
  scriptNumbers : Ordered UInt16 := ∅
  player : Option UInt16 := none
  deriving Inhabited

namespace MapContext

/-- Where names are looked for, as messages say it. -/
def scope (map : MapContext) : String := s!" on map \"{map.name}\""

/-! ## Looking up -/

/-- The number of the first object of a name whose slot satisfies `p`. -/
def find? (map : MapContext) (name : String) (p : ObjectSlot → Bool) : Option UInt16 :=
  (map.objects.find? fun o => o.name == name && p o.slot).map fun o => o.slot.index

/-- The number of a reserved word or of the first object of that name whose slot satisfies `p`. -/
def number (map : MapContext) (kind name context : String) (p : ObjectSlot → Bool) :
    Except BuildError UInt16 :=
  match reservedNumber? name <|> map.find? name p with
  | some index => .ok index
  | none => .error (.notFound context kind name map.scope)

/-- The local number of an entity. -/
def entityNumber (map : MapContext) (name context : String) : Except BuildError UInt16 :=
  map.number "entity" name context ObjectSlot.isEntity

/-- The local number of an outline. -/
def geometryNumber (map : MapContext) (name context : String) : Except BuildError UInt16 :=
  map.number "geometry" name context ObjectSlot.isGeometry

/-- The local number of the first object of either kind. -/
def objectNumber (map : MapContext) (name context : String) : Except BuildError UInt16 :=
  map.number "object" name context fun _ => true

/-- The local number of the first outline with an id. -/
def geometryOfId? (map : MapContext) (id : UInt32) : Option UInt16 :=
  (map.objects.find? fun o => o.id == id && o.slot.isGeometry).map fun o => o.slot.index

/-- The local number of a script that has been compiled for the map, or is being compiled. -/
def scriptNumber? (map : MapContext) (name : String) : Option UInt16 := map.scriptNumbers.find? name

/-! ## Growing -/

/-- Add an object behind all others. -/
def addObject (map : MapContext) (id : UInt32) (name : String) (slot : ObjectSlot) : MapContext :=
  { map with objects := map.objects.push ⟨id, name, slot⟩ }

/-- The local number of the next script. -/
def nextScript (map : MapContext) : Except BuildError UInt16 :=
  if map.scripts.size < UInt16.size then .ok (UInt16.ofNat map.scripts.size)
  else .error (.fieldOverflow s!"map \"{map.name}\" script count" map.scripts.size 2)

/-- List a script under its name. -/
def listScript (map : MapContext) (name : String) (global number : UInt16) : MapContext :=
  { map with
    scripts := map.scripts.push global
    scriptNumbers := map.scriptNumbers.put name number }

end MapContext

end GameBundle
