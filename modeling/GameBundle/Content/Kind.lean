set_option autoImplicit false

/-! # Kinds of content

A bundle holds fifteen tables of records, one for each kind of content, in a fixed order. -/

namespace GameBundle

/-- What a record describes. -/
inductive Kind
  | maps
  | tilesets
  | animations
  | entityTypes
  | entities
  | geometry
  | scripts
  | portraits
  | dialogs
  | serialDialogs
  | palettes
  | strings
  | saveFlags
  | gameVariables
  | images
  deriving Repr, DecidableEq, Inhabited

namespace Kind

/-- The kinds in the order of a bundle. -/
def all : List Kind :=
  [maps, tilesets, animations, entityTypes, entities, geometry, scripts, portraits, dialogs,
    serialDialogs, palettes, strings, saveFlags, gameVariables, images]

/-- The number of kinds. -/
def count : Nat := 15

/-- The place of a kind in a bundle. -/
def position : Kind → Nat
  | maps => 0
  | tilesets => 1
  | animations => 2
  | entityTypes => 3
  | entities => 4
  | geometry => 5
  | scripts => 6
  | portraits => 7
  | dialogs => 8
  | serialDialogs => 9
  | palettes => 10
  | strings => 11
  | saveFlags => 12
  | gameVariables => 13
  | images => 14

theorem position_lt (kind : Kind) : kind.position < count := by cases kind <;> decide

theorem getElem?_all (kind : Kind) : all[kind.position]? = some kind := by cases kind <;> rfl

theorem position_inj {a b : Kind} (h : a.position = b.position) : a = b :=
  Option.some.inj (by rw [← getElem?_all a, h, getElem?_all b])

theorem mem_all (kind : Kind) : kind ∈ all := by cases kind <;> decide

/-- The name of a kind in messages and listings. -/
def label : Kind → String
  | maps => "maps"
  | tilesets => "tilesets"
  | animations => "animations"
  | entityTypes => "entityTypes"
  | entities => "entities"
  | geometry => "geometry"
  | scripts => "scripts"
  | portraits => "portraits"
  | dialogs => "dialogs"
  | serialDialogs => "serialDialogs"
  | palettes => "imageColorPalettes"
  | strings => "strings"
  | saveFlags => "save_flags"
  | gameVariables => "variables"
  | images => "images"

end Kind

/-! ## Shared texts -/

/-- The tables in which equal texts share one record. -/
inductive Pool
  | strings
  | saveFlags
  | gameVariables
  deriving Repr, DecidableEq, Inhabited

/-- The kind of the records of a pool. -/
def Pool.kind : Pool → Kind
  | strings => .strings
  | saveFlags => .saveFlags
  | gameVariables => .gameVariables

end GameBundle
