import GameBundle.Proofs.Build.PlacedObjects
import GameBundle.Proofs.Record.Fields
import Mathlib.Data.List.Nodup

set_option autoImplicit false

/-! # The objects of a map

Before any script of a map is compiled, its outlines and its entities get their records. The records
of entities are added one behind the other, in the order of `debugLast`, and their scripts are
still zero. -/

namespace GameBundle

variable {s t u : MapState}

/-! ## Records of entities -/

/-- The record of an entity without scripts. -/
def Unwired (record : Record) : Prop :=
  ∃ bytes, record.bytes = some bytes ∧ bytes.word? Entity.interactOffset = some 0 ∧
    bytes.word? Entity.tickOffset = some 0

theorem Entity.word?_encode {e : Entity} {types : Ordered EntityType} {path : Option UInt16}
    {bytes : Bytes} (h : e.encode types path = .ok bytes) :
    bytes.word? interactOffset = some 0 ∧ bytes.word? tickOffset = some 0 := by
  have hfields : ∀ {record : Bytes} {label : String} {x y : UInt16} {rest : List Field},
      Record.encode 32 ([.chars label 12, .word x, .word y, .word 0, .word 0] ++ rest) =
        .ok record →
      record.word? interactOffset = some 0 ∧ record.word? tickOffset = some 0 := by
    intro record label x y rest hrecord
    obtain ⟨-, -, -, -, -, -, hinteract, -, htick, -⟩ :=
      (Record.hasFields_of_encode hrecord).left
    exact ⟨hinteract.word?, htick.word?⟩
  simp only [encode, bind_eq_ok] at h
  obtain ⟨x, -, y, -, look, -, _, -, _, -, _, -, _, -, _, -, _, -, record, hrecord, h⟩ := h
  obtain ⟨hinteract, htick⟩ := hfields hrecord
  cases path with
  | none =>
    cases h
    exact ⟨hinteract, htick⟩
  | some path =>
    rw [word?_patchWord_of_disjoint h (by decide), word?_patchWord_of_disjoint h (by decide)]
    exact ⟨hinteract, htick⟩

/-- The part of the state that objects have nothing to do with. -/
structure Places (s t : MapState) : Prop where
  name : t.map.name = s.map.name
  index : t.map.index = s.map.index
  scripts : t.map.scripts = s.map.scripts
  scriptNumbers : t.map.scriptNumbers = s.map.scriptNumbers
  maps : t.project.maps = s.project.maps
  entityTypes : t.project.entityTypes = s.project.entityTypes
  frame : ∀ kind, kind ≠ .geometry → kind ≠ .entities →
    t.project.tables.records kind = s.project.tables.records kind

/-- What objects have something to do with may be anything else. -/
theorem Places.of_eq {objects : Array MapObject} {entities geometry : Array UInt16}
    {player : Option UInt16} {tables : Tables}
    (hmap : t.map = { s.map with objects, entities, geometry, player })
    (hproject : t.project = { s.project with tables })
    (hframe : ∀ kind, kind ≠ .geometry → kind ≠ .entities →
      t.project.tables.records kind = s.project.tables.records kind) : Places s t where
  name := by rw [hmap]
  index := by rw [hmap]
  scripts := by rw [hmap]
  scriptNumbers := by rw [hmap]
  maps := by rw [hproject]
  entityTypes := by rw [hproject]
  frame := hframe

theorem Places.trans (hst : Places s t) (htu : Places t u) : Places s u where
  name := htu.name.trans hst.name
  index := htu.index.trans hst.index
  scripts := htu.scripts.trans hst.scripts
  scriptNumbers := htu.scriptNumbers.trans hst.scriptNumbers
  maps := htu.maps.trans hst.maps
  entityTypes := htu.entityTypes.trans hst.entityTypes
  frame kind hgeometry hentities :=
    (htu.frame kind hgeometry hentities).trans (hst.frame kind hgeometry hentities)

theorem placeOutlines_spec {objects : List Tiled.Object} {slots : List (Option ObjectSlot)}
    (h : Yields (placeOutlines objects) s slots t) :
    Places s t ∧ t.map.entities = s.map.entities ∧
      t.project.tables.records .entities = s.project.tables.records .entities := by
  have hadded := outlinesAdded_of_placeOutlines h
  obtain ⟨geometry, hmap⟩ := hadded.map
  obtain ⟨tables, hproject⟩ := hadded.project
  exact ⟨.of_eq hmap hproject fun kind hgeometry _ => hadded.frame kind hgeometry, by rw [hmap],
    hadded.frame .entities (by decide)⟩

/-- Entities were added with their records, in order and behind those that were there before. -/
structure AddsEntities (added : List UInt16) (s t : MapState) : Prop where
  places : Places s t
  entities : t.map.entities.toList = s.map.entities.toList ++ added
  globals : added = (List.range' (s.project.tables.count .entities) added.length).map UInt16.ofNat
  fits : added ≠ [] → s.project.tables.count .entities + added.length ≤ UInt16.size
  records : ∃ records, records.length = added.length ∧ (∀ record ∈ records, Unwired record) ∧
    (t.project.tables.records .entities).toList =
      (s.project.tables.records .entities).toList ++ records

theorem EntityRecord.unwired {types : Ordered EntityType} {map : MapContext} {e : Entity}
    {record : Record} (h : EntityRecord types map e record) : Unwired record := by
  obtain ⟨path, bytes, -, hbytes, rfl⟩ := h
  exact ⟨bytes, rfl, Entity.word?_encode hbytes⟩

theorem EntitiesAdded.adds {placed : List (UInt16 × Entity)} (h : EntitiesAdded s placed t) :
    AddsEntities (placed.map Prod.fst) s t := by
  obtain ⟨entities, player, hmap⟩ := h.map
  obtain ⟨tables, hproject⟩ := h.project
  obtain ⟨records, hrecords, htotal⟩ := h.records
  have hlength := hrecords.length_eq
  rw [List.length_map] at hlength
  exact {
    places := .of_eq hmap hproject fun kind _ hentities => h.frame kind hentities
    entities := h.entities
    globals := by
      rw [List.length_map, ← h.globals, List.map_map]
      exact (List.map_id'' (fun _ => UInt16.ofNat_toNat) _).symm
    fits := by
      intro hne
      rw [List.length_map]
      have hpos : 0 < placed.length := List.length_pos_iff.2 fun hnil => hne (by rw [hnil]; rfl)
      -- the last of them has a number
      have hlast : s.project.tables.count .entities + (placed.length - 1) ∈
          (placed.map Prod.fst).map UInt16.toNat := by
        rw [h.globals, List.mem_range'_1]
        omega
      obtain ⟨global, -, hglobal⟩ := List.mem_map.1 hlast
      have hlt := global.toNat_lt
      change global.toNat < UInt16.size at hlt
      omega
    records := by
      refine ⟨records, by rw [List.length_map, hlength], fun record hrecord => ?_, htotal⟩
      obtain ⟨e, -, he⟩ := exists_of_mem_forall₂ hrecords hrecord
      exact he.unwired }

/-- The records that were added are those from the end of the old ones on. -/
theorem AddsEntities.toNat {added : List UInt16} (h : AddsEntities added s t) {k : Nat}
    {global : UInt16} (hk : added[k]? = some global) :
    global.toNat = s.project.tables.count .entities + k := by
  have hlt := (List.getElem?_eq_some_iff.1 hk).1
  have hfits := h.fits (List.ne_nil_of_length_pos (Nat.zero_lt_of_lt hlt))
  rw [h.globals, List.getElem?_map, List.getElem?_range' hlt, Option.map_some, Option.some.injEq,
    Nat.one_mul] at hk
  rw [← hk]
  exact UInt16.toNat_ofNat_of_lt' (by omega)

theorem AddsEntities.nodup {added : List UInt16} (h : AddsEntities added s t) : added.Nodup := by
  rw [List.nodup_iff_getElem?_ne_getElem?]
  intro i j hij hj heq
  have hlast := List.getElem?_eq_getElem hj
  have hfirst := heq.trans hlast
  have hi := h.toNat hfirst
  have hj := h.toNat hlast
  omega

theorem AddsEntities.unwired {added : List UInt16} (h : AddsEntities added s t) {global : UInt16}
    (hglobal : global ∈ added) : s.project.tables.count .entities ≤ global.toNat ∧
      ∃ record, (t.project.tables.records .entities)[global.toNat]? = some record ∧
        Unwired record := by
  obtain ⟨k, hk⟩ := List.getElem?_of_mem hglobal
  obtain ⟨records, hlength, hall, htotal⟩ := h.records
  have hlt := (List.getElem?_eq_some_iff.1 hk).1
  rw [h.toNat hk]
  rw [← hlength] at hlt
  refine ⟨Nat.le_add_right _ _, records[k], ?_, hall _ (List.getElem_mem hlt)⟩
  rw [← Array.getElem?_toList, htotal, Tables.count_eq_length,
    List.getElem?_append_right (Nat.le_add_right _ _), Nat.add_sub_cancel_left,
    List.getElem?_eq_getElem]

theorem AddsEntities.kept {added : List UInt16} (h : AddsEntities added s t) {i : Nat}
    (hi : i < s.project.tables.count .entities) : (t.project.tables.records .entities)[i]? =
      (s.project.tables.records .entities)[i]? := by
  obtain ⟨records, -, -, htotal⟩ := h.records
  rw [Tables.count_eq_length] at hi
  rw [← Array.getElem?_toList, htotal, List.getElem?_append_left hi, Array.getElem?_toList]

theorem placeEntities_spec {entities : List (Nat × Entity)} {placed : List (UInt16 × Entity)}
    (h : Yields (placeEntities entities) s placed t) :
    placed.map Prod.snd = entities.map Prod.snd ∧ AddsEntities (placed.map Prod.fst) s t := by
  obtain ⟨hadded, horder⟩ := entitiesAdded_of_placeEntities h
  exact ⟨horder, hadded.adds⟩

/-! ## All objects -/

/-- The names of objects have no part in the scripts and records. -/
theorem Places.objects (s : MapState) (objects : Array MapObject) :
    Places s ⟨{ s.map with objects }, s.project⟩ :=
  .of_eq rfl rfl fun _ _ _ => rfl

/-- **The entities of a map are those of its objects, with the ones for debugging last.** -/
theorem placeObjects_spec {tiled : Tiled.Map} {tilesets : List (UInt32 × Tileset)}
    {placed : List (UInt16 × Entity)} (h : Yields (placeObjects tiled tilesets) s placed t) :
    ∃ composed, composeEntities s.project.entityTypes tilesets s.map.name tiled.objects =
        .ok composed ∧
      placed.map Prod.snd = (debugLast composed).map Prod.snd ∧
      AddsEntities (placed.map Prod.fst) s t := by
  obtain ⟨outlines, u, composed, v, -, houtlines, hcomposed, hplaced, rfl⟩ := placeObjects_steps h
  obtain ⟨hsu, hentities, hrecords⟩ := placeOutlines_spec houtlines
  obtain ⟨hentities', hadds⟩ := placeEntities_spec hplaced
  obtain ⟨listed, hlisted⟩ := listObjects_eq tiled.objects outlines u.map
  rw [hlisted] at hadds
  have hcount : u.project.tables.count .entities = s.project.tables.count .entities := by
    rw [Tables.count, hrecords, Tables.count]
  refine ⟨composed, by rw [← hcomposed, hsu.entityTypes], hentities', ?_⟩
  obtain ⟨listed', hlisted'⟩ := listObjects_eq tiled.objects
    (allSlots outlines (debugLast composed)) { v.map with objects := #[] }
  rw [hlisted']
  exact {
    places := (hsu.trans (.objects u listed)).trans (hadds.places.trans (.objects v listed'))
    entities := by rw [← hentities]; exact hadds.entities
    globals := by rw [← hcount]; exact hadds.globals
    fits := by rw [← hcount]; exact hadds.fits
    records := by rw [← hrecords]; exact hadds.records }

end GameBundle
