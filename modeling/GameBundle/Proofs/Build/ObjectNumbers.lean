import Mathlib.Data.List.Basic
import GameBundle.Proofs.Build.PlacedObjects

set_option autoImplicit false

/-! # Names, numbers and records of objects

On a map an object goes by its name and by a local number, and its record is found under the number.
Outlines are numbered in the order of the layers. Entities are composed in this order but added in
another, with the ones for debugging last, and all objects are listed in the order of the layers
again. Still each name leads to the number of its first object, and each number to the record that
was encoded from the object. -/

namespace GameBundle

variable {tiled : Tiled.Map} {tilesets : List (UInt32 × Tileset)} {types : Ordered EntityType}
variable {objects : List Tiled.Object} {drawn : List (Option Entity)}

/-! ## Composed entities -/

/-- What is composed of an object: nothing without a tile. -/
def Becomes (types : Ordered EntityType) (tilesets : List (UInt32 × Tileset))
    (object : Tiled.Object) (drawn : Option Entity) : Prop :=
  match object.gid with
  | none => drawn = none
  | some gid => ∃ context tile e, resolveTile tilesets gid context = .ok tile ∧
      Entity.compose types object tile = .ok e ∧ drawn = some e

/-- The entities among all objects, each with its place. -/
def entityPlaces (drawn : List (Option Entity)) : List (Nat × Entity) :=
  drawn.zipIdx.filterMap fun (e, place) => e.map fun e => (place, e)

theorem mem_entityPlaces {place : Nat} {e : Entity} :
    (place, e) ∈ entityPlaces drawn ↔ drawn[place]? = some (some e) := by
  rw [entityPlaces, List.mem_filterMap]
  constructor
  · rintro ⟨⟨_, _⟩, hmem, heq⟩
    obtain ⟨e, rfl, heq⟩ := Option.map_eq_some_iff.1 heq
    cases heq
    exact List.mk_mem_zipIdx_iff_getElem?.1 hmem
  · intro h
    exact ⟨(some e, place), List.mk_mem_zipIdx_iff_getElem?.2 h, rfl⟩

theorem composeEntities_becomes {map : String} {composed : List (Nat × Entity)}
    (h : composeEntities types tilesets map objects = .ok composed) :
    ∃ drawn, List.Forall₂ (Becomes types tilesets) objects drawn ∧
      composed = entityPlaces drawn := by
  simp only [composeEntities, bind_eq_ok, pure_eq_ok, mapM_eq_ok] at h
  obtain ⟨parts, hparts, rfl⟩ := h
  unfold entityPlaces
  -- the places count from anywhere
  generalize hfirst : (0 : Nat) = first at hparts ⊢
  clear hfirst
  induction objects generalizing parts first with
  | nil =>
    cases hparts
    exact ⟨[], .nil, rfl⟩
  | cons object rest ih =>
    rw [List.zipIdx_cons] at hparts
    cases hparts with
    | @cons _ part _ parts hpart hrest =>
      obtain ⟨drawn, hdrawn, hplaces⟩ := ih parts (first + 1) hrest
      dsimp only at hpart
      split at hpart
      · next hgid =>
        cases hpart
        refine ⟨none :: drawn, .cons (by rw [Becomes, hgid]) hdrawn, ?_⟩
        rw [List.filterMap_cons_none rfl, hplaces, List.zipIdx_cons, List.filterMap_cons_none rfl]
      · next gid hgid =>
        simp only [bind_eq_ok, pure_eq_ok] at hpart
        obtain ⟨tile, htile, e, he, rfl⟩ := hpart
        refine ⟨some e :: drawn, .cons ?_ hdrawn, ?_⟩
        · rw [Becomes, hgid]
          exact ⟨_, tile, e, htile, he, rfl⟩
        · exact congrArg (List.cons (first, e)) hplaces

/-- No two entities have one place. -/
theorem nodup_places (drawn : List (Option Entity)) :
    ((debugLast (entityPlaces drawn)).map Prod.fst).Nodup := by
  rw [((debugLast_perm _).map Prod.fst).nodup_iff, List.Nodup, List.pairwise_map, entityPlaces,
    List.pairwise_filterMap]
  have hplaces : drawn.zipIdx.Pairwise fun p q => p.2 < q.2 := by
    rw [← List.pairwise_map (R := (· < ·)), List.zipIdx_map_snd]
    exact List.pairwise_lt_range'
  refine hplaces.imp fun {p q} hlt a ha b hb => ?_
  obtain ⟨_, -, rfl⟩ := Option.map_eq_some_iff.1 ha
  obtain ⟨_, -, rfl⟩ := Option.map_eq_some_iff.1 hb
  exact Nat.ne_of_lt hlt

theorem lookup_of_mem {α : Type} {entries : List (Nat × α)} {key : Nat} {value : α}
    (hnodup : (entries.map Prod.fst).Nodup) (h : (key, value) ∈ entries) :
    entries.lookup key = some value := by
  obtain ⟨before, after, rfl⟩ := List.append_of_mem h
  refine List.lookup_eq_some_iff.2 ⟨before, after, rfl, fun p hp => bne_iff_ne.2 ?_⟩
  rw [List.map_append, List.map_cons] at hnodup
  exact Ne.symm ((List.nodup_append.1 hnodup).2.2 p.1 (List.mem_map_of_mem hp) key
    List.mem_cons_self)

theorem getElem?_allSlots {outlines : List (Option ObjectSlot)} {entities : List (Nat × Entity)}
    {i : Nat} {slot : Option ObjectSlot} (houtline : outlines[i]? = some slot) :
    (allSlots outlines entities)[i]? = some (slot <|> (entities.zipIdx.map fun ((place, _), i) =>
      (place, ObjectSlot.entity (UInt16.ofNat i))).lookup i) := by
  rw [allSlots, List.getElem?_map, List.getElem?_zipIdx, houtline, Nat.zero_add]
  rfl

/-- An entity has the number of its place in the order that they are added in. -/
theorem allSlots_entity {outlines : List (Option ObjectSlot)} {i k : Nat} {e : Entity}
    (houtline : outlines[i]? = some none) (hk : (debugLast (entityPlaces drawn))[k]? = some (i, e)) :
    (allSlots outlines (debugLast (entityPlaces drawn)))[i]? =
      some (some (.entity (UInt16.ofNat k))) := by
  have hnumber : ((debugLast (entityPlaces drawn)).zipIdx.map fun ((place, _), i) =>
      (place, ObjectSlot.entity (UInt16.ofNat i))).lookup i = some (.entity (UInt16.ofNat k)) := by
    refine lookup_of_mem ?_ (List.mem_map.2 ⟨((i, e), k), List.mk_mem_zipIdx_iff_getElem?.2 hk, rfl⟩)
    rw [List.map_map]
    have hplaces := nodup_places drawn
    rw [← List.zipIdx_map_fst 0 (debugLast (entityPlaces drawn)), List.map_map] at hplaces
    exact hplaces
  rw [getElem?_allSlots houtline, hnumber]
  rfl

/-! ## Listed objects -/

/-- If every object has a slot, then the list has one object for each. -/
theorem listObjects_all {map : MapContext} (hmap : map.objects = #[]) (numbers : List ObjectSlot) :
    (listObjects objects (numbers.map some) map).objects.toList =
      List.zipWith listed objects numbers := by
  rw [listObjects_listed, hmap]
  induction objects generalizing numbers with
  | nil => rfl
  | cons object rest ih =>
    cases numbers with
    | nil => rfl
    | cons number numbers => exact congrArg (List.cons _) (ih numbers)

/-- The slot of an outline, as long as only these are listed. -/
def outlineOnly (number : ObjectSlot) : Option ObjectSlot :=
  if number.isGeometry then some number else none

/-- Outlines are found by their ids before all other objects are listed as well as after that. -/
theorem geometryOfId?_listObjects {map map' : MapContext} (hmap : map.objects = #[])
    (hmap' : map'.objects = #[]) (numbers : List ObjectSlot) :
    (listObjects objects (numbers.map some) map).geometryOfId? =
      (listObjects objects (numbers.map outlineOnly) map').geometryOfId? := by
  have houtlines : (listObjects objects (numbers.map outlineOnly) map').objects.toList =
      (listObjects objects (numbers.map some) map).objects.toList.filter (·.slot.isGeometry) := by
    rw [listObjects_all hmap, listObjects_listed, hmap']
    induction objects generalizing numbers with
    | nil => rfl
    | cons object rest ih =>
      cases numbers with
      | nil => rfl
      | cons number numbers =>
        have hrest := ih numbers
        cases number with
        | entity index => exact hrest
        | geometry index => exact congrArg (List.cons _) hrest
  funext id
  rw [MapContext.geometryOfId?, MapContext.geometryOfId?, ← Array.find?_toList,
    ← Array.find?_toList, houtlines, List.find?_filter]
  congr 2
  funext o
  cases o.slot.isGeometry <;> simp [Bool.beq_eq_decide_eq]

/-! ## Runs of records -/

/-- Where records are added behind others, and their numbers go up with them, each is found under
    its number. -/
theorem record_of_run {α : Type} {R : α → Record → Prop} {globals : List UInt16}
    {before records : List Record} {xs : List α}
    (hglobals : globals.map UInt16.toNat = List.range' before.length xs.length)
    (hrecords : List.Forall₂ R xs records) {k : Nat} {x : α} (hk : xs[k]? = some x) :
    ∃ global record, globals[k]? = some global ∧ k < UInt16.size ∧
      (before ++ records)[global.toNat]? = some record ∧ R x record := by
  have hlt := (List.getElem?_eq_some_iff.1 hk).1
  have hglobal : (globals.map UInt16.toNat)[k]? = (List.range' before.length xs.length)[k]? := by
    rw [hglobals]
  rw [List.getElem?_map, List.getElem?_range' hlt, Nat.one_mul] at hglobal
  obtain ⟨global, hglobal, hnumber⟩ := Option.map_eq_some_iff.1 hglobal
  obtain ⟨record, hrecord, hR⟩ := forall₂_getElem? hrecords hk
  refine ⟨global, record, hglobal, ?_, ?_, hR⟩
  · exact Nat.lt_of_le_of_lt (Nat.le_add_left k before.length) (hnumber ▸ global.toNat_lt)
  · rw [hnumber, List.getElem?_append_right (Nat.le_add_right _ _), Nat.add_sub_cancel_left, hrecord]

/-- The outlines in front of an outline are those in front of it among the outlines. -/
theorem outline_of_getElem? {i : Nat} {object : Tiled.Object} (hi : objects[i]? = some object)
    (houtline : isOutline object = true) :
    (objects.filter isOutline)[outlinesBefore objects i]? = some object := by
  induction objects generalizing i with
  | nil => cases hi
  | cons first rest ih =>
    cases i with
    | zero =>
      cases hi
      rw [List.filter_cons_of_pos houtline]
      rfl
    | succ i =>
      rw [outlinesBefore_succ]
      cases hfirst : isOutline first with
      | false =>
        rw [List.filter_cons_of_neg (by rw [hfirst]; decide)]
        exact ih hi
      | true =>
        rw [List.filter_cons_of_pos hfirst]
        exact ih hi

/-- The record of an outline is found under its number. -/
theorem OutlinesAdded.record {s t : MapState} {slots : List (Option ObjectSlot)}
    (h : OutlinesAdded s objects slots t) (hs : s.map.geometry = #[]) {i : Nat}
    {object : Tiled.Object} (hi : objects[i]? = some object) (hgid : object.gid = none) :
    outlinesBefore objects i < UInt16.size ∧ ∃ global record,
      t.map.geometry[outlinesBefore objects i]? = some global ∧
      (t.project.tables.records .geometry)[global.toNat]? = some record ∧
      OutlineRecord object record := by
  obtain ⟨added, hgeometry, hglobals⟩ := h.geometry
  obtain ⟨records, hrecords, htotal⟩ := h.records
  have houtline : isOutline object = true := by
    rw [isOutline, hgid]
    rfl
  rw [List.countP_eq_length_filter, Tables.count_eq_length] at hglobals
  obtain ⟨global, record, hglobal, hlt, hrecord, hfrom⟩ :=
    record_of_run hglobals hrecords (outline_of_getElem? hi houtline)
  rw [hs] at hgeometry
  refine ⟨hlt, global, record, ?_, ?_, hfrom⟩
  · rw [← Array.getElem?_toList, hgeometry]
    exact hglobal
  · rw [← Array.getElem?_toList, htotal]
    exact hrecord

/-- The record of an entity is found under its place. -/
theorem EntitiesAdded.record {s t : MapState} {placed : List (UInt16 × Entity)}
    (h : EntitiesAdded s placed t) (hs : s.map.entities = #[]) {k : Nat} {e : Entity}
    (hk : (placed.map Prod.snd)[k]? = some e) :
    k < UInt16.size ∧ ∃ global record, t.map.entities[k]? = some global ∧
      (t.project.tables.records .entities)[global.toNat]? = some record ∧
      EntityRecord s.project.entityTypes s.map e record := by
  obtain ⟨records, hrecords, htotal⟩ := h.records
  have hglobals := h.globals
  have hentities := h.entities
  have hlength : placed.length = (placed.map Prod.snd).length := (List.length_map Prod.snd).symm
  rw [hlength, Tables.count_eq_length] at hglobals
  obtain ⟨global, record, hglobal, hlt, hrecord, hfrom⟩ := record_of_run hglobals hrecords hk
  rw [hs] at hentities
  refine ⟨hlt, global, record, ?_, ?_, hfrom⟩
  · rw [← Array.getElem?_toList, hentities]
    exact hglobal
  · rw [← Array.getElem?_toList, htotal]
    exact hrecord

/-! ## Looking up -/

/-- A name leads to the number of the first object with it, among those that are looked at. -/
def FindsFirst (objects : List Tiled.Object) (map : MapContext) (among : Tiled.Object → Bool)
    (kind name context : String) (result : Except BuildError UInt16) : Prop :=
  match objects.findIdx? fun o => o.name == name && among o with
  | some i => ∃ object, map.objects[i]? = some object ∧ result = .ok object.slot.index
  | none => result = .error (.notFound context kind name map.scope)

theorem number_findsFirst {map : MapContext} {p : ObjectSlot → Bool} {among : Tiled.Object → Bool}
    (hlisted : List.Forall₂ (fun o l => l.name = o.name ∧ p l.slot = among o) objects
      map.objects.toList) {name : String} (hname : reservedNumber? name = none)
    (kind context : String) :
    FindsFirst objects map among kind name context (map.number kind name context p) := by
  have hfind : (objects.findIdx? fun o => o.name == name && among o) =
      map.objects.toList.findIdx? fun l => l.name == name && p l.slot := by
    generalize map.objects.toList = all at hlisted
    induction hlisted with
    | nil => rfl
    | cons h _ ih => rw [List.findIdx?_cons, List.findIdx?_cons, h.1, h.2, ih]
  rw [FindsFirst, hfind, MapContext.number, MapContext.find?, hname, ← Array.find?_toList,
    List.find?_eq_bind_findIdx?_getElem?]
  cases hfirst : map.objects.toList.findIdx? fun l => l.name == name && p l.slot with
  | none => rfl
  | some i =>
    obtain ⟨hlt, -⟩ := List.findIdx?_eq_some_iff_getElem.1 hfirst
    refine ⟨map.objects.toList[i], ?_, ?_⟩
    · rw [← Array.getElem?_toList, List.getElem?_eq_getElem hlt]
    · rw [Option.bind_some, List.getElem?_eq_getElem hlt]
      rfl

/-! ## All objects of a map -/

/-- The number of an object: of the outlines in front of it, or of its place in the order that the
    entities are added in. -/
structure NumberOf (objects : List Tiled.Object) (drawn : List (Option Entity)) (i : Nat)
    (object : Tiled.Object) (number : ObjectSlot) : Prop where
  kind : number.isGeometry = isOutline object
  outline : object.gid = none → number = .geometry (UInt16.ofNat (outlinesBefore objects i))
  entity : ∀ e, drawn[i]? = some (some e) → ∃ k,
    (debugLast (entityPlaces drawn))[k]? = some (i, e) ∧ number = .entity (UInt16.ofNat k)

/-- What exists for each item of a list exists for the list. -/
theorem exists_list_of_forall {α β : Type} {xs : List α} {P : Nat → α → β → Prop}
    (h : ∀ (i : Nat) (x : α), xs[i]? = some x → ∃ y, P i x y) :
    ∃ ys : List β, ys.length = xs.length ∧
      ∀ (i : Nat) (x : α), xs[i]? = some x → ∃ y, ys[i]? = some y ∧ P i x y := by
  induction xs generalizing P with
  | nil => exact ⟨[], rfl, nofun⟩
  | cons x xs ih =>
    obtain ⟨y, hy⟩ := h 0 x rfl
    obtain ⟨ys, hlength, hys⟩ := ih (P := fun i => P (i + 1)) fun i => h (i + 1)
    refine ⟨y :: ys, congrArg Nat.succ hlength, fun i x' hi => ?_⟩
    cases i with
    | zero =>
      cases hi
      exact ⟨y, rfl, hy⟩
    | succ i => exact hys i x' hi

theorem eq_map_of_getElem? {α β : Type} {f : α → β} {xs : List α} {ys : List β}
    (hlength : ys.length = xs.length)
    (h : ∀ (i : Nat) (x : α), xs[i]? = some x → ys[i]? = some (f x)) : ys = xs.map f := by
  apply List.ext_getElem?
  intro i
  rw [List.getElem?_map]
  cases hi : xs[i]? with
  | none =>
    rw [List.getElem?_eq_none_iff] at hi
    exact List.getElem?_eq_none_iff.2 (hlength ▸ hi)
  | some x => exact h i x hi

/-- Each object has a number. Outlines have theirs from the start. -/
theorem exists_numbers {outlines : List (Option ObjectSlot)}
    (hdrawn : List.Forall₂ (Becomes types tilesets) objects drawn)
    (hlength : outlines.length = objects.length)
    (houtlines : ∀ i (object : Tiled.Object), objects[i]? = some object →
      outlines[i]? = some (outlineSlot object (outlinesBefore objects i))) :
    ∃ numbers : List ObjectSlot, numbers.length = objects.length ∧
      allSlots outlines (debugLast (entityPlaces drawn)) = numbers.map some ∧
      outlines = numbers.map outlineOnly ∧
      ∀ i object, objects[i]? = some object → ∃ number, numbers[i]? = some number ∧
        NumberOf objects drawn i object number := by
  have hnumber : ∀ i object, objects[i]? = some object → ∃ number,
      (allSlots outlines (debugLast (entityPlaces drawn)))[i]? = some (some number) ∧
        outlines[i]? = some (outlineOnly number) ∧ NumberOf objects drawn i object number := by
    intro i object hi
    obtain ⟨become, hbecome, hgid⟩ := forall₂_getElem? hdrawn hi
    have houtline := houtlines i object hi
    rw [Becomes] at hgid
    split at hgid
    · next hnone =>
      subst hgid
      rw [outlineSlot, if_neg (by rw [hnone]; decide)] at houtline
      refine ⟨.geometry (UInt16.ofNat (outlinesBefore objects i)), ?_, houtline, ?_, fun _ => rfl, ?_⟩
      · exact getElem?_allSlots houtline
      · rw [isOutline, hnone]
        rfl
      · intro e he
        cases hbecome.symm.trans he
    · next gid hsome =>
      obtain ⟨_, _, e, -, -, rfl⟩ := hgid
      rw [outlineSlot, if_pos (by rw [hsome]; rfl)] at houtline
      obtain ⟨k, hk⟩ := List.getElem?_of_mem
        (mem_debugLast.2 (mem_entityPlaces.2 hbecome))
      refine ⟨.entity (UInt16.ofNat k), allSlots_entity houtline hk, houtline, ?_, ?_, ?_⟩
      · rw [isOutline, hsome]
        rfl
      · intro hnone
        cases hsome.symm.trans hnone
      · intro e' he'
        cases hbecome.symm.trans he'
        exact ⟨k, hk, rfl⟩
  obtain ⟨numbers, hcount, hnumbers⟩ := exists_list_of_forall hnumber
  have hobject : ∀ (i : Nat) (number : ObjectSlot), numbers[i]? = some number →
      ∃ object, objects[i]? = some object := by
    intro i number hi
    have hlt := (List.getElem?_eq_some_iff.1 hi).1
    exact ⟨_, List.getElem?_eq_getElem (hcount ▸ hlt)⟩
  have hsize : (allSlots outlines (debugLast (entityPlaces drawn))).length = numbers.length := by
    rw [allSlots, List.length_map, List.length_zipIdx, hlength, hcount]
  refine ⟨numbers, hcount, eq_map_of_getElem? hsize fun i number hi => ?_,
    eq_map_of_getElem? (hlength.trans hcount.symm) fun i number hi => ?_, fun i object hi => ?_⟩
  · obtain ⟨object, hobject⟩ := hobject i number hi
    obtain ⟨number', hi', hslot, -, -⟩ := hnumbers i object hobject
    cases hi.symm.trans hi'
    exact hslot
  · obtain ⟨object, hobject⟩ := hobject i number hi
    obtain ⟨number', hi', -, houtline, -⟩ := hnumbers i object hobject
    cases hi.symm.trans hi'
    exact houtline
  · obtain ⟨number, hi', -, -, hnumber⟩ := hnumbers i object hi
    exact ⟨number, hi', hnumber⟩

/-- An object is listed at its place, with its name and its number. -/
theorem getElem?_listed {numbers : List ObjectSlot} {i : Nat} {object : Tiled.Object}
    {number : ObjectSlot} (hi : objects[i]? = some object) (hnumber : numbers[i]? = some number) :
    (List.zipWith listed objects numbers)[i]? = some (listed object number) := by
  rw [List.getElem?_zipWith, hi, hnumber]

/-- What the numbers say of the objects, the list says of them. -/
theorem forall₂_listed {numbers : List ObjectSlot} {p : ObjectSlot → Bool}
    {among : Tiled.Object → Bool} (hcount : numbers.length = objects.length)
    (hkind : ∀ (i : Nat) (object : Tiled.Object), objects[i]? = some object →
      ∃ number, numbers[i]? = some number ∧ p number = among object) :
    List.Forall₂ (fun o l => l.name = o.name ∧ p l.slot = among o) objects
      (List.zipWith listed objects numbers) := by
  have hsize : (List.zipWith listed objects numbers).length = objects.length := by
    rw [List.length_zipWith, hcount, Nat.min_self]
  refine List.forall₂_iff_get.2 ⟨hsize.symm, fun i hi hi' => ?_⟩
  obtain ⟨number, hnumber, hsame⟩ := hkind i _ (List.getElem?_eq_getElem hi)
  have hlisted := getElem?_listed (List.getElem?_eq_getElem hi) hnumber
  rw [List.getElem?_eq_getElem hi', Option.some.injEq] at hlisted
  rw [List.get_eq_getElem, hlisted]
  exact ⟨rfl, hsame⟩

/-- A path is looked for among the outlines. -/
theorem EntityRecord.congr {map map' : MapContext} {e : Entity} {record : Record}
    (h : EntityRecord types map e record) (hname : map'.name = map.name)
    (hids : map'.geometryOfId? = map.geometryOfId?) : EntityRecord types map' e record := by
  obtain ⟨path, bytes, hpath, hbytes, hrecord⟩ := h
  refine ⟨path, bytes, ?_, hbytes, hrecord⟩
  rw [← hpath, pathOf, pathOf, MapContext.scope, MapContext.scope, hids, hname]

/-- What is true of the objects of a map when all of them are placed. -/
structure ObjectsNumbered (tiled : Tiled.Map) (drawn : List (Option Entity)) (p : Project)
    (placed : List (UInt16 × Entity)) (t : MapState) : Prop where
  /-- The entities come in the order of the layers, the ones for debugging last. -/
  order : placed.map Prod.snd = (debugLast (entityPlaces drawn)).map Prod.snd
  entities : t.map.entities.toList = placed.map Prod.fst
  entityRun : t.map.entities.toList.map UInt16.toNat =
    List.range' (p.tables.count .entities) placed.length
  geometryRun : t.map.geometry.toList.map UInt16.toNat =
    List.range' (p.tables.count .geometry) (tiled.objects.countP isOutline)
  size : t.map.objects.size = tiled.objects.length
  /-- An outline is numbered by those in front of it, and its record is encoded from it. -/
  outline : ∀ i object, tiled.objects[i]? = some object → object.gid = none →
    ∃ number global record, t.map.objects[i]? = some (listed object (.geometry number)) ∧
      number.toNat = outlinesBefore tiled.objects i ∧
      t.map.geometry[number.toNat]? = some global ∧
      (t.project.tables.records .geometry)[global.toNat]? = some record ∧
      OutlineRecord object record
  /-- An entity is numbered by its place in their order, and its record is encoded from it. -/
  entity : ∀ i object e, tiled.objects[i]? = some object → drawn[i]? = some (some e) →
    ∃ number global record, t.map.objects[i]? = some (listed object (.entity number)) ∧
      (debugLast (entityPlaces drawn))[number.toNat]? = some (i, e) ∧
      t.map.entities[number.toNat]? = some global ∧
      (t.project.tables.records .entities)[global.toNat]? = some record ∧
      EntityRecord p.entityTypes t.map e record
  entityNumber : ∀ name context, reservedNumber? name = none →
    FindsFirst tiled.objects t.map (!isOutline ·) "entity" name context
      (t.map.entityNumber name context)
  geometryNumber : ∀ name context, reservedNumber? name = none →
    FindsFirst tiled.objects t.map isOutline "geometry" name context
      (t.map.geometryNumber name context)
  objectNumber : ∀ name context, reservedNumber? name = none →
    FindsFirst tiled.objects t.map (fun _ => true) "object" name context
      (t.map.objectNumber name context)

/-- **Names, numbers and records of objects stay together.** -/
theorem objects_keep_numbers {name : String} {index : UInt16} {p : Project}
    {placed : List (UInt16 × Entity)} {t : MapState}
    (h : Yields (placeObjects tiled tilesets) ⟨{ name, index }, p⟩ placed t) :
    ∃ drawn, List.Forall₂ (Becomes p.entityTypes tilesets) tiled.objects drawn ∧
      ObjectsNumbered tiled drawn p placed t := by
  obtain ⟨outlines, u, composed, v, -, houtlines, hcomposed, hplaced, rfl⟩ := placeObjects_steps h
  have houtlines := outlinesAdded_of_placeOutlines houtlines
  obtain ⟨hentities, horder⟩ := entitiesAdded_of_placeEntities hplaced
  obtain ⟨umap, uproject⟩ := u
  obtain ⟨geometry, rfl⟩ := houtlines.map
  obtain ⟨tables, rfl⟩ := houtlines.project
  obtain ⟨drawn, hdrawn, rfl⟩ := composeEntities_becomes hcomposed
  obtain ⟨numbers, hcount, hall, honly, hnumbers⟩ :=
    exists_numbers hdrawn houtlines.length fun i object hi => by
      rw [houtlines.slots i object hi, Array.size_empty, Nat.zero_add]
  obtain ⟨vmap, vproject⟩ := v
  obtain ⟨entities, player, rfl⟩ := hentities.map
  refine ⟨drawn, hdrawn, ?_⟩
  -- the paths of entities lead to the same outlines when all objects are listed
  have hids : (listObjects tiled.objects (numbers.map some)
      { name, index, geometry, entities, player }).geometryOfId? =
        (listObjects tiled.objects (numbers.map outlineOnly)
          { name, index, geometry }).geometryOfId? := geometryOfId?_listObjects rfl rfl numbers
  have hlisted : (listObjects tiled.objects (numbers.map some)
      { name, index, geometry, entities, player }).objects.toList =
        List.zipWith listed tiled.objects numbers := listObjects_all rfl numbers
  obtain ⟨before, hbefore⟩ := listObjects_eq tiled.objects outlines { name, index, geometry }
  obtain ⟨after, hafter⟩ := listObjects_eq tiled.objects (numbers.map some)
    { name, index, geometry, entities, player }
  rw [← honly] at hids
  rw [hbefore] at hentities hids
  rw [hafter] at hids hlisted
  rw [hall, hbefore, hafter]
  have hobject : ∀ {i : Nat} {object : Tiled.Object} {number : ObjectSlot},
      tiled.objects[i]? = some object → numbers[i]? = some number →
      after[i]? = some (listed object number) := by
    intro i object number hi hnumber
    rw [← Array.getElem?_toList, hlisted]
    exact getElem?_listed hi hnumber
  have hkinds : ∀ {p : ObjectSlot → Bool} {among : Tiled.Object → Bool},
      (∀ i object number, NumberOf tiled.objects drawn i object number → p number = among object) →
      List.Forall₂ (fun o l => l.name = o.name ∧ p l.slot = among o) tiled.objects
        after.toList := by
    intro p among hkind
    rw [hlisted]
    refine forall₂_listed hcount fun i object hi => ?_
    obtain ⟨number, hnumber, hof⟩ := hnumbers i object hi
    exact ⟨number, hnumber, hkind i object number hof⟩
  exact {
    order := horder
    entities := hentities.entities
    entityRun := by
      have hrun := hentities.globals
      rw [Tables.count, houtlines.frame .entities (by decide), ← Tables.count] at hrun
      exact hentities.entities ▸ hrun
    geometryRun := by
      obtain ⟨added, hadded, hrun⟩ := houtlines.geometry
      exact hadded ▸ hrun
    size := by
      rw [← Array.length_toList, hlisted, List.length_zipWith, hcount, Nat.min_self]
    outline := by
      intro i object hi hgid
      obtain ⟨number, hnumber, hof⟩ := hnumbers i object hi
      obtain ⟨hlt, global, record, hglobal, hrecord, hfrom⟩ := houtlines.record rfl hi hgid
      rw [hof.outline hgid] at hnumber
      refine ⟨_, global, record, hobject hi hnumber, UInt16.toNat_ofNat_of_lt' hlt, ?_, ?_, hfrom⟩
      · rw [UInt16.toNat_ofNat_of_lt' hlt]
        exact hglobal
      · rw [hentities.frame .geometry (by decide)]
        exact hrecord
    entity := by
      intro i object e hi he
      obtain ⟨number, hnumber, hof⟩ := hnumbers i object hi
      obtain ⟨k, hk, rfl⟩ := hof.entity e he
      have hplace : (placed.map Prod.snd)[k]? = some e := by
        rw [horder, List.getElem?_map, hk]
        rfl
      obtain ⟨hlt, global, record, hglobal, hrecord, hfrom⟩ := hentities.record rfl hplace
      refine ⟨_, global, record, hobject hi hnumber, ?_, ?_, hrecord, hfrom.congr rfl hids⟩
      · rwa [UInt16.toNat_ofNat_of_lt' hlt]
      · rw [UInt16.toNat_ofNat_of_lt' hlt]
        exact hglobal
    entityNumber := fun name context hname => by
      refine number_findsFirst (hkinds fun i object number hof => ?_) hname "entity" context
      rw [← hof.kind]
      cases number <;> rfl
    geometryNumber := fun name context hname =>
      number_findsFirst (hkinds fun _ _ _ hof => hof.kind) hname "geometry" context
    objectNumber := fun name context hname =>
      number_findsFirst (hkinds fun _ _ _ _ => rfl) hname "object" context }

/-- An object of a farm: a bird, or else a rectangle. -/
def farmObject (id : UInt32) (name : String) (gid : Option UInt32)
    (properties : List Tiled.Property) : Tiled.Object where
  id := id
  name := name
  kind := ""
  x := Float.ofBits 0
  y := Float.ofBits 0
  width := Float.ofBits 0
  height := Float.ofBits 0
  rotation := Float.ofBits 0
  gid := gid
  point := false
  ellipse := false
  polygon := none
  polyline := none
  properties := properties

/-- The tiles of the farm. -/
def farmTilesets : List (UInt32 × Tileset) := [(1, ⟨"birds", 0, 4, []⟩)]

/-- Two fences and three birds on two layers. The first bird is only there for debugging, and the
    last walks along the second fence. -/
def farm : Tiled.Map where
  width := 0
  height := 0
  tileWidth := 8
  tileHeight := 8
  layers := [
    .objects "near" [farmObject 1 "ghost" (some 1) [⟨"is_debug", "bool", .bool true⟩],
      farmObject 2 "fence" none []],
    .objects "far" [farmObject 3 "hen" (some 2) [], farmObject 4 "fence" none [],
      farmObject 5 "hen" (some 2) [⟨"path", "object", .ofInt 4⟩]]]
  tilesets := []
  properties := []

/-- The ghost comes last, and each name leads to the first that has it. -/
theorem farm_numbered : ∃ placed t,
    Yields (placeObjects farm farmTilesets) ⟨{ name := "farm", index := 0 }, {}⟩ placed t ∧
      t.map.objects.toList.map (fun o => (o.name, o.slot)) =
        [("ghost", .entity 2), ("fence", .geometry 0), ("hen", .entity 0), ("fence", .geometry 1),
          ("hen", .entity 1)] ∧
      ∃ drawn, List.Forall₂ (Becomes ∅ farmTilesets) farm.objects drawn ∧
        ObjectsNumbered farm drawn {} placed t := by
  obtain ⟨placed, hplaced⟩ : ∃ placed,
      (outcome (placeObjects farm farmTilesets) ⟨{ name := "farm", index := 0 }, {}⟩).1 =
        .ok placed := exists_of_isOk (by decide +kernel)
  have hyields := yields_outcome hplaced
  have hlisted : (outcome (placeObjects farm farmTilesets)
      ⟨{ name := "farm", index := 0 }, {}⟩).2.map.objects.toList.map (fun o => (o.name, o.slot)) =
        [("ghost", .entity 2), ("fence", .geometry 0), ("hen", .entity 0), ("fence", .geometry 1),
          ("hen", .entity 1)] := by decide +kernel
  obtain ⟨drawn, hdrawn, hnumbered⟩ := objects_keep_numbers hyields
  exact ⟨placed, _, hyields, hlisted, drawn, hdrawn, hnumbered⟩

end GameBundle
