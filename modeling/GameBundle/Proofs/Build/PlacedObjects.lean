import GameBundle.Build.Maps
import GameBundle.Proofs.Content.Tables

set_option autoImplicit false

/-! # How objects are placed

Objects are placed in three passes: outlines first, in the order of the layers, then entities, with
the ones for debugging last, and then all names are listed again in the order of the layers. Each
pass has one lemma about one object and one about the whole list. What is true of entities after
each of them is carried along the list by `placeEntities_keeps`, and by `placeEntities_fails` if it
breaks off. -/

namespace GameBundle

variable {s t u : MapState}

/-! ## One entity -/

/-- An entity is added with the next record, and becomes the player if it says so and there is
    none. -/
theorem placeEntity_steps {earlier : List (UInt16 × Entity)} {e : Entity} {global : UInt16}
    (h : Yields (placeEntity earlier e) s global t) :
    ∃ path bytes, pathOf s.map e = .ok path ∧ e.encode s.project.entityTypes path = .ok bytes ∧
      s.project.tables.count .entities < UInt16.size ∧
      global = UInt16.ofNat (s.project.tables.count .entities) ∧
      (e.isPlayer = true → s.map.player = none) ∧
      t = ⟨{ s.map with
          entities := s.map.entities.push global
          player := if e.isPlayer then some (UInt16.ofNat s.map.entities.size) else s.map.player },
        { s.project with tables := s.project.tables.add .entities ⟨e.label, some bytes⟩ }⟩ := by
  simp only [placeEntity, yields_bind, yields_get, yields_except, yields_onProject, addEntity,
    yields_onTables, Tables.yields_push, yields_changeMap, liftM_eq_ok] at h
  obtain ⟨_, _, ⟨rfl, rfl⟩, path, _, ⟨hpath, rfl⟩, global, _, ⟨_, ⟨_, _, ⟨rfl, rfl⟩, bytes, _,
    ⟨hbytes, rfl⟩, _, ⟨hcount, rfl, rfl⟩, rfl⟩, rfl⟩, _, _, rfl, h⟩ := h
  refine ⟨path, bytes, hpath, hbytes, hcount, ?_⟩
  split at h
  · next hplayer =>
    split at h
    · simp only [yields_bind, yields_reject, false_and, exists_false] at h
    · next hnone =>
      simp only [yields_bind, yields_changeMap, yields_pure] at h
      obtain ⟨_, _, rfl, rfl, rfl⟩ := h
      exact ⟨rfl, fun _ => hnone, by rw [if_pos hplayer]⟩
  · next hplayer =>
    obtain ⟨rfl, rfl⟩ := yields_pure.1 h
    exact ⟨rfl, fun h => (hplayer h).elim, by rw [if_neg hplayer]⟩

/-! ## All entities -/

theorem debugLast_perm (entities : List (Nat × Entity)) : (debugLast entities).Perm entities := by
  have h := List.filter_append_perm (fun p : Nat × Entity => !p.2.isDebug) entities
  simpa only [debugLast, Bool.not_not] using h

theorem mem_debugLast {entities : List (Nat × Entity)} {p : Nat × Entity} :
    p ∈ debugLast entities ↔ p ∈ entities := (debugLast_perm entities).mem_iff

section Invariant

variable {P : List (UInt16 × Entity) → MapState → Prop} {entities : List (Nat × Entity)}
variable (hstep : ∀ before s, ∀ e ∈ entities.map Prod.snd, ∀ global t, P before s →
  Yields (placeEntity before e) s global t → P (before ++ [(global, e)]) t)
include hstep

/-- What placing one entity keeps true is true when all of them are placed. -/
theorem placeEntities_keeps {placed : List (UInt16 × Entity)} (hs : P [] s)
    (h : Yields (placeEntities entities) s placed t) :
    placed.map Prod.snd = entities.map Prod.snd ∧ P placed t := by
  -- the fold appends to what it has, so the induction is about any start
  have hfold : ∀ {before : List (UInt16 × Entity)} {s : MapState}, P before s →
      Yields (entities.foldlM (fun placed p => do
        let global ← placeEntity placed p.2
        return placed ++ [(global, p.2)]) before) s placed t →
      placed.map Prod.snd = before.map Prod.snd ++ entities.map Prod.snd ∧ P placed t := by
    clear h hs
    induction entities with
    | nil =>
      intro before s hs h
      simp only [List.foldlM_nil, yields_pure] at h
      obtain ⟨rfl, rfl⟩ := h
      exact ⟨(List.append_nil _).symm, hs⟩
    | cons p rest ih =>
      intro before s hs h
      simp only [List.foldlM_cons, yields_bind, yields_pure] at h
      obtain ⟨_, u, ⟨global, _, hglobal, rfl, rfl⟩, hrest⟩ := h
      have hu := hstep before s p.2 List.mem_cons_self global _ hs hglobal
      obtain ⟨horder, hP⟩ := ih (fun before s e he => hstep before s e (List.mem_cons_of_mem _ he))
        hu hrest
      refine ⟨?_, hP⟩
      rw [horder, List.map_append, List.append_assoc]
      rfl
  exact hfold hs h

/-- If they are not all placed, then it is true when the first that cannot be placed is reached. -/
theorem placeEntities_fails {f : Failure} (hs : P [] s) (h : Fails (placeEntities entities) s f t) :
    ∃ before e rest u, entities.map Prod.snd = before.map Prod.snd ++ e :: rest ∧ P before u ∧
      Fails (placeEntity before e) u f t := by
  have hfold : ∀ {before : List (UInt16 × Entity)} {s : MapState}, P before s →
      Fails (entities.foldlM (fun placed p => do
        let global ← placeEntity placed p.2
        return placed ++ [(global, p.2)]) before) s f t →
      ∃ all e rest u, before.map Prod.snd ++ entities.map Prod.snd =
        all.map Prod.snd ++ e :: rest ∧ P all u ∧ Fails (placeEntity all e) u f t := by
    clear h hs
    induction entities with
    | nil => exact fun _ h => (fails_pure.1 h).elim
    | cons p rest ih =>
      intro before s hs h
      simp only [List.foldlM_cons, fails_bind, yields_bind, fails_pure, yields_pure, and_false,
        exists_false, or_false] at h
      obtain hfirst | ⟨_, u, ⟨global, _, hglobal, rfl, rfl⟩, hrest⟩ := h
      · exact ⟨before, p.2, rest.map Prod.snd, s, rfl, hs, hfirst⟩
      · have hu := hstep before s p.2 List.mem_cons_self global _ hs hglobal
        obtain ⟨all, e, later, v, horder, hP, hfails⟩ :=
          ih (fun before s e he => hstep before s e (List.mem_cons_of_mem _ he)) hu hrest
        refine ⟨all, e, later, v, ?_, hP, hfails⟩
        rw [← horder, List.map_append, List.append_assoc]
        rfl
  exact hfold hs h

end Invariant

/-- The record of an entity is encoded from it, with the number of its path. -/
def EntityRecord (types : Ordered EntityType) (map : MapContext) (e : Entity) (record : Record) :
    Prop :=
  ∃ path bytes, pathOf map e = .ok path ∧ e.encode types path = .ok bytes ∧
    record = ⟨e.label, some bytes⟩

/-- Entities were added behind what there was, and nothing else. -/
structure EntitiesAdded (s : MapState) (placed : List (UInt16 × Entity)) (t : MapState) : Prop where
  map : ∃ entities player, t.map = { s.map with entities, player }
  project : ∃ tables, t.project = { s.project with tables }
  entities : t.map.entities.toList = s.map.entities.toList ++ placed.map Prod.fst
  globals : (placed.map Prod.fst).map UInt16.toNat =
    List.range' (s.project.tables.count .entities) placed.length
  records : ∃ records, List.Forall₂ (EntityRecord s.project.entityTypes s.map)
    (placed.map Prod.snd) records ∧ (t.project.tables.records .entities).toList =
      (s.project.tables.records .entities).toList ++ records
  frame : ∀ kind, kind ≠ .entities →
    t.project.tables.records kind = s.project.tables.records kind

theorem EntitiesAdded.refl (s : MapState) : EntitiesAdded s [] s where
  map := ⟨s.map.entities, s.map.player, rfl⟩
  project := ⟨s.project.tables, rfl⟩
  entities := (List.append_nil _).symm
  globals := rfl
  records := ⟨[], .nil, (List.append_nil _).symm⟩
  frame _ _ := rfl

theorem EntitiesAdded.concat {before : List (UInt16 × Entity)} {e : Entity} {global : UInt16}
    (hst : EntitiesAdded s before t) (h : Yields (placeEntity before e) t global u) :
    EntitiesAdded s (before ++ [(global, e)]) u := by
  obtain ⟨path, bytes, hpath, hbytes, hcount, rfl, -, rfl⟩ := placeEntity_steps h
  obtain ⟨tmap, tproject⟩ := t
  obtain ⟨⟨entities, player, rfl⟩, ⟨tables, rfl⟩, hentities, hglobals, ⟨records, hrecords, htotal⟩,
    hframe⟩ := hst
  dsimp only at *
  have hsize : tables.count .entities = s.project.tables.count .entities + before.length := by
    rw [Tables.count_eq_length, htotal, List.length_append, Tables.count_eq_length,
      ← hrecords.length_eq, List.length_map]
  exact {
    map := ⟨_, _, rfl⟩
    project := ⟨_, rfl⟩
    entities := by
      rw [Array.toList_push, hentities, List.append_assoc, List.map_append]
      rfl
    globals := by
      rw [List.map_append, List.map_append, hglobals, List.length_append, List.length_singleton,
        List.range'_concat, Nat.one_mul, ← hsize, List.map_cons, List.map_nil, List.map_cons,
        UInt16.toNat_ofNat_of_lt' hcount, List.map_nil]
    records := by
      refine ⟨records ++ [⟨e.label, some bytes⟩], ?_, ?_⟩
      · rw [List.map_append]
        exact List.rel_append hrecords (.cons ⟨path, bytes, hpath, hbytes, rfl⟩ .nil)
      · rw [Tables.toList_records_add, htotal, List.append_assoc]
    frame := fun kind hkind => (Tables.records_add_of_ne _ hkind).trans (hframe kind hkind) }

theorem entitiesAdded_of_placeEntities {entities : List (Nat × Entity)}
    {placed : List (UInt16 × Entity)} (h : Yields (placeEntities entities) s placed t) :
    EntitiesAdded s placed t ∧ placed.map Prod.snd = entities.map Prod.snd := by
  obtain ⟨horder, hadded⟩ := placeEntities_keeps (fun _ _ _ _ _ _ => EntitiesAdded.concat)
    (EntitiesAdded.refl s) h
  exact ⟨hadded, horder⟩

/-! ## Outlines -/

/-- The record of an outline is encoded from its object. -/
def OutlineRecord (object : Tiled.Object) (record : Record) : Prop :=
  ∃ bytes, Outline.encodeObject object = .ok bytes ∧ record = ⟨object.name, some bytes⟩

/-- An object without a tile is an outline. -/
def isOutline (object : Tiled.Object) : Bool := object.gid.isNone

/-- The number of outlines in front of an object. -/
def outlinesBefore (objects : List Tiled.Object) (i : Nat) : Nat :=
  (objects.take i).countP isOutline

/-- An object without a tile has the number of an outline. -/
def outlineSlot (object : Tiled.Object) (number : Nat) : Option ObjectSlot :=
  if object.gid.isSome then none else some (.geometry (UInt16.ofNat number))

theorem outlinesBefore_succ (object : Tiled.Object) (rest : List Tiled.Object) (i : Nat) :
    outlinesBefore (object :: rest) (i + 1) =
      outlinesBefore rest i + if isOutline object then 1 else 0 := by
  rw [outlinesBefore, List.take_succ_cons, List.countP_cons, outlinesBefore]

/-- The outlines among some objects were added behind those that there were, and nothing else. Each
    has the number of those in front of it. -/
structure OutlinesAdded (s : MapState) (objects : List Tiled.Object)
    (slots : List (Option ObjectSlot)) (t : MapState) : Prop where
  map : ∃ geometry, t.map = { s.map with geometry }
  project : ∃ tables, t.project = { s.project with tables }
  geometry : ∃ added, t.map.geometry.toList = s.map.geometry.toList ++ added ∧
    added.map UInt16.toNat = List.range' (s.project.tables.count .geometry)
      (objects.countP isOutline)
  records : ∃ records, List.Forall₂ OutlineRecord (objects.filter isOutline) records ∧
    (t.project.tables.records .geometry).toList =
      (s.project.tables.records .geometry).toList ++ records
  frame : ∀ kind, kind ≠ .geometry →
    t.project.tables.records kind = s.project.tables.records kind
  length : slots.length = objects.length
  slots : ∀ i (object : Tiled.Object), objects[i]? = some object →
    slots[i]? = some (outlineSlot object (s.map.geometry.size + outlinesBefore objects i))

theorem OutlinesAdded.nil (s : MapState) : OutlinesAdded s [] [] s where
  map := ⟨_, rfl⟩
  project := ⟨_, rfl⟩
  geometry := ⟨[], (List.append_nil _).symm, rfl⟩
  records := ⟨[], .nil, (List.append_nil _).symm⟩
  frame _ _ := rfl
  length := rfl
  slots := nofun

/-- An object with a tile is passed over. -/
theorem OutlinesAdded.cons_entity {object : Tiled.Object} {rest : List Tiled.Object}
    {slots : List (Option ObjectSlot)} (hgid : object.gid.isSome = true)
    (h : OutlinesAdded s rest slots t) : OutlinesAdded s (object :: rest) (none :: slots) t := by
  have hnone : isOutline object = false := by
    rw [isOutline, ← Option.not_isSome, hgid]
    rfl
  refine ⟨h.map, h.project, ?_, ?_, h.frame, congrArg Nat.succ h.length, fun i other hi => ?_⟩
  · rw [List.countP_cons_of_neg (by rw [hnone]; decide)]
    exact h.geometry
  · rw [List.filter_cons_of_neg (by rw [hnone]; decide)]
    exact h.records
  · cases i with
    | zero =>
      cases hi
      rw [outlineSlot, if_pos hgid]
      rfl
    | succ i =>
      rw [outlinesBefore_succ, hnone]
      exact h.slots i other hi

/-- An object without a tile is added in front of the others. -/
theorem OutlinesAdded.cons_outline {object : Tiled.Object} {rest : List Tiled.Object}
    {slots : List (Option ObjectSlot)} {record : Record} {global : UInt16}
    (hgid : object.gid.isSome = false) (hrecord : OutlineRecord object record)
    (hglobal : global.toNat = s.project.tables.count .geometry)
    (h : OutlinesAdded ⟨{ s.map with geometry := s.map.geometry.push global },
      { s.project with tables := s.project.tables.add .geometry record }⟩ rest slots t) :
    OutlinesAdded s (object :: rest)
      (some (.geometry (UInt16.ofNat s.map.geometry.size)) :: slots) t := by
  have hnone : isOutline object = true := by
    rw [isOutline, ← Option.not_isSome, hgid]
    rfl
  obtain ⟨hmap, hproject, ⟨added, hgeometry, hglobals⟩, ⟨records, hrecords, htotal⟩, hframe, hlength,
    hslots⟩ := h
  exact {
    map := hmap
    project := hproject
    geometry := by
      refine ⟨global :: added, ?_, ?_⟩
      · rw [hgeometry, Array.toList_push, List.append_assoc]
        rfl
      · rw [List.map_cons, hglobals, List.countP_cons_of_pos hnone, List.range'_succ, hglobal,
          Tables.count_add, if_pos rfl]
    records := by
      refine ⟨record :: records, ?_, ?_⟩
      · rw [List.filter_cons_of_pos hnone]
        exact .cons hrecord hrecords
      · rw [htotal, Tables.toList_records_add, List.append_assoc]
        rfl
    frame := fun kind hkind => (hframe kind hkind).trans (Tables.records_add_of_ne _ hkind)
    length := congrArg Nat.succ hlength
    slots := by
      intro i other hi
      cases i with
      | zero =>
        cases hi
        rw [outlineSlot, hgid]
        rfl
      | succ i =>
        rw [List.getElem?_cons_succ, hslots i other hi, outlinesBefore_succ, hnone, Array.size_push,
          if_pos rfl, Nat.add_assoc, Nat.add_comm 1] }

theorem outlinesAdded_of_placeOutlines {objects : List Tiled.Object}
    {slots : List (Option ObjectSlot)} (h : Yields (placeOutlines objects) s slots t) :
    OutlinesAdded s objects slots t := by
  induction objects generalizing s slots with
  | nil =>
    simp only [placeOutlines, List.mapM_nil, yields_pure] at h
    obtain ⟨rfl, rfl⟩ := h
    exact .nil s
  | cons object rest ih =>
    simp only [placeOutlines, List.mapM_cons, yields_bind] at h
    obtain ⟨slot, u, hslot, slots, v, hrest, h⟩ := h
    obtain ⟨rfl, rfl⟩ := yields_pure.1 h
    have hadded := ih hrest
    split at hslot
    · next hgid =>
      obtain ⟨rfl, rfl⟩ := yields_pure.1 hslot
      exact hadded.cons_entity hgid
    · next hgid =>
      simp only [addOutline, yields_bind, yields_onProject, yields_get, yields_changeMap, yields_pure,
        yields_except, yields_onTables, Tables.yields_push] at hslot
      obtain ⟨_, _, ⟨_, ⟨bytes, _, ⟨hbytes, rfl⟩, _, ⟨hcount, rfl, rfl⟩, rfl⟩, rfl⟩, _, _, ⟨rfl, rfl⟩,
        _, _, rfl, rfl, rfl⟩ := hslot
      exact .cons_outline (Bool.eq_false_iff.2 hgid) ⟨bytes, hbytes, rfl⟩
        (UInt16.toNat_ofNat_of_lt' hcount) hadded

/-! ## All objects -/

/-- The slots of all objects: outlines keep theirs, and entities have their places in the order that
    they are added in. -/
def allSlots (outlines : List (Option ObjectSlot)) (entities : List (Nat × Entity)) :
    List (Option ObjectSlot) :=
  let numbers := entities.zipIdx.map fun ((place, _), i) =>
    (place, ObjectSlot.entity (UInt16.ofNat i))
  outlines.zipIdx.map fun (slot, place) => slot <|> numbers.lookup place

/-- What has to succeed for objects to be placed, one after the other. -/
theorem placeObjects_steps {tiled : Tiled.Map} {tilesets : List (UInt32 × Tileset)}
    {placed : List (UInt16 × Entity)} (h : Yields (placeObjects tiled tilesets) s placed t) :
    ∃ outlines u composed v, checkObjects s.map.name tiled.objects = .ok () ∧
      Yields (placeOutlines tiled.objects) s outlines u ∧
      composeEntities u.project.entityTypes tilesets s.map.name tiled.objects = .ok composed ∧
      Yields (placeEntities (debugLast composed))
        ⟨listObjects tiled.objects outlines u.map, u.project⟩ placed v ∧
      t = ⟨listObjects tiled.objects (allSlots outlines (debugLast composed))
        { v.map with objects := #[] }, v.project⟩ := by
  simp only [placeObjects, yields_bind, yields_get, yields_except, yields_changeMap, liftM_eq_ok,
    yields_pure] at h
  obtain ⟨_, _, ⟨rfl, rfl⟩, _, _, ⟨hcheck, rfl⟩, outlines, u, houtlines, _, _, rfl, _, _,
    ⟨rfl, rfl⟩, composed, _, ⟨hcomposed, rfl⟩, placed, v, hplaced, _, _, rfl, rfl, rfl⟩ := h
  exact ⟨outlines, u, composed, v, hcheck, houtlines, hcomposed, hplaced, rfl⟩

/-- Listing objects changes nothing but the list. -/
theorem listObjects_eq (objects : List Tiled.Object) (slots : List (Option ObjectSlot))
    (map : MapContext) :
    ∃ listed, listObjects objects slots map = { map with objects := listed } := by
  unfold listObjects
  induction objects.zip slots generalizing map with
  | nil => exact ⟨map.objects, rfl⟩
  | cons p rest ih =>
    obtain ⟨object, slot⟩ := p
    rw [List.foldl_cons]
    cases slot with
    | none => exact ih map
    | some slot => exact ih (map.addObject object.id object.name slot)

/-- An object is listed with its slot. -/
def listed (object : Tiled.Object) (slot : ObjectSlot) : MapObject :=
  ⟨object.id, object.name, slot⟩

/-- The objects that have a slot are listed behind those that are there. -/
theorem listObjects_listed (objects : List Tiled.Object) (slots : List (Option ObjectSlot))
    (map : MapContext) :
    (listObjects objects slots map).objects.toList =
      map.objects.toList ++ (objects.zip slots).filterMap fun p => p.2.map (listed p.1) := by
  unfold listObjects
  induction objects.zip slots generalizing map with
  | nil => exact (List.append_nil _).symm
  | cons p rest ih =>
    obtain ⟨object, slot⟩ := p
    rw [List.foldl_cons]
    cases slot with
    | none => exact ih map
    | some slot =>
      refine (ih (map.addObject object.id object.name slot)).trans ?_
      rw [MapContext.addObject, Array.toList_push, List.append_assoc]
      rfl

end GameBundle
