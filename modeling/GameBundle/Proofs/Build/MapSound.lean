import GameBundle.Proofs.Build.CompiledSound
import GameBundle.Proofs.Build.Placement
import GameBundle.Proofs.Build.Remembering
import GameBundle.Proofs.Build.Wiring

set_option autoImplicit false

/-! # Maps are sound

First the objects of a map are placed, then everything it refers to is compiled, and its own record
comes last. `Enriches` is what placing an object does; from then on a state only changes by the
steps of a compilation, until the record is filled. -/

namespace GameBundle

variable {input : Input} {s t u : MapState}

/-! ## Objects -/

/-- The number of an object is one of those that the map has. -/
def ObjectSlot.Within (map : MapContext) : ObjectSlot → Prop
  | entity index => index.toNat < map.entities.size
  | geometry index => index.toNat < map.geometry.size

/-- Objects were placed on the map. -/
structure Enriches (s t : MapState) : Prop where
  sound : t.Sound
  project : Enlarges s.project t.project
  entities : s.map.entities.size ≤ t.map.entities.size
  geometry : s.map.geometry.size ≤ t.map.geometry.size

theorem Enriches.refl (h : s.Sound) : Enriches s s :=
  ⟨h, .refl h.project, Nat.le_refl _, Nat.le_refl _⟩

theorem Enriches.trans (hst : Enriches s t) (htu : Enriches t u) : Enriches s u where
  sound := htu.sound
  project := hst.project.trans htu.project
  entities := Nat.le_trans hst.entities htu.entities
  geometry := Nat.le_trans hst.geometry htu.geometry

theorem ObjectSlot.Within.mono {slot : ObjectSlot} (h : slot.Within s.map) (hst : Enriches s t) :
    slot.Within t.map := by
  cases slot with
  | entity index => exact Nat.lt_of_lt_of_le h hst.entities
  | geometry index => exact Nat.lt_of_lt_of_le h hst.geometry

/-- The number of a new element is one of the longer array. -/
theorem toNat_ofNat_size_lt_push {xs : Array UInt16} (x : UInt16) :
    (UInt16.ofNat xs.size).toNat < (xs.push x).size := by
  rw [Array.size_push, UInt16.toNat_ofNat']
  exact Nat.lt_succ_of_le (Nat.mod_le _ _)

theorem placeOutlines_enriches {objects : List Tiled.Object} {slots : List (Option ObjectSlot)}
    (hs : s.Sound) (h : Yields (placeOutlines objects) s slots t) :
    Enriches s t ∧ ∀ slot, some slot ∈ slots → slot.Within t.map := by
  obtain ⟨henriches, hall⟩ := yields_mapM MapState.Sound Enriches
    (fun (_ : Tiled.Object) (slot : Option ObjectSlot) t => ∀ x, slot = some x → x.Within t.map)
    (fun _ => .refl) (fun _ _ _ => .trans) (fun _ _ => Enriches.sound)
    (fun _ _ _ _ hst hslot x hx => (hslot x hx).mono hst) (by
      intro object _ s slot t hs h
      split at h
      · obtain ⟨rfl, rfl⟩ := yields_pure.1 h
        exact ⟨.refl hs, fun _ hx => nomatch hx⟩
      · simp only [yields_bind, yields_onProject, yields_get, yields_changeMap, yields_pure] at h
        obtain ⟨global, _, ⟨p, houtline, rfl⟩, _, _, ⟨rfl, rfl⟩, _, _, rfl, rfl, rfl⟩ := h
        obtain ⟨henlarges, hglobal⟩ := addOutline_enlarges hs.project houtline
        have hmore := hs.more henlarges.sound henlarges.counts
        refine ⟨⟨⟨hmore.project, hmore.null, { hmore.lists with geometry := ?_ }⟩, henlarges,
          Nat.le_refl _, ?_⟩, ?_⟩
        · intro index hindex
          rw [Array.toList_push, List.mem_append, List.mem_singleton] at hindex
          obtain hold | rfl := hindex
          · exact hmore.lists.geometry index hold
          · exact hglobal
        · rw [Array.size_push]
          exact Nat.le_succ _
        · intro x hx
          rw [← Option.some.inj hx]
          exact toNat_ofNat_size_lt_push _) hs h
  refine ⟨henriches, fun slot hslot => ?_⟩
  obtain ⟨object, -, hwithin⟩ := exists_of_mem_forall₂ hall hslot
  exact hwithin slot rfl

/-- The names of objects have no part in what is sound. -/
theorem Enriches.objects (h : s.Sound) (objects : Array MapObject) :
    Enriches s ⟨{ s.map with objects }, s.project⟩ where
  sound := ⟨h.project, h.null, ⟨h.lists.entities, h.lists.geometry, h.lists.scripts⟩⟩
  project := .refl h.project
  entities := Nat.le_refl _
  geometry := Nat.le_refl _

theorem placeEntity_enriches {earlier : List (UInt16 × Entity)} {e : Entity} {global : UInt16}
    (hs : s.Sound) (htile : e.tile.tileset.Known s.project.tables.count)
    (h : Yields (placeEntity earlier e) s global t) : Enriches s t := by
  obtain ⟨path, bytes, -, hbytes, hroom, rfl, -, rfl⟩ := placeEntity_steps h
  have henlarges := hs.project.addWhole e.label
    (Entity.encode_whole hs.project.memos.entityTypes htile hbytes)
  have hmore := hs.more henlarges.sound henlarges.counts
  refine ⟨⟨henlarges.sound, hmore.null, ⟨fun index hindex => ?_, hmore.lists.geometry,
    hmore.lists.scripts⟩⟩, henlarges, ?_, Nat.le_refl _⟩
  · rw [Array.toList_push, List.mem_append, List.mem_singleton] at hindex
    obtain hold | rfl := hindex
    · exact hmore.lists.entities index hold
    · exact Project.next_lt_add _ hroom
  · rw [Array.size_push]
    exact Nat.le_succ _

theorem placeEntities_enriches {entities : List (Nat × Entity)} {placed : List (UInt16 × Entity)}
    (hs : s.Sound)
    (htiles : ∀ p ∈ entities, p.2.tile.tileset.Known s.project.tables.count)
    (h : Yields (placeEntities entities) s placed t) : Enriches s t := by
  refine (placeEntities_keeps (P := fun _ u => Enriches s u) (fun _ u e he _ _ hsu h => ?_)
    (.refl hs) h).2
  obtain ⟨p, hp, rfl⟩ := List.mem_map.1 he
  exact hsu.trans (placeEntity_enriches hsu.sound ((htiles p hp).mono hsu.project.counts) h)

/-- Every entity is composed of an object and of a tile of a tileset of the map. -/
theorem composeEntities_spec {types : Ordered EntityType} {tilesets : List (UInt32 × Tileset)}
    {map : String} {objects : List Tiled.Object} {composed : List (Nat × Entity)}
    (h : composeEntities types tilesets map objects = .ok composed) :
    ∀ p ∈ composed, ∃ object ∈ objects, ∃ first tile, (first, tile.tileset) ∈ tilesets ∧
      Entity.compose types object tile = .ok p.2 := by
  simp only [composeEntities, bind_eq_ok, pure_eq_ok, mapM_eq_ok] at h
  obtain ⟨parts, hparts, rfl⟩ := h
  intro p hp
  rw [List.mem_filterMap] at hp
  obtain ⟨part, hpart, rfl⟩ := hp
  obtain ⟨object, hobject, hcomposed⟩ := exists_of_mem_forall₂ hparts hpart
  split at hcomposed
  · cases pure_eq_ok.1 hcomposed
  · simp only [bind_eq_ok, pure_eq_ok] at hcomposed
    obtain ⟨tile, htile, e, he, heq⟩ := hcomposed
    cases heq
    obtain ⟨first, hmem⟩ := resolveTile_mem htile
    exact ⟨_, List.fst_mem_of_mem_zipIdx hobject, first, tile, hmem, he⟩

theorem compose_tile {types : Ordered EntityType} {object : Tiled.Object} {tile : PlacedTile}
    {e : Entity} (h : Entity.compose types object tile = .ok e) : e.tile = tile := by
  simp only [Entity.compose, bind_eq_ok, pure_eq_ok] at h
  obtain ⟨own, -, rfl⟩ := h
  rfl

/-- A listed object has one of the slots. -/
theorem mem_listObjects {objects : List Tiled.Object} {slots : List (Option ObjectSlot)}
    {map : MapContext} {o : MapObject} (h : o ∈ (listObjects objects slots map).objects) :
    o ∈ map.objects ∨ some o.slot ∈ slots := by
  unfold listObjects at h
  have hzip : ∀ p ∈ objects.zip slots, p.2 ∈ slots := fun p hp => (List.of_mem_zip hp).2
  generalize objects.zip slots = pairs at h hzip
  induction pairs generalizing map with
  | nil => exact Or.inl h
  | cons p rest ih =>
    obtain ⟨object, slot⟩ := p
    rw [List.foldl_cons] at h
    have hrest := ih h fun q hq => hzip q (List.mem_cons_of_mem _ hq)
    cases slot with
    | none => exact hrest
    | some slot =>
      refine hrest.elim (fun hmem => ?_) Or.inr
      obtain hold | rfl := Array.mem_push.1 hmem
      · exact Or.inl hold
      · exact Or.inr (hzip _ List.mem_cons_self)

/-- The number of an entity is its place in the order they are added in. -/
theorem slot_of_lookup {entities : List (Nat × Entity)} {place : Nat} {slot : ObjectSlot}
    (h : (entities.zipIdx.map fun ((place, _), i) =>
      (place, ObjectSlot.entity (UInt16.ofNat i))).lookup place = some slot) :
    ∃ i < entities.length, slot = .entity (UInt16.ofNat i) := by
  obtain ⟨before, after, hnumbers, -⟩ := List.lookup_eq_some_iff.1 h
  have hmem := List.mem_append_right before (List.mem_cons_self (a := (place, slot)) (l := after))
  rw [← hnumbers, List.mem_map] at hmem
  obtain ⟨⟨e, i⟩, hi, heq⟩ := hmem
  obtain ⟨-, hlt, -⟩ := List.mem_zipIdx hi
  exact ⟨i, Nat.zero_add entities.length ▸ hlt, (Prod.mk.inj heq).2.symm⟩

/-- **Every object of a map has the number of an entity or of an outline of the map.** -/
theorem placeObjects_enriches {tiled : Tiled.Map} {tilesets : List (UInt32 × Tileset)}
    {placed : List (UInt16 × Entity)} (hs : s.Sound)
    (hknown : ∀ p ∈ tilesets, p.2.Known s.project.tables.count)
    (h : Yields (placeObjects tiled tilesets) s placed t) :
    Enriches s t ∧ ∀ o ∈ t.map.objects, o.slot.Within t.map := by
  obtain ⟨outlines, u, composed, v, -, houtlines, hcomposed, hplaced, rfl⟩ := placeObjects_steps h
  obtain ⟨hsu, hslots⟩ := placeOutlines_enriches hs houtlines
  obtain ⟨listed, hlisted⟩ := listObjects_eq tiled.objects outlines u.map
  rw [hlisted] at hplaced
  have huw := Enriches.objects hsu.sound listed
  have htiles : ∀ p ∈ debugLast composed, p.2.tile.tileset.Known u.project.tables.count := by
    intro p hp
    obtain ⟨object, -, first, tile, hmem, he⟩ :=
      composeEntities_spec hcomposed p (mem_debugLast.1 hp)
    rw [← compose_tile he] at hmem
    exact (hknown _ hmem).mono hsu.project.counts
  have hwv := placeEntities_enriches huw.sound htiles hplaced
  -- all entities have been added, so each of their numbers is one of the map
  obtain ⟨hentities, hadds⟩ := placeEntities_spec hplaced
  have hlength := congrArg List.length hadds.entities
  have hplaces := congrArg List.length hentities
  simp only [List.length_append, List.length_map, Array.length_toList] at hlength hplaces
  obtain ⟨listed', hlisted'⟩ := listObjects_eq tiled.objects
    (allSlots outlines (debugLast composed)) { v.map with objects := #[] }
  have hvt : Enriches v ⟨listObjects tiled.objects (allSlots outlines (debugLast composed))
      { v.map with objects := #[] }, v.project⟩ := by
    rw [hlisted']
    exact .objects hwv.sound listed'
  refine ⟨((hsu.trans huw).trans hwv).trans hvt, fun o ho => ?_⟩
  refine ObjectSlot.Within.mono ?_ hvt
  have hmem : some o.slot ∈ allSlots outlines (debugLast composed) :=
    (mem_listObjects ho).resolve_left (Array.not_mem_empty _)
  rw [allSlots, List.mem_map] at hmem
  obtain ⟨⟨slot, place⟩, hplace, heq⟩ := hmem
  cases slot with
  | some slot =>
    obtain rfl := Option.some.inj heq
    exact (hslots _ (List.fst_mem_of_mem_zipIdx hplace)).mono (huw.trans hwv)
  | none =>
    obtain ⟨i, hi, heq⟩ := slot_of_lookup heq
    rw [heq]
    refine Nat.lt_of_le_of_lt (Nat.mod_le _ _) ?_
    omega

/-! ## Scripts -/

/-- Steps of a compilation after which nothing is left unfinished. -/
structure Finishes (input : Input) (s t : MapState) : Prop where
  follows : Follows input s t
  completes : s.project.tables.Completes t.project.tables

namespace Finishes

theorem refl (input : Input) (s : MapState) : Finishes input s s := ⟨.refl s, .refl _⟩

theorem trans (hst : Finishes input s t) (htu : Finishes input t u) : Finishes input s u :=
  ⟨hst.follows.trans htu.follows, hst.completes.trans htu.completes⟩

/-- Scripts that are compiled have no part in which entities there are. -/
theorem entities (h : Finishes input s t) : t.map.entities = s.map.entities := by
  rw [h.follows.later.map]

end Finishes

theorem Replays.finishes {α : Type} {x x' : Step MapState α} (h : Replays input x x') {a : α}
    (hx : Yields x s a t) : Finishes input s t := ⟨(h.moves hx).follows, h.completes s a t hx⟩

theorem compileAll_replays (scripts : List (String × String)) :
    Replays input (compileAll input scripts) (compileAll input scripts) :=
  .mapM fun _ _ => .bind (compileScript_replays _) fun _ => .pure _

theorem compileEvents_replays (tiled : Tiled.Map) (settings : MapSettings) :
    Replays input (compileEvents input tiled settings) (compileEvents input tiled settings) := by
  refine .bind (compileScript_replays _) fun _ => .reads (fun s u h => by rw [h.name]) fun s => ?_
  exact .bind (.except _) fun scripts => .bind (compileAll_replays scripts) fun _ => .pure _

theorem wireSlot_finishes {global : UInt16} {script : Option String} {offset : Nat}
    (hslot : offset = Entity.interactOffset ∨ offset = Entity.tickOffset)
    (hown : global ∈ s.map.entities) (h : Yields (wireSlot input global script offset) s () t) :
    Finishes input s t := by
  cases script with
  | none =>
    obtain ⟨-, rfl⟩ := yields_pure.1 h
    exact .refl input s
  | some script =>
    simp only [wireSlot, yields_bind, yields_onProject, yields_onTables, Tables.yields_update] at h
    obtain ⟨number, u, hnumber, _, ⟨_, ⟨name, old, new, hold, hnew, rfl⟩, rfl⟩, rfl⟩ := h
    have hsu := (compileScript_replays script).finishes hnumber
    refine hsu.trans ⟨.step (.wire global number offset name script old new ?_ hslot hold
      (compileScript_finds hnumber) hnew), fun _ _ hhole => hhole.of_set.1⟩
    rwa [hsu.entities]

theorem wireEntity_finishes {global : UInt16} {e : Entity} (hown : global ∈ s.map.entities)
    (h : Yields (wireEntity input global e) s () t) : Finishes input s t := by
  obtain ⟨u, hinteract, htick⟩ := yields_wireEntity.1 h
  have hsu := wireSlot_finishes (Or.inl rfl) hown hinteract
  exact hsu.trans (wireSlot_finishes (Or.inr rfl) (hsu.entities ▸ hown) htick)

theorem wireEntities_finishes {placed : List (UInt16 × Entity)}
    (hown : ∀ p ∈ placed, p.1 ∈ s.map.entities)
    (h : Yields (placed.forM fun p => wireEntity input p.1 p.2) s () t) : Finishes input s t := by
  induction placed generalizing s with
  | nil =>
    obtain rfl := yields_forM_nil.1 h
    exact .refl input s
  | cons p rest ih =>
    obtain ⟨u, hfirst, hrest⟩ := yields_forM_cons.1 h
    have hsu := wireEntity_finishes (hown p List.mem_cons_self) hfirst
    refine hsu.trans (ih (fun q hq => ?_) hrest)
    rw [hsu.entities]
    exact hown q (List.mem_cons_of_mem _ hq)

/-! ## Records of maps -/

variable {p q : Project} {name : String} {settings : MapSettings} {bytes : Bytes}

/-- The bytes of a map, for which everything on it has to be built. -/
def composeMap (input : Input) (settings : MapSettings) (tiled : Tiled.Map)
    (tilesets : List (UInt32 × Tileset)) (layers : List Bytes) : Step MapState Bytes := do
  let entities ← placeObjects tiled tilesets
  let events ← compileEvents input tiled settings
  let directions ← compileAll input settings.directions.entries
  entities.forM fun (global, e) => wireEntity input global e
  let map := (← get).map
  let header ← encodeMapHeader tiled map layers.length events directions
  return layers.foldl (· ++ ·) header

theorem yields_buildMapContents {tiled : Tiled.Map} {tilesets : List (UInt32 × Tileset)}
    {layers : List Bytes} :
    Yields (buildMapContents input settings tiled tilesets layers) s () t ↔
      ∃ bytes u, Yields (composeMap input settings tiled tilesets layers) s bytes u ∧
        u.map.index.toNat < u.project.tables.count .maps ∧
        t = ⟨u.map, u.project.fill .maps u.map.index.toNat bytes⟩ := by
  simp only [buildMapContents, composeMap, yields_bind, yields_get, yields_except, yields_pure,
    yields_onProject, yields_onTables, Tables.yields_fill]
  constructor
  · rintro ⟨placed, r, hplaced, events, v, hevents, directions, w, hdirections, _, u, hwired, _, _,
      ⟨rfl, rfl⟩, header, _, ⟨hheader, rfl⟩, _, ⟨_, ⟨hindex, rfl⟩, rfl⟩, rfl⟩
    exact ⟨_, u, ⟨placed, r, hplaced, events, v, hevents, directions, w, hdirections, _, u, hwired,
      _, _, ⟨rfl, rfl⟩, header, _, ⟨hheader, rfl⟩, rfl, rfl⟩, hindex, rfl⟩
  · rintro ⟨_, _, ⟨placed, r, hplaced, events, v, hevents, directions, w, hdirections, _, u, hwired,
      _, _, ⟨rfl, rfl⟩, header, _, ⟨hheader, rfl⟩, rfl, rfl⟩, hindex, rfl⟩
    exact ⟨placed, r, hplaced, events, v, hevents, directions, w, hdirections, _, u, hwired, _, _,
      ⟨rfl, rfl⟩, header, _, ⟨hheader, rfl⟩, _, ⟨_, ⟨hindex, rfl⟩, rfl⟩, rfl⟩

/-- Once its objects are placed, a map only changes as everything they and the map refer to is
    compiled. -/
theorem contents_finish {tiled : Tiled.Map} {tilesets : List (UInt32 × Tileset)}
    {placed : List (UInt16 × Entity)} {events : Ordered UInt16}
    {directions : List (String × UInt16)} {r v w : MapState}
    (hplaced : Yields (placeObjects tiled tilesets) s placed r)
    (hevents : Yields (compileEvents input tiled settings) r events v)
    (hdirections : Yields (compileAll input settings.directions.entries) v directions w)
    (hwired : Yields (placed.forM fun p => wireEntity input p.1 p.2) w () u) :
    Places s r ∧ Finishes input r v ∧ Finishes input v w ∧ Finishes input w u := by
  obtain ⟨composed, -, -, hadds⟩ := placeObjects_spec hplaced
  have hown : ∀ p ∈ placed, p.1 ∈ r.map.entities := by
    intro p hp
    rw [← Array.mem_toList_iff, hadds.entities]
    exact List.mem_append_right _ (List.mem_map_of_mem hp)
  have hrv := (compileEvents_replays tiled settings).finishes hevents
  have hvw := (compileAll_replays settings.directions.entries).finishes hdirections
  refine ⟨hadds.places, hrv, hvw, wireEntities_finishes (fun p hp => ?_) hwired⟩
  rw [(hrv.trans hvw).entities]
  exact hown p hp

/-- The header that comes before the layers has the lists of a map as they are in the end. -/
theorem composeMap_finishes {tiled : Tiled.Map} {tilesets : List (UInt32 × Tileset)}
    {layers : List Bytes} (h : Yields (composeMap input settings tiled tilesets layers) s bytes u) :
    ∃ placed r, Yields (placeObjects tiled tilesets) s placed r ∧ Places s r ∧ Finishes input r u ∧
      ∃ events directions header, bytes = layers.foldl (· ++ ·) header ∧
        encodeMapHeader tiled u.map layers.length events directions = .ok header := by
  simp only [composeMap, yields_bind, yields_get, yields_except, yields_pure] at h
  obtain ⟨placed, r, hplaced, events, v, hevents, directions, w, hdirections, _, u, hwired, _, _,
    ⟨rfl, rfl⟩, header, _, ⟨hheader, rfl⟩, rfl, rfl⟩ := h
  obtain ⟨hplaces, hrv, hvw, hwu⟩ := contents_finish hplaced hevents hdirections hwired
  exact ⟨placed, r, hplaced, hplaces, (hrv.trans hvw).trans hwu, events, directions, header, rfl,
    hheader⟩

theorem composeMap_spec {tiled : Tiled.Map} {tilesets : List (UInt32 × Tileset)}
    {layers : List Bytes} (hs : s.Sound)
    (hknown : ∀ p ∈ tilesets, p.2.Known s.project.tables.count)
    (h : Yields (composeMap input settings tiled tilesets layers) s bytes u) :
    ∃ r, Enriches s r ∧ Places s r ∧ Finishes input r u ∧
      (∀ o ∈ r.map.objects, o.slot.Within r.map) ∧
      ∃ events directions header, bytes = layers.foldl (· ++ ·) header ∧
        encodeMapHeader tiled u.map layers.length events directions = .ok header := by
  obtain ⟨placed, r, hplaced, hplaces, hfinishes, hheader⟩ := composeMap_finishes h
  obtain ⟨henriches, hobjects⟩ := placeObjects_enriches hs hknown hplaced
  exact ⟨r, henriches, hplaces, hfinishes, hobjects, hheader⟩

/-- The map is compiled to `bytes` from its file on top of `p`, and leaves the state `s`. -/
def CompiledMap (input : Input) (name : String) (settings : MapSettings) (p : Project)
    (bytes : Bytes) (s : MapState) : Prop :=
  ∃ path tiled tilesets p' index layers, settings.path = some path ∧
    readJson input.source Tiled.Map.decode (Text.baseName path) = .ok tiled ∧
    Yields (loadTilesets input tiled) p tilesets p' ∧ p'.maps.find? name = some index ∧
    encodeLayers tiled tilesets s!"map \"{name}\"" = .ok layers ∧
    Yields (composeMap input settings tiled tilesets layers) ⟨{ name, index }, p'⟩ bytes s

theorem buildMap_compiled (h : Yields (buildMap input name settings) p () q) :
    ∃ bytes s, CompiledMap input name settings p bytes s ∧
      s.map.index.toNat < s.project.tables.count .maps ∧
      q = s.project.fill .maps s.map.index.toNat bytes := by
  simp only [buildMap, yields_bind, yields_orReject, yields_get, yields_except, liftM_eq_ok,
    yields_onMap, yields_buildMapContents] at h
  obtain ⟨path, _, ⟨hpath, rfl⟩, _, _, ⟨rfl, rfl⟩, index, _, ⟨hindex, rfl⟩, tiled, _, ⟨htiled, rfl⟩,
    tilesets, p', htilesets, layers, _, ⟨hlayers, rfl⟩, _, ⟨bytes, s, hcompose, hlt, rfl⟩,
    rfl⟩ := h
  have hmaps := ((loadTilesets_apart tiled).apart htilesets).maps
  exact ⟨bytes, s, ⟨path, tiled, tilesets, p', index, layers, hpath, htiled, htilesets,
    hmaps ▸ hindex, hlayers, hcompose⟩, hlt, rfl⟩

/-- What is true when the record of a map is composed. -/
structure MapBuilt (input : Input) (name : String) (p : Project) (bytes : Bytes) (s : MapState) :
    Prop where
  sound : s.Sound
  completes : p.tables.Completes s.project.tables
  whole : Whole s.project.tables.count .maps bytes
  named : s.map.name = name
  index : p.maps.find? name = some s.map.index
  maps : s.project.maps = p.maps
  objects : ∀ o ∈ s.map.objects, o.slot.Within s.map
  scripts : CompiledFrom input (p.tables.count .scripts) s
  dialogs : Added (fun record => ∃ key, SettledDialog input s key record) .dialogs p.tables
    s.project.tables
  header : ∃ header, MapHeader.read? bytes = some header ∧
    header.entities = s.map.entities.toList ∧ header.geometry = s.map.geometry.toList

/-- **Everything on a map is sound when its record is composed.** -/
theorem CompiledMap.built (hp : p.Sound) (hnull : 0 < p.tables.count .scripts)
    (h : CompiledMap input name settings p bytes s) : MapBuilt input name p bytes s := by
  obtain ⟨path, tiled, tilesets, p', index, layers, -, -, htilesets, hindex, hlayers, hcompose⟩ := h
  obtain ⟨hpp', hknown⟩ := loadTilesets_enlarges hp htilesets
  have hapart := (loadTilesets_apart tiled).apart htilesets
  have hstart : MapState.Sound ⟨{ name, index }, p'⟩ := {
    project := hpp'.sound
    null := Nat.lt_of_lt_of_le hnull (hpp'.counts _)
    lists := ⟨by simp, by simp, by simp⟩ }
  obtain ⟨r, hplace, hplaces, hfinish, hobjects, events, directions, header, rfl, hheader⟩ :=
    composeMap_spec hstart hknown hcompose
  have hlater := hfinish.follows.later
  have hsound := hfinish.follows.sound hplace.sound
  have hcells := encodeLayers_spec (fun t ht => ((hknown t ht).mono hplace.project.counts).mono
    hfinish.follows.count_le) hlayers
  obtain ⟨fields, hread, hentities, hgeometry, -⟩ :=
    read?_of_encode hheader (Bytes.hasAt_concat_header header layers)
  have hscripts : r.project.tables.count .scripts = p.tables.count .scripts := by
    rw [Tables.count, hplaces.frame _ (by decide) (by decide), hapart.tables _ (by decide),
      Tables.count]
  have hdialogs := hfinish.follows.dialogs.added.congr
    ((hplaces.frame _ (by decide) (by decide)).trans (hapart.tables .dialogs (by decide))).symm rfl
  exact {
    sound := hsound
    completes := (hpp'.completes.trans hplace.project.completes).trans hfinish.completes
    whole := map_whole hsound.lists hcells hheader
    named := hlater.name.trans hplaces.name
    index := by rw [hlater.map, ← hapart.maps, hindex, hplaces.index]
    maps := by
      rw [hlater.project]
      exact hplaces.maps.trans hapart.maps
    objects := by
      rw [hlater.map]
      exact hobjects
    scripts := hfinish.follows.compiledFrom (hscripts ▸ compiledFrom_count r)
    dialogs := hdialogs
    header := ⟨fields, hread, hentities, hgeometry⟩ }

end GameBundle
