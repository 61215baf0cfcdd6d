import GameBundle.Proofs.Build.Additions
import GameBundle.Proofs.Build.MapSound
import GameBundle.Proofs.Build.Run

set_option autoImplicit false

/-! # Records stay what they are

Records are known by their indices, and other records have these indices in their bytes. So a map
must not touch what was there before it, whether it can be built or not. It adds records of its own,
it fills those it has claimed, and it writes the numbers of scripts into the entities it has added.
The only older record it touches is its own, which was claimed for it before any map was built. -/

namespace GameBundle

variable {input : Input} {name : String} {settings : MapSettings}

/-! ## Preserving records -/

/-- No record has another index or another name than before, and none that was filled has other
    bytes. -/
structure Tables.Preserved (s t : Tables) : Prop where
  /-- New records come behind the others. -/
  names : ∀ kind, (s.records kind).toList.map Record.name <+:
    (t.records kind).toList.map Record.name
  filled : ∀ (kind : Kind) (i : Nat) (name : String) (bytes : Bytes),
    (s.records kind)[i]? = some ⟨name, some bytes⟩ →
      (t.records kind)[i]? = some ⟨name, some bytes⟩

namespace Tables.Preserved

variable {s t : Tables}

theorem refl (t : Tables) : Preserved t t := ⟨fun _ => List.prefix_rfl, fun _ _ _ _ h => h⟩

theorem trans {u : Tables} (hst : Preserved s t) (htu : Preserved t u) : Preserved s u where
  names kind := (hst.names kind).trans (htu.names kind)
  filled kind i name bytes h := htu.filled kind i name bytes (hst.filled kind i name bytes h)

theorem add (h : Preserved s t) (kind : Kind) (record : Record) :
    Preserved s (t.add kind record) where
  names k := by
    refine (h.names k).trans ?_
    by_cases hk : k = kind
    · subst hk
      rw [toList_records_add, List.map_append]
      exact List.prefix_append _ _
    · refine ⟨[], ?_⟩
      rw [List.append_nil, records_add_of_ne record hk]
  filled k i name bytes hfilled := by
    have hkept := (Kept.refl t).add kind record
    exact hkept k i _ (h.filled k i name bytes hfilled)

/-- A record without bytes is given some. -/
theorem set (h : Preserved s t) {kind : Kind} {i : Nat}
    (hfree : ∀ name bytes, (s.records kind)[i]? ≠ some ⟨name, some bytes⟩) (bytes : Bytes) :
    Preserved s (t.set kind i bytes) where
  names k := by
    rw [map_name_records_set]
    exact h.names k
  filled k j name old hfilled := by
    rw [getElem?_records_set_ne]
    · exact h.filled k j name old hfilled
    · rintro ⟨rfl, rfl⟩
      exact hfree name old hfilled

end Tables.Preserved

/-! ## What a map may do -/

/-- The operation only adds to what was there `before`, or it fills the claimed record of a map. -/
def Careful (before : Tables) : Permit := fun p o =>
  Additive before p o ∨
    ∃ other index bytes, o = .fill .maps other index bytes ∧ p.tables.Hole .maps index.toNat

theorem Careful.preserved {before : Tables} {p : Project} {o : Operation}
    (ho : Careful before p o) (hp : before.Preserved p.tables) :
    before.Preserved (outcome o.step p).2.tables := by
  rcases o.outcome_tables p with heq | ⟨kind, record, -, heq⟩ | ⟨kind, i, bytes, hwrites, heq⟩
  · rwa [heq]
  · rw [heq]
    exact hp.add kind record
  · rw [heq]
    refine hp.set (fun name old hold => ?_) bytes
    rcases ho with hadds | ⟨other, index, stored, rfl, hole, hhole⟩
    · have hle := hadds.le_of_writes hwrites
      exact absurd (Array.getElem?_eq_some_iff.1 hold).1 (Nat.not_lt.2 hle)
    · -- a record that was filled before is not a claimed one now
      cases hwrites
      rw [hp.filled _ _ _ _ hold] at hhole
      cases hhole

theorem Performs.preserved {before : Tables} {σ α : Type} {view : σ → Project} {x : Step σ α}
    {s : σ} (h : Performs (Careful before) view x s) (hs : before.Preserved (view s).tables) :
    before.Preserved (view (outcome x s).2).tables := by
  refine h.moves (R := fun p q => before.Preserved p.tables → before.Preserved q.tables)
    (fun _ h => h) (fun _ _ _ hpq hqr hp => hqr (hpq hp)) (fun _ _ ho hp => ho.preserved hp) hs

/-! ## Entities and records of maps -/

section Maps

variable {before : Tables} {s t : MapState}

/-- A step that comes again for each item is permitted if it keeps what it needs. -/
theorem Performs.forM {A : Permit} {σ α : Type} {view : σ → Project} {f : α → Step σ Unit}
    {xs : List α} {s : σ} (P : σ → Prop) (hs : P s)
    (hf : ∀ x ∈ xs, ∀ s, P s → Performs A view (f x) s ∧ ∀ t, Yields (f x) s () t → P t) :
    Performs A view (xs.forM f) s := by
  induction xs generalizing s with
  | nil => exact .pure () s
  | cons x xs ih =>
    obtain ⟨hperforms, hkeeps⟩ := hf x List.mem_cons_self s hs
    exact .bind hperforms fun _ t ht =>
      ih (hkeeps t ht) fun y hy => hf y (List.mem_cons_of_mem _ hy)

/-- The numbers of its scripts are written into an entity of the map. -/
theorem wireEntity_performs {global : UInt16} (hglobal : before.count .entities ≤ global.toNat)
    (e : Entity) (hs : before.Kept s.project.tables) :
    Performs (Additive before) MapState.project (wireEntity input global e) s := by
  refine .forM (fun t => before.Kept t.project.tables) hs fun slot hslot t ht => ?_
  have hoffset : 16 ≤ slot.2 ∧ slot.2 + 1 ≤ 19 := by
    rcases List.mem_cons.1 hslot with rfl | hslot
    · decide
    · rw [List.mem_singleton.1 hslot]
      decide
  obtain ⟨property, offset⟩ := slot
  suffices hperforms : Performs (Additive before) MapState.project _ t from
    ⟨hperforms, fun u hu => hperforms.kept_of_yields hu ht⟩
  dsimp only
  cases e.script? property with
  | none => exact .pure () t
  | some script =>
    refine .bind ((compileScript_adds input script).performs ht) fun number u _ => .onProject ?_
    refine .operation (.update .entities (by decide) global _) ⟨rfl, hglobal, ?_⟩
    exact fun old new hnew => agreeOutside_patchWord hoffset.1 hoffset.2 hnew

theorem buildMapContents_performs {A : Permit} {tiled : Tiled.Map}
    {tilesets : List (UInt32 × Tileset)} {layers : List Bytes}
    (hadds : ∀ p o, Additive before p o → A p o)
    (hown : ∀ p other bytes, before.Kept p.tables → A p (.fill .maps other s.map.index bytes))
    (hs : before.Kept s.project.tables) :
    Performs A MapState.project (buildMapContents input settings tiled tilesets layers) s := by
  have hplace := (placeObjects_adds tiled tilesets).performs hs
  refine .bind (hplace.mono hadds) fun placed r hplaced => ?_
  have hr := hplace.kept_of_yields hplaced hs
  have hevents :
      Performs (Additive before) MapState.project (compileEvents input tiled settings) r :=
    (compileEvents_adds tiled settings).performs hr
  refine .bind (hevents.mono hadds) fun events u heventsYields => ?_
  have hu := hevents.kept_of_yields heventsYields hr
  have hdirections : Performs (Additive before) MapState.project
      (compileAll input settings.directions.entries) u := (compileAll_adds _).performs hu
  refine .bind (hdirections.mono hadds) fun directions v hdirectionsYields => ?_
  have hv := hdirections.kept_of_yields hdirectionsYields hu
  -- the entities of the map are behind all that were there before
  obtain ⟨composed, -, -, hentities⟩ := placeObjects_spec hplaced
  have hglobal : ∀ p ∈ placed, before.count .entities ≤ p.1.toNat := by
    intro p hp
    have hmem := List.mem_map_of_mem (f := Prod.fst) hp
    exact Nat.le_trans (hs.count_le _) (hentities.unwired hmem).1
  have hwire : Performs (Additive before) MapState.project
      (placed.forM fun p => wireEntity input p.1 p.2) v := by
    refine .forM (fun t => before.Kept t.project.tables) hv fun p hp t ht => ?_
    have hperforms : Performs (Additive before) MapState.project (wireEntity input p.1 p.2) t :=
      wireEntity_performs (hglobal p hp) p.2 ht
    exact ⟨hperforms, fun w hw => hperforms.kept_of_yields hw ht⟩
  refine .bind (hwire.mono hadds) fun _ w hwired => .get_bind ?_
  have hw := hwire.kept_of_yields hwired hv
  refine .except_bind fun header _ => .onProject ?_
  -- none of this has a part in which record the map has claimed
  have hindex : w.map.index = s.map.index := by
    have hcompiled := ((compileEvents_replays tiled settings).finishes heventsYields).trans
      ((compileAll_replays settings.directions.entries).finishes hdirectionsYields)
    have hfinish := hcompiled.trans (wireEntities_finishes (fun p hp => by
      rw [hcompiled.entities, ← Array.mem_toList_iff, hentities.entities]
      exact List.mem_append_right _ (List.mem_map_of_mem hp)) hwired)
    rw [hfinish.follows.later.map, hentities.places.index]
  rw [hindex]
  exact .operation (.fill .maps (by decide) s.map.index _) (hown _ _ _ hw)

theorem buildMap_performs {A : Permit} {p : Project}
    (hadds : ∀ q o, Additive p.tables q o → A q o)
    (hown : ∀ q other index bytes, p.maps.find? name = some index → p.tables.Kept q.tables →
      A q (.fill .maps other index bytes)) :
    Performs A id (buildMap input name settings) p := by
  unfold buildMap
  have hreject : ∀ {α : Type} (o : Option α) (e : BuildError),
      Performs A id (orReject o e : Step Project α) p := by
    intro α o e
    have hadds' : Adds id (orReject o e : Step Project α) := .orReject o e
    exact (hadds' p).mono hadds
  refine .bind (hreject _ _) fun path p' hpath => .get_bind ?_
  obtain ⟨-, rfl⟩ := yields_orReject.1 hpath
  refine .bind (hreject _ _) fun index p' hclaimed => ?_
  obtain ⟨hindex, rfl⟩ := yields_orReject.1 hclaimed
  refine .except_bind fun tiled _ => ?_
  refine .bind ((loadTilesets_adds tiled p).mono hadds) fun tilesets q htilesets => ?_
  have hq := (loadTilesets_adds tiled p).kept_of_yields htilesets (.refl _)
  refine .except_bind fun layers _ => .onMap ?_
  exact buildMapContents_performs hadds (fun r other bytes hr => hown r other index bytes hindex hr)
    hq

end Maps

/-! ## Maps that wait for their turn -/

/-- Before map `i` is built, the records of this and the later maps are claimed and not filled. -/
structure Pending (input : Input) (i : Nat) (p : Project) : Prop where
  ready : Ready p
  place : ∀ name index, p.maps.find? name = some index →
    input.definitions.maps.keys[index.toNat]? = some name
  waits : ∀ j, i ≤ j → j < input.definitions.maps.size → p.tables.Hole .maps j

theorem Prepared.pending {p : Project} (h : Prepared input p) : Pending input 0 p where
  ready := by
    refine ⟨by rw [h.scripts]; rfl, ?_⟩
    rw [Tables.count, h.scripts]
    decide
  place name index hfind := by
    obtain ⟨j, hj⟩ := List.getElem?_of_mem (h.known name index hfind)
    obtain ⟨own, hown, hplace⟩ := h.indices j name hj
    rw [hfind, Option.some.injEq] at hown
    rw [hown, hplace, hj]
  waits j _ hj := by
    have hkey : j < input.definitions.maps.keys.length := by
      rwa [Ordered.keys, List.length_map]
    refine ⟨input.definitions.maps.keys[j], ?_⟩
    rw [← Array.getElem?_toList, h.maps, List.getElem?_map, List.getElem?_eq_getElem hkey]
    rfl

/-- A map leaves the records of the later maps as they are. -/
theorem Pending.next {i : Nat} {p q : Project} (h : Pending input i p)
    (hmap : input.definitions.maps.entries[i]? = some (name, settings))
    (hbuild : Yields (buildMap input name settings) p () q) : Pending input (i + 1) q := by
  obtain ⟨index, tiled, entities, t, hfind, -, hbuilds, rfl⟩ := buildMap_spec h.ready hbuild
  have hkey : input.definitions.maps.keys[i]? = some name := by
    rw [Ordered.keys, List.getElem?_map, hmap]
    rfl
  have hindex : index.toNat = i := by
    have hsame := (h.place name index hfind).trans hkey.symm
    have hlt := (List.getElem?_eq_some_iff.1 (h.place name index hfind)).1
    exact (List.getElem?_inj hlt input.definitions.maps.nodup_keys).1 hsame
  obtain ⟨bytes, header, -, htable, -⟩ := hbuilds.record
  exact {
    ready := hbuilds.extends.ready h.ready hbuilds.numbered.small
    place := hbuilds.maps ▸ h.place
    waits := fun j hle hj => by
      obtain ⟨claimed, hclaimed⟩ := h.waits j (Nat.le_of_succ_le hle) hj
      refine ⟨claimed, ?_⟩
      rw [htable, Tables.getElem?_records_set_ne (by simp; omega), hclaimed] }

/-- The induction is on the maps that have been built. -/
theorem pending_of_yields {i : Nat} {p : Project} (h : Yields (buildUpTo input i) {} () p) :
    Pending input i p := by
  induction i generalizing p with
  | zero =>
    obtain ⟨_, q, hshared, hnone⟩ := yields_bind.1 h
    rw [List.take_zero] at hnone
    rw [← yields_forM_nil.1 hnone]
    exact (buildShared_spec hshared).pending
  | succ i ih =>
    cases hmap : input.definitions.maps.entries[i]? with
    | some entry =>
      obtain ⟨hbefore, hbuild⟩ := yields_buildUpTo_succ hmap h
      exact (ih hbefore).next hmap hbuild
    | none =>
      -- there is no map `i`, so nothing happens and no map is left
      have hsize : input.definitions.maps.size ≤ i := List.getElem?_eq_none_iff.1 hmap
      rw [buildUpTo, List.take_add_one, hmap, Option.toList_none, List.append_nil] at h
      have hpending := ih h
      exact ⟨hpending.ready, hpending.place, fun j hle hj => absurd hj (by omega)⟩

/-! ## The main result -/

/-- A map whose turn has not come only adds to the project and fills its own record. -/
theorem buildMap_careful {i : Nat} {p : Project} (h : Yields (buildUpTo input i) {} () p)
    (hturn : name ∉ input.definitions.maps.keys.take i) (settings : MapSettings) :
    Performs (Careful p.tables) id (buildMap input name settings) p := by
  have hpending := pending_of_yields h
  refine buildMap_performs (fun _ _ => Or.inl) fun q other index bytes hfind hkept => ?_
  have hkey := hpending.place name index hfind
  obtain ⟨hlt, hname⟩ := List.getElem?_eq_some_iff.1 hkey
  have hlater : i ≤ index.toNat := by
    by_contra hearlier
    refine hturn (List.mem_of_getElem? (i := index.toNat) ?_)
    rw [List.getElem?_take_of_lt (Nat.not_le.1 hearlier), hkey]
  rw [Ordered.keys, List.length_map] at hlt
  exact Or.inr ⟨other, index, bytes, rfl, hkept.hole (hpending.waits _ hlater hlt)⟩

/-- **A map that has not been built yet leaves every record alone that is already filled.** This
    holds before every map of a build, whether the map can be built or not, and at every moment
    while it is being built. -/
theorem buildMap_preserves {i : Nat} {p : Project} (h : Yields (buildUpTo input i) {} () p)
    (hturn : name ∉ input.definitions.maps.keys.take i) (settings : MapSettings) :
    Performs (Careful p.tables) id (buildMap input name settings) p ∧
      p.tables.Preserved (outcome (buildMap input name settings) p).2.tables := by
  have hperforms := buildMap_careful h hturn settings
  exact ⟨hperforms, hperforms.preserved (.refl _)⟩

/-- The second map of the example is built on top of the first, with the settings that it is listed
    with. -/
theorem twoMaps_cave_preserves : ∃ p q, Yields (buildUpTo twoMaps 1) {} () p ∧
    Yields (buildMap twoMaps "cave" { path := some "cave.json", onTick := some "greet" }) p () q ∧
    Performs (Careful p.tables) id
      (buildMap twoMaps "cave" { path := some "cave.json", onTick := some "greet" }) p ∧
    p.tables.Preserved q.tables := by
  obtain ⟨tables, htables⟩ := twoMaps_builds
  obtain ⟨hbefore, hcave⟩ := yields_buildUpTo_succ (i := 1) rfl (yields_of_build htables).1
  have hturn : "cave" ∉ twoMaps.definitions.maps.keys.take 1 := by decide
  obtain ⟨hperforms, hpreserved⟩ :=
    buildMap_preserves hbefore hturn { path := some "cave.json", onTick := some "greet" }
  rw [hcave] at hpreserved
  exact ⟨_, _, hbefore, hcave, hperforms, hpreserved⟩

end GameBundle
