import GameBundle.Proofs.Build.MapSound
import GameBundle.Proofs.Build.ObjectErrors
import GameBundle.Proofs.Build.ObjectNumbers

set_option autoImplicit false

/-! # Rules for the objects of a map

No object of a map may be turned, at most 64 of them have a tile, and at most one entity is the
player. The first two rules are checked before anything is done. The last is checked as the entities
are added: `PlayerFound` says which of them has been found to be the player so far, and is carried
along the list. The header of a map then stores the number of the player, or 255, which is the
number of no entity. -/

namespace GameBundle

variable {s t : MapState} {f : Failure}

/-! ## Before anything is placed -/

/-- The object is turned. -/
def isTurned (object : Tiled.Object) : Bool := !(object.rotation == Float.ofBits 0)

/-- The number of objects with a tile. -/
def tileCount (objects : List Tiled.Object) : Nat := objects.countP fun object => object.gid.isSome

theorem checkObjects_eq (map : String) (objects : List Tiled.Object) :
    checkObjects map objects = match objects.find? isTurned with
      | some object => .error (.rotatedObject map object.label)
      | none =>
        if entityLimit < tileCount objects then
          .error (.tooManyEntities map (tileCount objects) entityLimit)
        else .ok () := by
  unfold checkObjects tileCount
  change (match objects.find? isTurned with | some _ => _ | none => _ : Except BuildError Unit) = _
  cases objects.find? isTurned with
  | some object => rfl
  | none => rfl

variable {tiled : Tiled.Map} {tilesets : List (UInt32 × Tileset)}

theorem placeObjects_refused {e : BuildError}
    (h : checkObjects s.map.name tiled.objects = .error e) :
    Fails (placeObjects tiled tilesets) s (.error e) s := by
  simp only [placeObjects, fails_bind, yields_get, fails_except, liftM_eq_error]
  exact .inr ⟨s, s, ⟨rfl, rfl⟩, .inl ⟨⟨e, h, rfl⟩, rfl⟩⟩

/-- A rule is broken before anything is placed, or by one of the entities. -/
theorem placeObjects_fails (h : Fails (placeObjects tiled tilesets) s f t) (hf : f.BreaksRule) :
    (∃ e, checkObjects s.map.name tiled.objects = .error e ∧ f = .error e) ∨
    ∃ outlines u composed, checkObjects s.map.name tiled.objects = .ok () ∧
      Yields (placeOutlines tiled.objects) s outlines u ∧
      composeEntities u.project.entityTypes tilesets s.map.name tiled.objects = .ok composed ∧
      Fails (placeEntities (debugLast composed))
        ⟨listObjects tiled.objects outlines u.map, u.project⟩ f t := by
  simp only [placeObjects, fails_bind, fails_get, yields_get, fails_except, yields_except,
    fails_changeMap, yields_changeMap, fails_pure, liftM_eq_error, liftM_eq_ok, false_or, and_false,
    exists_false, or_false] at h
  obtain ⟨_, _, ⟨rfl, rfl⟩, ⟨hcheck, -⟩ | ⟨_, _, ⟨hcheck, rfl⟩, houtlines | ⟨outlines, u, houtlines,
    _, _, rfl, _, _, ⟨rfl, rfl⟩, ⟨⟨e, he, rfl⟩, -⟩ | ⟨composed, _, ⟨hcomposed, rfl⟩, hplaced⟩⟩⟩⟩ := h
  · exact .inl hcheck
  · exact absurd hf (placeOutlines_fails houtlines)
  · exact absurd hf (composeEntities_avoids _ _ _ _ e he)
  · exact .inr ⟨outlines, u, composed, hcheck, houtlines, hcomposed, hplaced⟩

/-! ## The player -/

/-- Two places of a list that satisfies `p` at most once are one. -/
theorem eq_of_countP_le_one {α : Type} {p : α → Bool} {xs : List α} (h : xs.countP p ≤ 1)
    {i j : Nat} {a b : α} (hi : xs[i]? = some a) (hj : xs[j]? = some b) (ha : p a = true)
    (hb : p b = true) : i = j := by
  induction xs generalizing i j with
  | nil => cases hi
  | cons x xs ih =>
    have hrest : ∀ {k : Nat} {c : α}, xs[k]? = some c → p c = true → 0 < xs.countP p :=
      fun hk hc => List.countP_pos_iff.2 ⟨_, List.mem_of_getElem? hk, hc⟩
    cases i with
    | zero =>
      cases hi
      rw [List.countP_cons_of_pos ha] at h
      cases j with
      | zero => rfl
      | succ j => exact absurd (hrest hj hb) (by omega)
    | succ i =>
      cases j with
      | zero =>
        cases hj
        rw [List.countP_cons_of_pos hb] at h
        exact absurd (hrest hi ha) (by omega)
      | succ j =>
        rw [List.countP_cons] at h
        exact congrArg Nat.succ (ih (Nat.le_trans (Nat.le_add_right _ _) h) hi hj)

/-- The only item that satisfies `p` is the first that does. -/
theorem filter_of_findIdx? {α : Type} {p : α → Bool} {xs : List α} (h : xs.countP p ≤ 1) {k : Nat}
    (hk : xs.findIdx? p = some k) : ∃ x, xs[k]? = some x ∧ xs.filter p = [x] := by
  obtain ⟨hlt, hp, -⟩ := List.findIdx?_eq_some_iff_getElem.1 hk
  have hmem : xs[k] ∈ xs.filter p := List.mem_filter.2 ⟨List.getElem_mem hlt, hp⟩
  rw [List.countP_eq_length_filter] at h
  obtain ⟨x, hx⟩ := List.length_eq_one_iff.1
    (Nat.le_antisymm h (List.length_pos_of_mem hmem))
  rw [hx, List.mem_singleton] at hmem
  exact ⟨x, hmem ▸ List.getElem?_eq_getElem hlt, hx⟩

/-- The number of the one entity that is the player, if there is one. -/
def OnlyPlayer (entities : List Entity) : Option UInt16 → Prop
  | none => ∀ e ∈ entities, e.isPlayer = false
  | some number => (∃ e, entities[number.toNat]? = some e ∧ e.isPlayer = true) ∧
      ∀ k e, entities[k]? = some e → e.isPlayer = true → k = number.toNat

theorem OnlyPlayer.lt {entities : List Entity} {number : UInt16}
    (h : OnlyPlayer entities (some number)) : number.toNat < entities.length := by
  obtain ⟨⟨e, he, -⟩, -⟩ := h
  exact (List.getElem?_eq_some_iff.1 he).1

theorem onlyPlayer_of_findIdx? {entities : List Entity} (hfits : entities.length ≤ UInt16.size)
    (h : entities.countP Entity.isPlayer ≤ 1) :
    OnlyPlayer entities ((entities.findIdx? Entity.isPlayer).map UInt16.ofNat) := by
  cases hk : entities.findIdx? Entity.isPlayer with
  | none => exact List.findIdx?_eq_none_iff.1 hk
  | some k =>
    obtain ⟨hlt, hp, -⟩ := List.findIdx?_eq_some_iff_getElem.1 hk
    have hplace := List.getElem?_eq_getElem hlt
    rw [Option.map_some, OnlyPlayer, UInt16.toNat_ofNat_of_lt' (Nat.lt_of_lt_of_le hlt hfits)]
    exact ⟨⟨_, hplace, hp⟩, fun j e hj he => eq_of_countP_le_one h hj hplace he hp⟩

/-- At most one of the entities so far is the player, and the map has the number of the first. -/
structure PlayerFound (name : String) (before : List (UInt16 × Entity)) (s : MapState) : Prop where
  name : s.map.name = name
  size : s.map.entities.size = before.length
  player : s.map.player = ((before.map Prod.snd).findIdx? Entity.isPlayer).map UInt16.ofNat
  single : (before.map Prod.snd).countP Entity.isPlayer ≤ 1

theorem PlayerFound.only {name : String} {placed : List (UInt16 × Entity)}
    (h : PlayerFound name placed t) (hlimit : placed.length ≤ entityLimit) :
    OnlyPlayer (placed.map Prod.snd) t.map.player ∧
      ∀ number, t.map.player = some number → number.toNat < 64 := by
  have hfits : (placed.map Prod.snd).length ≤ UInt16.size := by
    rw [List.length_map]
    exact Nat.le_trans hlimit (by decide)
  have honly := onlyPlayer_of_findIdx? hfits h.single
  rw [← h.player] at honly
  refine ⟨honly, fun number hnumber => ?_⟩
  rw [hnumber] at honly
  have hlt := honly.lt
  rw [List.length_map] at hlt
  exact Nat.lt_of_lt_of_le hlt hlimit

theorem PlayerFound.concat {name : String} {before : List (UInt16 × Entity)} {e : Entity}
    {global : UInt16} (hs : PlayerFound name before s)
    (h : Yields (placeEntity before e) s global t) :
    PlayerFound name (before ++ [(global, e)]) t := by
  obtain ⟨_, _, -, -, -, -, hnone, rfl⟩ := placeEntity_steps h
  have hsize : (s.map.entities.push global).size = (before ++ [(global, e)]).length := by
    rw [Array.size_push, hs.size, List.length_append, List.length_singleton]
  have hentities : (before ++ [(global, e)]).map Prod.snd = before.map Prod.snd ++ [e] := by
    rw [List.map_append, List.map_singleton]
  have hplayer := hs.player
  have hsingle := hs.single
  cases he : e.isPlayer with
  | false =>
    refine ⟨hs.name, hsize, ?_, ?_⟩
    · rw [hentities, List.findIdx?_append, List.findIdx?_singleton, he]
      simpa using hplayer
    · rw [hentities, List.countP_append, List.countP_singleton, he]
      exact hsingle
  | true =>
    rw [hnone he, eq_comm, Option.map_eq_none_iff] at hplayer
    refine ⟨hs.name, hsize, ?_, ?_⟩
    · rw [hentities, List.findIdx?_append, List.findIdx?_singleton, he, hplayer, hs.size]
      simp
    · rw [hentities, List.countP_append, List.countP_singleton, he]
      have hnobody : (before.map Prod.snd).countP Entity.isPlayer = 0 := by
        rw [List.countP_eq_zero]
        intro other hother
        rw [List.findIdx?_eq_none_iff.1 hplayer other hother]
        decide
      rw [hnobody]
      decide

theorem PlayerFound.all {name : String} {entities : List (Nat × Entity)}
    {placed : List (UInt16 × Entity)} (hs : PlayerFound name [] s)
    (h : Yields (placeEntities entities) s placed t) : PlayerFound name placed t :=
  (placeEntities_keeps (fun _ _ _ _ _ _ => PlayerFound.concat) hs h).2

/-- If an entity was to be the player as well as one before it, then both are named. -/
theorem PlayerFound.rivals {name : String} {entities : List (Nat × Entity)}
    (hs : PlayerFound name [] s) (hfits : entities.length ≤ UInt16.size)
    (h : Fails (placeEntities entities) s f t) (hf : f.BreaksRule) :
    ∃ first second rest, (entities.map Prod.snd).filter Entity.isPlayer = first :: second :: rest ∧
      f = .error (.multiplePlayers name first.label second.label) := by
  obtain ⟨before, e, rest, u, horder, hfound, hfails⟩ :=
    placeEntities_fails (fun _ _ _ _ _ _ => PlayerFound.concat) hs h
  obtain ⟨he, player, hplayer, rfl⟩ := placeEntity_fails hfails hf
  -- the number of the first player leads back to it
  rw [hfound.player] at hplayer
  obtain ⟨k, hk, rfl⟩ := Option.map_eq_some_iff.1 hplayer
  obtain ⟨first, hfirst, hfilter⟩ := filter_of_findIdx? hfound.single hk
  have hlt : k < UInt16.size := by
    have hlength := congrArg List.length horder
    have hplace := (List.getElem?_eq_some_iff.1 hfirst).1
    simp only [List.length_append, List.length_cons, List.length_map] at hlength hplace
    omega
  rw [List.getElem?_map, Option.map_eq_some_iff] at hfirst
  obtain ⟨p, hp, rfl⟩ := hfirst
  refine ⟨p.2, e, rest.filter Entity.isPlayer, ?_, ?_⟩
  · rw [horder, List.filter_append, hfilter, List.filter_cons_of_pos he]
    rfl
  · rw [UInt16.toNat_ofNat_of_lt' hlt, hp, hfound.name]
    rfl

/-! ## All rules -/

theorem length_entityPlaces {types : Ordered EntityType} {objects : List Tiled.Object}
    {drawn : List (Option Entity)} (h : List.Forall₂ (Becomes types tilesets) objects drawn) :
    (entityPlaces drawn).length = tileCount objects := by
  unfold entityPlaces tileCount
  -- the places count from anywhere
  generalize (0 : Nat) = first
  induction h generalizing first with
  | nil => rfl
  | @cons object become _ _ hbecomes _ ih =>
    have hrest := ih (first + 1)
    rw [Becomes] at hbecomes
    split at hbecomes
    · next hgid =>
      subst hbecomes
      rw [List.countP_cons_of_neg (by rw [hgid]; decide), ← hrest]
      rfl
    · next hgid =>
      obtain ⟨_, _, e, -, -, rfl⟩ := hbecomes
      rw [List.countP_cons_of_pos (by rw [hgid]; rfl), ← hrest]
      rfl

/-- The entities of a map in local order, if all of them can be composed. -/
def localEntities (types : Ordered EntityType) (tilesets : List (UInt32 × Tileset)) (map : String)
    (objects : List Tiled.Object) : Except BuildError (List Entity) := do
  return (debugLast (← composeEntities types tilesets map objects)).map Prod.snd

theorem localEntities_of_compose {types : Ordered EntityType} {map : String}
    {objects : List Tiled.Object} {composed : List (Nat × Entity)}
    (h : composeEntities types tilesets map objects = .ok composed) :
    localEntities types tilesets map objects = .ok ((debugLast composed).map Prod.snd) :=
  bind_eq_ok.2 ⟨composed, h, rfl⟩

theorem checkObjects_ok {map : String} {objects : List Tiled.Object}
    (h : checkObjects map objects = .ok ()) :
    objects.find? isTurned = none ∧ tileCount objects ≤ entityLimit := by
  rw [checkObjects_eq] at h
  split at h
  · cases h
  · next hturned =>
    split at h
    · cases h
    · next hcount => exact ⟨hturned, Nat.le_of_not_lt hcount⟩

theorem checkObjects_error {map : String} {objects : List Tiled.Object} {e : BuildError}
    (h : checkObjects map objects = .error e) :
    (∃ object, objects.find? isTurned = some object ∧ e = .rotatedObject map object.label) ∨
    objects.find? isTurned = none ∧ entityLimit < tileCount objects ∧
      e = .tooManyEntities map (tileCount objects) entityLimit := by
  rw [checkObjects_eq] at h
  split at h
  · next object hturned =>
    cases h
    exact .inl ⟨object, hturned, rfl⟩
  · next hturned =>
    split at h
    · next hcount =>
      cases h
      exact .inr ⟨hturned, hcount, rfl⟩
    · cases h

/-- There are no more entities than are allowed. -/
theorem length_of_check {types : Ordered EntityType} {map : String} {objects : List Tiled.Object}
    {composed : List (Nat × Entity)} (hcheck : checkObjects map objects = .ok ())
    (hcomposed : composeEntities types tilesets map objects = .ok composed) :
    (debugLast composed).length ≤ entityLimit := by
  obtain ⟨drawn, hdrawn, rfl⟩ := composeEntities_becomes hcomposed
  rw [(debugLast_perm _).length_eq, length_entityPlaces hdrawn]
  exact (checkObjects_ok hcheck).2

/-- The record of a map has the number of its player. -/
theorem player_of_buildMapContents {input : Input} {settings : MapSettings} {layers : List Bytes}
    (h : Yields (buildMapContents input settings tiled tilesets layers) s () t) :
    ∃ placed r, Yields (placeObjects tiled tilesets) s placed r ∧ t.map.player = r.map.player ∧
      ∃ record bytes byte, (t.project.tables.records .maps)[s.map.index.toNat]? = some record ∧
        record.bytes = some bytes ∧ bytes[MapHeader.playerOffset]? = some byte ∧
        byte.toNat = (t.map.player.map UInt16.toNat).getD noPlayer := by
  obtain ⟨bytes, u, hcompose, hindex, rfl⟩ := yields_buildMapContents.1 h
  obtain ⟨placed, r, hplaced, hplaces, hfinishes, events, directions, header, rfl, hheader⟩ :=
    composeMap_finishes hcompose
  have hmap := hfinishes.follows.later.map
  have hsame : u.map.index = s.map.index := by
    rw [hmap]
    exact hplaces.index
  obtain ⟨byte, hbyte, hplayer⟩ :=
    player_of_encode hheader (Bytes.hasAt_concat_header header layers)
  obtain ⟨record, hrecord⟩ : ∃ record,
      (u.project.tables.records .maps)[u.map.index.toNat]? = some record :=
    ⟨_, Array.getElem?_eq_getElem hindex⟩
  refine ⟨placed, r, hplaced, by rw [hmap],
    { record with bytes := some (layers.foldl (· ++ ·) header) }, _, byte, ?_, rfl, hbyte, hplayer⟩
  rw [← hsame, Project.fill, Tables.getElem?_records_set, if_pos rfl, hrecord]
  rfl

/-- There is no player before entities are added. -/
theorem playerFound_of_placeOutlines {name : String} {index : UInt16} {p : Project} {u : MapState}
    {outlines : List (Option ObjectSlot)}
    (h : Yields (placeOutlines tiled.objects) ⟨{ name, index }, p⟩ outlines u) :
    u.project.entityTypes = p.entityTypes ∧
      (listObjects tiled.objects outlines u.map).entities = #[] ∧
      PlayerFound name [] ⟨listObjects tiled.objects outlines u.map, u.project⟩ := by
  have hadded := outlinesAdded_of_placeOutlines h
  obtain ⟨geometry, hmap⟩ := hadded.map
  obtain ⟨tables, hproject⟩ := hadded.project
  obtain ⟨listed, hlisted⟩ := listObjects_eq tiled.objects outlines u.map
  rw [hlisted, hmap, hproject]
  exact ⟨rfl, rfl, rfl, rfl, rfl, Nat.zero_le 1⟩

/-- What is true of the entities when all objects are placed. -/
theorem placeObjects_player {name : String} {index : UInt16} {p : Project}
    {placed : List (UInt16 × Entity)}
    (h : Yields (placeObjects tiled tilesets) ⟨{ name, index }, p⟩ placed t) :
    localEntities p.entityTypes tilesets name tiled.objects = .ok (placed.map Prod.snd) ∧
      t.map.entities.toList = placed.map Prod.fst ∧ placed.length ≤ entityLimit ∧
      PlayerFound name placed t := by
  obtain ⟨outlines, u, composed, v, hcheck, houtlines, hcomposed, hplaced, rfl⟩ :=
    placeObjects_steps h
  obtain ⟨htypes, hempty, hstart⟩ := playerFound_of_placeOutlines houtlines
  rw [htypes] at hcomposed
  have hlimit := length_of_check hcheck hcomposed
  obtain ⟨hadded, horder⟩ := entitiesAdded_of_placeEntities hplaced
  have hentities := hadded.entities
  rw [hempty] at hentities
  have hfound := hstart.all hplaced
  obtain ⟨listed, hlisted⟩ := listObjects_eq tiled.objects
    (allSlots outlines (debugLast composed)) { v.map with objects := #[] }
  rw [hlisted]
  refine ⟨horder ▸ localEntities_of_compose hcomposed, hentities, ?_, hfound.name, hfound.size,
    hfound.player, hfound.single⟩
  rwa [← List.length_map Prod.snd, horder, List.length_map]

/-- The rules that a failure can be laid to. -/
theorem placeObjects_broken {name : String} {index : UInt16} {p : Project}
    (h : Fails (placeObjects tiled tilesets) ⟨{ name, index }, p⟩ f t) (hf : f.BreaksRule) :
    (∃ e, checkObjects name tiled.objects = .error e ∧ f = .error e) ∨
    ∃ entities first second rest,
      localEntities p.entityTypes tilesets name tiled.objects = .ok entities ∧
      entities.filter Entity.isPlayer = first :: second :: rest ∧
      f = .error (.multiplePlayers name first.label second.label) := by
  obtain hcheck | ⟨outlines, u, composed, hcheck, houtlines, hcomposed, hplaced⟩ :=
    placeObjects_fails h hf
  · exact .inl hcheck
  · obtain ⟨htypes, -, hstart⟩ := playerFound_of_placeOutlines houtlines
    rw [htypes] at hcomposed
    have hlimit := length_of_check hcheck hcomposed
    obtain ⟨first, second, rest, hplayers, rfl⟩ :=
      hstart.rivals (Nat.le_trans hlimit (by decide)) hplaced hf
    exact .inr ⟨_, first, second, rest, localEntities_of_compose hcomposed, hplayers, rfl⟩

/-- The rules for the objects of a map, as they are enforced when objects are placed on a map
    without any. -/
structure RulesEnforced (tiled : Tiled.Map) (tilesets : List (UInt32 × Tileset)) (name : String)
    (index : UInt16) (p : Project) : Prop where
  /-- The first turned object is refused, and nothing is changed. -/
  turned : ∀ object, tiled.objects.find? isTurned = some object →
    Fails (placeObjects tiled tilesets) ⟨{ name, index }, p⟩
      (.error (.rotatedObject name object.label)) ⟨{ name, index }, p⟩
  /-- Else more than 64 objects with a tile are refused, and nothing is changed. -/
  crowded : tiled.objects.find? isTurned = none → 64 < tileCount tiled.objects →
    Fails (placeObjects tiled tilesets) ⟨{ name, index }, p⟩
      (.error (.tooManyEntities name (tileCount tiled.objects) 64)) ⟨{ name, index }, p⟩
  /-- Two players are never placed. -/
  competing : ∀ entities, localEntities p.entityTypes tilesets name tiled.objects = .ok entities →
    2 ≤ entities.countP Entity.isPlayer →
    ∀ placed t, ¬ Yields (placeObjects tiled tilesets) ⟨{ name, index }, p⟩ placed t
  /-- Only a rule that is broken is given as a reason. The players that are named are the first
      two. -/
  justified : ∀ f t, Fails (placeObjects tiled tilesets) ⟨{ name, index }, p⟩ f t → f.BreaksRule →
    (∃ object, tiled.objects.find? isTurned = some object ∧
      f = .error (.rotatedObject name object.label)) ∨
    (tiled.objects.find? isTurned = none ∧ 64 < tileCount tiled.objects ∧
      f = .error (.tooManyEntities name (tileCount tiled.objects) 64)) ∨
    ∃ entities first second rest,
      localEntities p.entityTypes tilesets name tiled.objects = .ok entities ∧
      entities.filter Entity.isPlayer = first :: second :: rest ∧
      f = .error (.multiplePlayers name first.label second.label)
  /-- The player is the only entity that is to be it. -/
  player : ∀ placed t, Yields (placeObjects tiled tilesets) ⟨{ name, index }, p⟩ placed t →
    localEntities p.entityTypes tilesets name tiled.objects = .ok (placed.map Prod.snd) ∧
      t.map.entities.toList = placed.map Prod.fst ∧
      OnlyPlayer (placed.map Prod.snd) t.map.player ∧
      ∀ number, t.map.player = some number → number.toNat < 64
  /-- The record of the map has the number of the player, or 255 if there is none. -/
  header : ∀ input settings layers t,
    Yields (buildMapContents input settings tiled tilesets layers) ⟨{ name, index }, p⟩ () t →
    ∃ entities record bytes byte,
      localEntities p.entityTypes tilesets name tiled.objects = .ok entities ∧
      OnlyPlayer entities t.map.player ∧
      (t.project.tables.records .maps)[index.toNat]? = some record ∧ record.bytes = some bytes ∧
      bytes[MapHeader.playerOffset]? = some byte ∧
      byte.toNat = (t.map.player.map UInt16.toNat).getD 255 ∧ (byte.toNat < 64 ∨ byte = 255)

/-- **The rules for the objects of a map are enforced exactly.** -/
theorem map_rules_enforced (tiled : Tiled.Map) (tilesets : List (UInt32 × Tileset)) (name : String)
    (index : UInt16) (p : Project) : RulesEnforced tiled tilesets name index p where
  turned object hturned := by
    apply placeObjects_refused
    rw [checkObjects_eq, hturned]
  crowded hturned hcount := by
    apply placeObjects_refused
    rw [checkObjects_eq, hturned]
    exact if_pos hcount
  competing entities hentities hplayers placed t h := by
    obtain ⟨hlocal, -, -, hfound⟩ := placeObjects_player h
    cases hentities.symm.trans hlocal
    exact absurd hfound.single (Nat.not_le_of_lt hplayers)
  justified f t h hf := by
    obtain ⟨e, hcheck, rfl⟩ | hplayers := placeObjects_broken h hf
    · obtain ⟨object, hturned, rfl⟩ | ⟨hturned, hcount, rfl⟩ := checkObjects_error hcheck
      · exact .inl ⟨object, hturned, rfl⟩
      · exact .inr (.inl ⟨hturned, hcount, rfl⟩)
    · exact .inr (.inr hplayers)
  player placed t h := by
    obtain ⟨hlocal, hnumbers, hlimit, hfound⟩ := placeObjects_player h
    exact ⟨hlocal, hnumbers, hfound.only hlimit⟩
  header input settings layers t h := by
    obtain ⟨placed, r, hplaced, hsame, record, bytes, byte, hrecord, hbytes, hbyte, hvalue⟩ :=
      player_of_buildMapContents h
    obtain ⟨hlocal, -, hlimit, hfound⟩ := placeObjects_player hplaced
    obtain ⟨honly, hlt⟩ := hfound.only hlimit
    rw [← hsame] at honly hlt
    refine ⟨_, record, bytes, byte, hlocal, honly, hrecord, hbytes, hbyte, hvalue, ?_⟩
    cases hplayer : t.map.player with
    | none =>
      rw [hplayer] at hvalue
      exact .inr (UInt8.toNat_inj.1 hvalue)
    | some number =>
      rw [hplayer] at hvalue
      exact .inl (hvalue ▸ hlt number hplayer)

/-- The farm with a player on each layer. The one on the first layer is only there for debugging. -/
def rivals : Tiled.Map :=
  { farm with layers := [
      .objects "near" [farmObject 1 "ghost" (some 1)
        [⟨"is_debug", "bool", .bool true⟩, ⟨"is_player", "bool", .bool true⟩]],
      .objects "far" [farmObject 3 "hen" (some 2) [⟨"is_player", "bool", .bool true⟩]]] }

/-- Rivals are named in local order. -/
theorem rivals_refused :
    (∃ t, Fails (placeObjects rivals farmTilesets) ⟨{ name := "farm", index := 0 }, {}⟩
      (.error (.multiplePlayers "farm" "hen" "ghost")) t) ∧
    RulesEnforced rivals farmTilesets "farm" 0 {} := by
  have hfails : ((outcome (placeObjects rivals farmTilesets)
      ⟨{ name := "farm", index := 0 }, {}⟩).1.map fun _ => ()) =
        .error (.error (.multiplePlayers "farm" "hen" "ghost")) := by decide +kernel
  exact ⟨⟨_, fails_outcome (eq_error_of_map hfails)⟩,
    map_rules_enforced rivals farmTilesets "farm" 0 {}⟩

end GameBundle
