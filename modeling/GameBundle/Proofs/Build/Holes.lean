import GameBundle.Proofs.Build.Always
import GameBundle.Proofs.Build.Pools
import GameBundle.Proofs.Bundle.RoundTrip

set_option autoImplicit false

/-! # What failed steps leave behind

A script, a tileset, an image or a portrait is remembered before it is complete, so after a failure
the next request for it may well succeed. Its record stays empty all the same. Two kinds of records
only are claimed by one step and filled by another, those of maps and of entity types; records of
all other kinds are filled by the step that has claimed them, or never. So what a failure leaves
empty is empty at the end, and there is no bundle. -/

namespace GameBundle

variable {input : Input}

/-! ## Records of work -/

/-- The kinds of records that one step claims and a later one fills. -/
def promisedKinds : List Kind := [.maps, .entityTypes]

theorem not_mem_promisedKinds : ∀ kind ∈ claimKinds, kind ∉ promisedKinds := by decide

/-- Every record that was not promised is still there, and what it was. -/
def Tables.KeepsWork (s t : Tables) : Prop :=
  ∀ (kind : Kind) (i : Nat) (record : Record), kind ∉ promisedKinds →
    (s.records kind)[i]? = some record → (t.records kind)[i]? = some record

namespace Tables.KeepsWork

variable {s t : Tables}

theorem refl (t : Tables) : KeepsWork t t := fun _ _ _ _ h => h

theorem hole (h : KeepsWork s t) {kind : Kind} {i : Nat} (hkind : kind ∉ promisedKinds)
    (hhole : s.Hole kind i) : t.Hole kind i := by
  obtain ⟨name, hname⟩ := hhole
  exact ⟨name, h kind i _ hkind hname⟩

theorem add (h : KeepsWork s t) (kind : Kind) (record : Record) :
    KeepsWork s (t.add kind record) := fun other i old hother hold =>
  (Kept.refl t).add kind record other i old (h other i old hother hold)

/-- A promised record may change, and any that is behind the old ones. -/
theorem set (h : KeepsWork s t) {kind : Kind} {i : Nat}
    (hfree : kind ∈ promisedKinds ∨ s.count kind ≤ i) (bytes : Bytes) :
    KeepsWork s (t.set kind i bytes) := by
  intro other j old hother hold
  rw [getElem?_records_set_ne, h other j old hother hold]
  rintro ⟨rfl, rfl⟩
  rcases hfree with hpromised | hbehind
  · exact hother hpromised
  · exact absurd (Array.getElem?_eq_some_iff.1 hold).1 (Nat.not_lt.2 hbehind)

end Tables.KeepsWork

/-! ## What any request may do -/

/-- The operation only adds to what was there `before`, or it keeps a promise. -/
def Promised (before : Tables) : Permit := fun p o =>
  Additive before p o ∨
    ∃ kind other index bytes, kind ∈ promisedKinds ∧ o = .fill kind other index bytes

theorem Promised.keepsWork {before : Tables} {p : Project} {o : Operation}
    (ho : Promised before p o) (hp : before.KeepsWork p.tables) :
    before.KeepsWork (outcome o.step p).2.tables := by
  rcases o.outcome_tables p with heq | ⟨kind, record, -, heq⟩ | ⟨kind, i, bytes, hwrites, heq⟩
  · rwa [heq]
  · rw [heq]
    exact hp.add kind record
  · rw [heq]
    refine hp.set ?_ bytes
    rcases ho with hadds | ⟨kind', other, index, stored, hpromised, rfl⟩
    · exact Or.inr (hadds.le_of_writes hwrites)
    · cases hwrites
      exact Or.inl hpromised

/-- Tables never get shorter. -/
theorem Performs.count_le {A : Permit} {σ α : Type} {view : σ → Project} {x : Step σ α} {s : σ}
    (h : Performs A view x s) (kind : Kind) :
    (view s).tables.count kind ≤ (view (outcome x s).2).tables.count kind := by
  refine h.moves (R := fun p q => p.tables.count kind ≤ q.tables.count kind)
    (fun _ => Nat.le_refl _) (fun _ _ _ => Nat.le_trans) fun p o _ => ?_
  rcases o.outcome_tables p with heq | ⟨other, record, -, heq⟩ | ⟨other, i, bytes, -, heq⟩
  · rw [heq]
  · rw [heq, Tables.count_add]
    exact Nat.le_add_right _ _
  · rw [heq, Tables.count_set]

/-- The types are completed one after the other. Their tilesets come behind all records that were
    there before the first type. -/
theorem buildEntityTypes_promised (p : Project) :
    Performs (Promised p.tables) id (buildEntityTypes input) p := by
  refine .get_bind (.forM (fun q => ∀ kind, p.tables.count kind ≤ q.tables.count kind)
    (fun _ => Nat.le_refl _) fun type _ q hq => ?_)
  have hload : Performs (Promised p.tables) id (loadTileset input type.2.looks.tileset) q :=
    (loadTileset_adds type.2.looks.tileset q).mono fun r o ho => Or.inl (ho.mono hq)
  have htype : Performs (Promised p.tables) id (buildEntityType input type.1 type.2) q := by
    refine .bind hload fun tileset r _ => .get_bind (.except_bind fun bytes _ => ?_)
    exact .operation (.fill .entityTypes (by decide) _ bytes)
      (Or.inr ⟨.entityTypes, _, _, _, by decide, rfl⟩)
  refine ⟨htype, fun t ht kind => Nat.le_trans (hq kind) ?_⟩
  have hcount := htype.count_le kind
  rwa [show outcome (buildEntityType input type.1 type.2) q = (.ok (), t) from ht] at hcount

theorem Adds.promised {σ α : Type} {view : σ → Project} {x : Step σ α} (h : Adds view x) (s : σ) :
    Performs (Promised (view s).tables) view x s := (h s).mono fun _ _ => Or.inl

/-- **A request fills what it has claimed itself, and what was promised.** -/
theorem Request.promised (r : Request) (p : Project) :
    Performs (Promised p.tables) id (r.step input) p := by
  have honMap : ∀ {α : Type} {x : Step MapState α}, Adds MapState.project x →
      ∀ map, Performs (Promised p.tables) id (onMap map x) p := fun h map =>
    .onMap (h.promised ⟨map, p⟩)
  have hcompile := compileScript_adds input
  cases r with
  | text pool map raw => exact (Adds.text pool map raw).promised p
  | gameVariables => exact storeVariables_adds.promised p
  | mapRecords => exact reserveMaps_adds.promised p
  | prototypes => exact buildPrototypes_adds.promised p
  | dialogSkins => exact loadDialogSkins_adds.promised p
  | portraits => exact buildPortraits_adds.promised p
  | entityTypes => exact buildEntityTypes_promised p
  | nullScript => exact addNullScript_adds.promised p
  | image path layout => exact (loadImage_adds path layout).promised p
  | tileset path => exact (loadTileset_adds path).promised p
  | outline object => exact (addOutline_adds object).promised p
  | entity e path => exact (addEntity_adds e path).promised p
  | script map name => exact honMap (hcompile name) map
  | action map a => exact honMap (encodeAction_adds hcompile a) map
  | dialog map name context => exact honMap (buildDialog_adds hcompile name context) map
  | serialDialog map name context => exact honMap (buildSerialDialog_adds hcompile name context) map
  | wholeMap name settings =>
    exact buildMap_performs (fun _ _ => Or.inl) fun _ _ _ _ _ _ =>
      Or.inr ⟨.maps, _, _, _, by decide, rfl⟩

theorem Request.keepsWork (r : Request) (p : Project) :
    p.tables.KeepsWork (outcome (r.step input) p).2.tables :=
  (r.promised p).moves (R := fun q t => p.tables.KeepsWork q.tables → p.tables.KeepsWork t.tables)
    (fun _ h => h) (fun _ _ _ hqt htu hq => htu (hqt hq)) (fun _ _ ho hq => ho.keepsWork hq)
    (.refl _)

/-! ## Later requests -/

/-- The project after more requests, some of which may fail. -/
def Project.after (input : Input) (p : Project) (requests : List Request) : Project :=
  requests.foldl (fun p r => (outcome (r.step input) p).2) p

/-- A hole that was not promised stays. The induction is on the requests that are still to come. -/
theorem Project.hole_after {p : Project} {kind : Kind} {i : Nat} (hkind : kind ∉ promisedKinds)
    (hhole : p.tables.Hole kind i) (requests : List Request) :
    (p.after input requests).tables.Hole kind i := by
  induction requests generalizing p with
  | nil => exact hhole
  | cons r rest ih => exact ih ((r.keepsWork p).hole hkind hhole)

/-- Tables with a hole cannot be assembled. -/
theorem Tables.Hole.not_assembled {t : Tables} {kind : Kind} {i : Nat} (h : t.Hole kind i)
    (hash : Bytes → UInt32) : ∃ e, Bundle.assembleWith hash t = .error e := by
  cases hassembled : Bundle.assembleWith hash t with
  | error e => exact ⟨e, rfl⟩
  | ok bundle =>
    obtain ⟨hfilled, -, -⟩ := Bundle.assembleWith_eq_ok.1 hassembled
    obtain ⟨name, hname⟩ := h
    rw [← Array.getElem?_toList] at hname
    have hbytes := hfilled kind _ (List.mem_of_getElem? hname)
    cases hbytes

/-! ## What the claiming steps leave behind -/

/-- Records are claimed only for what the same step fills. -/
def ClaimsWork : Permit := fun _ o =>
  ∀ kind other name, o = .reserve kind other name → kind ∈ claimKinds

theorem generous_claimsWork : Generous (fun _ => True) ClaimsWork where
  texts _ _ _ _ _ _ _ _ h := by cases h
  pushes _ _ _ _ _ _ _ _ _ h := by cases h
  claims _ _ _ _ hkind _ _ _ _ h := by
    cases h
    exact hkind
  fills _ _ _ _ _ _ _ _ _ h := by cases h
  updates _ _ _ _ _ _ _ _ _ h := by cases h
  remembers _ _ _ _ _ _ _ h := by cases h

theorem grantsLooks_claimsWork : GrantsLooks ClaimsWork where
  claims _ _ _ _ _ _ h := by
    cases h
    decide
  fills _ _ _ _ _ _ _ _ h := by cases h
  remembers _ _ _ _ _ _ h := by cases h

/-- Only a claim leaves a hole where there was none. -/
theorem Operation.hole_of_outcome {o : Operation} {p : Project} {kind : Kind} {i : Nat}
    (h : (outcome o.step p).2.tables.Hole kind i) :
    p.tables.Hole kind i ∨ ∃ other name, o = .reserve kind other name := by
  cases o with
  | text pool map raw =>
    refine Or.inl ((atomic_intern pool map raw).moves
      (R := fun p q => q.tables.Hole kind i → p.tables.Hole kind i) id (fun index q hq => ?_) h)
    obtain ⟨value, -, ⟨-, rfl⟩ | ⟨-, -, -, -, rfl⟩⟩ := intern_succeeds hq
    · exact id
    · exact Tables.completes_add _ _ _ _ kind i
  | push kind' other name bytes =>
    refine Or.inl (Tables.atomic_push.moves (R := fun t u => u.Hole kind i → t.Hole kind i) id
      (fun index u hu => ?_) h)
    obtain ⟨-, -, rfl⟩ := Tables.yields_push.1 hu
    exact Tables.completes_add _ _ _ _ kind i
  | reserve kind' other name =>
    refine Tables.atomic_reserve.moves (R := fun t u => u.Hole kind i → t.Hole kind i ∨ _) Or.inl
      (fun index u hu hhole => ?_) h
    obtain ⟨-, -, rfl⟩ := Tables.yields_reserve.1 hu
    refine hhole.of_add.imp id ?_
    rintro ⟨rfl, -⟩
    exact ⟨other, name, rfl⟩
  | fill kind' other index bytes =>
    refine Or.inl (Tables.atomic_fill.moves (R := fun t u => u.Hole kind i → t.Hole kind i) id
      (fun _ u hu hhole => ?_) h)
    obtain ⟨-, rfl⟩ := Tables.yields_fill.1 hu
    exact hhole.of_set.1
  | update kind' other index f =>
    refine Or.inl (Tables.atomic_update.moves (R := fun t u => u.Hole kind i → t.Hole kind i) id
      (fun _ u hu hhole => ?_) h)
    obtain ⟨_, _, _, -, -, rfl⟩ := Tables.yields_update.1 hu
    exact hhole.of_set.1
  | remember f keeps =>
    refine Or.inl ?_
    rwa [← (keeps p).1]

/-- What such a step leaves empty that was not empty before is of a kind that it fills itself. -/
theorem Performs.claims_work {σ α : Type} {view : σ → Project} {x : Step σ α} {s : σ}
    (h : Performs ClaimsWork view x s) {kind : Kind} {i : Nat}
    (hhole : (view (outcome x s).2).tables.Hole kind i) :
    (view s).tables.Hole kind i ∨ kind ∈ claimKinds := by
  refine h.moves (R := fun p q => q.tables.Hole kind i → p.tables.Hole kind i ∨ kind ∈ claimKinds)
    (fun _ => Or.inl) (fun _ _ _ hpq hqr hr => ?_) (fun p o ho hq => ?_) hhole
  · rcases hqr hr with hq | hkind
    · exact hpq hq
    · exact Or.inr hkind
  · refine (Operation.hole_of_outcome hq).imp id ?_
    rintro ⟨other, name, rfl⟩
    exact ho kind other name rfl

/-- A request for a script, a tileset, an image or the portraits. -/
inductive Request.Claiming : Request → Prop
  | script (map : MapContext) (name : String) : Claiming (.script map name)
  | tileset (path : String) : Claiming (.tileset path)
  | image (path : String) (layout : TileLayout) : Claiming (.image path layout)
  | portraits : Claiming .portraits

theorem Request.Claiming.claimsWork {r : Request} (h : r.Claiming) (p : Project) :
    Performs ClaimsWork id (r.step input) p := by
  have hA := generous_claimsWork
  cases h with
  | script map name =>
    have hscripts : input.VariablesIn fun _ => True := fun _ _ _ _ _ _ _ _ _ => trivial
    exact .onMap (hA.compileScript hscripts name ⟨map, p⟩)
  | tileset path => exact hA.loadTileset path p
  | image path layout => exact hA.loadImage path layout p
  | portraits => exact hA.buildPortraits grantsLooks_claimsWork p

/-! ## The main result -/

/-- The record is empty, and so there is no bundle. -/
structure Tables.Incomplete (t : Tables) (kind : Kind) (i : Nat) : Prop where
  hole : t.Hole kind i
  refused : ∀ hash, ∃ e, Bundle.assembleWith hash t = .error e

/-- **A failed step cannot be papered over.** What a request for a script, a tileset, an image or
    the portraits leaves empty stays empty, and there is no bundle, whatever is asked for afterwards
    and whether it fails or not. The same is true of what such a step leaves empty when it is part
    of another request. -/
theorem failures_stay (input : Input) (p : Project) (r : Request) (later : List Request) :
    let q := (outcome (r.step input) p).2
    let t := q.after input later
    (r.Claiming → ∀ kind i, p.tables.count kind ≤ i → q.tables.Hole kind i →
      t.tables.Incomplete kind i) ∧
    ∀ kind ∈ claimKinds, ∀ i, q.tables.Hole kind i → t.tables.Incomplete kind i := by
  intro q t
  have hstays : ∀ kind ∈ claimKinds, ∀ i, q.tables.Hole kind i →
      t.tables.Incomplete kind i := by
    intro kind hkind i hhole
    have hlater : t.tables.Hole kind i :=
      Project.hole_after (not_mem_promisedKinds kind hkind) hhole later
    exact ⟨hlater, hlater.not_assembled⟩
  refine ⟨fun hclaiming kind i hnew hhole => ?_, hstays⟩
  rcases (hclaiming.claimsWork p).claims_work hhole with ⟨name, hname⟩ | hkind
  · exact absurd (Array.getElem?_eq_some_iff.1 hname).1 (Nat.not_lt.2 hnew)
  · exact hstays kind hkind i hhole

/-- A folder without files. -/
def bareFolder : Input where
  source := .inMemory .none (.ofList []) (.ofList [])
  definitions := {}

/-- An image that is missing is asked for twice. The second time it has a number, but its record is
    as empty as before. -/
theorem missing_image_stays :
    let r := Request.image "stones.png" ⟨1, 1, 1⟩
    let q := (outcome (r.step bareFolder) {}).2
    (∃ e, (outcome (r.step bareFolder) {}).1 = .error e) ∧ q.tables.Hole .images 0 ∧
      (outcome (r.step bareFolder) q).1 = .ok (0 : UInt16) ∧
      (q.after bareFolder [r]).tables.Incomplete .images 0 := by
  intro r q
  have hhole : q.tables.Hole .images 0 := ⟨"stones.png", rfl⟩
  have hfails : (outcome (r.step bareFolder) {}).1 =
      .error (.error (.missingFile "stones.png")) := rfl
  have hagain : (outcome (r.step bareFolder) q).1 = .ok (0 : UInt16) := rfl
  exact ⟨⟨_, hfails⟩, hhole, hagain,
    (failures_stay bareFolder {} r [r]).1 (.image _ _) .images 0 (Nat.le_refl _) hhole⟩

end GameBundle
