import GameBundle.Build.CheckedNumbers
import GameBundle.Proofs.Build.Additions
import GameBundle.Proofs.Build.Placement
import GameBundle.Proofs.Build.Run
import GameBundle.Proofs.Build.Shared
import Mathlib.Data.List.Induction

set_option autoImplicit false

/-! # Numbers are exact

Every index and every number of a bundle is a word. The index of a record is the length of its
table, and is refused when the table is full. A number on a map is the length of a list that is cut
down to a word without a look at it. That loses nothing: what is numbered on a map has a record of
its own, so the lists of a map are never longer than the tables, and the number is at most the
index that was handed out just before. The one exception, the script that does nothing, has record
zero for all maps; but it is the first on each of them.

`Room` is the invariant. A build under the rule of `exactNumber`, which knows only such numbers, is
compared with the build as it is, function by function. -/

namespace GameBundle

/-! ## Indices of records -/

/-- A record is added with its bytes or without. -/
inductive TableCall
  | push (kind : Kind) (name : String) (bytes : Bytes)
  | reserve (kind : Kind) (name : String)

namespace TableCall

def kind : TableCall → Kind
  | push kind _ _ | reserve kind _ => kind

/-- The record that is added. -/
def record : TableCall → Record
  | push _ name bytes => ⟨name, some bytes⟩
  | reserve _ name => ⟨name, none⟩

def step : TableCall → Step Tables UInt16
  | push kind name bytes => Tables.push kind name bytes
  | reserve kind name => Tables.reserve kind name

/-- What is said when the table is full. -/
def refusal (call : TableCall) (t : Tables) : BuildError :=
  .fieldOverflow s!"{call.kind.label} table index" (t.count call.kind) 2

theorem step_eq (call : TableCall) : call.step = (do
    let index ← Tables.nextIndex call.kind
    modify (·.add call.kind call.record)
    return index) := by
  cases call <;> rfl

theorem outcome_step (call : TableCall) (t : Tables) : outcome call.step t =
    if h : t.count call.kind < UInt16.size then
      (.ok (UInt16.ofNatLT (t.count call.kind) h), t.add call.kind call.record)
    else (.error (.error (call.refusal t)), t) := by
  rw [step_eq, Tables.outcome_append]
  by_cases hroom : t.count call.kind < UInt16.size
  · rw [if_pos hroom, dif_pos hroom, UInt16.ofNatLT_eq_ofNat]
  · rw [if_neg hroom, dif_neg hroom, refusal]

/-- A call adds a record until the table is full. -/
theorem count_step (call : TableCall) {t : Tables} {kind : Kind}
    (hle : t.count kind ≤ UInt16.size) : (outcome call.step t).2.count kind =
      min UInt16.size (t.count kind + if call.kind = kind then 1 else 0) := by
  rw [outcome_step]
  by_cases hkind : call.kind = kind
  · subst hkind
    rw [if_pos rfl]
    split
    · next hroom => rw [Tables.count_add, if_pos rfl, Nat.min_eq_right hroom]
    · next hfull =>
      change t.count call.kind = _
      omega
  · rw [if_neg hkind, Nat.add_zero, Nat.min_eq_right hle]
    split
    · rw [Tables.count_add, if_neg (Ne.symm hkind), Nat.add_zero]
    · rfl

end TableCall

/-- The tables after some calls, whether these succeed or not. -/
def Tables.after (calls : List TableCall) : Tables :=
  calls.foldl (fun t call => (outcome call.step t).2) ∅

theorem Tables.after_concat (calls : List TableCall) (call : TableCall) :
    after (calls ++ [call]) = (outcome call.step (after calls)).2 := by
  rw [after, List.foldl_append]
  rfl

theorem Tables.count_after (calls : List TableCall) (kind : Kind) :
    (after calls).count kind = min UInt16.size (calls.countP fun call => call.kind = kind) := by
  induction calls using List.reverseRecOn with
  | nil => exact congrArg Array.size (records_empty kind)
  | append_singleton calls call ih =>
    have hle : (after calls).count kind ≤ UInt16.size := ih ▸ Nat.min_le_left _ _
    rw [after_concat, call.count_step hle, ih, List.countP_append, List.countP_singleton]
    simp only [decide_eq_true_eq]
    omega

/-! ## Tables grow -/

/-- No table of `q` is shorter than that of `p`. -/
def Longer (p q : Project) : Prop := ∀ kind, p.tables.count kind ≤ q.tables.count kind

theorem Tables.count_le_add (t : Tables) (kind : Kind) (record : Record) (k : Kind) :
    t.count k ≤ (t.add kind record).count k := by
  rw [count_add]
  exact Nat.le_add_right _ _

theorem Longer.trans {p q r : Project} (hpq : Longer p q) (hqr : Longer q r) : Longer p r :=
  fun kind => (hpq kind).trans (hqr kind)

theorem Adds.longer {σ α : Type} {view : σ → Project} {x : Step σ α} (hx : Adds view x) (s : σ) :
    Longer (view s) (view (outcome x s).2) :=
  fun kind => ((hx s).kept (.refl _)).count_le kind

theorem Operation.longer (o : Operation) (p : Project) : Longer p (outcome o.step p).2 := by
  intro kind
  obtain h | ⟨_, record, -, h⟩ | ⟨_, i, bytes, -, h⟩ := o.outcome_tables p
  · rw [h]
  · rw [h]
    exact p.tables.count_le_add _ record kind
  · rw [h, Tables.count_set]

/-- The next record of a kind was added, and `global` is its index. -/
structure Appends (kind : Kind) (p : Project) (global : UInt16) (q : Project) : Prop where
  index : global.toNat = p.tables.count kind
  tables : ∃ record, q.tables = p.tables.add kind record

theorem Appends.count {kind : Kind} {p q : Project} {global : UInt16}
    (h : Appends kind p global q) (k : Kind) :
    q.tables.count k = p.tables.count k + if k = kind then 1 else 0 := by
  obtain ⟨record, htables⟩ := h.tables
  rw [htables, Tables.count_add]

theorem Appends.longer {kind : Kind} {p q : Project} {global : UInt16}
    (h : Appends kind p global q) : Longer p q := by
  obtain ⟨record, htables⟩ := h.tables
  intro k
  rw [htables]
  exact p.tables.count_le_add kind record k

theorem TableCall.appends (call : TableCall) {p q : Project} {global : UInt16}
    (h : Yields (onTables call.step) p global q) : Appends call.kind p global q := by
  obtain ⟨t, hcall, rfl⟩ := yields_onTables.1 h
  rw [Yields, outcome_step] at hcall
  split at hcall
  · cases hcall
    exact ⟨UInt16.toNat_ofNatLT .., call.record, rfl⟩
  · cases hcall

theorem TableCall.longer (call : TableCall) (p : Project) :
    Longer p (outcome (onTables call.step) p).2 := by
  intro kind
  rw [outcome_onTables, outcome_step]
  split
  · exact p.tables.count_le_add _ call.record kind
  · exact Nat.le_refl _

theorem appends_of_addOutline {object : Tiled.Object} {p q : Project} {global : UInt16}
    (h : Yields (addOutline object) p global q) : Appends .geometry p global q := by
  simp only [addOutline, yields_bind, yields_except] at h
  obtain ⟨bytes, _, ⟨-, rfl⟩, hpush⟩ := h
  exact TableCall.appends (.push .geometry object.name bytes) hpush

theorem appends_of_addEntity {e : Entity} {path : Option UInt16} {p q : Project} {global : UInt16}
    (h : Yields (addEntity e path) p global q) : Appends .entities p global q := by
  simp only [addEntity, yields_bind, yields_get, yields_except] at h
  obtain ⟨_, _, ⟨rfl, rfl⟩, bytes, _, ⟨-, rfl⟩, hpush⟩ := h
  exact TableCall.appends (.push .entities e.label bytes) hpush

theorem addOnce_longer {kind : Kind} {find? : Project → Option UInt16} {record : String}
    {bytes : Bytes} {remember : UInt16 → Project → Project}
    (hremember : ∀ index p, (remember index p).tables = p.tables) (p : Project) :
    Longer p (outcome (addOnce kind find? record bytes remember) p).2 := by
  change Moves Longer _ p
  refine .get_bind ?_
  cases find? p with
  | some index => exact fun _ => Nat.le_refl _
  | none =>
    refine .bind (fun _ _ _ => .trans) (TableCall.longer (.push kind record bytes) p) ?_
    intro index q _ k
    change q.tables.count k ≤ (remember index q).tables.count k
    rw [hremember]

/-! ## Agreement with an invariant -/

section Agreement

variable {σ α β : Type} {P Q : σ → Prop} {s : σ}

/-- What is true before a change is true after it. -/
def Keeping (P : σ → Prop) (s t : σ) : Prop := P s → P t

theorem keeping (P : σ → Prop) : Change P (Keeping P) where
  refl _ h := h
  trans _ _ _ hst htu hs := htu (hst hs)
  keeps _ _ hs hst := hst hs

/-- Both steps are alike where `P` is true, and keep it true. -/
abbrev AlikeIn (P : σ → Prop) (x y : Step σ α) : Prop := Alike P (Keeping P) x y

/-- From `s` both steps have one outcome, and it leaves a state in `P`. -/
abbrev AlikeInto (P : σ → Prop) (x y : Step σ α) (s : σ) : Prop := AlikeAt (fun _ => P) x y s

theorem Alike.into {x y : Step σ α} (h : AlikeIn P x y) (hs : P s) : AlikeInto P x y s :=
  ⟨(h s hs).1, (h s hs).2 hs⟩

namespace AlikeInto

theorem alike {x y : Step σ α} (h : ∀ s, P s → AlikeInto P x y s) : AlikeIn P x y :=
  fun s hs => ⟨(h s hs).1, fun _ => (h s hs).2⟩

theorem bind {x y : Step σ α} {f g : α → Step σ β} (hPQ : ∀ {t}, P t → Q t)
    (hxy : AlikeInto P x y s)
    (hfg : ∀ a t, Yields y s a t → P t → AlikeInto Q (f a) (g a) t) :
    AlikeInto Q (x >>= f) (y >>= g) s := by
  obtain ⟨heq, hP⟩ := hxy
  rw [heq] at hP
  unfold AlikeInto AlikeAt
  rw [outcome_bind, outcome_bind, heq]
  rcases hy : outcome y s with ⟨e | a, t⟩
  · rw [hy] at hP
    exact ⟨rfl, hPQ hP⟩
  · rw [hy] at hP
    exact hfg a t hy hP

theorem get_bind {f g : σ → Step σ β} (h : AlikeInto P (f s) (g s) s) :
    AlikeInto P ((MonadState.get : Step σ σ) >>= f) ((MonadState.get : Step σ σ) >>= g) s := h

theorem except_bind {x : Except Failure α} {f g : α → Step σ β} (hs : P s)
    (h : ∀ a, AlikeInto P (f a) (g a) s) :
    AlikeInto P ((liftM x : Step σ α) >>= f) ((liftM x : Step σ α) >>= g) s := by
  cases x with
  | error e => exact ⟨rfl, hs⟩
  | ok a => exact h a

theorem orReject_bind {o : Option α} {e : BuildError} {f g : α → Step σ β} (hs : P s)
    (h : ∀ a, AlikeInto P (f a) (g a) s) :
    AlikeInto P (orReject o e >>= f) (GameBundle.orReject o e >>= g) s := by
  cases o with
  | none => exact ⟨rfl, hs⟩
  | some a => exact h a

theorem onMap {P : MapState → Prop} {Q : Project → Prop} {x y : Step MapState α}
    {map : MapContext} {p : Project} (h : AlikeInto P x y ⟨map, p⟩)
    (hPQ : ∀ {s}, P s → Q s.project) :
    AlikeInto Q (GameBundle.onMap map x) (GameBundle.onMap map y) p := by
  refine ⟨?_, ?_⟩
  · rw [outcome_onMap, outcome_onMap, h.1]
  · rw [outcome_onMap]
    exact hPQ h.2

end AlikeInto

end Agreement

/-! ## The invariant -/

variable {s : MapState} {p q : Project} {global : UInt16}

/-- The lists of the map are not longer than the tables, and the script that does nothing has its
    record. -/
structure Room (s : MapState) : Prop where
  geometry : s.map.geometry.size ≤ s.project.tables.count .geometry
  entities : s.map.entities.size ≤ s.project.tables.count .entities
  scripts : s.map.scripts.size ≤ s.project.tables.count .scripts
  null : 0 < s.project.tables.count .scripts

/-- While objects are placed, the map has no scripts. -/
structure WithoutScripts (s : MapState) : Prop extends Room s where
  none : s.map.scripts = #[]
  unlisted : s.map.scriptNumber? nullScript = Option.none

/-- From the first script on, the one that does nothing is listed. -/
structure WithScripts (s : MapState) : Prop extends Room s where
  listed : Listed nullScript s

/-- What is true of a state stays true when tables grow. -/
def Stable (P : MapState → Prop) : Prop := ∀ s p, P s → Longer s.project p → P ⟨s.map, p⟩

theorem Room.stable : Stable Room := fun _ _ hs hp => {
  geometry := hs.geometry.trans (hp _)
  entities := hs.entities.trans (hp _)
  scripts := hs.scripts.trans (hp _)
  null := hs.null.trans_le (hp _) }

theorem WithoutScripts.stable : Stable WithoutScripts := fun s p hs hp =>
  ⟨Room.stable s p hs.toRoom hp, hs.none, hs.unlisted⟩

theorem WithScripts.stable : Stable WithScripts := fun s p hs hp =>
  ⟨Room.stable s p hs.toRoom hp, hs.listed⟩

theorem Stable.onProject {P : MapState → Prop} (hP : Stable P) {α : Type} {x : Step Project α}
    (hx : ∀ p, Longer p (outcome x p).2) :
    AlikeIn P (onProject x) (GameBundle.onProject x) :=
  fun s _ => ⟨rfl, fun hs => hP s _ hs (hx s.project)⟩

theorem Stable.stores {P : MapState → Prop} (hP : Stable P) : StoresAlike P (Keeping P) where
  text pool map text := hP.onProject (Adds.text pool map text).longer
  once hremember := hP.onProject (addOnce_longer hremember)

theorem WithoutScripts.start (name : String) (index : UInt16)
    (hnull : 0 < p.tables.count .scripts) : WithoutScripts ⟨{ name, index }, p⟩ where
  geometry := Nat.zero_le _
  entities := Nat.zero_le _
  scripts := Nat.zero_le _
  null := hnull
  none := rfl
  unlisted := rfl

theorem WithoutScripts.outline (hs : WithoutScripts s) (h : Appends .geometry s.project global q) :
    WithoutScripts ⟨{ s.map with geometry := s.map.geometry.push global }, q⟩ := by
  have hroom := Room.stable s q hs.toRoom h.longer
  refine ⟨{ hroom with geometry := ?_ }, hs.none, hs.unlisted⟩
  rw [Array.size_push, h.count, if_pos rfl]
  exact Nat.succ_le_succ hs.geometry

theorem WithoutScripts.entity (hs : WithoutScripts s) (h : Appends .entities s.project global q) :
    WithoutScripts ⟨{ s.map with entities := s.map.entities.push global }, q⟩ := by
  have hroom := Room.stable s q hs.toRoom h.longer
  refine ⟨{ hroom with entities := ?_ }, hs.none, hs.unlisted⟩
  rw [Array.size_push, h.count, if_pos rfl]
  exact Nat.succ_le_succ hs.entities

/-- Names and the player have no part in it. -/
theorem WithoutScripts.rename (hs : WithoutScripts s) (objects : Array MapObject)
    (player : Option UInt16) : WithoutScripts ⟨{ s.map with objects, player }, s.project⟩ :=
  ⟨⟨hs.geometry, hs.entities, hs.scripts, hs.null⟩, hs.none, hs.unlisted⟩

theorem WithoutScripts.list (hs : WithoutScripts s) (objects : List Tiled.Object)
    (slots : List (Option ObjectSlot)) :
    WithoutScripts ⟨listObjects objects slots s.map, s.project⟩ := by
  obtain ⟨listed, hlisted⟩ := listObjects_eq objects slots s.map
  rw [hlisted]
  exact hs.rename listed s.map.player

theorem WithoutScripts.null_listed (hs : WithoutScripts s) (number : UInt16) :
    WithScripts ⟨s.map.listScript nullScript 0 number, s.project⟩ where
  geometry := hs.geometry
  entities := hs.entities
  scripts := by
    rw [MapContext.listScript, Array.size_push, hs.none]
    exact hs.null
  null := hs.null
  listed := listed_listScript.2 (Or.inl rfl)

theorem WithScripts.script (hs : WithScripts s) (h : Appends .scripts s.project global q)
    (name : String) (number : UInt16) :
    WithScripts ⟨s.map.listScript name global number, q⟩ := by
  have hroom := Room.stable s q hs.toRoom h.longer
  refine ⟨{ hroom with scripts := ?_ }, ?_⟩
  · rw [MapContext.listScript, Array.size_push, h.count, if_pos rfl]
    exact Nat.succ_le_succ hs.scripts
  · exact listed_listScript (s := ⟨s.map, q⟩).2 (Or.inr hs.listed)

/-! ## Objects -/

variable {objection : NumberRule} {input : Input}

theorem exactNumber_eq {count : Nat} (h : count ≤ global.toNat) :
    exactNumber objection count global = .ok (UInt16.ofNat count) := by
  rw [exactNumber, dif_pos h, UInt16.ofNatLT_eq_ofNat]

/-- There is no objection to a number that is at most that of the record. -/
theorem AlikeInto.exactNumber_bind {σ β : Type} {P : σ → Prop} {s : σ} {count : Nat}
    {f : UInt16 → Step σ β} {y : Step σ β} (h : count ≤ global.toNat)
    (hf : AlikeInto P (f (UInt16.ofNat count)) y s) :
    AlikeInto P ((liftM (exactNumber objection count global) : Step σ UInt16) >>= f) y s := by
  rw [exactNumber_eq h]
  exact hf

theorem placeOutlinesBy_alike (objects : List Tiled.Object) :
    AlikeIn WithoutScripts (placeOutlinesBy (exactNumber objection) objects)
      (placeOutlines objects) := by
  refine (keeping WithoutScripts).mapM fun object _ => AlikeInto.alike fun s hs => ?_
  dsimp only
  split
  · exact ⟨rfl, hs⟩
  · have hadd := WithoutScripts.stable.onProject (addOutline_adds object).longer
    refine .bind id (hadd.into hs) fun global t h _ => ?_
    obtain ⟨q, hadded, rfl⟩ := yields_onProject.1 h
    have happends := appends_of_addOutline hadded
    -- before this outline the list was not longer than the table, whose length is its index
    refine .exactNumber_bind (happends.index ▸ hs.geometry) ?_
    exact ⟨rfl, hs.outline happends⟩

theorem placeEntityBy_alike (earlier : List (UInt16 × Entity)) (e : Entity) :
    AlikeIn WithoutScripts (placeEntityBy (exactNumber objection) earlier e)
      (placeEntity earlier e) := by
  refine AlikeInto.alike fun s hs => .get_bind (.except_bind hs fun path => ?_)
  have hadd := WithoutScripts.stable.onProject (addEntity_adds e path).longer
  refine .bind id (hadd.into hs) fun global t h _ => ?_
  obtain ⟨q, hadded, rfl⟩ := yields_onProject.1 h
  have happends := appends_of_addEntity hadded
  refine .exactNumber_bind (happends.index ▸ hs.entities) ?_
  have ht := hs.entity happends
  -- from here on, both do the same
  split
  · cases s.map.player with
    | some player => exact ⟨rfl, ht⟩
    | none => exact ⟨rfl, ht.rename _ _⟩
  · exact ⟨rfl, ht⟩

theorem placeEntitiesBy_alike (entities : List (Nat × Entity)) :
    AlikeIn WithoutScripts (placeEntitiesBy (exactNumber objection) entities)
      (placeEntities entities) := by
  have hR := keeping WithoutScripts
  refine hR.foldlM (fun placed p _ => ?_) []
  exact hR.bind (placeEntityBy_alike placed p.2) fun global => hR.pure _

/-- Entity `i` of a map has a record behind `i` others. -/
theorem entitySlotsBy_eq {entities : List (Nat × Entity)} {placed : List (UInt16 × Entity)}
    {t : MapState} (h : Yields (placeEntities entities) s placed t) :
    entitySlotsBy (exactNumber objection) entities placed =
      .ok (entities.zipIdx.map fun ((place, _), i) =>
        (place, ObjectSlot.entity (UInt16.ofNat i))) := by
  obtain ⟨horder, hadds⟩ := placeEntities_spec h
  have hlength : placed.length = entities.length := by simpa using congrArg List.length horder
  rw [entitySlotsBy, mapM_eq_ok, List.forall₂_map_right_iff, List.forall₂_same]
  rintro ⟨⟨place, e⟩, i⟩ hi
  have hlt : i < placed.length := hlength ▸ List.snd_lt_of_mem_zipIdx hi
  have hglobal : (placed[i]).1.toNat = s.project.tables.count .entities + i :=
    hadds.toNat (by rw [List.getElem?_map, List.getElem?_eq_getElem hlt, Option.map_some])
  dsimp only
  rw [List.getElem?_eq_getElem hlt, Option.map_some, Option.getD_some,
    exactNumber_eq (hglobal ▸ Nat.le_add_left i _)]
  rfl

theorem placeObjectsBy_alike (tiled : Tiled.Map) (tilesets : List (UInt32 × Tileset)) :
    AlikeIn WithoutScripts (placeObjectsBy (exactNumber objection) tiled tilesets)
      (placeObjects tiled tilesets) := by
  refine AlikeInto.alike fun s hs => .get_bind (.except_bind hs fun _ => ?_)
  refine .bind id ((placeOutlinesBy_alike _).into hs) fun outlines t _ ht => ?_
  refine .bind (P := WithoutScripts) id ⟨rfl, ht.list _ _⟩ fun _ u _ hu => ?_
  refine .get_bind (.except_bind hu fun composed => ?_)
  refine .bind id ((placeEntitiesBy_alike _).into hu) fun placed v hplaced hv => ?_
  rw [entitySlotsBy_eq hplaced]
  exact ⟨rfl, (hv.rename #[] v.map.player).list _ _⟩

/-! ## Scripts -/

theorem listScriptBy_alike {P : MapState → Prop} (name : String)
    (hle : s.map.scripts.size ≤ global.toNat)
    (hP : ∀ number, P ⟨s.map.listScript name global number, s.project⟩) :
    AlikeInto P (listScriptBy (exactNumber objection) name global) (listScript name global) s := by
  -- the length that is checked is at most a word
  have hnext : s.map.nextScript = .ok (UInt16.ofNat s.map.scripts.size) :=
    if_pos (Nat.lt_of_le_of_lt hle global.toNat_lt)
  refine .get_bind (.exactNumber_bind hle ?_)
  rw [hnext]
  exact ⟨rfl, hP _⟩

/-- The script that does nothing is the first of a map. -/
theorem scriptNumberBy_null {start start' : String → Script → Step MapState UInt16}
    (hs : WithoutScripts s) :
    AlikeInto WithScripts (scriptNumberBy (exactNumber objection) input start nullScript)
      (scriptNumber input start' nullScript) s := by
  refine .get_bind ?_
  rw [hs.unlisted]
  simp only [if_pos]
  refine listScriptBy_alike nullScript ?_ hs.null_listed
  rw [hs.none]
  exact Nat.zero_le _

theorem scriptNumberBy_alike {start start' : String → Script → Step MapState UInt16}
    (hstart : ∀ name actions, AlikeIn WithScripts (start name actions) (start' name actions))
    (name : String) :
    AlikeIn WithScripts (scriptNumberBy (exactNumber objection) input start name)
      (scriptNumber input start' name) := by
  refine AlikeInto.alike fun s hs => .get_bind ?_
  cases hnumber : s.map.scriptNumber? name with
  | some number => exact ⟨rfl, hs⟩
  | none =>
    -- record zero is only ever listed first, so this is a script with a record of its own
    have hother : name ≠ nullScript := by
      rintro rfl
      have hlisted := hs.listed
      rw [Listed, hnumber] at hlisted
      cases hlisted
    simp only [if_neg hother]
    refine .get_bind (.orReject_bind hs fun script => .except_bind hs fun actions => ?_)
    exact (hstart name actions).into hs

theorem compileActionsBy_alike {compile compile' : String → Step MapState UInt16}
    (hcompile : ∀ name, AlikeIn WithScripts (compile name) (compile' name))
    (name : String) (actions : Script) :
    AlikeIn WithScripts (compileActionsBy (exactNumber objection) input compile name actions)
      (compileActions input compile' name actions) := by
  have hR := keeping WithScripts
  refine AlikeInto.alike fun s hs => .except_bind hs fun header => ?_
  have hreserve := WithScripts.stable.onProject (TableCall.reserve .scripts name).longer
  refine .bind id (hreserve.into hs) fun global t h _ => ?_
  obtain ⟨q, hclaimed, rfl⟩ := yields_onProject.1 h
  have happends := TableCall.appends (.reserve .scripts name) hclaimed
  refine .bind id (listScriptBy_alike name (happends.index ▸ hs.scripts)
    (hs.script happends name)) fun number u _ hu => ?_
  refine (hR.bind (hR.mapM fun a _ => hR.encodeAction WithScripts.stable.stores hcompile a)
    fun instructions => ?_).into hu
  exact hR.bind (WithScripts.stable.onProject (Operation.fill .scripts (by decide) global _).longer)
    fun _ => hR.pure number

theorem compileScriptBy_alike (name : String) :
    AlikeIn WithScripts (compileScriptBy (exactNumber objection) input name)
      (compileScript input name) := by
  have hwithin : ∀ depth name, AlikeIn WithScripts
      (compileWithinBy (exactNumber objection) input (fun _ _ => throw .overrun) depth name)
      (compileWithin input (fun _ _ => throw .overrun) depth name) := by
    intro depth
    induction depth with
    | zero => exact scriptNumberBy_alike fun _ _ => (keeping WithScripts).still fun _ => rfl
    | succ depth ih => exact scriptNumberBy_alike (compileActionsBy_alike ih)
  exact hwithin _ name

theorem compileAllBy_alike (scripts : List (String × String)) :
    AlikeIn WithScripts (compileAllBy (exactNumber objection) input scripts)
      (compileAll input scripts) := by
  have hR := keeping WithScripts
  exact hR.mapM fun _ _ => hR.bind (compileScriptBy_alike _) fun _ => hR.pure _

theorem compileEventsBy_alike (tiled : Tiled.Map) (settings : MapSettings)
    (hs : WithoutScripts s) :
    AlikeInto WithScripts (compileEventsBy (exactNumber objection) input tiled settings)
      (compileEvents input tiled settings) s := by
  have hnull : AlikeInto WithScripts (compileScriptBy (exactNumber objection) input nullScript)
      (compileScript input nullScript) s := by
    unfold compileScriptBy compileScript
    cases input.definitions.scripts.size <;> exact scriptNumberBy_null hs
  refine .bind id hnull fun _ t _ ht => .get_bind (.except_bind ht fun scripts => ?_)
  have hR := keeping WithScripts
  exact (hR.bind (compileAllBy_alike scripts) fun numbers => hR.pure _).into ht

theorem wireEntityBy_alike (global : UInt16) (e : Entity) :
    AlikeIn WithScripts (wireEntityBy (exactNumber objection) input global e)
      (wireEntity input global e) := by
  have hR := keeping WithScripts
  refine hR.forM fun slot _ => ?_
  dsimp only
  cases e.script? slot.1 with
  | none => exact hR.pure ()
  | some script =>
    refine hR.bind (compileScriptBy_alike script) fun number => ?_
    exact WithScripts.stable.onProject (Operation.update .entities (by decide) global _).longer

/-! ## Builds -/

theorem buildMapContentsBy_alike (settings : MapSettings) (tiled : Tiled.Map)
    (tilesets : List (UInt32 × Tileset)) (layers : List Bytes) (hs : WithoutScripts s) :
    AlikeInto Room
      (buildMapContentsBy (exactNumber objection) input settings tiled tilesets layers)
      (buildMapContents input settings tiled tilesets layers) s := by
  have hR := keeping WithScripts
  refine .bind (·.toRoom) ((placeObjectsBy_alike tiled tilesets).into hs) fun placed t _ ht => ?_
  refine .bind (·.toRoom) (compileEventsBy_alike tiled settings ht) fun events u _ hu => ?_
  refine .bind (·.toRoom) ((compileAllBy_alike _).into hu) fun directions v _ hv => ?_
  have hwire : AlikeIn WithScripts
      (placed.forM fun e => wireEntityBy (exactNumber objection) input e.1 e.2)
      (placed.forM fun e => wireEntity input e.1 e.2) :=
    hR.forM fun e _ => wireEntityBy_alike e.1 e.2
  refine .bind (·.toRoom) (hwire.into hv) fun _ w _ hw => ?_
  refine .get_bind (.except_bind hw.toRoom fun header => ?_)
  exact (Room.stable.onProject (Operation.fill .maps (by decide) _ _).longer).into hw.toRoom

/-- The script that does nothing has its record. -/
def HasNull (p : Project) : Prop := 0 < p.tables.count .scripts

theorem buildMapBy_alike (name : String) (settings : MapSettings) :
    AlikeIn HasNull (buildMapBy (exactNumber objection) input name settings)
      (buildMap input name settings) := by
  refine AlikeInto.alike fun p hp => .orReject_bind hp fun path => .get_bind ?_
  refine .orReject_bind hp fun index => .except_bind hp fun tiled => ?_
  refine .bind (P := HasNull) id ⟨rfl, hp.trans_le ((loadTilesets_adds tiled).longer p _)⟩ ?_
  refine fun tilesets q _ hq => .except_bind hq fun layers => ?_
  have hstart := WithoutScripts.start name index hq
  exact (buildMapContentsBy_alike settings tiled tilesets layers hstart).onMap (·.null)

theorem buildAllBy_eq (input : Input) (objection : NumberRule) :
    outcome (buildAllBy (exactNumber objection) input) {} = outcome (buildAll input) {} := by
  have h : AlikeInto (fun _ => True) (buildAllBy (exactNumber objection) input) (buildAll input)
      {} := by
    refine .bind (P := fun _ => True) id ⟨rfl, trivial⟩ fun _ p hp _ => ?_
    have hnull : HasNull p := by
      rw [HasNull, Tables.count, (buildShared_spec hp).scripts]
      decide
    have hmaps : AlikeIn HasNull (input.definitions.maps.entries.forM fun e =>
        buildMapBy (exactNumber objection) input e.1 e.2)
        (input.definitions.maps.entries.forM fun e => buildMap input e.1 e.2) :=
      (keeping HasNull).forM fun e _ => buildMapBy_alike e.1 e.2
    exact ⟨(hmaps.into hnull).1, trivial⟩
  exact h.1

/-! ## The result -/

/-- **No index and no number is ever cut short.** After any calls that add records, a table has as
    many as there were calls for it, up to 65536. The next call succeeds with the length of its
    table as long as that is below 65536, and from then on fails and changes nothing. And a build
    that gives something on a map the exact count of those before it, provided that this does not
    exceed the record that was added just now, never has an objection to raise: on every input it
    ends as the build does that cuts the count down, although it does not check how many scripts a
    map lists. -/
theorem numbers_exact :
    (∀ (calls : List TableCall) (call : TableCall), let t := Tables.after calls
      (∀ kind, t.count kind = min UInt16.size (calls.countP fun call => call.kind = kind)) ∧
        outcome call.step t =
          if h : t.count call.kind < UInt16.size then
            (.ok (UInt16.ofNatLT (t.count call.kind) h), t.add call.kind call.record)
          else (.error (.error (call.refusal t)), t)) ∧
      ∀ (input : Input) (objection : NumberRule),
        outcome (buildAllBy (exactNumber objection) input) {} = outcome (buildAll input) {} :=
  ⟨fun calls call => ⟨Tables.count_after calls, call.outcome_step _⟩, buildAllBy_eq⟩

/-- This many maps are claimed. -/
def mapClaims (n : Nat) : List TableCall := List.replicate n (.reserve .maps "")

/-- There is room for 65536 maps. One more is refused and nothing changes, but a script still gets
    the first index of its table. And the two maps of the example list their scripts under exact
    numbers. -/
theorem numbers_exact_full :
    (outcome (TableCall.push .maps "last" #[]).step (Tables.after (mapClaims 65535))).1 =
        .ok 65535 ∧
      outcome (TableCall.push .maps "late" #[]).step (Tables.after (mapClaims 65536)) =
        (.error (.error (.fieldOverflow "maps table index" 65536 2)),
          Tables.after (mapClaims 65536)) ∧
      (outcome (TableCall.reserve .scripts "").step (Tables.after (mapClaims 65536))).1 = .ok 0 ∧
      ∃ p, ∀ objection, Yields (buildAllBy (exactNumber objection) twoMaps) {} () p := by
  obtain ⟨hcalls, hbuilds⟩ := numbers_exact
  have hcounts : ∀ n kind, (Tables.after (mapClaims n)).count kind =
      min UInt16.size (if decide (.maps = kind) then n else 0) := by
    intro n kind
    rw [(hcalls (mapClaims n) (.reserve .maps "")).1, mapClaims, List.countP_replicate]
    rfl
  have hindex : ∀ (n : Nat) (call : TableCall) (index : UInt16),
      (Tables.after (mapClaims n)).count call.kind = index.toNat →
      (outcome call.step (Tables.after (mapClaims n))).1 = .ok index := by
    intro n call index hcount
    have hroom : (Tables.after (mapClaims n)).count call.kind < UInt16.size :=
      hcount ▸ index.toNat_lt
    rw [(hcalls _ call).2, dif_pos hroom]
    exact congrArg Except.ok (UInt16.toNat_inj.1 hcount)
  refine ⟨hindex _ _ _ ((hcounts 65535 .maps).trans (by decide)), ?_,
    hindex _ _ _ ((hcounts 65536 .scripts).trans (by decide)), ?_⟩
  · have hcount : (Tables.after (mapClaims 65536)).count .maps = 65536 :=
      (hcounts 65536 .maps).trans (by decide)
    have hfull : ¬(Tables.after (mapClaims 65536)).count .maps < UInt16.size := by
      rw [hcount]
      decide
    have hrefusal : TableCall.refusal (.push .maps "late" #[]) (Tables.after (mapClaims 65536)) =
        .fieldOverflow "maps table index" 65536 2 :=
      congrArg (fun count : Nat => BuildError.fieldOverflow "maps table index" count 2) hcount
    rw [← hrefusal]
    exact (hcalls _ (.push .maps "late" #[])).2.trans (dif_neg hfull)
  · have hbuilt : (outcome (buildAll twoMaps) {}).1 = .ok () := by decide +kernel
    exact ⟨_, fun objection => (hbuilds twoMaps objection).trans (yields_outcome hbuilt)⟩

end GameBundle
