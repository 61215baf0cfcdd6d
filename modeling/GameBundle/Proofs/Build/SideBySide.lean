import GameBundle.Proofs.Build.Lookups
import GameBundle.Proofs.Build.Operations
import GameBundle.Proofs.Build.Sound

set_option autoImplicit false

/-! # Two builds side by side

Two builds are compared step by step. The second may have claimed records for more maps, and there
may be scripts that only one of the two knows. Otherwise both have the same project, and a step of
the one is answered by a step of the other with the same result. `Together` is this for any two
steps, and it is put together like the steps are. If the second build has no more maps than the
first, even a failure of the one is a failure of the other. -/

namespace GameBundle

/-! ## Projects of two builds -/

theorem Tables.ext_records {s t : Tables} (h : ∀ kind, s.records kind = t.records kind) :
    s = t := by
  obtain ⟨rows, hrows⟩ := s
  obtain ⟨rows', hrows'⟩ := t
  have hposition : ∀ i < Kind.count, ∃ kind ∈ Kind.all, kind.position = i := by decide
  congr 1
  refine Array.ext (hrows.trans hrows'.symm) fun i hi _ => ?_
  obtain ⟨kind, -, rfl⟩ := hposition i (hrows ▸ hi)
  exact h kind

/-- In what two builds may differ. -/
structure Comparison where
  /-- Records that the second build has claimed for maps behind those of the first. -/
  extra : List Record
  /-- The scripts that both know. -/
  Common : String → Prop

/-- The properties of an entity that name a script. -/
def entityEvents : List String := ["on_interact", "on_tick"]

namespace Comparison

variable (c : Comparison)

/-- The properties name no script but those that both builds know. -/
def Plain (properties : Properties) : Prop :=
  ∀ event ∈ entityEvents, ∀ script, properties.text? event = some script → c.Common script

/-- How the projects of the two builds are related. -/
structure Projects (p p' : Project) : Prop where
  records : ∀ kind, (p'.tables.records kind).toList =
    (p.tables.records kind).toList ++ if kind = .maps then c.extra else []
  maps : p.maps.StaysIn p'.maps
  same : c.extra = [] → p'.maps = p.maps
  rest : p' = { p with tables := p'.tables, maps := p'.maps }
  tiles : p.tilesets.All fun tileset => ∀ id tile, tileset.tile? id = some tile →
    c.Plain tile.properties
  types : p.entityTypes.All fun type => c.Plain type.prototype

/-- The same for the states in which a map is built. Both builds know the same about the map. -/
structure States (s s' : MapState) : Prop where
  map : s'.map = s.map
  project : c.Projects s.project s'.project

end Comparison

namespace Comparison.Projects

variable {c : Comparison} {p p' : Project} {kind : Kind}

theorem refl (htiles : p.tilesets.All fun tileset => ∀ id tile, tileset.tile? id = some tile →
    c.Plain tile.properties) (htypes : p.entityTypes.All fun type => c.Plain type.prototype)
    (hextra : c.extra = []) : c.Projects p p where
  records kind := by
    rw [hextra]
    simp
  maps := .refl _
  same _ := rfl
  rest := rfl
  tiles := htiles
  types := htypes

theorem records_of_ne (h : c.Projects p p') (hkind : kind ≠ .maps) :
    p'.tables.records kind = p.tables.records kind := by
  have hrecords := h.records kind
  rw [if_neg hkind, List.append_nil] at hrecords
  exact Array.toList_inj.1 hrecords

theorem count_of_ne (h : c.Projects p p') (hkind : kind ≠ .maps) :
    p'.tables.count kind = p.tables.count kind := by
  rw [Tables.count, h.records_of_ne hkind, Tables.count]

/-- Without more maps the projects are the same. -/
theorem eq_of_nil (h : c.Projects p p') (hextra : c.extra = []) : p' = p := by
  have htables : p'.tables = p.tables := by
    refine Tables.ext_records fun kind => ?_
    have hrecords := h.records kind
    rw [hextra] at hrecords
    simp only [ite_self, List.append_nil] at hrecords
    exact Array.toList_inj.1 hrecords
  rw [h.rest, h.same hextra, htables]

/-- A record of the first build is one of the second. -/
theorem getElem? (h : c.Projects p p') {i : Nat} {record : Record}
    (hrecord : (p.tables.records kind)[i]? = some record) :
    (p'.tables.records kind)[i]? = some record := by
  rw [← Array.getElem?_toList] at hrecord ⊢
  rw [h.records, List.getElem?_append_left (List.getElem?_eq_some_iff.1 hrecord).1, hrecord]

/-- Both builds change their tables. -/
theorem of_tables (h : c.Projects p p') {tables tables' : Tables}
    (hrecords : ∀ kind, (tables'.records kind).toList =
      (tables.records kind).toList ++ if kind = .maps then c.extra else []) :
    c.Projects { p with tables } { p' with tables := tables' } where
  records := hrecords
  maps := h.maps
  same := h.same
  rest := by rw [h.rest]
  tiles := h.tiles
  types := h.types

theorem add (h : c.Projects p p') (hkind : kind ≠ .maps) (record : Record) :
    c.Projects (p.add kind record) (p'.add kind record) := by
  refine h.of_tables fun k => ?_
  by_cases hk : k = kind
  · subst hk
    rw [Tables.toList_records_add, Tables.toList_records_add, h.records k, if_neg hkind,
      List.append_nil, List.append_nil]
  · rw [Tables.records_add_of_ne record hk, Tables.records_add_of_ne record hk, h.records k]

theorem fill (h : c.Projects p p') {i : Nat} (hi : i < p.tables.count kind) (bytes : Bytes) :
    c.Projects (p.fill kind i bytes) (p'.fill kind i bytes) := by
  refine h.of_tables fun k => ?_
  by_cases hk : k = kind
  · subst hk
    have hlist := h.records k
    obtain ⟨xs, record, ys, hxs, hlength⟩ : ∃ xs record ys,
        (p.tables.records k).toList = xs ++ record :: ys ∧ xs.length = i := by
      rw [Tables.count_eq_length] at hi
      refine ⟨(p.tables.records k).toList.take i, (p.tables.records k).toList[i],
        (p.tables.records k).toList.drop (i + 1), ?_, List.length_take_of_le (Nat.le_of_lt hi)⟩
      rw [← List.drop_eq_getElem_cons hi, List.take_append_drop]
    subst hlength
    rw [hxs, List.append_assoc, List.cons_append] at hlist
    rw [Tables.toList_records_set bytes hxs, Tables.toList_records_set bytes hlist,
      List.append_assoc, List.cons_append]
  · rw [Tables.records_set_of_ne hk, Tables.records_set_of_ne hk, h.records k]

end Comparison.Projects

/-! ## Steps that go together -/

section Together

variable {σ α β : Type}

/-- Whenever `x` yields a result, `x'` yields the same from a related state, and leaves a related
    state. The result is in `Q`. If there are no more maps, `x'` fails whenever `x` does. -/
structure TogetherAt (c : Comparison) (R : σ → σ → Prop) (Q : α → Prop) (x x' : Step σ α)
    (s s' : σ) : Prop where
  yields : ∀ a t, Yields x s a t → Q a ∧ ∃ t', Yields x' s' a t' ∧ R t t'
  fails : ∀ e t, outcome x s = (.error e, t) → c.extra = [] → ∃ t', outcome x' s' = (.error e, t')

/-- The two steps go together from all related states. -/
def Together (c : Comparison) (R : σ → σ → Prop) (Q : α → Prop) (x x' : Step σ α) : Prop :=
  ∀ s s', R s s' → TogetherAt c R Q x x' s s'

namespace Together

variable {c : Comparison} {R : σ → σ → Prop} {P : α → Prop} {Q : β → Prop} {x x' : Step σ α}

theorem imp {Q : α → Prop} (h : Together c R P x x') (hPQ : ∀ a, P a → Q a) :
    Together c R Q x x' := by
  intro s s' hs
  refine ⟨fun a t hx => ?_, (h s s' hs).fails⟩
  obtain ⟨hP, ht⟩ := (h s s' hs).yields a t hx
  exact ⟨hPQ a hP, ht⟩

theorem pure {a : α} (ha : P a) : Together c R P (pure a) (Pure.pure a) := by
  intro s s' hs
  refine ⟨fun b t h => ?_, fun e t h => ?_⟩
  · obtain ⟨rfl, rfl⟩ := yields_pure.1 h
    exact ⟨ha, s', rfl, hs⟩
  · cases h

theorem throw (e : Failure) : Together c R P (throw e) (throwThe Failure e) := by
  intro s s' _
  refine ⟨fun a t h => (yields_throw.1 h).elim, fun e' t h _ => ⟨s', ?_⟩⟩
  cases h
  rfl

theorem reject (e : BuildError) : Together c R P (reject e) (GameBundle.reject e) := throw _

theorem except {x : Except Failure α} (h : ∀ a, x = .ok a → P a) :
    Together c R P (liftM x) (liftM x) := by
  cases x with
  | ok a => exact pure (h a rfl)
  | error e => exact throw e

theorem orReject {o : Option α} (e : BuildError) (h : ∀ a, o = some a → P a) :
    Together c R P (orReject o e) (GameBundle.orReject o e) := by
  cases o with
  | some a => exact pure (h a rfl)
  | none => exact reject e

theorem bind {f f' : α → Step σ β} (hx : Together c R P x x')
    (hf : ∀ a, P a → Together c R Q (f a) (f' a)) : Together c R Q (x >>= f) (x' >>= f') := by
  intro s s' hs
  refine ⟨fun b u h => ?_, fun e u h hextra => ?_⟩
  · obtain ⟨a, t, ha, hb⟩ := yields_bind.1 h
    obtain ⟨hP, t', ha', ht⟩ := (hx s s' hs).yields a t ha
    obtain ⟨hQ, u', hb', hu⟩ := (hf a hP t t' ht).yields b u hb
    exact ⟨hQ, u', yields_bind.2 ⟨a, t', ha', hb'⟩, hu⟩
  · rw [outcome_bind] at h ⊢
    rcases hout : outcome x s with ⟨e' | a, t⟩
    · rw [hout] at h
      cases h
      obtain ⟨t', hout'⟩ := (hx s s' hs).fails _ _ hout hextra
      exact ⟨t', by rw [hout']⟩
    · rw [hout] at h
      obtain ⟨hP, t', ha', ht⟩ := (hx s s' hs).yields a t hout
      obtain ⟨u', hu'⟩ := (hf a hP t t' ht).fails e u h hextra
      refine ⟨u', ?_⟩
      rw [show outcome x' s' = (.ok a, t') from ha']
      exact hu'

/-- What would come after a rejection does not matter. -/
theorem rejected (e : BuildError) (f f' : α → Step σ β) :
    Together c R Q (GameBundle.reject e >>= f) (GameBundle.reject e >>= f') :=
  bind (P := fun _ => False) (reject e) fun _ h => h.elim

theorem rejectIf {p : Prop} [Decidable p] (e : BuildError) {f f' : Unit → Step σ β}
    (hf : Together c R Q (f ()) (f' ())) :
    Together c R Q (if p then GameBundle.reject e >>= f else f ())
      (if p then GameBundle.reject e >>= f' else f' ()) := by
  split
  · exact rejected e f f'
  · exact hf

theorem mapM {f f' : α → Step σ β} {xs : List α} (hf : ∀ a ∈ xs, Together c R Q (f a) (f' a)) :
    Together c R (fun ys => ∀ b ∈ ys, Q b) (xs.mapM f) (xs.mapM f') := by
  induction xs with
  | nil => exact pure fun _ h => nomatch h
  | cons a xs ih =>
    rw [List.mapM_cons, List.mapM_cons]
    refine bind (hf a List.mem_cons_self) fun b hb => ?_
    refine bind (ih fun x hx => hf x (List.mem_cons_of_mem _ hx)) fun bs hbs => pure ?_
    exact List.forall_mem_cons.2 ⟨hb, hbs⟩

theorem foldlM {f f' : β → α → Step σ β} {xs : List α}
    (hf : ∀ b, Q b → ∀ a ∈ xs, Together c R Q (f b a) (f' b a)) {b : β} (hb : Q b) :
    Together c R Q (xs.foldlM f b) (xs.foldlM f' b) := by
  induction xs generalizing b with
  | nil => exact pure hb
  | cons a xs ih =>
    rw [List.foldlM_cons, List.foldlM_cons]
    refine bind (hf b hb a List.mem_cons_self) fun b' hb' => ?_
    exact ih (fun d hd x hx => hf d hd x (List.mem_cons_of_mem _ hx)) hb'

theorem forM {Q : Unit → Prop} {f f' : α → Step σ Unit} {xs : List α} (hQ : Q ())
    (hf : ∀ a ∈ xs, Together c R Q (f a) (f' a)) : Together c R Q (xs.forM f) (xs.forM f') := by
  induction xs with
  | nil => exact pure hQ
  | cons a xs ih =>
    exact bind (hf a List.mem_cons_self) fun _ _ => ih fun x hx => hf x (List.mem_cons_of_mem _ hx)

/-- The first build fails where the second need not, unless that has no more maps. -/
theorem grown (hx : Together c R P x x) (h : (∃ e, x = throwThe Failure e) ∨ x' = x)
    (hsame : c.extra = [] → x' = x) : Together c R P x x' := by
  by_cases hextra : c.extra = []
  · rwa [hsame hextra]
  · rcases h with ⟨e, rfl⟩ | rfl
    · exact fun s s' _ =>
        ⟨fun a t h => (yields_throw.1 h).elim, fun _ _ _ hnil => (hextra hnil).elim⟩
    · exact hx

/-- A step that both builds make. -/
theorem of_yields {x : Step σ α} (hsame : ∀ s s', R s s' → c.extra = [] → s' = s)
    (hx : ∀ s s' a t, R s s' → Yields x s a t → P a ∧ ∃ t', Yields x s' a t' ∧ R t t') :
    Together c R P x x := by
  refine fun s s' hs => ⟨fun a t h => hx s s' a t hs h, fun e t h hextra => ⟨t, ?_⟩⟩
  rwa [hsame s s' hs hextra]

end Together

end Together

/-! ## Steps on the project and on the map -/

/-- Both builds get the same answer, whatever it is. -/
abbrev Any {α : Type} : α → Prop := fun _ => True

theorem outcome_onProject {α : Type} (x : Step Project α) (s : MapState) :
    outcome (onProject x) s =
      ((outcome x s.project).1, ⟨s.map, (outcome x s.project).2⟩) := rfl

namespace Together

variable {c : Comparison} {α β : Type} {P : α → Prop} {Q : β → Prop}

theorem get_bind {f f' : Project → Step Project β}
    (hf : ∀ p tables maps, c.Projects p { p with tables, maps } →
      Together c c.Projects Q (f p) (f' { p with tables, maps })) :
    Together c c.Projects Q (get >>= f) (get >>= f') := by
  intro p p' hp
  have hrest := hp.rest
  generalize p'.tables = tables, p'.maps = maps at hrest
  subst hrest
  have hfp := hf p tables maps hp p _ hp
  exact ⟨hfp.yields, hfp.fails⟩

theorem remember {f : Project → Project}
    (hf : ∀ p p', c.Projects p p' → c.Projects (f p) (f p')) :
    Together c c.Projects Any (modify f) (modify f) := by
  refine of_yields (fun _ _ h => h.eq_of_nil) fun p p' _ q hp h => ?_
  obtain rfl := yields_modify.1 h
  exact ⟨trivial, f p', rfl, hf p p' hp⟩

section Tables

variable {kind : Kind}

/-- A new record comes behind the same records in both builds. -/
theorem added {x : Step Tables UInt16} {record : Record} (hkind : kind ≠ .maps)
    (hx : ∀ t index u, Yields x t index u ↔
      t.count kind < UInt16.size ∧ index = UInt16.ofNat (t.count kind) ∧ u = t.add kind record) :
    Together c c.Projects Any (onTables x) (onTables x) := by
  refine of_yields (fun _ _ h => h.eq_of_nil) fun p p' index q hp h => ?_
  simp only [yields_onTables, hx] at h ⊢
  obtain ⟨_, ⟨hroom, rfl, rfl⟩, rfl⟩ := h
  refine ⟨trivial, _, ⟨_, ⟨?_, ?_, rfl⟩, rfl⟩, hp.add hkind _⟩
  · rwa [hp.count_of_ne hkind]
  · rw [hp.count_of_ne hkind]

theorem push (hkind : kind ≠ .maps) (name : String) (bytes : Bytes) :
    Together c c.Projects Any (onTables (Tables.push kind name bytes))
      (onTables (Tables.push kind name bytes)) :=
  added hkind fun _ _ _ => Tables.yields_push

theorem reserve (hkind : kind ≠ .maps) (name : String) :
    Together c c.Projects Any (onTables (Tables.reserve kind name))
      (onTables (Tables.reserve kind name)) :=
  added hkind fun _ _ _ => Tables.yields_reserve

theorem fill (kind : Kind) (index : UInt16) (bytes : Bytes) :
    Together c c.Projects Any (onTables (Tables.fill kind index bytes))
      (onTables (Tables.fill kind index bytes)) := by
  refine of_yields (fun _ _ h => h.eq_of_nil) fun p p' _ q hp h => ?_
  simp only [yields_onTables, Tables.yields_fill] at h ⊢
  obtain ⟨_, ⟨hlt, rfl⟩, rfl⟩ := h
  refine ⟨trivial, _, ⟨_, ⟨?_, rfl⟩, rfl⟩, hp.fill hlt bytes⟩
  have hrecord := hp.getElem? (Array.getElem?_eq_getElem hlt)
  exact (Array.getElem?_eq_some_iff.1 hrecord).1

theorem update (kind : Kind) (index : UInt16) (f : Bytes → Except Failure Bytes) :
    Together c c.Projects Any (onTables (Tables.update kind index f))
      (onTables (Tables.update kind index f)) := by
  refine of_yields (fun _ _ h => h.eq_of_nil) fun p p' _ q hp h => ?_
  simp only [yields_onTables, Tables.yields_update] at h ⊢
  obtain ⟨_, ⟨name, old, new, hold, hnew, rfl⟩, rfl⟩ := h
  have hlt := (Array.getElem?_eq_some_iff.1 hold).1
  exact ⟨trivial, _, ⟨_, ⟨name, old, new, hp.getElem? hold, hnew, rfl⟩, rfl⟩, hp.fill hlt new⟩

end Tables

theorem text (pool : Pool) (map : Option MapContext) (raw : String) :
    Together c c.Projects Any (intern pool map raw) (intern pool map raw) := by
  refine get_bind fun p tables maps hp => ?_
  refine bind (except fun _ _ => trivial) fun value _ => ?_
  cases (p.pools.get pool).find? value with
  | some index => exact pure trivial
  | none =>
    have hkind : pool.kind ≠ .maps := by cases pool <;> decide
    refine rejectIf _ (bind (push hkind _ _) fun index _ => ?_)
    refine bind (remember fun q q' hq => ?_) fun _ _ => pure trivial
    exact ⟨hq.records, hq.maps, hq.same, by rw [hq.rest], hq.tiles, hq.types⟩

theorem onMap (map : MapContext) {x x' : Step MapState α} (h : Together c c.States P x x') :
    Together c c.Projects P (onMap map x) (onMap map x') := by
  intro p p' hp
  have hx := h ⟨map, p⟩ ⟨map, p'⟩ ⟨rfl, hp⟩
  refine ⟨fun a q hq => ?_, fun e q hq hextra => ?_⟩
  · obtain ⟨t, ht, rfl⟩ := yields_onMap.1 hq
    obtain ⟨hP, t', ht', hstates⟩ := hx.yields a t ht
    exact ⟨hP, t'.project, yields_onMap.2 ⟨t', ht', rfl⟩, hstates.project⟩
  · rw [outcome_onMap] at hq ⊢
    obtain ⟨hresult, -⟩ := Prod.mk.inj hq
    obtain ⟨t', ht'⟩ := hx.fails e _ (Prod.ext hresult rfl) hextra
    exact ⟨t'.project, by rw [ht']⟩

theorem onProject {x x' : Step Project α} (h : Together c c.Projects P x x') :
    Together c c.States P (onProject x) (GameBundle.onProject x') := by
  rintro ⟨map, p⟩ ⟨map', p'⟩ ⟨hmap, hp⟩
  obtain rfl : map' = map := hmap
  have hx := h p p' hp
  refine ⟨fun a s hs => ?_, fun e s hs hextra => ?_⟩
  · obtain ⟨q, hq, rfl⟩ := yields_onProject.1 hs
    obtain ⟨hP, q', hq', hprojects⟩ := hx.yields a q hq
    exact ⟨hP, ⟨map', q'⟩, yields_onProject.2 ⟨q', hq', rfl⟩, rfl, hprojects⟩
  · rw [outcome_onProject] at hs ⊢
    obtain ⟨hresult, -⟩ := Prod.mk.inj hs
    obtain ⟨q', hq'⟩ := hx.fails e _ (Prod.ext hresult rfl) hextra
    exact ⟨⟨map', q'⟩, by rw [hq']⟩

theorem changeMap (f : MapContext → MapContext) :
    Together c c.States Any (changeMap f) (GameBundle.changeMap f) := by
  refine of_yields (fun s s' hs hextra => ?_) fun s s' _ t hs h => ?_
  · obtain ⟨map, p⟩ := s
    obtain ⟨map', p'⟩ := s'
    rw [show map' = map from hs.map, show p' = p from hs.project.eq_of_nil hextra]
  · obtain rfl := yields_changeMap.1 h
    refine ⟨trivial, ⟨f s'.map, s'.project⟩, yields_changeMap.2 rfl, ?_, hs.project⟩
    exact congrArg f hs.map

theorem get_bind_map {f f' : MapState → Step MapState β}
    (hf : ∀ map p tables maps, c.Projects p { p with tables, maps } →
      Together c c.States Q (f ⟨map, p⟩) (f' ⟨map, { p with tables, maps }⟩)) :
    Together c c.States Q (get >>= f) (get >>= f') := by
  rintro ⟨map, p⟩ ⟨map', p'⟩ ⟨hmap, hp⟩
  obtain rfl : map' = map := hmap
  have hrest : p' = { p with tables := p'.tables, maps := p'.maps } := hp.rest
  generalize p'.tables = tables, p'.maps = maps at hrest
  subst hrest
  have hs := hf map' p tables maps hp ⟨map', p⟩ ⟨map', { p with tables, maps }⟩ ⟨rfl, hp⟩
  exact ⟨hs.yields, hs.fails⟩

end Together

end GameBundle
