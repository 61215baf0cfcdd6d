import GameBundle.Build.Run
import GameBundle.Proofs.Build.Writes

set_option autoImplicit false

/-! # The operations of a build

A build changes its project by a handful of operations: it stores a text, adds a record, claims one,
gives a record its bytes, changes bytes, or remembers something by name. `Performs A view x s` takes
the step `x` apart into the operations it makes one after another from `s` on, and says that `A`
permits each of them in the project in which it is made. So a property of every moment of a build is
a property of single operations, whether the build succeeds or not.

Most of a build only adds to the project: `Additive` permits new records and, of the records that
are claimed but not yet filled, only those that were claimed meanwhile. There is a lemma for each
function that works this way, under the name of the function. -/

namespace GameBundle

/-! ## Operations -/

/-- The kinds of the records of texts. -/
def textKinds : List Kind := [.strings, .saveFlags, .gameVariables]

theorem Pool.kind_mem (pool : Pool) : pool.kind ∈ textKinds := by cases pool <;> decide

/-- What a step can do to a project at one time. Texts go through their pools; no other operation
    has to do with their records. -/
inductive Operation
  /-- Store a text, unless its pool has it. -/
  | text (pool : Pool) (map : Option MapContext) (raw : String)
  | push (kind : Kind) (other : kind ∉ textKinds) (name : String) (bytes : Bytes)
  | reserve (kind : Kind) (other : kind ∉ textKinds) (name : String)
  | fill (kind : Kind) (other : kind ∉ textKinds) (index : UInt16) (bytes : Bytes)
  | update (kind : Kind) (other : kind ∉ textKinds) (index : UInt16)
      (f : Bytes → Except Failure Bytes)
  /-- Change what is remembered by name. -/
  | remember (f : Project → Project)
      (keeps : ∀ p, (f p).tables = p.tables ∧ (f p).pools = p.pools)

namespace Operation

/-- What an operation returns. -/
def Result : Operation → Type
  | .text .. | .push .. | .reserve .. => UInt16
  | .fill .. | .update .. | .remember .. => Unit

/-- The step that an operation is. -/
def step : (o : Operation) → Step Project o.Result
  | .text pool map raw => intern pool map raw
  | .push kind _ name bytes => onTables (Tables.push kind name bytes)
  | .reserve kind _ name => onTables (Tables.reserve kind name)
  | .fill kind _ index bytes => onTables (Tables.fill kind index bytes)
  | .update kind _ index f => onTables (Tables.update kind index f)
  | .remember f _ => modify f

/-- The kind that gets a new record, if all goes well. -/
def adds : Operation → Option Kind
  | .text pool .. => some pool.kind
  | .push kind .. | .reserve kind .. => some kind
  | .fill .. | .update .. | .remember .. => none

/-- The record whose bytes are replaced. -/
def writes : Operation → Option (Kind × Nat)
  | .fill kind _ index _ | .update kind _ index _ => some (kind, index.toNat)
  | .text .. | .push .. | .reserve .. | .remember .. => none

end Operation

/-- Which operations may be made in which project. -/
abbrev Permit : Type := Project → Operation → Prop

/-- The operations that `x` makes from `s` on, each of them permitted where it is made. `view` is
    where the state of the step has its project. -/
inductive Performs (A : Permit) : {σ α : Type} → (σ → Project) → Step σ α → σ → Prop
  | pure {σ α : Type} {view : σ → Project} (a : α) (s : σ) : Performs A view (pure a : Step σ α) s
  | get {σ : Type} {view : σ → Project} (s : σ) : Performs A view (get : Step σ σ) s
  | throw {σ α : Type} {view : σ → Project} (e : Failure) (s : σ) :
      Performs A view (throw e : Step σ α) s
  | bind {σ α β : Type} {view : σ → Project} {x : Step σ α} {f : α → Step σ β} {s : σ}
      (first : Performs A view x s) (rest : ∀ a t, Yields x s a t → Performs A view (f a) t) :
      Performs A view (x >>= f) s
  | operation {p : Project} (o : Operation) (permitted : A p o) : Performs A id o.step p
  | changeMap (f : MapContext → MapContext) (s : MapState) :
      Performs A MapState.project (changeMap f) s
  | onProject {α : Type} {x : Step Project α} {s : MapState} (part : Performs A id x s.project) :
      Performs A MapState.project (onProject x) s
  | onMap {α : Type} {x : Step MapState α} {map : MapContext} {p : Project}
      (part : Performs A MapState.project x ⟨map, p⟩) : Performs A id (onMap map x) p

namespace Performs

variable {A B : Permit} {σ α β : Type} {view : σ → Project} {x : Step σ α} {s : σ}

theorem mono (hAB : ∀ p o, A p o → B p o) (h : Performs A view x s) : Performs B view x s := by
  induction h with
  | pure a s => exact .pure a s
  | get s => exact .get s
  | throw e s => exact .throw e s
  | bind _ _ ihfirst ihrest => exact .bind ihfirst ihrest
  | operation o permitted => exact .operation o (hAB _ o permitted)
  | changeMap f s => exact .changeMap f s
  | onProject _ ih => exact .onProject ih
  | onMap _ ih => exact .onMap ih

/-- **A change that every permitted operation makes is made by the whole step, whether it succeeds
    or not.** The induction is on the operations of the step. -/
theorem moves {R : Project → Project → Prop} (hrefl : ∀ p, R p p)
    (htrans : ∀ p q r, R p q → R q r → R p r) (hstep : ∀ p o, A p o → R p (outcome o.step p).2)
    (h : Performs A view x s) : R (view s) (view (outcome x s).2) := by
  induction h with
  | pure a s => exact hrefl _
  | get s => exact hrefl _
  | throw e s => exact hrefl _
  | @bind _ _ _ view x f s _ _ ihfirst ihrest =>
    rw [outcome_bind]
    rcases hx : outcome x s with ⟨e | a, t⟩
    · rw [hx] at ihfirst
      exact ihfirst
    · rw [hx] at ihfirst
      exact htrans _ _ _ ihfirst (ihrest a t hx)
  | operation o permitted => exact hstep _ o permitted
  | changeMap f s => exact hrefl _
  | onProject _ ih => exact ih
  | onMap _ ih => exact ih

/-- **What every permitted operation keeps is there wherever one is made**, and at the end. -/
theorem keeping {I : Project → Prop} (hkeeps : ∀ p o, A p o → I p → I (outcome o.step p).2)
    (h : Performs A view x s) (hs : I (view s)) :
    Performs (fun p o => A p o ∧ I p) view x s ∧ I (view (outcome x s).2) := by
  have hend : ∀ {σ α : Type} {view : σ → Project} {x : Step σ α} {s : σ},
      Performs A view x s → I (view s) → I (view (outcome x s).2) := fun h hs =>
    h.moves (R := fun p q => I p → I q) (fun _ h => h) (fun _ _ _ hpq hqr hp => hqr (hpq hp))
      hkeeps hs
  refine ⟨?_, hend h hs⟩
  induction h with
  | pure a s => exact .pure a s
  | get s => exact .get s
  | throw e s => exact .throw e s
  | @bind _ _ _ view x f s first _ ihfirst ihrest =>
    refine .bind (ihfirst hs) fun a t hx => ihrest a t hx ?_
    have ht := hend first hs
    rwa [show outcome x s = (.ok a, t) from hx] at ht
  | operation o permitted => exact .operation o ⟨permitted, hs⟩
  | changeMap f s => exact .changeMap f s
  | onProject _ ih => exact .onProject (ih hs)
  | onMap _ ih => exact .onMap (ih hs)

theorem get_bind {f : σ → Step σ β} (h : Performs A view (f s) s) :
    Performs A view ((MonadState.get : Step σ σ) >>= f) s := by
  refine .bind (.get s) fun a t hget => ?_
  obtain ⟨rfl, rfl⟩ := yields_get.1 hget
  exact h

theorem except (x : Except Failure α) : Performs A view (liftM x : Step σ α) s := by
  cases x with
  | ok a => exact .pure a s
  | error e => exact .throw e s

theorem except_bind {x : Except Failure α} {f : α → Step σ β}
    (h : ∀ a, x = .ok a → Performs A view (f a) s) :
    Performs A view ((liftM x : Step σ α) >>= f) s := by
  refine .bind (.except x) fun a t hx => ?_
  obtain ⟨ha, rfl⟩ := yields_except.1 hx
  exact h a ha

theorem operation_bind (o : Operation) {p : Project} (permitted : A p o)
    {f : o.Result → Step Project β}
    (h : ∀ a q, Yields o.step p a q → Performs A id (f a) q) : Performs A id (o.step >>= f) p :=
  .bind (.operation o permitted) h

end Performs

/-! ## Adding -/

/-- The operation only adds to what was there `before`. A record is given bytes only if it has none
    and was claimed since; and an entity that was added since gets the numbers of its scripts, which
    are the bytes from 16 to 19 of its record. -/
def Additive (before : Tables) : Permit
  | p, .fill kind _ index _ => before.count kind ≤ index.toNat ∧ p.tables.Hole kind index.toNat
  | _, .update kind _ index f => kind = .entities ∧ before.count kind ≤ index.toNat ∧
      ∀ old new, f old = .ok new → Bytes.AgreeOutside 16 19 old new
  | _, .text .. | _, .push .. | _, .reserve .. | _, .remember .. => True

namespace Tables

variable {s t : Tables} {kind : Kind} {i : Nat}

theorem Kept.count_le (h : Kept s t) (kind : Kind) : s.count kind ≤ t.count kind := by
  by_contra hlt
  have hi : t.count kind < (s.records kind).size := Nat.not_le.1 hlt
  have hkept := h kind _ _ (Array.getElem?_eq_getElem hi)
  exact Nat.lt_irrefl _ (Array.getElem?_eq_some_iff.1 hkept).1

theorem Kept.hole (h : Kept s t) (hhole : s.Hole kind i) : t.Hole kind i := by
  obtain ⟨name, hname⟩ := hhole
  exact ⟨name, h kind i _ hname⟩

theorem hole_add (t : Tables) (kind : Kind) (name : String) :
    (t.add kind ⟨name, none⟩).Hole kind (t.count kind) :=
  ⟨name, by rw [getElem?_records_add, if_pos ⟨rfl, rfl⟩]⟩

end Tables

namespace Additive

variable {before later : Tables} {p : Project} {o : Operation}

theorem mono (h : ∀ kind, before.count kind ≤ later.count kind) (ho : Additive later p o) :
    Additive before p o := by
  cases o with
  | fill kind other index bytes => exact ⟨Nat.le_trans (h kind) ho.1, ho.2⟩
  | update kind other index f => exact ⟨ho.1, Nat.le_trans (h kind) ho.2.1, ho.2.2⟩
  | text | push | reserve | remember => trivial

theorem le_of_writes {kind : Kind} {i : Nat} (ho : Additive before p o)
    (hwrites : o.writes = some (kind, i)) : before.count kind ≤ i := by
  cases o with
  | fill kind' other index bytes =>
    cases hwrites
    exact ho.1
  | update kind' other index f =>
    cases hwrites
    exact ho.2.1
  | text | push | reserve | remember => cases hwrites

end Additive

/-! ## What operations do -/

theorem outcome_get {σ : Type} (s : σ) : outcome (get : Step σ σ) s = (.ok s, s) := rfl

theorem outcome_onTables {α : Type} (x : Step Tables α) (p : Project) :
    outcome (onTables x) p =
      ((outcome x p.tables).1, { p with tables := (outcome x p.tables).2 }) := rfl

/-- A record is added with the next index as long as there is one. -/
theorem Tables.outcome_append (kind : Kind) (record : Record) (t : Tables) :
    outcome (do
      let index ← nextIndex kind
      modify (·.add kind record)
      return index) t =
      if t.count kind < UInt16.size then
        (.ok (UInt16.ofNat (t.count kind)), t.add kind record)
      else
        (.error (.error (.fieldOverflow s!"{kind.label} table index" (t.count kind) 2)), t) := by
  rw [outcome_bind, nextIndex, outcome_bind, outcome_get]
  dsimp only
  by_cases hroom : t.count kind < UInt16.size
  · rw [if_pos hroom, if_pos hroom]
    rfl
  · rw [if_neg hroom, if_neg hroom]
    rfl

theorem Tables.outcome_push (kind : Kind) (name : String) (bytes : Bytes) (t : Tables) :
    outcome (push kind name bytes) t =
      if t.count kind < UInt16.size then
        (.ok (UInt16.ofNat (t.count kind)), t.add kind ⟨name, some bytes⟩)
      else
        (.error (.error (.fieldOverflow s!"{kind.label} table index" (t.count kind) 2)), t) :=
  outcome_append kind ⟨name, some bytes⟩ t

/-- The project with one more text. -/
def Project.store (p : Project) (pool : Pool) (value : String) : Project :=
  { p.add pool.kind ⟨value, some (encodeText value)⟩ with
    pools := p.pools.put pool value (p.next pool.kind) }

/-- A text that is new in its pool is stored if there is room for it. -/
theorem outcome_intern (pool : Pool) (map : Option MapContext) (text : String) (p : Project) :
    outcome (intern pool map text) p =
      match templatize map p.pools.gameVariables text with
      | .error e => (.error (.error e), p)
      | .ok value =>
        match (p.pools.get pool).find? value with
        | some index => (.ok index, p)
        | none =>
          if pool = .gameVariables ∧ variableLimit ≤ p.pools.gameVariables.size then
            (.error (.error (.tooManyVariables value)), p)
          else if p.tables.count pool.kind < UInt16.size then
            (.ok (p.next pool.kind), p.store pool value)
          else
            (.error (.error (.fieldOverflow s!"{pool.kind.label} table index"
              (p.tables.count pool.kind) 2)), p) := by
  unfold intern
  rw [outcome_bind]
  change outcome (liftM (templatize map p.pools.gameVariables text) >>= _) p = _
  rw [outcome_bind]
  cases templatize map p.pools.gameVariables text with
  | error e => rfl
  | ok value =>
    dsimp only
    change outcome (match (p.pools.get pool).find? value with
      | some index => Pure.pure index
      | none => _) p = _
    cases (p.pools.get pool).find? value with
    | some index => rfl
    | none =>
      dsimp only
      split
      · rfl
      · rw [outcome_bind, outcome_onTables, Tables.outcome_push]
        by_cases hroom : p.tables.count pool.kind < UInt16.size
        · rw [if_pos hroom, if_pos hroom]
          rfl
        · rw [if_neg hroom, if_neg hroom]

/-- What an operation does to the tables, whether it succeeds or not. -/
theorem Operation.outcome_tables (o : Operation) (p : Project) :
    (outcome o.step p).2.tables = p.tables ∨
      (∃ kind record, o.adds = some kind ∧
        (outcome o.step p).2.tables = p.tables.add kind record) ∨
      ∃ kind i bytes, o.writes = some (kind, i) ∧
        (outcome o.step p).2.tables = p.tables.set kind i bytes := by
  cases o with
  | text pool map raw =>
    change (outcome (intern pool map raw) p).2.tables = _ ∨
      (∃ kind record, some pool.kind = some kind ∧
        (outcome (intern pool map raw) p).2.tables = _) ∨ _
    rw [outcome_intern]
    split
    · exact Or.inl rfl
    · split
      · exact Or.inl rfl
      · split
        · exact Or.inl rfl
        · split
          · exact Or.inr (Or.inl ⟨pool.kind, _, rfl, rfl⟩)
          · exact Or.inl rfl
  | push kind other name bytes =>
    refine Tables.atomic_push.moves
      (R := fun t u => u = t ∨ (∃ k record, some kind = some k ∧ u = t.add k record) ∨ _)
      (Or.inl rfl) ?_
    intro index u hu
    obtain ⟨-, -, rfl⟩ := Tables.yields_push.1 hu
    exact Or.inr (Or.inl ⟨kind, _, rfl, rfl⟩)
  | reserve kind other name =>
    refine Tables.atomic_reserve.moves
      (R := fun t u => u = t ∨ (∃ k record, some kind = some k ∧ u = t.add k record) ∨ _)
      (Or.inl rfl) ?_
    intro index u hu
    obtain ⟨-, -, rfl⟩ := Tables.yields_reserve.1 hu
    exact Or.inr (Or.inl ⟨kind, _, rfl, rfl⟩)
  | fill kind other index bytes =>
    refine Tables.atomic_fill.moves (R := fun t u => u = t ∨ _ ∨ ∃ k i bytes,
      some (kind, index.toNat) = some (k, i) ∧ u = t.set k i bytes) (Or.inl rfl) ?_
    intro _ u hu
    obtain ⟨-, rfl⟩ := Tables.yields_fill.1 hu
    exact Or.inr (Or.inr ⟨kind, _, bytes, rfl, rfl⟩)
  | update kind other index f =>
    refine Tables.atomic_update.moves (R := fun t u => u = t ∨ _ ∨ ∃ k i bytes,
      some (kind, index.toNat) = some (k, i) ∧ u = t.set k i bytes) (Or.inl rfl) ?_
    intro _ u hu
    obtain ⟨name, old, new, -, -, rfl⟩ := Tables.yields_update.1 hu
    exact Or.inr (Or.inr ⟨kind, _, new, rfl, rfl⟩)
  | remember f keeps => exact Or.inl (keeps p).1

/-- Every record is still there after an operation that only adds, and what it was. -/
theorem Additive.kept {before : Tables} {p : Project} {o : Operation} (ho : Additive before p o)
    (hp : before.Kept p.tables) : before.Kept (outcome o.step p).2.tables := by
  rcases o.outcome_tables p with heq | ⟨kind, record, -, heq⟩ | ⟨kind, i, bytes, hwrites, heq⟩
  · rwa [heq]
  · rw [heq]
    exact hp.add kind record
  · rw [heq]
    exact hp.set (ho.le_of_writes hwrites) bytes

namespace Performs

variable {before : Tables} {σ α β : Type} {view : σ → Project} {x : Step σ α} {s : σ}

/-- **A step that only adds to what was there leaves it all as it is.** -/
theorem kept (h : Performs (Additive before) view x s) (hs : before.Kept (view s).tables) :
    before.Kept (view (outcome x s).2).tables := by
  refine h.moves (R := fun p q => before.Kept p.tables → before.Kept q.tables) (fun _ h => h)
    (fun _ _ _ hpq hqr hp => hqr (hpq hp)) (fun _ _ ho hp => ho.kept hp) hs

theorem kept_of_yields {a : α} {t : σ} (h : Performs (Additive before) view x s)
    (hx : Yields x s a t) (hs : before.Kept (view s).tables) : before.Kept (view t).tables := by
  have hkept := h.kept hs
  rwa [show outcome x s = (.ok a, t) from hx] at hkept

end Performs

/-! ## Steps that only add -/

/-- From any state on, the step only adds to what it finds. -/
def Adds {σ α : Type} (view : σ → Project) (x : Step σ α) : Prop :=
  ∀ s, Performs (Additive (view s).tables) view x s

namespace Adds

variable {before : Tables} {σ α β : Type} {view : σ → Project} {x : Step σ α} {s : σ}

/-- It only adds to what was there earlier, too. -/
theorem performs (h : Adds view x) (hs : before.Kept (view s).tables) :
    Performs (Additive before) view x s :=
  (h s).mono fun _ _ => Additive.mono hs.count_le

theorem pure (a : α) : Adds view (pure a : Step σ α) := fun s => .pure a s

theorem throw (e : Failure) : Adds view (throw e : Step σ α) := fun s => .throw e s

theorem reject (e : BuildError) : Adds view (reject e : Step σ α) := .throw _

theorem except (x : Except Failure α) : Adds view (liftM x : Step σ α) := fun _ => .except x

theorem orReject (o : Option α) (e : BuildError) :
    Adds view (GameBundle.orReject o e : Step σ α) := by
  cases o with
  | none => exact .reject e
  | some a => exact .pure a

theorem bind {f : α → Step σ β} (hx : Adds view x) (hf : ∀ a, Adds view (f a)) :
    Adds view (x >>= f) := by
  intro s
  refine .bind (hx s) fun a t hyields => ?_
  exact (hf a).performs ((hx s).kept_of_yields hyields (.refl _))

theorem get_bind {f : σ → Step σ β} (hf : ∀ s, Adds view (f s)) :
    Adds view ((MonadState.get : Step σ σ) >>= f) :=
  fun s => .get_bind (hf s s)

/-- What would come after a rejection does not matter. -/
theorem rejected (e : BuildError) (f : α → Step σ β) :
    Adds view (GameBundle.reject e >>= f) :=
  fun s => .bind (.throw _ s) fun _ _ h => (yields_throw.1 h).elim

theorem rejectIf {c : Prop} [Decidable c] (e : BuildError) {f : Unit → Step σ α}
    (hf : Adds view (f ())) :
    Adds view (if c then GameBundle.reject e >>= f else f ()) := by
  split
  · exact .rejected e f
  · exact hf

theorem mapM {f : β → Step σ α} {xs : List β} (hf : ∀ b ∈ xs, Adds view (f b)) :
    Adds view (xs.mapM f) := by
  induction xs with
  | nil => exact .pure []
  | cons b xs ih =>
    rw [List.mapM_cons]
    refine .bind (hf b List.mem_cons_self) fun a => ?_
    exact .bind (ih fun c hc => hf c (List.mem_cons_of_mem _ hc)) fun as => .pure _

theorem foldlM {f : α → β → Step σ α} {xs : List β} (hf : ∀ a, ∀ b ∈ xs, Adds view (f a b))
    (a : α) : Adds view (xs.foldlM f a) := by
  induction xs generalizing a with
  | nil => exact .pure a
  | cons b xs ih =>
    rw [List.foldlM_cons]
    refine .bind (hf a b List.mem_cons_self) fun a' => ?_
    exact ih (fun c d hd => hf c d (List.mem_cons_of_mem _ hd)) a'

theorem forM {f : β → Step σ Unit} {xs : List β} (hf : ∀ b ∈ xs, Adds view (f b)) :
    Adds view (xs.forM f) := by
  induction xs with
  | nil => exact .pure ()
  | cons b xs ih =>
    exact .bind (hf b List.mem_cons_self) fun _ => ih fun c hc => hf c (List.mem_cons_of_mem _ hc)

theorem text (pool : Pool) (map : Option MapContext) (raw : String) :
    Adds id (intern pool map raw) := fun _ => .operation (.text pool map raw) trivial

theorem push {kind : Kind} (hkind : kind ∉ textKinds) (name : String) (bytes : Bytes) :
    Adds id (onTables (Tables.push kind name bytes)) :=
  fun _ => .operation (.push kind hkind name bytes) trivial

theorem reserve {kind : Kind} (hkind : kind ∉ textKinds) (name : String) :
    Adds id (onTables (Tables.reserve kind name)) :=
  fun _ => .operation (.reserve kind hkind name) trivial

theorem remember {f : Project → Project}
    (hf : ∀ p, (f p).tables = p.tables ∧ (f p).pools = p.pools) : Adds id (modify f) :=
  fun _ => .operation (.remember f hf) trivial

theorem onProject {x : Step Project α} (hx : Adds id x) :
    Adds MapState.project (GameBundle.onProject x) := fun s => .onProject (hx s.project)

theorem changeMap (f : MapContext → MapContext) :
    Adds MapState.project (GameBundle.changeMap f) := fun s => .changeMap f s

end Adds

end GameBundle
