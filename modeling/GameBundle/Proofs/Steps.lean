import GameBundle.Build.State
import Mathlib.Data.List.Forall2

set_option autoImplicit false

/-! # What a step does

A proof about a step asks one of two things. What is true when the step succeeds: `Yields x s a s'`
says that `x` leads from `s` to `s'` with the result `a`, and each way to put steps together has a
lemma that takes such a fact apart. `Fails x s e s'` is its counterpart for a step that fails. And
what is true whatever happens: `Alike P R x y` says that `x` and `y` have one outcome from every
state in `P`, and that the change they make is of kind `R`. -/

namespace GameBundle

/-! ## Results without a state -/

section Results

variable {ε α β : Type}

theorem exists_of_isOk {x : Except ε α} (h : x.isOk) : ∃ a, x = .ok a := by
  cases x with
  | ok a => exact ⟨a, rfl⟩
  | error e => cases h

theorem eq_ok_of_toOption {x : Except ε α} {a : α} (h : x.toOption = some a) : x = .ok a := by
  cases x with
  | ok b => exact congrArg Except.ok (Option.some.inj h)
  | error e => cases h

/-- Whatever the result would have been, the reason for not having it is the same. -/
theorem eq_error_of_map {x : Except ε α} {f : α → β} {e : ε} (h : x.map f = .error e) :
    x = .error e := by
  cases x with
  | ok a => cases h
  | error e' => exact congrArg Except.error (Except.error.inj h)

theorem bind_eq_ok {x : Except ε α} {f : α → Except ε β} {b : β} :
    (x >>= f) = .ok b ↔ ∃ a, x = .ok a ∧ f a = .ok b := by
  cases x with
  | error e => simp [bind, Except.bind]
  | ok a => simp [bind, Except.bind]

theorem bind_eq_error {x : Except ε α} {f : α → Except ε β} {e : ε} :
    (x >>= f) = .error e ↔ x = .error e ∨ ∃ a, x = .ok a ∧ f a = .error e := by
  cases x with
  | error e => simp [bind, Except.bind]
  | ok a => simp [bind, Except.bind]

theorem pure_eq_ok {a b : α} : (pure a : Except ε α) = .ok b ↔ a = b := by
  simp [pure, Except.pure]

theorem liftM_eq_ok {x : Except BuildError α} {a : α} :
    (liftM x : Except Failure α) = .ok a ↔ x = .ok a := by
  cases x with
  | error e =>
    change (Except.error (Failure.error e) : Except Failure α) = .ok a ↔ _
    simp
  | ok b =>
    change (Except.ok b : Except Failure α) = .ok a ↔ _
    simp

theorem liftM_eq_error {x : Except BuildError α} {f : Failure} :
    (liftM x : Except Failure α) = .error f ↔ ∃ e, x = .error e ∧ f = .error e := by
  cases x with
  | error e =>
    change (Except.error (Failure.error e) : Except Failure α) = .error f ↔ _
    simp [eq_comm]
  | ok b =>
    change (Except.ok b : Except Failure α) = .error f ↔ _
    simp

/-- A list is computed if each of its items is. -/
theorem mapM_eq_ok {f : α → Except ε β} {xs : List α} {ys : List β} :
    xs.mapM f = .ok ys ↔ List.Forall₂ (fun x y => f x = .ok y) xs ys := by
  induction xs generalizing ys with
  | nil =>
    rw [List.mapM_nil, pure_eq_ok, List.forall₂_nil_left_iff]
    exact eq_comm
  | cons x xs ih =>
    simp only [List.mapM_cons, bind_eq_ok, pure_eq_ok, ih, List.forall₂_cons_left_iff]
    constructor
    · rintro ⟨y, hy, ys', hys, rfl⟩
      exact ⟨y, ys', hy, hys, rfl⟩
    · rintro ⟨y, ys', hy, hys, rfl⟩
      exact ⟨y, hy, ys', hys, rfl⟩

theorem forall₂_getElem? {α β : Type} {R : α → β → Prop} {xs : List α} {ys : List β}
    (h : List.Forall₂ R xs ys) {j : Nat} {x : α} (hj : xs[j]? = some x) :
    ∃ y, ys[j]? = some y ∧ R x y := by
  induction h generalizing j with
  | nil => simp at hj
  | @cons a b xs ys hab _ ih =>
    cases j with
    | zero =>
      rw [List.getElem?_cons_zero, Option.some.injEq] at hj
      subst hj
      exact ⟨b, rfl, hab⟩
    | succ j => exact ih hj

/-- A list is not computed if one of its items is not. -/
theorem exists_of_mapM_eq_error {f : α → Except ε β} {xs : List α} {e : ε}
    (h : xs.mapM f = .error e) : ∃ x ∈ xs, f x = .error e := by
  induction xs with
  | nil => cases h
  | cons x xs ih =>
    rw [List.mapM_cons, bind_eq_error] at h
    obtain hx | ⟨y, -, hrest⟩ := h
    · exact ⟨x, List.mem_cons_self, hx⟩
    · obtain hxs | ⟨ys, -, hpure⟩ := bind_eq_error.1 hrest
      · obtain ⟨x', hx', herror⟩ := ih hxs
        exact ⟨x', List.mem_cons_of_mem _ hx', herror⟩
      · cases hpure

theorem mapM_fails_iff {f : α → Except ε β} {xs : List α} :
    (∃ e, xs.mapM f = .error e) ↔ ∃ x ∈ xs, ∃ e, f x = .error e := by
  constructor
  · rintro ⟨e, h⟩
    obtain ⟨x, hx, herror⟩ := exists_of_mapM_eq_error h
    exact ⟨x, hx, e, herror⟩
  · rintro ⟨x, hx, e, herror⟩
    cases hys : xs.mapM f with
    | error e => exact ⟨e, rfl⟩
    | ok ys =>
      obtain ⟨i, hi⟩ := List.getElem?_of_mem hx
      obtain ⟨y, -, hok⟩ := forall₂_getElem? (mapM_eq_ok.1 hys) hi
      cases herror.symm.trans hok

end Results

/-! ## Success -/

section Success

variable {σ α β : Type}

/-- The result of a step from `s` and the state it leaves. -/
def outcome (x : Step σ α) (s : σ) : Except Failure α × σ := x s

/-- From `s` the step succeeds with `a` and leaves `s'`. -/
def Yields (x : Step σ α) (s : σ) (a : α) (s' : σ) : Prop := outcome x s = (.ok a, s')

variable {s s' : σ} {a : α}

@[simp] theorem yields_pure {b : α} : Yields (pure b : Step σ α) s a s' ↔ b = a ∧ s = s' := by
  constructor
  · intro h
    cases h
    exact ⟨rfl, rfl⟩
  · rintro ⟨rfl, rfl⟩
    rfl

theorem yields_outcome {x : Step σ α} (h : (outcome x s).1 = .ok a) :
    Yields x s a (outcome x s).2 := Prod.ext h rfl

theorem outcome_bind (x : Step σ α) (f : α → Step σ β) (s : σ) :
    outcome (x >>= f) s = match outcome x s with
      | (.ok a, t) => outcome (f a) t
      | (.error e, t) => (.error e, t) := by
  change ExceptT.bindCont f (outcome x s).1 (outcome x s).2 = _
  rcases outcome x s with ⟨r, t⟩
  cases r <;> rfl

/-- A step comes out as its first part if that fails, and else as the rest. -/
theorem outcome_bind_cases {x : Step σ α} {f : α → Step σ β} {s : σ}
    {C : Except Failure β × σ → Prop} (herror : ∀ e t, outcome x s = (.error e, t) → C (.error e, t))
    (hok : ∀ a t, Yields x s a t → C (outcome (f a) t)) : C (outcome (x >>= f) s) := by
  rw [outcome_bind]
  rcases hx : outcome x s with ⟨e | a, t⟩
  · exact herror e t hx
  · exact hok a t hx

theorem outcome_except_cases {x : Except Failure α} {f : α → Step σ β} {s : σ}
    {C : Except Failure β × σ → Prop} (herror : ∀ e, x = .error e → C (.error e, s))
    (hok : ∀ a, x = .ok a → C (outcome (f a) s)) : C (outcome ((liftM x : Step σ α) >>= f) s) := by
  cases x with
  | error e => exact herror e rfl
  | ok a => exact hok a rfl

theorem Yields.outcome_bind {x : Step σ α} {f : α → Step σ β} (h : Yields x s a s') :
    outcome (x >>= f) s = outcome (f a) s' := by
  rw [GameBundle.outcome_bind, show outcome x s = (.ok a, s') from h]

theorem except_bind_bind {γ : Type} {x : Except Failure α} {g : α → Except Failure β}
    {f : β → Step σ γ} :
    ((liftM (x >>= g) : Step σ β) >>= f) =
      ((liftM x : Step σ α) >>= fun a => (liftM (g a) : Step σ β) >>= f) := by
  cases x with
  | error e => rfl
  | ok a => rfl

@[simp] theorem yields_bind {x : Step σ α} {f : α → Step σ β} {b : β} :
    Yields (x >>= f) s b s' ↔ ∃ a t, Yields x s a t ∧ Yields (f a) t b s' := by
  unfold Yields
  rw [outcome_bind]
  rcases outcome x s with ⟨r, t⟩
  cases r with
  | ok a => simp
  | error e => simp

@[simp] theorem yields_get {a : σ} : Yields (get : Step σ σ) s a s' ↔ s = a ∧ s = s' := by
  constructor
  · intro h
    cases h
    exact ⟨rfl, rfl⟩
  · rintro ⟨rfl, rfl⟩
    rfl

@[simp] theorem yields_modify {f : σ → σ} {u : Unit} :
    Yields (modify f : Step σ Unit) s u s' ↔ s' = f s := by
  constructor
  · intro h
    cases h
    rfl
  · rintro rfl
    rfl

@[simp] theorem yields_throw {e : Failure} : Yields (throw e : Step σ α) s a s' ↔ False := by
  constructor
  · intro h
    cases h
  · exact False.elim

@[simp] theorem yields_reject {e : BuildError} : Yields (reject e : Step σ α) s a s' ↔ False :=
  yields_throw

@[simp] theorem yields_orReject {o : Option α} {e : BuildError} :
    Yields (orReject o e : Step σ α) s a s' ↔ o = some a ∧ s = s' := by
  cases o with
  | none => simp [orReject]
  | some b => simp [orReject, eq_comm]

@[simp] theorem yields_except {x : Except Failure α} :
    Yields (liftM x : Step σ α) s a s' ↔ x = .ok a ∧ s = s' := by
  cases x with
  | error e =>
    change ((Except.error e, s) : Except Failure α × σ) = (Except.ok a, s') ↔ _
    simp
  | ok b =>
    change ((Except.ok b, s) : Except Failure α × σ) = (Except.ok a, s') ↔ _
    simp [eq_comm]

@[simp] theorem yields_buildError {x : Except BuildError α} :
    Yields (liftM x : Step σ α) s a s' ↔ x = .ok a ∧ s = s' := by
  cases x with
  | error e =>
    change ((Except.error (Failure.error e), s) : Except Failure α × σ) = (Except.ok a, s') ↔ _
    simp
  | ok b =>
    change ((Except.ok b, s) : Except Failure α × σ) = (Except.ok a, s') ↔ _
    simp [eq_comm]

end Success

/-! ## Steps on a part of the state -/

section Parts

variable {α : Type}

@[simp] theorem yields_onTables {x : Step Tables α} {p p' : Project} {a : α} :
    Yields (onTables x) p a p' ↔ ∃ t, Yields x p.tables a t ∧ p' = { p with tables := t } := by
  change ((outcome x p.tables).1, { p with tables := (outcome x p.tables).2 }) = (Except.ok a, p') ↔
    ∃ t, outcome x p.tables = (.ok a, t) ∧ _
  rcases outcome x p.tables with ⟨r, t⟩
  simp [eq_comm, and_assoc]

@[simp] theorem yields_onProject {x : Step Project α} {s s' : MapState} {a : α} :
    Yields (onProject x) s a s' ↔ ∃ p, Yields x s.project a p ∧ s' = ⟨s.map, p⟩ := by
  change ((outcome x s.project).1, (⟨s.map, (outcome x s.project).2⟩ : MapState)) =
    (Except.ok a, s') ↔ ∃ p, outcome x s.project = (.ok a, p) ∧ _
  rcases outcome x s.project with ⟨r, p⟩
  simp [eq_comm, and_assoc]

theorem outcome_onMap (x : Step MapState α) (map : MapContext) (p : Project) :
    outcome (onMap map x) p = ((outcome x ⟨map, p⟩).1, (outcome x ⟨map, p⟩).2.project) := rfl

@[simp] theorem yields_onMap {x : Step MapState α} {map : MapContext} {p p' : Project} {a : α} :
    Yields (onMap map x) p a p' ↔ ∃ s, Yields x ⟨map, p⟩ a s ∧ p' = s.project := by
  change ((outcome x ⟨map, p⟩).1, (outcome x ⟨map, p⟩).2.project) = (Except.ok a, p') ↔
    ∃ s, outcome x ⟨map, p⟩ = (.ok a, s) ∧ _
  rcases outcome x ⟨map, p⟩ with ⟨r, s⟩
  simp [eq_comm, and_assoc]

@[simp] theorem yields_changeMap {f : MapContext → MapContext} {s s' : MapState} {u : Unit} :
    Yields (changeMap f) s u s' ↔ s' = ⟨f s.map, s.project⟩ := by
  obtain ⟨map, project⟩ := s
  exact yields_modify

end Parts

/-! ## Failure -/

section Failing

variable {σ α β : Type} {s t : σ} {e : Failure}

/-- From `s` the step fails with `e` and leaves `t`. -/
def Fails (x : Step σ α) (s : σ) (e : Failure) (t : σ) : Prop := outcome x s = (.error e, t)

theorem fails_outcome {x : Step σ α} (h : (outcome x s).1 = .error e) :
    Fails x s e (outcome x s).2 := Prod.ext h rfl

@[simp] theorem fails_pure {a : α} : Fails (pure a : Step σ α) s e t ↔ False :=
  iff_false_intro nofun

@[simp] theorem fails_get : Fails (get : Step σ σ) s e t ↔ False := iff_false_intro nofun

@[simp] theorem fails_modify {f : σ → σ} : Fails (modify f : Step σ Unit) s e t ↔ False :=
  iff_false_intro nofun

@[simp] theorem fails_reject {r : BuildError} :
    Fails (reject r : Step σ α) s e t ↔ e = .error r ∧ s = t := by
  change ((Except.error (Failure.error r), s) : Except Failure α × σ) = (.error e, t) ↔ _
  simp [eq_comm]

@[simp] theorem fails_orReject {o : Option α} {r : BuildError} :
    Fails (orReject o r : Step σ α) s e t ↔ o = none ∧ e = .error r ∧ s = t := by
  cases o with
  | none => simp [orReject]
  | some a => simp [orReject]

@[simp] theorem fails_bind {x : Step σ α} {f : α → Step σ β} :
    Fails (x >>= f) s e t ↔ Fails x s e t ∨ ∃ a u, Yields x s a u ∧ Fails (f a) u e t := by
  unfold Fails Yields
  rw [outcome_bind]
  rcases outcome x s with ⟨r, u⟩
  cases r with
  | ok a => simp
  | error e' => simp

@[simp] theorem fails_except {x : Except Failure α} :
    Fails (liftM x : Step σ α) s e t ↔ x = .error e ∧ s = t := by
  cases x with
  | error e' =>
    change ((Except.error e', s) : Except Failure α × σ) = (Except.error e, t) ↔ _
    simp
  | ok a =>
    change ((Except.ok a, s) : Except Failure α × σ) = (Except.error e, t) ↔ _
    simp

@[simp] theorem fails_onTables {x : Step Tables α} {p p' : Project} :
    Fails (onTables x) p e p' ↔ ∃ t, Fails x p.tables e t ∧ p' = { p with tables := t } := by
  change ((outcome x p.tables).1, { p with tables := (outcome x p.tables).2 }) =
    (Except.error e, p') ↔ ∃ t, outcome x p.tables = (.error e, t) ∧ _
  rcases outcome x p.tables with ⟨r, t⟩
  simp [eq_comm, and_assoc]

@[simp] theorem fails_onProject {x : Step Project α} {s s' : MapState} :
    Fails (onProject x) s e s' ↔ ∃ p, Fails x s.project e p ∧ s' = ⟨s.map, p⟩ := by
  change ((outcome x s.project).1, (⟨s.map, (outcome x s.project).2⟩ : MapState)) =
    (Except.error e, s') ↔ ∃ p, outcome x s.project = (.error e, p) ∧ _
  rcases outcome x s.project with ⟨r, p⟩
  simp [eq_comm, and_assoc]

@[simp] theorem fails_onMap {x : Step MapState α} {map : MapContext} {p p' : Project} :
    Fails (onMap map x) p e p' ↔ ∃ s, Fails x ⟨map, p⟩ e s ∧ p' = s.project := by
  unfold Fails
  rw [outcome_onMap]
  rcases outcome x ⟨map, p⟩ with ⟨r, s⟩
  simp [eq_comm, and_assoc]

@[simp] theorem fails_changeMap {f : MapContext → MapContext} {s s' : MapState} :
    Fails (changeMap f) s e s' ↔ False := iff_false_intro nofun

/-- A traversal fails as one of its steps does. -/
theorem exists_of_fails_mapM {f : α → Step σ β} {xs : List α} (h : Fails (xs.mapM f) s e t) :
    ∃ x ∈ xs, ∃ u, Fails (f x) u e t := by
  induction xs generalizing s with
  | nil => exact (fails_pure.1 h).elim
  | cons x xs ih =>
    simp only [List.mapM_cons, fails_bind, fails_pure, and_false, exists_false, or_false] at h
    obtain hx | ⟨_, u, -, hxs⟩ := h
    · exact ⟨x, List.mem_cons_self, s, hx⟩
    · obtain ⟨x', hx', hfails⟩ := ih hxs
      exact ⟨x', List.mem_cons_of_mem _ hx', hfails⟩

/-- A fold fails at the first item that fails, as far as it has come by then. -/
theorem fails_foldlM {f : β → α → Step σ β} {xs : List α} {b : β} :
    Fails (xs.foldlM f b) s e t ↔ ∃ earlier x later b' u, xs = earlier ++ x :: later ∧
      Yields (earlier.foldlM f b) s b' u ∧ Fails (f b' x) u e t := by
  induction xs generalizing b s with
  | nil => simp
  | cons x xs ih =>
    simp only [List.foldlM_cons, fails_bind, ih]
    constructor
    · rintro (hx | ⟨b₁, s₁, hx, earlier, y, later, b', u, rfl, hearlier, hy⟩)
      · exact ⟨[], x, xs, b, s, rfl, yields_pure.2 ⟨rfl, rfl⟩, hx⟩
      · refine ⟨x :: earlier, y, later, b', u, rfl, ?_, hy⟩
        rw [List.foldlM_cons, yields_bind]
        exact ⟨b₁, s₁, hx, hearlier⟩
    · rintro ⟨earlier, y, later, b', u, hsplit, hearlier, hy⟩
      cases earlier with
      | nil =>
        obtain ⟨rfl, rfl⟩ := List.cons.inj hsplit
        obtain ⟨rfl, rfl⟩ := yields_pure.1 hearlier
        exact .inl hy
      | cons x' earlier =>
        obtain ⟨rfl, rfl⟩ := List.cons.inj hsplit
        rw [List.foldlM_cons, yields_bind] at hearlier
        obtain ⟨b₁, s₁, hx, hearlier⟩ := hearlier
        exact .inr ⟨b₁, s₁, hx, earlier, y, later, b', u, rfl, hearlier, hy⟩

end Failing

/-! ## Going through a list -/

theorem exists_of_mem_forall₂ {α β : Type} {R : α → β → Prop} {xs : List α} {ys : List β}
    (h : List.Forall₂ R xs ys) {y : β} (hy : y ∈ ys) : ∃ x ∈ xs, R x y := by
  obtain ⟨j, hj⟩ := List.getElem?_of_mem hy
  obtain ⟨x, hx, hR⟩ := forall₂_getElem? h.flip hj
  exact ⟨x, List.mem_of_getElem? hx, hR⟩

theorem map_eq_of_forall₂ {α β γ : Type} {f : α → γ} {g : β → γ} {xs : List α} {ys : List β}
    (h : List.Forall₂ (fun a b => g b = f a) xs ys) : ys.map g = xs.map f := by
  induction h with
  | nil => rfl
  | cons hab _ ih => rw [List.map_cons, List.map_cons, hab, ih]

theorem eraseDups_concat {α : Type} [DecidableEq α] (xs : List α) (x : α) :
    (xs ++ [x]).eraseDups = if x ∈ xs then xs.eraseDups else xs.eraseDups ++ [x] := by
  rw [List.eraseDups_append]
  by_cases hmem : x ∈ xs
  · simp [List.removeAll, hmem]
  · simp [List.removeAll, hmem, List.eraseDups_cons]

section Lists

variable {σ α β : Type} {s t : σ}

/-- A change that each step of a traversal makes from a valid state is made by the whole of it, and
    what is true of each result stays true to the end. -/
theorem yields_mapM (valid : σ → Prop) (rel : σ → σ → Prop) {f : α → Step σ β}
    (out : α → β → σ → Prop) {xs : List α} {ys : List β}
    (hrefl : ∀ s, valid s → rel s s) (htrans : ∀ s t u, rel s t → rel t u → rel s u)
    (hvalid : ∀ s t, rel s t → valid t) (hout : ∀ a b s t, rel s t → out a b s → out a b t)
    (hstep : ∀ a ∈ xs, ∀ s b t, valid s → Yields (f a) s b t → rel s t ∧ out a b t)
    (hs : valid s) (h : Yields (xs.mapM f) s ys t) :
    rel s t ∧ List.Forall₂ (fun a b => out a b t) xs ys := by
  induction xs generalizing s ys with
  | nil =>
    simp only [List.mapM_nil, yields_pure] at h
    obtain ⟨rfl, rfl⟩ := h
    exact ⟨hrefl _ hs, .nil⟩
  | cons a xs ih =>
    simp only [List.mapM_cons, yields_bind, yields_pure] at h
    obtain ⟨b, u, hb, bs, v, hbs, rfl, rfl⟩ := h
    obtain ⟨hsu, hab⟩ := hstep a List.mem_cons_self s b u hs hb
    obtain ⟨hut, hrest⟩ := ih (fun x hx => hstep x (List.mem_cons_of_mem _ hx)) (hvalid s u hsu) hbs
    exact ⟨htrans _ _ _ hsu hut, .cons (hout _ _ _ _ hut hab) hrest⟩

theorem yields_forM_nil {f : α → Step σ Unit} {u : Unit} :
    Yields (([] : List α).forM f) s u t ↔ s = t := by
  simp

theorem yields_forM_cons {f : α → Step σ Unit} {x : α} {xs : List α} {u : Unit} :
    Yields ((x :: xs).forM f) s u t ↔
      ∃ s', Yields (f x) s () s' ∧ Yields (xs.forM f) s' () t := by
  rw [List.forM, yields_bind]
  constructor
  · rintro ⟨⟨⟩, s', hx, hxs⟩
    exact ⟨s', hx, hxs⟩
  · rintro ⟨s', hx, hxs⟩
    exact ⟨(), s', hx, hxs⟩

/-- The same for a traversal without results. -/
theorem yields_forM (valid : σ → Prop) (rel : σ → σ → Prop) {f : α → Step σ Unit} {xs : List α}
    (hrefl : ∀ s, valid s → rel s s) (htrans : ∀ s t u, rel s t → rel t u → rel s u)
    (hvalid : ∀ s t, rel s t → valid t)
    (hstep : ∀ a ∈ xs, ∀ s t, valid s → Yields (f a) s () t → rel s t) (hs : valid s)
    (h : Yields (xs.forM f) s () t) : rel s t := by
  induction xs generalizing s with
  | nil =>
    obtain rfl := yields_forM_nil.1 h
    exact hrefl s hs
  | cons a xs ih =>
    obtain ⟨u, ha, hxs⟩ := yields_forM_cons.1 h
    have hsu := hstep a List.mem_cons_self s u hs ha
    exact htrans _ _ _ hsu
      (ih (fun x hx => hstep x (List.mem_cons_of_mem _ hx)) (hvalid s u hsu) hxs)

theorem yields_forM_append {f : α → Step σ Unit} {xs ys : List α} {u : Unit} :
    Yields ((xs ++ ys).forM f) s u t ↔
      ∃ s', Yields (xs.forM f) s () s' ∧ Yields (ys.forM f) s' () t := by
  induction xs generalizing s with
  | nil =>
    constructor
    · intro h
      exact ⟨s, yields_forM_nil.2 rfl, h⟩
    · rintro ⟨s', hs, h⟩
      rwa [yields_forM_nil.1 hs]
  | cons x xs ih =>
    simp only [List.cons_append, yields_forM_cons, ih]
    constructor
    · rintro ⟨s₁, hx, s₂, hxs, hys⟩
      exact ⟨s₂, ⟨s₁, hx, hxs⟩, hys⟩
    · rintro ⟨s₂, ⟨s₁, hx, hxs⟩, hys⟩
      exact ⟨s₁, hx, s₂, hxs, hys⟩

end Lists

/-! ## Agreement -/

section Agreement

variable {σ α β : Type}

/-- A kind of change that leads from states in `P` to states in `P`. -/
structure Change (P : σ → Prop) (R : σ → σ → Prop) : Prop where
  refl : ∀ s, R s s
  trans : ∀ s t u, R s t → R t u → R s u
  keeps : ∀ s t, P s → R s t → P t

/-- From `s` both steps have one outcome, and the change is of kind `R`. -/
def AlikeAt (R : σ → σ → Prop) (x y : Step σ α) (s : σ) : Prop :=
  outcome x s = outcome y s ∧ R s (outcome x s).2

/-- Both steps are alike from every state in `P`. -/
def Alike (P : σ → Prop) (R : σ → σ → Prop) (x y : Step σ α) : Prop := ∀ s, P s → AlikeAt R x y s

variable {P : σ → Prop} {R : σ → σ → Prop}

/-- One step that leads into states where the rest is alike. -/
theorem AlikeAt.bind {x : Step σ α} {f g : α → Step σ β} {s : σ}
    (htrans : ∀ s t u, R s t → R t u → R s u) (hx : R s (outcome x s).2)
    (hfg : ∀ a t, Yields x s a t → AlikeAt R (f a) (g a) t) : AlikeAt R (x >>= f) (x >>= g) s := by
  unfold AlikeAt
  rw [outcome_bind, outcome_bind]
  rcases hxs : outcome x s with ⟨r, t⟩
  rw [hxs] at hx
  cases r with
  | error e => exact ⟨rfl, hx⟩
  | ok a =>
    obtain ⟨heq, hrel⟩ := hfg a t hxs
    exact ⟨heq, htrans _ _ _ hx hrel⟩

/-- A step that changes nothing. -/
theorem Change.still (hR : Change P R) {x : Step σ α} (hx : ∀ s, (outcome x s).2 = s) :
    Alike P R x x := by
  intro s _
  refine ⟨rfl, ?_⟩
  rw [hx]
  exact hR.refl s

theorem Change.pure (hR : Change P R) (a : α) : Alike P R (pure a) (pure a) := hR.still fun _ => rfl

theorem Change.get (hR : Change P R) : Alike P R get get := hR.still fun _ => rfl

theorem Change.reject (hR : Change P R) (e : BuildError) :
    Alike P R (reject e : Step σ α) (GameBundle.reject e) := hR.still fun _ => rfl

theorem Change.orReject (hR : Change P R) (o : Option α) (e : BuildError) :
    Alike P R (orReject o e) (GameBundle.orReject o e) := by
  apply hR.still
  cases o <;> intro s <;> rfl

theorem Change.except (hR : Change P R) (x : Except Failure α) :
    Alike P R (liftM x : Step σ α) (liftM x) := by
  apply hR.still
  cases x <;> intro s <;> rfl

theorem Change.bind (hR : Change P R) {x y : Step σ α} {f g : α → Step σ β} (hxy : Alike P R x y)
    (hfg : ∀ a, Alike P R (f a) (g a)) : Alike P R (x >>= f) (y >>= g) := by
  intro s hs
  obtain ⟨heq, hrel⟩ := hxy s hs
  unfold AlikeAt
  rw [outcome_bind, outcome_bind, ← heq]
  rcases hx : outcome x s with ⟨r, t⟩
  rw [hx] at hrel
  cases r with
  | error e => exact ⟨rfl, hrel⟩
  | ok a =>
    obtain ⟨heq', hrel'⟩ := hfg a t (hR.keeps s t hs hrel)
    exact ⟨heq', hR.trans _ _ _ hrel hrel'⟩

/-- What would come after a rejection does not matter. -/
theorem Change.rejected (hR : Change P R) (e : BuildError) (f g : α → Step σ β) :
    Alike P R (GameBundle.reject e >>= f) (GameBundle.reject e >>= g) :=
  fun s _ => ⟨rfl, hR.refl s⟩

theorem Change.rejectIf (hR : Change P R) {c : Prop} [Decidable c] (e : BuildError)
    {f g : Unit → Step σ α} (hfg : Alike P R (f ()) (g ())) :
    Alike P R (if c then GameBundle.reject e >>= f else f ())
      (if c then GameBundle.reject e >>= g else g ()) := by
  split
  · exact hR.rejected e f g
  · exact hfg

theorem Change.mapM (hR : Change P R) {f g : α → Step σ β} {xs : List α}
    (hfg : ∀ a ∈ xs, Alike P R (f a) (g a)) : Alike P R (xs.mapM f) (xs.mapM g) := by
  induction xs with
  | nil => exact hR.pure []
  | cons a xs ih =>
    rw [List.mapM_cons, List.mapM_cons]
    refine hR.bind (hfg a List.mem_cons_self) fun b => ?_
    exact hR.bind (ih fun x hx => hfg x (List.mem_cons_of_mem _ hx)) fun bs => hR.pure _

theorem Change.foldlM (hR : Change P R) {f g : β → α → Step σ β} {xs : List α}
    (hfg : ∀ b, ∀ a ∈ xs, Alike P R (f b a) (g b a)) (b : β) :
    Alike P R (xs.foldlM f b) (xs.foldlM g b) := by
  induction xs generalizing b with
  | nil => exact hR.pure b
  | cons a xs ih =>
    rw [List.foldlM_cons, List.foldlM_cons]
    refine hR.bind (hfg b a List.mem_cons_self) fun b' => ?_
    exact ih (fun c x hx => hfg c x (List.mem_cons_of_mem _ hx)) b'

theorem Change.forM (hR : Change P R) {f g : α → Step σ Unit} {xs : List α}
    (hfg : ∀ a ∈ xs, Alike P R (f a) (g a)) : Alike P R (xs.forM f) (xs.forM g) := by
  induction xs with
  | nil => exact hR.pure ()
  | cons a xs ih =>
    exact hR.bind (hfg a List.mem_cons_self) fun _ =>
      ih fun x hx => hfg x (List.mem_cons_of_mem _ hx)

end Agreement

/-! ## Changes -/

section Changes

variable {σ α β : Type} {R : σ → σ → Prop} {s t : σ}

/-- Whether it succeeds or not, the change that the step makes from `s` is of kind `R`. -/
def Moves (R : σ → σ → Prop) (x : Step σ α) (s : σ) : Prop := R s (outcome x s).2

namespace Moves

theorem of_outcome {x : Step σ α} {r : Except Failure α} (h : Moves R x s)
    (hx : outcome x s = (r, t)) : R s t := by
  unfold Moves at h
  rwa [hx] at h

theorem of_yields {x : Step σ α} {a : α} (h : Moves R x s) (hx : Yields x s a t) : R s t :=
  h.of_outcome hx

theorem imp {Q : σ → σ → Prop} {x : Step σ α} (h : Moves R x s) (himp : ∀ {t}, R s t → Q s t) :
    Moves Q x s := himp h

theorem bind {x : Step σ α} {f : α → Step σ β} (htrans : ∀ s t u, R s t → R t u → R s u)
    (hx : Moves R x s) (hf : ∀ a t, Yields x s a t → Moves R (f a) t) : Moves R (x >>= f) s := by
  unfold Moves at hx ⊢
  rw [outcome_bind]
  rcases hxs : outcome x s with ⟨r, t⟩
  rw [hxs] at hx
  cases r with
  | error e => exact hx
  | ok a => exact htrans _ _ _ hx (hf a t hxs)

theorem get_bind {f : σ → Step σ β} (hf : Moves R (f s) s) : Moves R (get >>= f) s := hf

theorem orReject_bind {o : Option α} {e : BuildError} {f : α → Step σ β} (hrefl : R s s)
    (hf : ∀ a, o = some a → Moves R (f a) s) : Moves R (GameBundle.orReject o e >>= f) s := by
  cases o with
  | none => exact hrefl
  | some a => exact hf a rfl

theorem except {x : Except Failure α} (hrefl : R s s) : Moves R (liftM x : Step σ α) s := by
  cases x with
  | error e => exact hrefl
  | ok a => exact hrefl

theorem except_bind {x : Except Failure α} {f : α → Step σ β} (hrefl : R s s)
    (hf : ∀ a, x = .ok a → Moves R (f a) s) : Moves R ((liftM x : Step σ α) >>= f) s := by
  cases x with
  | error e => exact hrefl
  | ok a => exact hf a rfl

theorem rejectIf {c : Prop} [Decidable c] {e : BuildError} {f : Unit → Step σ α} (hrefl : R s s)
    (hf : ¬c → Moves R (f ()) s) :
    Moves R (if c then GameBundle.reject e >>= f else f ()) s := by
  split
  · exact hrefl
  · next hnot => exact hf hnot

theorem mapM {f : α → Step σ β} {xs : List α} (hrefl : ∀ s, R s s)
    (htrans : ∀ s t u, R s t → R t u → R s u) (hf : ∀ a ∈ xs, ∀ s, Moves R (f a) s) (s : σ) :
    Moves R (xs.mapM f) s := by
  induction xs generalizing s with
  | nil => exact hrefl s
  | cons a xs ih =>
    rw [List.mapM_cons]
    refine bind htrans (hf a List.mem_cons_self s) fun b t _ => ?_
    refine bind htrans (ih (fun x hx => hf x (List.mem_cons_of_mem _ hx)) t) fun bs u _ => ?_
    exact hrefl u

theorem foldlM {f : β → α → Step σ β} {xs : List α} (hrefl : ∀ s, R s s)
    (htrans : ∀ s t u, R s t → R t u → R s u) (hf : ∀ b, ∀ a ∈ xs, ∀ s, Moves R (f b a) s) (b : β)
    (s : σ) : Moves R (xs.foldlM f b) s := by
  induction xs generalizing b s with
  | nil => exact hrefl s
  | cons a xs ih =>
    rw [List.foldlM_cons]
    refine bind htrans (hf b a List.mem_cons_self s) fun b' t _ => ?_
    exact ih (fun c x hx => hf c x (List.mem_cons_of_mem _ hx)) b' t

end Moves

end Changes

/-! ## Failing without a trace -/

section Atomic

variable {σ α β : Type}

/-- A step that leaves the state as it is when it fails. -/
def Atomic (x : Step σ α) : Prop := ∀ s e t, outcome x s = (.error e, t) → t = s

namespace Atomic

/-- Whatever such a step does, it does when it succeeds. -/
theorem moves {x : Step σ α} (hx : Atomic x) {R : σ → σ → Prop} {s : σ} (hrefl : R s s)
    (h : ∀ a t, Yields x s a t → R s t) : Moves R x s := by
  unfold Moves
  rcases hout : outcome x s with ⟨e | a, t⟩
  · rw [hx s e t hout]
    exact hrefl
  · exact h a t hout

theorem of_still {x : Step σ α} (hx : ∀ s, (outcome x s).2 = s) : Atomic x := by
  intro s e t h
  have hsame := hx s
  rw [h] at hsame
  exact hsame

theorem pure (a : α) : Atomic (Pure.pure a : Step σ α) := of_still fun _ => rfl

theorem reject (e : BuildError) : Atomic (GameBundle.reject e : Step σ α) := of_still fun _ => rfl

theorem bind_still {x : Step σ α} {f : α → Step σ β} (hx : ∀ s, (outcome x s).2 = s)
    (hf : ∀ a, Atomic (f a)) : Atomic (x >>= f) := by
  intro s e t h
  have hsame := hx s
  rw [outcome_bind] at h
  rcases hout : outcome x s with ⟨e' | a, u⟩
  · rw [hout] at h hsame
    cases h
    exact hsame
  · rw [hout] at h hsame
    subst hsame
    exact hf a u e t h

theorem get_bind {f : σ → Step σ β} (hf : ∀ a, Atomic (f a)) : Atomic (get >>= f) :=
  bind_still (fun _ => rfl) hf

theorem except_bind {x : Except Failure α} {f : α → Step σ β} (hf : ∀ a, Atomic (f a)) :
    Atomic ((liftM x : Step σ α) >>= f) :=
  bind_still (fun _ => by cases x <;> rfl) hf

theorem rejectIf {c : Prop} [Decidable c] (e : BuildError) {f : Unit → Step σ α}
    (hf : Atomic (f ())) :
    Atomic (if c then GameBundle.reject e >>= f else f ()) := by
  split
  · exact of_still fun _ => rfl
  · exact hf

/-- What follows a step cannot undo it, so it must not fail. -/
theorem bind_sure {x : Step σ α} {f : α → Step σ β} (hx : Atomic x)
    (hf : ∀ a s, ∃ b t, Yields (f a) s b t) : Atomic (x >>= f) := by
  intro s e t h
  rw [outcome_bind] at h
  rcases hout : outcome x s with ⟨e' | a, u⟩
  · rw [hout] at h
    cases h
    exact hx s e t hout
  · obtain ⟨b, v, hb⟩ := hf a u
    rw [hout] at h
    have hok := hb.symm.trans h
    cases hok

theorem onTables {x : Step Tables α} (hx : Atomic x) : Atomic (GameBundle.onTables x) := by
  intro p e q h
  obtain ⟨hresult, hproject⟩ := Prod.mk.inj h
  have hsame := hx p.tables e _ (Prod.ext hresult rfl)
  rw [← hproject]
  exact congrArg (fun tables => { p with tables }) hsame

theorem onProject {x : Step Project α} (hx : Atomic x) : Atomic (GameBundle.onProject x) := by
  intro s e t h
  obtain ⟨hresult, hstate⟩ := Prod.mk.inj h
  have hsame := hx s.project e _ (Prod.ext hresult rfl)
  rw [← hstate]
  exact congrArg (MapState.mk s.map) hsame

end Atomic

end Atomic

end GameBundle
