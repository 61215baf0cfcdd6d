import GameBundle.Proofs.Record.Contents

set_option autoImplicit false

/-! # What a step is not refused for

To know the reason why a build was refused one has to know what the parts of it are never refused
for. `Avoids P x` says of a result that it is not missing for a reason in `P`, and `NeverFails P x`
says of a step that it does not fail for one, from whatever state it starts. Both are put together
in the way the functions are. -/

namespace GameBundle

/-! ## Results -/

section Avoids

variable {ε α β : Type} {P : ε → Prop}

/-- If there is no result, then not for a reason in `P`. -/
def Avoids (P : ε → Prop) (x : Except ε α) : Prop := ∀ e, x = .error e → ¬ P e

namespace Avoids

theorem ok (a : α) : Avoids P (.ok a) := nofun

theorem error {e : ε} (h : ¬ P e) : Avoids P (.error e : Except ε α) := by
  rintro _ ⟨⟩
  exact h

theorem bind {x : Except ε α} {f : α → Except ε β} (hx : Avoids P x) (hf : ∀ a, Avoids P (f a)) :
    Avoids P (x >>= f) := by
  intro e h
  obtain h | ⟨a, -, h⟩ := bind_eq_error.1 h
  · exact hx e h
  · exact hf a e h

/-- What would come after an error does not matter. -/
theorem errorIf {c : Prop} [Decidable c] {e : ε} (he : ¬ P e) {f : Unit → Except ε α}
    (hf : Avoids P (f ())) : Avoids P (if c then .error e >>= f else f ()) := by
  split
  · exact .bind (.error he) fun _ => hf
  · exact hf

theorem mapM {f : α → Except ε β} (hf : ∀ a, Avoids P (f a)) (xs : List α) :
    Avoids P (xs.mapM f) := by
  intro e h
  obtain ⟨a, -, herror⟩ := exists_of_mapM_eq_error h
  exact hf a e herror

theorem foldlM {f : β → α → Except ε β} (hf : ∀ b a, Avoids P (f b a)) (xs : List α) (b : β) :
    Avoids P (xs.foldlM f b) := by
  induction xs generalizing b with
  | nil => exact .ok b
  | cons a xs ih =>
    rw [List.foldlM_cons]
    exact .bind (hf b a) ih

/-- A mistake of the project is a failure for the same reason. -/
theorem lift {P : Failure → Prop} {x : Except BuildError α}
    (hx : Avoids (fun e => P (.error e)) x) : Avoids P (liftM x : Except Failure α) := by
  intro f h
  obtain ⟨e, he, rfl⟩ := liftM_eq_error.1 h
  exact hx e he

end Avoids

end Avoids

/-! ## Steps -/

section Steps

variable {σ α β : Type} {P : Failure → Prop}

/-- From whatever state it starts, the step does not fail for a reason in `P`. -/
def NeverFails (P : Failure → Prop) (x : Step σ α) : Prop := ∀ s f t, Fails x s f t → ¬P f

namespace NeverFails

theorem spares {x : Step σ α} {s t : σ} {f : Failure} (hx : NeverFails P x) (h : Fails x s f t) :
    ¬P f := hx s f t h

theorem pure (a : α) : NeverFails P (Pure.pure a : Step σ α) :=
  fun _ _ _ h => (fails_pure.1 h).elim

theorem throw {e : Failure} (he : ¬P e) : NeverFails P (MonadExcept.throw e : Step σ α) := by
  rintro s f t ⟨⟩
  exact he

theorem reject {e : BuildError} (he : ¬P (.error e)) :
    NeverFails P (GameBundle.reject e : Step σ α) := .throw he

theorem except {x : Except Failure α} (hx : Avoids P x) : NeverFails P (liftM x : Step σ α) :=
  fun _ f _ h => hx f (fails_except.1 h).1

/-- A value that is looked up is only missing if there is none. -/
theorem orReject {o : Option α} {e : BuildError} (he : o = none → ¬P (.error e)) :
    NeverFails P (GameBundle.orReject o e : Step σ α) := by
  cases o with
  | none => exact .reject (he rfl)
  | some a => exact .pure a

theorem bind {x : Step σ α} {f : α → Step σ β} (hx : NeverFails P x)
    (hf : ∀ a, NeverFails P (f a)) : NeverFails P (x >>= f) := by
  intro s e t h
  obtain h | ⟨a, u, -, h⟩ := fails_bind.1 h
  · exact hx.spares h
  · exact (hf a).spares h

theorem get_bind {f : σ → Step σ β} (hf : ∀ s, NeverFails P (f s)) :
    NeverFails P ((MonadState.get : Step σ σ) >>= f) :=
  .bind (fun _ _ _ h => (fails_get.1 h).elim) hf

theorem modify_bind {g : σ → σ} {f : Unit → Step σ β} (hf : NeverFails P (f ())) :
    NeverFails P (modify g >>= f) :=
  .bind (fun _ _ _ h => (fails_modify.1 h).elim) fun _ => hf

/-- What would come after a rejection does not matter. -/
theorem rejected {e : BuildError} (he : ¬P (.error e)) (f : α → Step σ β) :
    NeverFails P (GameBundle.reject e >>= f) := by
  intro s r t h
  obtain h | ⟨a, u, hyields, -⟩ := fails_bind.1 h
  · exact (reject he).spares h
  · exact (yields_reject.1 hyields).elim

theorem rejectIf {c : Prop} [Decidable c] {e : BuildError} (he : ¬P (.error e))
    {f : Unit → Step σ α} (hf : NeverFails P (f ())) :
    NeverFails P (if c then GameBundle.reject e >>= f else f ()) := by
  split
  · exact .rejected he f
  · exact hf

theorem mapM {f : β → Step σ α} {xs : List β} (hf : ∀ b ∈ xs, NeverFails P (f b)) :
    NeverFails P (xs.mapM f) := by
  intro s e t h
  obtain ⟨b, hb, u, hfails⟩ := exists_of_fails_mapM h
  exact (hf b hb).spares hfails

theorem foldlM {f : α → β → Step σ α} {xs : List β} (hf : ∀ a, ∀ b ∈ xs, NeverFails P (f a b))
    (a : α) : NeverFails P (xs.foldlM f a) := by
  intro s e t h
  obtain ⟨earlier, b, later, a', u, rfl, -, hfails⟩ := fails_foldlM.1 h
  exact (hf a' b (List.mem_append_right _ List.mem_cons_self)).spares hfails

theorem onTables {x : Step Tables α} (hx : NeverFails P x) :
    NeverFails P (GameBundle.onTables x) := by
  intro p e q h
  obtain ⟨t, hfails, -⟩ := fails_onTables.1 h
  exact hx.spares hfails

theorem onProject {x : Step Project α} (hx : NeverFails P x) :
    NeverFails P (GameBundle.onProject x) := by
  intro s e t h
  obtain ⟨p, hfails, -⟩ := fails_onProject.1 h
  exact hx.spares hfails

theorem changeMap_bind {g : MapContext → MapContext} {f : Unit → Step MapState β}
    (hf : NeverFails P (f ())) : NeverFails P (changeMap g >>= f) :=
  .bind (fun _ _ _ h => (fails_changeMap.1 h).elim) fun _ => hf

end NeverFails

end Steps

/-! ## Records and tables -/

/-- `P` has nothing to do with the sizes of records and tables. -/
structure SparesRecords (P : Failure → Prop) : Prop where
  overrun : ¬P .overrun
  overflow : ∀ context value width, ¬P (.error (.fieldOverflow context value width))

namespace SparesRecords

variable {P : Failure → Prop} (hP : SparesRecords P)
include hP

theorem place (w : Writer) (bytes : List UInt8) (advance : Nat) :
    Avoids P (w.place bytes advance) := by
  unfold Writer.place
  split
  · exact .ok _
  · exact .error hP.overrun

theorem write (w : Writer) (field : Field) : Avoids P (w.write field) := by
  cases field with
  | gap width =>
    rw [Writer.write, Writer.skip]
    split
    · exact .ok _
    · exact .error hP.overrun
  | number value width context order =>
    rw [Writer.write.eq_def]
    dsimp only
    split
    · exact .error (hP.overflow _ _ _)
    · split <;> exact hP.place _ _ _
  | _ => exact hP.place _ _ _

theorem encode (declared : Nat) (fields : List Field) : Avoids P (Record.encode declared fields) :=
  .bind (.foldlM hP.write _ _) fun _ => .ok _

theorem nextIndex (kind : Kind) : NeverFails P (Tables.nextIndex kind) := by
  apply NeverFails.get_bind
  intro tables
  dsimp only
  split
  · exact .pure _
  · exact .reject (hP.overflow _ _ _)

theorem push (kind : Kind) (name : String) (bytes : Bytes) :
    NeverFails P (Tables.push kind name bytes) :=
  .bind (hP.nextIndex kind) fun index => .modify_bind (.pure index)

theorem reserve (kind : Kind) (name : String) : NeverFails P (Tables.reserve kind name) :=
  .bind (hP.nextIndex kind) fun index => .modify_bind (.pure index)

end SparesRecords

end GameBundle
