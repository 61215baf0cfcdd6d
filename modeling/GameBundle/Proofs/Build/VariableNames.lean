import GameBundle.Proofs.Build.Always

set_option autoImplicit false

/-! # Where variables come from

Texts become variables in two places only: the pass that looks ahead for the variables that actions
name, and the operands of these actions when they are encoded. `VariablesIn S view x` says of a step
that `S` holds of every text it stores as a variable, from whatever state it starts. Most functions
store none, so that any `S` will do. What belongs to scripts needs to know the actions of the
table. -/

namespace GameBundle

variable {input : Input} {S : String → Prop}

/-- `S` holds of the text if the operation stores one as a variable. -/
def OnlyVariables (S : String → Prop) : Permit := fun _ o =>
  ∀ map raw, o = .text .gameVariables map raw → S raw

/-- `S` holds of every text that the step stores as a variable. -/
abbrev VariablesIn {σ α : Type} (S : String → Prop) (view : σ → Project) (x : Step σ α) : Prop :=
  Always (OnlyVariables S) view x

/-- A text that becomes a variable has to be one of those; nothing else is restricted. -/
theorem generous_onlyVariables (S : String → Prop) : Generous S (OnlyVariables S) where
  texts _ _ _ _ hraw _ _ htext := by
    cases htext
    exact hraw rfl
  pushes _ _ _ _ _ _ _ _ h := by cases h
  claims _ _ _ _ _ _ _ _ h := by cases h
  fills _ _ _ _ _ _ _ _ h := by cases h
  updates _ _ _ _ _ _ _ _ h := by cases h
  remembers _ _ _ _ _ _ h := by cases h

theorem grantsLooks_onlyVariables (S : String → Prop) : GrantsLooks (OnlyVariables S) where
  claims _ _ _ _ _ h := by cases h
  fills _ _ _ _ _ _ _ h := by cases h
  remembers _ _ _ _ _ h := by cases h

theorem VariablesIn.reserve {kind : Kind} (hkind : kind ∉ textKinds) (name : String) :
    VariablesIn S id (onTables (Tables.reserve kind name)) :=
  fun _ => .operation (.reserve kind hkind name) fun _ _ h => by cases h

theorem VariablesIn.remember {f : Project → Project}
    (hf : ∀ p, (f p).tables = p.tables ∧ (f p).pools = p.pools) : VariablesIn S id (modify f) :=
  fun _ => .operation (.remember f hf) fun _ _ h => by cases h

theorem reserveMaps_variables : VariablesIn S id (reserveMaps input) :=
  .forM fun _ _ => .bind (VariablesIn.reserve (by decide) _) fun _ =>
    VariablesIn.remember fun _ => ⟨rfl, rfl⟩

theorem buildPrototypes_variables : VariablesIn S id (buildPrototypes input) := by
  apply Always.forM
  intro type _
  apply Always.bind (.except _)
  intro prototype
  exact .bind (VariablesIn.reserve (by decide) _) fun index =>
    VariablesIn.remember fun _ => ⟨rfl, rfl⟩

end GameBundle
