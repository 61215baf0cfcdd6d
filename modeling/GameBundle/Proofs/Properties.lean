import GameBundle.Properties
import GameBundle.Proofs.Steps

set_option autoImplicit false

/-! # Where texts of properties come from

Properties are converted to their types and laid over each other. Neither makes up a text: one that
is found in the result under some key was given under this key somewhere. -/

namespace GameBundle

theorem Json.asString?_eq_some {value : Json} {text : String} :
    value.asString? = some text ↔ value = .string text := by
  cases value <;> simp [Json.asString?]

namespace Properties

variable {key text : String}

/-! ## Texts -/

theorem text?_eq_some {p : Properties} :
    p.text? key = some text ↔ p.find? key = some (.string text) ∧ text ≠ "" := by
  unfold text?
  split
  · next found hfind =>
    rw [hfind]
    by_cases hempty : found = ""
    · subst hempty
      simp
    · have hnot : found.isEmpty = false := by simpa [String.isEmpty_iff] using hempty
      rw [hnot]
      constructor
      · intro h
        cases h
        exact ⟨rfl, hempty⟩
      · rintro ⟨h, -⟩
        cases h
        rfl
  · next hother =>
    constructor
    · intro h
      cases h
    · rintro ⟨h, -⟩
      exact (hother text h).elim

/-! ## Inheritance -/

/-- A text that is chosen is one of the two values. -/
theorem chosen_eq_string {below : Option Json} {above : Json}
    (h : chosen below above = .string text) :
    above = .string text ∨ below = some (.string text) := by
  unfold chosen at h
  split at h
  · exact Or.inl h
  · cases below with
    | none => cases h
    | some value =>
      dsimp only at h
      split at h
      · cases h
      · exact Or.inr (congrArg some h)

theorem text?_assign {below above : Properties} (h : (assign below above).text? key = some text) :
    below.text? key = some text ∨ above.text? key = some text := by
  obtain ⟨hfind, hne⟩ := text?_eq_some.1 h
  -- the induction is on the entries that are laid over
  have hfold : ∀ (entries : List (String × Json)) (acc : Properties),
      (entries.foldl (fun acc e => acc.put e.1 (chosen (acc.find? e.1) e.2)) acc).find? key =
        some (.string text) →
      acc.find? key = some (.string text) ∨ (key, .string text) ∈ entries := by
    intro entries
    induction entries with
    | nil => exact fun acc h => Or.inl h
    | cons e rest ih =>
      intro acc h
      rcases ih _ h with hacc | hmem
      · rw [Ordered.find?_put] at hacc
        split at hacc
        · next heq =>
          subst heq
          rcases chosen_eq_string (Option.some.inj hacc) with habove | hbelow
          · exact Or.inr (List.mem_cons.2 (Or.inl (Prod.ext rfl habove.symm)))
          · exact Or.inl hbelow
        · exact Or.inl hacc
      · exact Or.inr (List.mem_cons_of_mem _ hmem)
  rcases hfold above.entries below hfind with hbelow | hmem
  · exact Or.inl (text?_eq_some.2 ⟨hbelow, hne⟩)
  · exact Or.inr (text?_eq_some.2 ⟨Ordered.find?_of_mem hmem, hne⟩)

theorem text?_overlay {layers : List Properties} (h : (overlay layers).text? key = some text) :
    ∃ layer ∈ layers, layer.text? key = some text := by
  have hfold : ∀ (layers : List Properties) (acc : Properties),
      (layers.foldl assign acc).text? key = some text →
      acc.text? key = some text ∨ ∃ layer ∈ layers, layer.text? key = some text := by
    intro layers
    induction layers with
    | nil => exact fun acc h => Or.inl h
    | cons layer rest ih =>
      intro acc h
      rcases ih _ h with hassign | ⟨found, hfound, htext⟩
      · rcases text?_assign hassign with hacc | hlayer
        · exact Or.inl hacc
        · exact Or.inr ⟨layer, List.mem_cons_self, hlayer⟩
      · exact Or.inr ⟨found, List.mem_cons_of_mem _ hfound, htext⟩
  rcases hfold layers ∅ h with hempty | hlayer
  · cases hempty
  · exact hlayer

/-! ## Typed values -/

/-- A conversion makes no texts. -/
theorem convert?_eq_string {kind : String} {value : Json}
    (h : convert? kind value = some (.string text)) : value = .string text := by
  unfold convert? at h
  split at h
  · obtain ⟨id, -, hid⟩ := Option.map_eq_some_iff.1 h
    split at hid <;> cases hid
  · split at h <;> cases h
  · split at h
    · split at h
      · cases h
      · obtain ⟨color, -, hcolor⟩ := Option.map_eq_some_iff.1 h
        cases hcolor
    · cases h
  · obtain ⟨x, -, hx⟩ := Option.map_eq_some_iff.1 h
    cases hx
  · obtain ⟨x, -, hx⟩ := Option.bind_eq_some_iff.1 h
    split at hx <;> cases hx
  · exact Option.some.inj h

theorem text?_merge {context : String} {target result : Properties}
    {properties : List Tiled.Property} (h : merge context target properties = .ok result)
    (htext : result.text? key = some text) :
    target.text? key = some text ∨ ∃ p ∈ properties, p.value = .string text := by
  obtain ⟨hfind, hne⟩ := text?_eq_some.1 htext
  induction properties generalizing target with
  | nil =>
    cases h
    exact Or.inl htext
  | cons p rest ih =>
    simp only [merge, List.foldlM_cons, bind_eq_ok] at h
    obtain ⟨next, hnext, hrest⟩ := h
    rcases ih hrest with hbefore | ⟨found, hfound, hvalue⟩
    · split at hnext
      · next value hconvert =>
        cases hnext
        obtain ⟨hput, -⟩ := text?_eq_some.1 hbefore
        rw [Ordered.find?_put] at hput
        split at hput
        · rw [Option.some.inj hput] at hconvert
          exact Or.inr ⟨p, List.mem_cons_self, convert?_eq_string hconvert⟩
        · exact Or.inl (text?_eq_some.2 ⟨hput, hne⟩)
      · cases hnext
    · exact Or.inr ⟨found, List.mem_cons_of_mem _ hfound, hvalue⟩

end Properties

end GameBundle
