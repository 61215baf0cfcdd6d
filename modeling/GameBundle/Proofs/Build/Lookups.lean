import GameBundle.Build.Dialogs
import GameBundle.Proofs.Build.Progress
import Mathlib.Logic.Relation

set_option autoImplicit false

/-! # What names lead to later

While scripts and dialogs of a map are built, more and more names get numbers, and no name loses the
one it has. `Later s t` says so of everything a compilation looks up. What was found before is found
again: texts are made from their tokens with the same result, and their records are still there. -/

namespace GameBundle

/-! ## Maps of names -/

/-- Every entry stays what it is. -/
def Ordered.StaysIn {α : Type} (m n : Ordered α) : Prop :=
  ∀ key value, m.find? key = some value → n.find? key = some value

namespace Ordered.StaysIn

variable {α : Type} {m n k : Ordered α}

theorem refl (m : Ordered α) : m.StaysIn m := fun _ _ h => h

theorem trans (hmn : m.StaysIn n) (hnk : n.StaysIn k) : m.StaysIn k :=
  fun key value h => hnk key value (hmn key value h)

theorem put {key : String} {value : α} (hnew : m.find? key = none) :
    m.StaysIn (m.put key value) := by
  intro other value' hother
  rw [Ordered.find?_put, if_neg, hother]
  rintro rfl
  rw [hnew] at hother
  cases hother

end Ordered.StaysIn

/-! ## States -/

/-- All lookups that succeed in `s` have the same result in `t`, which is about the same map. -/
structure Later (s t : MapState) : Prop where
  map : t.map = { s.map with scripts := t.map.scripts, scriptNumbers := t.map.scriptNumbers }
  numbers : s.map.scriptNumbers.StaysIn t.map.scriptNumbers
  pools : ∀ pool, (s.project.pools.get pool).StaysIn (t.project.pools.get pool)
  dialogs : s.project.dialogs.StaysIn t.project.dialogs
  serialDialogs : s.project.serialDialogs.StaysIn t.project.serialDialogs
  project : t.project = { s.project with
    tables := t.project.tables
    pools := t.project.pools
    dialogs := t.project.dialogs
    serialDialogs := t.project.serialDialogs }

namespace Later

variable {s t u : MapState}

theorem refl (s : MapState) : Later s s where
  map := rfl
  numbers := .refl _
  pools _ := .refl _
  dialogs := .refl _
  serialDialogs := .refl _
  project := rfl

theorem trans (hst : Later s t) (htu : Later t u) : Later s u where
  map := by rw [htu.map, hst.map]
  numbers := hst.numbers.trans htu.numbers
  pools pool := (hst.pools pool).trans (htu.pools pool)
  dialogs := hst.dialogs.trans htu.dialogs
  serialDialogs := hst.serialDialogs.trans htu.serialDialogs
  project := by rw [htu.project, hst.project]

theorem name (h : Later s t) : t.map.name = s.map.name := by rw [h.map]

/-- A change of the tables alone. -/
theorem of_tables (s : MapState) (tables : Tables) :
    Later s ⟨s.map, { s.project with tables }⟩ where
  map := rfl
  numbers := .refl _
  pools _ := .refl _
  dialogs := .refl _
  serialDialogs := .refl _
  project := rfl

end Later

/-! ## Texts -/

theorem replaceTokens_mono {mark : Char} {f g : String → Except BuildError String}
    {text result : String} (hfg : ∀ name value, f name = .ok value → g name = .ok value)
    (h : Text.replaceTokens mark f text = .ok result) :
    Text.replaceTokens mark g text = .ok result := by
  simp only [Text.replaceTokens, bind_eq_ok, pure_eq_ok, mapM_eq_ok] at h ⊢
  obtain ⟨parts, hparts, rfl⟩ := h
  refine ⟨parts, hparts.imp fun piece part hpart => ?_, rfl⟩
  cases piece with
  | char c => exact hpart
  | token name =>
    rcases hvalue : f (String.ofList name) with e | value
    · simp only [hvalue] at hpart
      cases hpart
    · simp only [hvalue] at hpart
      simp only [hfg _ _ hvalue]
      exact hpart

/-- The numbers of variables that a text was made with stay what they are. -/
theorem templatize_mono {map : Option MapContext} {numbers numbers' : Ordered UInt16}
    {text value : String} (hnumbers : numbers.StaysIn numbers')
    (h : templatize map numbers text = .ok value) : templatize map numbers' text = .ok value := by
  simp only [templatize, bind_eq_ok] at h ⊢
  obtain ⟨withObjects, hobjects, hvariables⟩ := h
  refine ⟨withObjects, hobjects, replaceTokens_mono (fun name token htoken => ?_) hvariables⟩
  simp only [bind_eq_ok, pure_eq_ok] at htoken ⊢
  obtain ⟨index, hindex, rfl⟩ := htoken
  refine ⟨index, ?_, rfl⟩
  unfold variableToken at hindex ⊢
  cases hfind : numbers.find? name with
  | none =>
    rw [hfind] at hindex
    cases hindex
  | some found =>
    rw [hfind] at hindex
    rw [hnumbers name found hfind]
    exact hindex

/-- The record of a text that belongs to the map has this number. -/
def TextNumber (pool : Pool) (text : String) (index : UInt16) (s : MapState) : Prop :=
  ∃ value, templatize (some s.map) s.project.pools.gameVariables text = .ok value ∧
    (s.project.pools.get pool).find? value = some index

theorem templatize_later {s t : MapState} (h : Later s t) {text value : String}
    (htext : templatize (some s.map) s.project.pools.gameVariables text = .ok value) :
    templatize (some t.map) t.project.pools.gameVariables text = .ok value := by
  -- the objects of the map are what they were
  have hmap : templatize (some t.map) = templatize (some s.map) := by
    rw [h.map]
    rfl
  rw [hmap]
  exact templatize_mono (h.pools .gameVariables) htext

theorem TextNumber.mono {pool : Pool} {text : String} {index : UInt16} {s t : MapState}
    (h : TextNumber pool text index s) (hst : Later s t) : TextNumber pool text index t := by
  obtain ⟨value, htext, hfind⟩ := h
  exact ⟨value, templatize_later hst htext, hst.pools pool _ _ hfind⟩

/-- A text that has a record is not stored again. -/
theorem TextNumber.yields {pool : Pool} {text : String} {index : UInt16} {s : MapState}
    (h : TextNumber pool text index s) : Yields (internOnMap pool text) s index s := by
  obtain ⟨value, htext, hfind⟩ := h
  simp only [internOnMap, intern, yields_bind, yields_get, yields_onProject, yields_buildError]
  refine ⟨s, s, ⟨rfl, rfl⟩, s.project, ⟨_, _, ⟨rfl, rfl⟩, value, _, ⟨htext, rfl⟩, ?_⟩, rfl⟩
  rw [hfind]
  exact yields_pure.2 ⟨rfl, rfl⟩

end GameBundle
