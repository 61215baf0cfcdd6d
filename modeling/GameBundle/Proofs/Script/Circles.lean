import Mathlib.Data.List.Chain
import GameBundle.Proofs.Script.Copies

set_option autoImplicit false

/-! # Circles of copies

Scripts that copy each other are a graph, and `findCycle` walks through it depth first. `Searches`
is this search without a bound on its steps: the rules say what becomes of the scripts that are
still to be looked at. The bound of `walkCopies` is never reached, so the search always ends, and it
ends with a circle exactly if one can be reached. Where it finds none, nothing that can be reached
goes on forever, which is `Acc` for the scripts behind a script. -/

namespace GameBundle

open Relation (ReflTransGen TransGen)

variable {scripts : Ordered Script} {name : String}

/-! ## The graph -/

/-- An action is a copy of a script. -/
def Action.Copies (a : Action) (target : String) : Prop :=
  a.name = copyScript ∧ a.args.find? "script" = some (.string target)

/-- One script copies another. What does nothing is not worth a step. -/
def LeadsTo (scripts : Ordered Script) (name target : String) : Prop :=
  target ≠ nullScript ∧
    ∃ script, scripts.find? name = some script ∧ ∃ a ∈ script, a.Copies target

/-- One script copies another, maybe by way of others. -/
def Reaches (scripts : Ordered Script) : String → String → Prop := ReflTransGen (LeadsTo scripts)

/-- A list of scripts, each of which copies the next one, and the last is the first again. The
    first can be reached from a script. -/
structure Circle (scripts : Ordered Script) (name : String) (circle : List String) : Prop where
  closed : ∃ first inner, circle = first :: (inner ++ [first])
  copies : circle.IsChain (LeadsTo scripts)
  reached : ∀ first, circle.head? = some first → Reaches scripts name first

/-- Copies do not go on forever behind a script. -/
abbrev Grounded (scripts : Ordered Script) : String → Prop :=
  Acc fun target name => LeadsTo scripts name target

theorem Action.isCopy_iff {a : Action} : a.isCopy ↔ a.name = copyScript := beq_iff_eq

theorem Action.copied?_iff {a : Action} {target : String} :
    a.copied? = some target ↔ a.args.find? "script" = some (.string target) := by
  constructor
  · exact Action.copied?_eq_some
  · intro h
    rw [Action.copied?, h]
    rfl

theorem mem_copyTargets {target : String} : target ∈ copyTargets scripts name ↔
    ∃ script, scripts.find? name = some script ∧ ∃ a ∈ script, a.Copies target := by
  unfold copyTargets Action.Copies
  cases scripts.find? name with
  | none => simp
  | some script => simp [Action.isCopy_iff, Action.copied?_iff]

theorem leadsTo_iff {target : String} :
    LeadsTo scripts name target ↔ target ≠ nullScript ∧ target ∈ copyTargets scripts name :=
  and_congr_right fun _ => mem_copyTargets.symm

theorem Circle.transGen {circle : List String} (h : Circle scripts name circle) :
    ∃ first, Reaches scripts name first ∧ TransGen (LeadsTo scripts) first first := by
  obtain ⟨first, inner, rfl⟩ := h.closed
  have hback := h.copies
  rw [List.isChain_cons] at hback
  obtain ⟨hhead, htail⟩ := hback
  refine ⟨first, h.reached first rfl, ?_⟩
  cases inner with
  | nil => exact .single (hhead first rfl)
  | cons next rest =>
    have hlast : (next :: (rest ++ [first])).getLast (List.cons_ne_nil _ _) = first :=
      List.getLast_append_singleton (next :: rest)
    exact .head' (hhead next rfl) (List.relationReflTransGen_of_exists_isChain_cons _ htail hlast)

theorem Circle.of_leadsTo {target : String} {circle : List String} (h : LeadsTo scripts name target)
    (hcircle : Circle scripts target circle) : Circle scripts name circle where
  closed := hcircle.closed
  copies := hcircle.copies
  reached first hfirst := (hcircle.reached first hfirst).head h

theorem Grounded.not_circle (h : Grounded scripts name) :
    ∀ other, Reaches scripts name other → ¬TransGen (LeadsTo scripts) other other := by
  induction h with
  | intro name _ ih =>
    intro other hreach hcircle
    have hnext : ∃ next, LeadsTo scripts name next ∧ Reaches scripts next other := by
      obtain rfl | hnext := hreach.cases_head
      · exact TransGen.head'_iff.1 hcircle
      · exact hnext
    obtain ⟨next, hlead, hrest⟩ := hnext
    exact ih next hlead other hrest hcircle

/-! ## The search -/

/-- A depth-first search ends. It stands at the end of a path, knows the scripts that are done, and
    has a list of scripts to look at next. The result is the first circle, or else all scripts that
    are done then. -/
inductive Searches (scripts : Ordered Script) :
    List String → List String → List String → Except (List String) (List String) → Prop
  | done {path done : List String} : Searches scripts path done [] (.ok done)
  | circle {path done rest : List String} {name : String} : name ∈ path →
      Searches scripts path done (name :: rest) (.error (path.dropWhile (· != name) ++ [name]))
  | known {path done rest : List String} {name : String}
      {result : Except (List String) (List String)} : name ∉ path → name ∈ done →
      Searches scripts path done rest result → Searches scripts path done (name :: rest) result
  | fails {path done rest circle : List String} {name : String} : name ∉ path → name ∉ done →
      Searches scripts (path ++ [name]) done (copyTargets scripts name) (.error circle) →
      Searches scripts path done (name :: rest) (.error circle)
  | leaves {path done rest walked : List String} {name : String}
      {result : Except (List String) (List String)} : name ∉ path → name ∉ done →
      Searches scripts (path ++ [name]) done (copyTargets scripts name) (.ok walked) →
      Searches scripts path (name :: walked) rest result →
      Searches scripts path done (name :: rest) result

/-- A search has one result. -/
theorem Searches.unique {path done targets : List String}
    {result result' : Except (List String) (List String)}
    (h : Searches scripts path done targets result)
    (h' : Searches scripts path done targets result') : result = result' := by
  induction h generalizing result' with
  | done =>
    cases h'
    rfl
  | circle hmem =>
    cases h' with
    | circle _ => rfl
    | known hnew _ _ => exact (hnew hmem).elim
    | fails hnew _ _ => exact (hnew hmem).elim
    | leaves hnew _ _ _ => exact (hnew hmem).elim
  | known hnew hdone _ ih =>
    cases h' with
    | circle hmem => exact (hnew hmem).elim
    | known _ _ hrest => exact ih hrest
    | fails _ hnot _ => exact (hnot hdone).elim
    | leaves _ hnot _ _ => exact (hnot hdone).elim
  | fails hnew hnot _ ih =>
    cases h' with
    | circle hmem => exact (hnew hmem).elim
    | known _ hdone _ => exact (hnot hdone).elim
    | fails _ _ hinner => exact ih hinner
    | leaves _ _ hinner _ => cases ih hinner
  | leaves hnew hnot _ _ ihinner ihrest =>
    cases h' with
    | circle hmem => exact (hnew hmem).elim
    | known _ hdone _ => exact (hnot hdone).elim
    | fails _ _ hinner => cases ihinner hinner
    | leaves _ _ hinner hrest =>
      cases ihinner hinner
      exact ihrest hrest

/-- The steps that are allowed are enough: a path has no script twice, and only its last one may be
    outside the table. -/
theorem searches_foldlM {steps : Nat} {path : List String} (hnodup : path.Nodup)
    (hsub : path ⊆ scripts.keys) (hsteps : scripts.size + 2 ≤ steps + path.length)
    (targets done : List String) :
    Searches scripts path done targets (targets.foldlM (walkCopies scripts steps path) done) := by
  induction steps generalizing path targets done with
  | zero =>
    have hlength := (List.subperm_of_subset hnodup hsub).length_le
    rw [Ordered.keys, List.length_map] at hlength
    rw [Ordered.size] at hsteps
    omega
  | succ steps ih =>
    induction targets generalizing done with
    | nil => exact .done
    | cons name rest ihrest =>
      rw [List.foldlM_cons, walkCopies]
      by_cases hpath : name ∈ path
      · rw [if_pos hpath]
        exact .circle hpath
      · rw [if_neg hpath]
        by_cases hdone : name ∈ done
        · rw [if_pos hdone]
          exact .known hpath hdone (ihrest done)
        · rw [if_neg hdone]
          have hinner : Searches scripts (path ++ [name]) done (copyTargets scripts name)
              ((copyTargets scripts name).foldlM (walkCopies scripts steps (path ++ [name])) done) := by
            by_cases hkey : name ∈ scripts.keys
            · refine ih ?_ ?_ ?_ _ done
              · exact List.concat_eq_append ▸ hnodup.concat hpath
              · exact List.append_subset.2 ⟨hsub, List.cons_subset.2 ⟨hkey, List.nil_subset _⟩⟩
              · rw [List.length_append, List.length_singleton]
                omega
            · rw [copyTargets_eq_nil hkey]
              exact .done
          cases hwalked : (copyTargets scripts name).foldlM
              (walkCopies scripts steps (path ++ [name])) done with
          | error circle =>
            rw [hwalked] at hinner
            exact .fails hpath hdone hinner
          | ok walked =>
            rw [hwalked] at hinner
            exact .leaves hpath hdone hinner (ihrest (name :: walked))

/-- **The search always ends**, with what `findCycle` makes of it. -/
theorem searches_walkCopies (scripts : Ordered Script) (name : String) :
    Searches scripts [] [] [name] (walkCopies scripts (scripts.size + 2) [] [] name) := by
  have hsearch : Searches scripts [] [] [name]
      ([name].foldlM (walkCopies scripts (scripts.size + 2) []) []) :=
    searches_foldlM List.nodup_nil (List.nil_subset _) (Nat.le_refl _) [name] []
  simpa only [List.foldlM_cons, List.foldlM_nil, bind_pure] using hsearch

/-! ## What the search finds -/

theorem dropWhile_of_mem {path : List String} (h : name ∈ path) :
    ∃ after, path.dropWhile (· != name) = name :: after := by
  induction path with
  | nil => cases h
  | cons first rest ih =>
    by_cases hfirst : first = name
    · exact ⟨rest, by rw [hfirst, List.dropWhile_cons_of_neg (by simp)]⟩
    · rw [List.dropWhile_cons_of_pos (by simpa using hfirst)]
      exact ih (List.mem_of_ne_of_mem (Ne.symm hfirst) h)

/-- What is found is a circle. The path is a way to each script that is looked at, but for the one
    that does nothing, behind which there is nothing to be found. -/
theorem Searches.circle_of_error (hnull : scripts.find? nullScript = none)
    {path done targets circle : List String} (h : Searches scripts path done targets (.error circle))
    (hpath : ∀ other ∈ path, other ≠ nullScript)
    (htargets : ∀ target ∈ targets, target ≠ nullScript →
      (path ++ [target]).IsChain (LeadsTo scripts)) :
    ∃ start ∈ path ++ targets, start ≠ nullScript ∧ Circle scripts start circle := by
  generalize hresult : Except.error circle = result at h
  induction h with
  | done => cases hresult
  | @circle path done rest name hmem =>
    cases hresult
    have hname := hpath name hmem
    have hchain := htargets name List.mem_cons_self hname
    obtain ⟨after, hafter⟩ := dropWhile_of_mem hmem
    have hsuffix : name :: (after ++ [name]) <:+ path ++ [name] := by
      obtain ⟨before, hbefore⟩ := List.dropWhile_suffix (l := path) (· != name)
      exact ⟨before, by rw [← hbefore, hafter, List.append_assoc]; rfl⟩
    refine ⟨name, List.mem_append_left _ hmem, hname, ?_⟩
    rw [hafter]
    exact ⟨⟨name, after, rfl⟩, hchain.suffix hsuffix, fun first hfirst =>
      Option.some.inj hfirst ▸ ReflTransGen.refl⟩
  | known _ _ _ ih =>
    obtain ⟨start, hstart, hcircle⟩ := ih hpath
      (fun target htarget => htargets target (List.mem_cons_of_mem _ htarget)) hresult
    exact ⟨start, by grind, hcircle⟩
  | @fails path done rest circle name _ _ hinner ih =>
    cases hresult
    have hname : name ≠ nullScript := by
      rintro rfl
      rw [copyTargets, hnull] at hinner
      cases hinner
    have hchain := htargets name List.mem_cons_self hname
    have hpath' : ∀ other ∈ path ++ [name], other ≠ nullScript := by
      intro other hother
      obtain hold | hlast := List.mem_append.1 hother
      · exact hpath other hold
      · exact List.mem_singleton.1 hlast ▸ hname
    have htargets' : ∀ target ∈ copyTargets scripts name, target ≠ nullScript →
        ((path ++ [name]) ++ [target]).IsChain (LeadsTo scripts) := by
      intro target htarget htargetname
      refine List.isChain_append.2 ⟨hchain, List.isChain_singleton target, ?_⟩
      intro last hlast next hnext
      rw [List.getLast?_concat] at hlast
      cases hlast
      cases hnext
      exact leadsTo_iff.2 ⟨htargetname, htarget⟩
    obtain ⟨start, hstart, hstartname, hcircle⟩ := ih hpath' htargets' rfl
    obtain hold | htarget := List.mem_append.1 hstart
    · exact ⟨start, by grind, hstartname, hcircle⟩
    · exact ⟨name, List.mem_append_right _ List.mem_cons_self, hname,
        hcircle.of_leadsTo (leadsTo_iff.2 ⟨hstartname, htarget⟩)⟩
  | leaves _ _ _ _ _ ih =>
    obtain ⟨start, hstart, hcircle⟩ := ih hpath
      (fun target htarget => htargets target (List.mem_cons_of_mem _ htarget)) hresult
    exact ⟨start, by grind, hcircle⟩

/-- Where no circle is found there is none behind the scripts that are done. -/
theorem Searches.grounded_of_ok {path done targets walked : List String}
    (h : Searches scripts path done targets (.ok walked))
    (hdone : ∀ name ∈ done, Grounded scripts name) :
    done ⊆ walked ∧ targets ⊆ walked ∧ ∀ name ∈ walked, Grounded scripts name := by
  generalize hresult : Except.ok walked = result at h
  induction h generalizing walked with
  | done =>
    cases hresult
    exact ⟨List.Subset.refl _, List.nil_subset _, hdone⟩
  | circle _ => cases hresult
  | known _ hmem _ ih =>
    obtain ⟨hold, htargets, hall⟩ := ih hdone hresult
    exact ⟨hold, List.cons_subset.2 ⟨hold hmem, htargets⟩, hall⟩
  | fails _ _ _ _ => cases hresult
  | @leaves path done rest inner name result _ _ _ _ ihinner ihrest =>
    obtain ⟨hkept, hbehind, hinner⟩ := ihinner hdone rfl
    have hname : Grounded scripts name :=
      ⟨name, fun target hlead => hinner target (hbehind (leadsTo_iff.1 hlead).2)⟩
    obtain ⟨hold, htargets, hall⟩ := ihrest (List.forall_mem_cons.2 ⟨hname, hinner⟩) hresult
    obtain ⟨hfirst, hwalked⟩ := List.cons_subset.1 hold
    exact ⟨List.Subset.trans hkept hwalked, List.cons_subset.2 ⟨hfirst, htargets⟩, hall⟩

/-- **The search finds a circle if there is one**, wherever in the table it is closed. -/
theorem findCycle_cases (hnull : scripts.find? nullScript = none)
    (hname : scripts.contains name = true) :
    Circle scripts name (findCycle scripts name) ∨ Grounded scripts name := by
  have hself : name ≠ nullScript := by
    rintro rfl
    rw [Ordered.contains, hnull] at hname
    cases hname
  have hsearch := searches_walkCopies scripts name
  rw [findCycle, if_pos hname]
  cases hwalk : walkCopies scripts (scripts.size + 2) [] [] name with
  | error circle =>
    rw [hwalk] at hsearch
    obtain ⟨start, hstart, -, hcircle⟩ := hsearch.circle_of_error hnull (List.forall_mem_nil _)
      fun target _ _ => List.isChain_singleton target
    rw [List.nil_append, List.mem_singleton] at hstart
    exact .inl (hstart ▸ hcircle)
  | ok walked =>
    rw [hwalk] at hsearch
    obtain ⟨-, htargets, hall⟩ := hsearch.grounded_of_ok (List.forall_mem_nil _)
    exact .inr (hall name (htargets List.mem_cons_self))

end GameBundle
