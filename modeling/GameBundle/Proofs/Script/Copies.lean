import Mathlib.Data.Finset.Card
import Mathlib.Order.Monotone.Basic
import GameBundle.Proofs.Properties
import GameBundle.Script.Inline

set_option autoImplicit false

/-! # Rounds of copies

Whether rounds fail on a script, and whether they leave copies, is settled for all scripts of a
table after as many rounds as the table has scripts. More rounds make no difference, nor do more
steps of the search for a circle. So an expansion depends on the scripts it comes across and not on
how many others there are. -/

namespace GameBundle

/-! ## Settling -/

/-- What grows within a list, and always by the same rule, has stopped growing after as many steps
    as the list is long. -/
theorem settled_within (keys : List String) {P : Nat → String → Prop}
    (hgrows : ∀ k name, P k name → P (k + 1) name)
    (hrule : ∀ j k, (∀ name ∈ keys, P j name ↔ P k name) →
      ∀ name ∈ keys, P (j + 1) name ↔ P (k + 1) name)
    {k : Nat} (hk : keys.length ≤ k) {name : String} (hname : name ∈ keys) :
    P (k + 1) name ↔ P k name := by
  classical
  let reached : Nat → Finset String := fun k => keys.toFinset.filter (P k)
  have hsub : ∀ k, reached k ⊆ reached (k + 1) := fun k =>
    Finset.monotone_filter_right _ fun name _ => hgrows k name
  have hsame : ∀ k, (reached k).card = (reached (k + 1)).card →
      ∀ name ∈ keys, P k name ↔ P (k + 1) name := by
    intro k hcard name hname
    have heq := Finset.eq_of_subset_of_card_le (hsub k) hcard.ge
    have hiff := Finset.ext_iff.1 heq name
    simpa only [reached, Finset.mem_filter, List.mem_toFinset, hname, true_and] using hiff
  have hbound : ∀ k, (reached k).card ≤ keys.length := fun k =>
    (Finset.card_filter_le _ _).trans (List.toFinset_card_le keys)
  have hstop : ∀ {n}, keys.length ≤ n → (reached n).card = (reached keys.length).card :=
    Nat.stabilises_of_monotone (monotone_nat_of_le_succ fun k => Finset.card_le_card (hsub k))
      hbound fun k hcard => by
        have heq : reached (k + 1) = reached (k + 2) :=
          Finset.filter_congr fun name hname =>
            hrule k (k + 1) (hsame k hcard) name (List.mem_toFinset.1 hname)
        rw [heq]
  exact (hsame k ((hstop hk).trans (hstop (Nat.le_succ_of_le hk)).symm) name hname).symm

variable {scripts scripts' : Ordered Script} {name : String}

/-! ## What rounds come across -/

/-- What replaces an action in a round, if anything can. -/
def expansion? (scripts : Ordered Script) (a : Action) : Option Script :=
  (expandAction scripts "" a).toOption

/-- The actions behind a copy. -/
def behind (scripts : Ordered Script) (a : Action) : Script :=
  if a.isCopy then (expansion? scripts a).getD [] else []

/-- An error comes up within so many rounds. -/
def FailsWithin (scripts : Ordered Script) : Nat → Action → Prop
  | 0, _ => False
  | rounds + 1, a =>
    expansion? scripts a = none ∨ ∃ b ∈ behind scripts a, FailsWithin scripts rounds b

/-- Copies are left after so many rounds. -/
def LeftAfter (scripts : Ordered Script) : Nat → Action → Prop
  | 0, a => a.isCopy
  | rounds + 1, a => ∃ b ∈ behind scripts a, LeftAfter scripts rounds b

theorem FailsWithin.succ {rounds : Nat} {a : Action} (h : FailsWithin scripts rounds a) :
    FailsWithin scripts (rounds + 1) a := by
  induction rounds generalizing a with
  | zero => exact h.elim
  | succ rounds ih =>
    rcases h with hnone | ⟨b, hb, hfails⟩
    · exact Or.inl hnone
    · exact Or.inr ⟨b, hb, ih hfails⟩

theorem behind_of_not_copy {a : Action} (h : ¬a.isCopy) : behind scripts a = [] := if_neg h

theorem LeftAfter.of_succ {rounds : Nat} {a : Action} (h : LeftAfter scripts (rounds + 1) a) :
    LeftAfter scripts rounds a := by
  induction rounds generalizing a with
  | zero =>
    obtain ⟨b, hb, -⟩ := h
    by_contra hcopy
    rw [behind_of_not_copy hcopy] at hb
    cases hb
  | succ rounds ih =>
    obtain ⟨b, hb, hleft⟩ := h
    exact ⟨b, hb, ih hleft⟩

theorem expansion?_of_not_copy {a : Action} (h : ¬a.isCopy) : expansion? scripts a = some [a] := by
  rw [Bool.not_eq_true] at h
  rw [expansion?, expandAction, h]
  rfl

theorem FailsWithin.isCopy {rounds : Nat} {a : Action} (h : FailsWithin scripts rounds a) :
    a.isCopy := by
  by_contra hcopy
  cases rounds with
  | zero => exact h
  | succ rounds =>
    rcases h with hnone | ⟨b, hb, -⟩
    · rw [expansion?_of_not_copy hcopy] at hnone
      cases hnone
    · rw [behind_of_not_copy hcopy] at hb
      cases hb

theorem LeftAfter.isCopy {rounds : Nat} {a : Action} (h : LeftAfter scripts rounds a) :
    a.isCopy := by
  induction rounds with
  | zero => exact h
  | succ rounds ih => exact ih h.of_succ

/-- The name of the script in front only shows in an error. -/
theorem expandAction_eq_ok {a : Action} {part : Script} :
    expandAction scripts name a = .ok part ↔ expansion? scripts a = some part := by
  unfold expansion? expandAction
  split
  · simp [Except.toOption]
  · split
    · simp [Except.toOption]
    · simp [Except.toOption]
    · split
      · simp [Except.toOption]
      · split <;> simp [Except.toOption]

/-- Behind a copy is nothing or a script of the table. -/
theorem behind_cases (scripts : Ordered Script) (a : Action) :
    behind scripts a = [] ∨ ∃ target, scripts.find? target = some (behind scripts a) := by
  by_cases hcopy : a.isCopy
  · rw [behind, if_pos hcopy]
    cases hpart : expansion? scripts a with
    | none => exact Or.inl rfl
    | some part =>
      have hok : expandAction scripts "" a = .ok part := expandAction_eq_ok.2 hpart
      unfold expandAction at hok
      rw [if_neg (by rw [hcopy]; decide)] at hok
      split at hok
      · cases hok
      · cases hok
      · split at hok
        · cases hok
          exact Or.inl rfl
        · split at hok
          · next hfind =>
            cases hok
            exact Or.inr ⟨_, hfind⟩
          · cases hok
  · exact Or.inl (behind_of_not_copy hcopy)

/-- Actions that are no copies stay, but what is only true of copies is not true of them. -/
theorem exists_mem_expansion {Q : Action → Prop} (hQ : ∀ a, Q a → a.isCopy) (a : Action) :
    (∃ b ∈ (expansion? scripts a).getD [], Q b) ↔ ∃ b ∈ behind scripts a, Q b := by
  by_cases hcopy : a.isCopy
  · rw [behind, if_pos hcopy]
  · rw [behind_of_not_copy hcopy, expansion?_of_not_copy hcopy]
    constructor
    · rintro ⟨b, hb, hQb⟩
      obtain rfl := List.mem_singleton.1 hb
      exact (hcopy (hQ b hQb)).elim
    · rintro ⟨b, hb, -⟩
      cases hb

/-! ## Rounds -/

theorem expandOnce_eq_ok {script next : Script} : expandOnce scripts name script = .ok next ↔
    (∀ a ∈ script, expansion? scripts a ≠ none) ∧
      next = script.flatMap fun a => (expansion? scripts a).getD [] := by
  simp only [expandOnce, bind_eq_ok, pure_eq_ok, mapM_eq_ok, expandAction_eq_ok]
  constructor
  · rintro ⟨parts, hparts, rfl⟩
    induction hparts with
    | nil => exact ⟨List.forall_mem_nil _, rfl⟩
    | cons ha _ ih =>
      obtain ⟨hrest, hnext⟩ := ih
      refine ⟨List.forall_mem_cons.2 ⟨?_, hrest⟩, ?_⟩
      · rw [ha]
        exact Option.some_ne_none _
      · rw [List.flatten_cons, List.flatMap_cons, ha, hnext]
        rfl
  · rintro ⟨hall, rfl⟩
    refine ⟨script.map fun a => (expansion? scripts a).getD [], ?_, List.flatMap_def.symm⟩
    rw [List.forall₂_map_right_iff, List.forall₂_same]
    intro a ha
    obtain ⟨part, hpart⟩ := Option.ne_none_iff_exists'.1 (hall a ha)
    rw [hpart]
    rfl

theorem expandRounds_succ_eq_none {rounds : Nat} {script : Script} :
    expandRounds scripts name (rounds + 1) script = .ok none ↔
      (∃ a ∈ script, a.isCopy) ∧ (∀ a ∈ script, expansion? scripts a ≠ none) ∧
        expandRounds scripts name rounds
          (script.flatMap fun a => (expansion? scripts a).getD []) = .ok none := by
  rw [← List.any_eq_true]
  by_cases hany : script.any Action.isCopy
  · rw [expandRounds, if_pos hany, bind_eq_ok]
    simp only [expandOnce_eq_ok]
    constructor
    · rintro ⟨_, ⟨hall, rfl⟩, hrest⟩
      exact ⟨hany, hall, hrest⟩
    · rintro ⟨-, hall, hrest⟩
      exact ⟨_, ⟨hall, rfl⟩, hrest⟩
  · rw [expandRounds, if_neg hany]
    constructor
    · intro h
      cases h
    · rintro ⟨hcopy, -⟩
      exact (hany hcopy).elim

/-- Nothing comes of the rounds if none of them fails and copies are left before the last. -/
theorem expandRounds_eq_none {rounds : Nat} {script : Script} :
    expandRounds scripts name (rounds + 1) script = .ok none ↔
      (∀ a ∈ script, ¬FailsWithin scripts (rounds + 1) a) ∧
        ∃ a ∈ script, LeftAfter scripts rounds a := by
  induction rounds generalizing script with
  | zero =>
    rw [expandRounds_succ_eq_none]
    constructor
    · rintro ⟨hcopy, hall, -⟩
      refine ⟨fun a ha hfails => ?_, hcopy⟩
      rcases hfails with hnone | ⟨b, -, hfails⟩
      · exact hall a ha hnone
      · exact hfails
    · rintro ⟨hnot, hcopy⟩
      exact ⟨hcopy, fun a ha hnone => hnot a ha (Or.inl hnone), rfl⟩
  | succ rounds ih =>
    rw [expandRounds_succ_eq_none, ih]
    constructor
    · rintro ⟨-, hall, hnot, b, hb, hleft⟩
      obtain ⟨a, ha, hba⟩ := List.mem_flatMap.1 hb
      refine ⟨fun d hd hfails => ?_, a, ha, ?_⟩
      · rcases hfails with hnone | hbehind
        · exact hall d hd hnone
        · obtain ⟨e, he, hfails⟩ := (exists_mem_expansion (fun _ => FailsWithin.isCopy) d).2 hbehind
          exact hnot e (List.mem_flatMap.2 ⟨d, hd, he⟩) hfails
      · exact (exists_mem_expansion (fun _ => LeftAfter.isCopy) a).1 ⟨b, hba, hleft⟩
    · rintro ⟨hnot, a, ha, hleft⟩
      have hcopy : LeftAfter scripts (rounds + 1) a := hleft
      refine ⟨⟨a, ha, hcopy.isCopy⟩, fun d hd hnone => hnot d hd (Or.inl hnone),
        fun e he hfails => ?_, ?_⟩
      · obtain ⟨d, hd, hed⟩ := List.mem_flatMap.1 he
        have hbehind := (exists_mem_expansion (fun _ => FailsWithin.isCopy) d).1 ⟨e, hed, hfails⟩
        exact hnot d hd (Or.inr hbehind)
      · obtain ⟨b, hba, hb⟩ := (exists_mem_expansion (fun _ => LeftAfter.isCopy) a).2 hleft
        exact ⟨b, List.mem_flatMap.2 ⟨a, ha, hba⟩, hb⟩

/-- What has come of the rounds stays so after more of them. -/
theorem expandRounds_succ_of_ne {rounds : Nat} {script : Script}
    (h : expandRounds scripts name rounds script ≠ .ok none) :
    expandRounds scripts name (rounds + 1) script = expandRounds scripts name rounds script := by
  induction rounds generalizing script with
  | zero => exact (h rfl).elim
  | succ rounds ih =>
    rw [expandRounds] at h
    rw [expandRounds]
    conv_rhs => rw [expandRounds]
    split
    · next hany =>
      rw [if_pos hany] at h
      cases hnext : expandOnce scripts name script with
      | error e => rfl
      | ok next =>
        rw [hnext] at h
        exact ih h
    · rfl

/-! ## Enough rounds -/

/-- What is behind a copy is a script of the table, so it is enough to know about these. -/
theorem exists_mem_behind_congr {Q Q' : Action → Prop}
    (h : ∀ name ∈ scripts.keys, (∃ b ∈ (scripts.find? name).getD [], Q b) ↔
      ∃ b ∈ (scripts.find? name).getD [], Q' b) (a : Action) :
    (∃ b ∈ behind scripts a, Q b) ↔ ∃ b ∈ behind scripts a, Q' b := by
  rcases behind_cases scripts a with hnil | ⟨target, hfind⟩
  · rw [hnil]
    simp
  · have htarget := h target (Ordered.mem_keys hfind)
    rwa [hfind] at htarget

/-- Whether rounds fail on a script of the table is settled after as many as there are scripts. -/
theorem failsWithin_settled {rounds : Nat} (hrounds : scripts.size ≤ rounds)
    (hname : name ∈ scripts.keys) :
    (∃ a ∈ (scripts.find? name).getD [], FailsWithin scripts (rounds + 1) a) ↔
      ∃ a ∈ (scripts.find? name).getD [], FailsWithin scripts rounds a := by
  refine settled_within scripts.keys
    (P := fun rounds name => ∃ a ∈ (scripts.find? name).getD [], FailsWithin scripts rounds a)
    (fun k other => ?_) (fun j k hjk other _ => ?_) ?_ hname
  · rintro ⟨a, ha, hfails⟩
    exact ⟨a, ha, hfails.succ⟩
  · refine exists_congr fun a => and_congr_right fun _ => ?_
    exact or_congr Iff.rfl (exists_mem_behind_congr hjk a)
  · rwa [Ordered.keys, List.length_map]

/-- Whether rounds leave copies of a script of the table is settled after as many as there are
    scripts. -/
theorem leftAfter_settled {rounds : Nat} (hrounds : scripts.size ≤ rounds)
    (hname : name ∈ scripts.keys) :
    (∃ a ∈ (scripts.find? name).getD [], LeftAfter scripts (rounds + 1) a) ↔
      ∃ a ∈ (scripts.find? name).getD [], LeftAfter scripts rounds a := by
  rw [← not_iff_not]
  refine settled_within scripts.keys
    (P := fun rounds name => ¬∃ a ∈ (scripts.find? name).getD [], LeftAfter scripts rounds a)
    (fun k other => ?_) (fun j k hjk other _ => ?_) ?_ hname
  · rintro hnone ⟨a, ha, hleft⟩
    exact hnone ⟨a, ha, hleft.of_succ⟩
  · refine not_congr (exists_congr fun a => and_congr_right fun _ => ?_)
    exact exists_mem_behind_congr (fun key hkey => not_iff_not.1 (hjk key hkey)) a
  · rwa [Ordered.keys, List.length_map]

/-- One more round than the table has scripts is enough. -/
theorem expandRounds_settled {script : Script} (hscript : scripts.find? name = some script)
    (front : String) {rounds : Nat} (hrounds : scripts.size + 1 ≤ rounds) :
    expandRounds scripts front rounds script =
      expandRounds scripts front (scripts.size + 1) script := by
  induction rounds, hrounds using Nat.le_induction with
  | base => rfl
  | succ rounds hrounds ih =>
    rw [← ih]
    obtain ⟨rounds, rfl⟩ := Nat.exists_eq_add_of_le' (Nat.le_of_add_left_le hrounds)
    by_cases hnone : expandRounds scripts front (rounds + 1) script = .ok none
    · rw [hnone]
      rw [expandRounds_eq_none] at hnone ⊢
      have hkey := Ordered.mem_keys hscript
      have hsize : scripts.size ≤ rounds := Nat.le_of_succ_le_succ hrounds
      have hfails := failsWithin_settled (Nat.le_succ_of_le hsize) hkey
      have hleft := leftAfter_settled hsize hkey
      rw [hscript] at hfails hleft
      obtain ⟨hnot, hcopies⟩ := hnone
      exact ⟨fun a ha h => (hfails.1 ⟨a, ha, h⟩).elim fun b hb => hnot b hb.1 hb.2, hleft.2 hcopies⟩
    · exact expandRounds_succ_of_ne hnone

theorem copyTargets_eq_nil (h : name ∉ scripts.keys) : copyTargets scripts name = [] := by
  have hnone : scripts.find? name = none := by
    cases hfind : scripts.find? name with
    | none => rfl
    | some script => exact (h (Ordered.mem_keys hfind)).elim
  rw [copyTargets, hnone]
  rfl

/-- A way without a circle stays in the table up to its last step, so it is short enough. -/
theorem walkCopies_settled {steps : Nat} {path : List String} (hnodup : path.Nodup)
    (hsub : path ⊆ scripts.keys) (hsteps : scripts.size + 2 ≤ steps + path.length)
    (done : List String) (name : String) :
    walkCopies scripts (steps + 1) path done name = walkCopies scripts steps path done name := by
  induction steps generalizing path done name with
  | zero =>
    have hlength := (List.subperm_of_subset hnodup hsub).length_le
    rw [Ordered.keys, List.length_map] at hlength
    rw [Ordered.size] at hsteps
    omega
  | succ steps ih =>
    rw [walkCopies]
    conv_rhs => rw [walkCopies]
    by_cases hpath : name ∈ path
    · rw [if_pos hpath, if_pos hpath]
    · rw [if_neg hpath, if_neg hpath]
      by_cases hknown : name ∈ scripts.keys
      · have hnodup' : (path ++ [name]).Nodup :=
          List.nodup_append.2 ⟨hnodup, List.nodup_singleton name, by
            rintro other hother _ hname rfl
            exact hpath (List.mem_singleton.1 hname ▸ hother)⟩
        have hsub' : path ++ [name] ⊆ scripts.keys :=
          List.append_subset.2 ⟨hsub, List.cons_subset.2 ⟨hknown, List.nil_subset _⟩⟩
        have hrest : walkCopies scripts (steps + 1) (path ++ [name]) =
            walkCopies scripts steps (path ++ [name]) := by
          funext done name
          refine ih hnodup' hsub' ?_ done name
          rw [List.length_append]
          simp only [List.length_singleton]
          omega
        rw [hrest]
      · rw [copyTargets_eq_nil hknown]
        rfl

/-! ## Other tables -/

/-- The arguments of an action name only what is known. -/
def Action.NamesOnly (known : String → Prop) (a : Action) : Prop :=
  ∀ key text, a.args.find? key = some (.string text) → known text

theorem Action.copied?_eq_some {a : Action} {target : String} (h : a.copied? = some target) :
    a.args.find? "script" = some (.string target) := by
  obtain ⟨value, hvalue, htext⟩ := Option.bind_eq_some_iff.1 h
  rwa [Json.asString?_eq_some.1 htext] at hvalue

theorem copied_of_mem_copyTargets {target : String} (h : target ∈ copyTargets scripts name) :
    ∃ script, scripts.find? name = some script ∧ ∃ a ∈ script, a.copied? = some target := by
  obtain ⟨a, ha, hcopied⟩ := List.mem_filterMap.1 h
  split at hcopied
  · cases hscript : scripts.find? name with
    | some script =>
      rw [hscript] at ha
      exact ⟨script, rfl, a, ha, hcopied⟩
    | none =>
      rw [hscript] at ha
      cases ha
  · cases hcopied

/-- Actions come from the script or from the table. -/
theorem expandOnce_all {P : Action → Prop}
    (htable : ∀ name script, scripts.find? name = some script → ∀ a ∈ script, P a)
    {script next : Script} (hscript : ∀ a ∈ script, P a)
    (h : expandOnce scripts name script = .ok next) : ∀ a ∈ next, P a := by
  obtain ⟨-, rfl⟩ := expandOnce_eq_ok.1 h
  intro b hb
  obtain ⟨a, ha, hba⟩ := List.mem_flatMap.1 hb
  by_cases hcopy : a.isCopy
  · have hbehind : b ∈ behind scripts a := by rwa [behind, if_pos hcopy]
    rcases behind_cases scripts a with hnil | ⟨target, hfind⟩
    · rw [hnil] at hbehind
      cases hbehind
    · exact htable target _ hfind b hbehind
  · rw [expansion?_of_not_copy hcopy] at hba
    rw [List.mem_singleton.1 hba]
    exact hscript a ha

theorem expandRounds_all {P : Action → Prop}
    (htable : ∀ name script, scripts.find? name = some script → ∀ a ∈ script, P a) {rounds : Nat}
    {script expanded : Script} (hscript : ∀ a ∈ script, P a)
    (h : expandRounds scripts name rounds script = .ok (some expanded)) : ∀ a ∈ expanded, P a := by
  induction rounds generalizing script with
  | zero => cases h
  | succ rounds ih =>
    rw [expandRounds] at h
    split at h
    · obtain ⟨next, hnext, hrest⟩ := bind_eq_ok.1 h
      exact ih (expandOnce_all htable hscript hnext) hrest
    · cases h
      exact hscript

section Known

variable {known : String → Prop}
variable (hsame : ∀ name, known name → scripts'.find? name = scripts.find? name)
include hsame

theorem expandAction_agree (front : String) {a : Action} (ha : a.NamesOnly known) :
    expandAction scripts' front a = expandAction scripts front a := by
  unfold expandAction
  split
  · rfl
  · split
    · rfl
    · rfl
    · next target _ htarget =>
      rw [hsame target (ha _ _ (Action.copied?_eq_some htarget))]

theorem expandOnce_agree (front : String) {script : Script}
    (hscript : ∀ a ∈ script, a.NamesOnly known) :
    expandOnce scripts' front script = expandOnce scripts front script := by
  have hparts : script.mapM (expandAction scripts' front) =
      script.mapM (expandAction scripts front) := by
    induction script with
    | nil => rfl
    | cons a rest ih =>
      obtain ⟨ha, hrest⟩ := List.forall_mem_cons.1 hscript
      rw [List.mapM_cons, List.mapM_cons, expandAction_agree hsame front ha, ih hrest]
  rw [expandOnce, hparts, expandOnce]

variable (htable : ∀ name script, scripts.find? name = some script →
  ∀ a ∈ script, a.NamesOnly known)
include htable

theorem expandRounds_agree (front : String) (rounds : Nat) {script : Script}
    (hscript : ∀ a ∈ script, a.NamesOnly known) :
    expandRounds scripts' front rounds script = expandRounds scripts front rounds script := by
  induction rounds generalizing script with
  | zero => rfl
  | succ rounds ih =>
    rw [expandRounds, expandRounds, expandOnce_agree hsame front hscript]
    cases hnext : expandOnce scripts front script with
    | error e => rfl
    | ok next =>
      have hrest := ih (expandOnce_all htable hscript hnext)
      change (if _ then expandRounds scripts' front rounds next else _) = _
      rw [hrest]
      rfl

theorem walkCopies_agree (steps : Nat) (path done : List String) {name : String}
    (hname : known name) :
    walkCopies scripts' steps path done name = walkCopies scripts steps path done name := by
  induction steps generalizing path done name with
  | zero => rw [walkCopies, walkCopies]
  | succ steps ih =>
    have htargets : copyTargets scripts' name = copyTargets scripts name := by
      rw [copyTargets, copyTargets, hsame name hname]
    have hfold :
        (copyTargets scripts name).foldlM (walkCopies scripts' steps (path ++ [name])) done =
          (copyTargets scripts name).foldlM (walkCopies scripts steps (path ++ [name])) done := by
      rw [List.foldlM_eq_foldl, List.foldlM_eq_foldl]
      refine List.foldl_ext _ _ _ fun walked target htarget => ?_
      obtain ⟨script, hscript, a, ha, hcopied⟩ := copied_of_mem_copyTargets htarget
      have hknown := htable name script hscript a ha _ _ (Action.copied?_eq_some hcopied)
      exact bind_congr fun done => ih (path ++ [name]) done hknown
    rw [walkCopies, walkCopies, htargets, hfold]

theorem findCycle_agree (hsize : scripts.size ≤ scripts'.size) (hname : known name) :
    findCycle scripts' name = findCycle scripts name := by
  have hsteps : walkCopies scripts (scripts'.size + 2) [] [] name =
      walkCopies scripts (scripts.size + 2) [] [] name := by
    have hle := Nat.add_le_add_right hsize 2
    generalize scripts'.size + 2 = steps at hle
    induction steps, hle using Nat.le_induction with
    | base => rfl
    | succ steps hle ih =>
      rw [walkCopies_settled List.nodup_nil (List.nil_subset _) hle, ih]
  rw [findCycle, findCycle, Ordered.contains, Ordered.contains, hsame name hname,
    walkCopies_agree hsame htable _ _ _ hname, hsteps]

/-- **An expansion does not depend on scripts that it does not come across.** If a larger table has
    the known scripts, and these name only each other, then they are expanded in it as they are
    without the others, and all errors are the same. -/
theorem expandCopies_agree (hsize : scripts.size ≤ scripts'.size) {script : Script}
    (hname : known name) (hscript : scripts.find? name = some script) :
    expandCopies scripts' name script = expandCopies scripts name script := by
  have hrounds : expandRounds scripts' name (scripts'.size + 1) script =
      expandRounds scripts name (scripts.size + 1) script := by
    rw [expandRounds_agree hsame htable name _ (htable name script hscript),
      expandRounds_settled hscript name (Nat.add_le_add_right hsize 1)]
  rw [expandCopies, expandCopies, hrounds, findCycle_agree hsame htable hsize hname]

end Known

end GameBundle
