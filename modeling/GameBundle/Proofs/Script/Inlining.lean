import GameBundle.Proofs.Script.Circles

set_option autoImplicit false

/-! # Copies are inlined

What a script with copies means is said best by recursion: in place of a copy stands the whole
script it names, with its own copies replaced in the same way. `Inlines` is this meaning. The rounds
of `expandRounds` replace the copies of all depths at once, but none of them changes what a script
means (`inlines_expandOnce`), and when no copy is left a script means itself. -/

namespace GameBundle

open Relation (ReflTransGen TransGen)

variable {scripts : Ordered Script} {name : String}

/-! ## What copies stand for -/

/-- A script with every copy replaced, and those in the scripts that are copied, down to the last. -/
inductive Inlines (scripts : Ordered Script) : Script → Script → Prop
  | nil : Inlines scripts [] []
  | keep {a : Action} {rest inlined : Script} : a.name ≠ copyScript →
      Inlines scripts rest inlined → Inlines scripts (a :: rest) (a :: inlined)
  | nothing {a : Action} {rest inlined : Script} : a.Copies nullScript →
      Inlines scripts rest inlined → Inlines scripts (a :: rest) inlined
  | copy {a : Action} {target : String} {script part rest inlined : Script} : a.Copies target →
      target ≠ "" → target ≠ nullScript → scripts.find? target = some script →
      Inlines scripts script part → Inlines scripts rest inlined →
      Inlines scripts (a :: rest) (part ++ inlined)

/-- A copy names the script that does nothing or one of the table. -/
def Action.Resolves (scripts : Ordered Script) (a : Action) : Prop :=
  ∃ target, a.args.find? "script" = some (.string target) ∧ target ≠ "" ∧
    (target = nullScript ∨ scripts.contains target = true)

/-- All copies resolve that a script comes across. -/
def AllResolve (scripts : Ordered Script) (name : String) : Prop :=
  ∀ other script, Reaches scripts name other → scripts.find? other = some script →
    ∀ a ∈ script, a.name = copyScript → a.Resolves scripts

theorem Action.Copies.unique {a : Action} {target target' : String} (h : a.Copies target)
    (h' : a.Copies target') : target = target' := by
  have htarget := h.2.symm.trans h'.2
  cases htarget
  rfl

/-- The three ways to replace an action. -/
theorem expansion?_eq_some {a : Action} {part : Script} : expansion? scripts a = some part ↔
    (a.name ≠ copyScript ∧ part = [a]) ∨ (a.Copies nullScript ∧ part = []) ∨
      ∃ target, a.Copies target ∧ target ≠ "" ∧ target ≠ nullScript ∧
        scripts.find? target = some part := by
  have hempty_ne : "" ≠ nullScript := by decide
  by_cases hcopy : a.isCopy
  · have hname := Action.isCopy_iff.1 hcopy
    simp only [Action.Copies, ← Action.copied?_iff, hname]
    unfold expansion? expandAction
    rw [hcopy]
    cases a.copied? with
    | none => simp [Except.toOption]
    | some target =>
      by_cases hempty : target = ""
      · simp [hempty, hempty_ne, Except.toOption]
      · by_cases hnull : target = nullScript
        · subst hnull
          simp [hempty, Except.toOption]
        · cases hfind : scripts.find? target <;> simp [hempty, hnull, hfind, Except.toOption]
  · rw [expansion?_of_not_copy hcopy]
    rw [Action.isCopy_iff] at hcopy
    simp [hcopy, Action.Copies, eq_comm]

/-- A copy can be replaced exactly if it resolves. -/
theorem resolves_iff {a : Action} (hcopy : a.name = copyScript) :
    a.Resolves scripts ↔ expansion? scripts a ≠ none := by
  rw [Option.ne_none_iff_exists']
  simp only [expansion?_eq_some]
  constructor
  · rintro ⟨target, harg, hempty, hnull | hfind⟩
    · exact ⟨[], .inr (.inl ⟨⟨hcopy, hnull ▸ harg⟩, rfl⟩)⟩
    · by_cases hnull : target = nullScript
      · exact ⟨[], .inr (.inl ⟨⟨hcopy, hnull ▸ harg⟩, rfl⟩)⟩
      · obtain ⟨script, hscript⟩ := Option.isSome_iff_exists.1 hfind
        exact ⟨script, .inr (.inr ⟨target, ⟨hcopy, harg⟩, hempty, hnull, hscript⟩)⟩
  · rintro ⟨part, ⟨hkeep, -⟩ | ⟨⟨-, harg⟩, -⟩ | ⟨target, ⟨-, harg⟩, hempty, -, hfind⟩⟩
    · exact (hkeep hcopy).elim
    · exact ⟨nullScript, harg, by decide, .inl rfl⟩
    · exact ⟨target, harg, hempty, .inr (Option.isSome_iff_exists.2 ⟨part, hfind⟩)⟩

/-! ## Inlining a list -/

theorem Inlines.append {xs ys xs' ys' : Script} (hxs : Inlines scripts xs xs')
    (hys : Inlines scripts ys ys') : Inlines scripts (xs ++ ys) (xs' ++ ys') := by
  induction hxs with
  | nil => exact hys
  | keep hname _ ih => exact .keep hname ih
  | nothing hnull _ ih => exact .nothing hnull ih
  | copy hcopy hempty hnull hfind hpart _ _ ih =>
    rw [List.append_assoc]
    exact .copy hcopy hempty hnull hfind hpart ih

theorem Inlines.split {xs ys inlined : Script} (h : Inlines scripts (xs ++ ys) inlined) :
    ∃ xs' ys', inlined = xs' ++ ys' ∧ Inlines scripts xs xs' ∧ Inlines scripts ys ys' := by
  induction xs generalizing inlined with
  | nil => exact ⟨[], inlined, rfl, .nil, h⟩
  | cons a xs ih =>
    cases h with
    | keep hname hrest =>
      obtain ⟨xs', ys', rfl, hxs, hys⟩ := ih hrest
      exact ⟨a :: xs', ys', rfl, .keep hname hxs, hys⟩
    | nothing hnull hrest =>
      obtain ⟨xs', ys', rfl, hxs, hys⟩ := ih hrest
      exact ⟨xs', ys', rfl, .nothing hnull hxs, hys⟩
    | @copy _ _ _ part _ _ hcopy hempty hnull hfind hpart hrest =>
      obtain ⟨xs', ys', rfl, hxs, hys⟩ := ih hrest
      exact ⟨part ++ xs', ys', (List.append_assoc ..).symm,
        .copy hcopy hempty hnull hfind hpart hxs, hys⟩

/-- There is only one way to inline a script. -/
theorem Inlines.unique {script inlined inlined' : Script} (h : Inlines scripts script inlined)
    (h' : Inlines scripts script inlined') : inlined = inlined' := by
  induction h generalizing inlined' with
  | nil =>
    cases h'
    rfl
  | keep hname _ ih =>
    cases h' with
    | keep _ hrest => rw [ih hrest]
    | nothing hnull _ => exact (hname hnull.1).elim
    | copy hcopy _ _ _ _ _ => exact (hname hcopy.1).elim
  | nothing hnull _ ih =>
    cases h' with
    | keep hname _ => exact (hname hnull.1).elim
    | nothing _ hrest => exact ih hrest
    | copy hcopy _ htarget _ _ _ => exact (htarget (hcopy.unique hnull)).elim
  | copy hcopy _ htarget hfind _ _ ihpart ihrest =>
    cases h' with
    | keep hname _ => exact (hname hcopy.1).elim
    | nothing hnull _ => exact (htarget (hcopy.unique hnull)).elim
    | copy hcopy' _ _ hfind' hpart hrest =>
      obtain rfl := hcopy.unique hcopy'
      obtain rfl := Option.some.inj (hfind.symm.trans hfind')
      rw [ihpart hpart, ihrest hrest]

theorem Inlines.no_copies {script inlined : Script} (h : Inlines scripts script inlined) :
    ∀ a ∈ inlined, a.name ≠ copyScript := by
  induction h with
  | nil => exact List.forall_mem_nil _
  | keep hname _ ih => exact List.forall_mem_cons.2 ⟨hname, ih⟩
  | nothing _ _ ih => exact ih
  | copy _ _ _ _ _ _ ihpart ihrest => exact List.forall_mem_append.2 ⟨ihpart, ihrest⟩

theorem inlines_self {script : Script} (h : ∀ a ∈ script, a.name ≠ copyScript) :
    Inlines scripts script script := by
  induction script with
  | nil => exact .nil
  | cons a rest ih =>
    obtain ⟨ha, hrest⟩ := List.forall_mem_cons.1 h
    exact .keep ha (ih hrest)

/-- An action means what replaces it in a round. -/
theorem inlines_expansion {a : Action} {part inlined : Script}
    (h : expansion? scripts a = some part) :
    Inlines scripts part inlined → Inlines scripts [a] inlined := by
  intro hpart
  obtain ⟨_, rfl⟩ | ⟨hnull, rfl⟩ | ⟨target, hcopy, hempty, hnull, hfind⟩ := expansion?_eq_some.1 h
  · exact hpart
  · cases hpart
    exact .nothing hnull .nil
  · rw [← List.append_nil inlined]
    exact .copy hcopy hempty hnull hfind hpart .nil

/-- A round does not change what a script means. -/
theorem inlines_expandOnce {script next inlined : Script}
    (h : expandOnce scripts name script = .ok next) (hnext : Inlines scripts next inlined) :
    Inlines scripts script inlined := by
  rw [expandOnce_eq_ok] at h
  obtain ⟨hall, rfl⟩ := h
  induction script generalizing inlined with
  | nil => exact hnext
  | cons a rest ih =>
    obtain ⟨ha, hrest⟩ := List.forall_mem_cons.1 hall
    obtain ⟨part, hpart⟩ := Option.ne_none_iff_exists'.1 ha
    rw [List.flatMap_cons, hpart] at hnext
    obtain ⟨first, last, rfl, hfirst, hlast⟩ := hnext.split
    exact (inlines_expansion hpart hfirst).append (ih hrest hlast)

/-- What comes of the rounds is the inlined script. -/
theorem inlines_expandRounds {rounds : Nat} {script expanded : Script}
    (h : expandRounds scripts name rounds script = .ok (some expanded)) :
    Inlines scripts script expanded := by
  induction rounds generalizing script with
  | zero => cases h
  | succ rounds ih =>
    rw [expandRounds] at h
    split at h
    · obtain ⟨next, hnext, hrest⟩ := bind_eq_ok.1 h
      exact inlines_expandOnce hnext (ih hrest)
    · next hnone =>
      cases h
      refine inlines_self fun a ha hname => hnone ?_
      exact List.any_eq_true.2 ⟨a, ha, Action.isCopy_iff.2 hname⟩

/-! ## What can be inlined -/

theorem AllResolve.of_leadsTo {target : String} (h : AllResolve scripts name)
    (hlead : LeadsTo scripts name target) : AllResolve scripts target :=
  fun other script hreach => h other script (hreach.head hlead)

/-- What is known of a script and of those that it copies is known of all it comes across. -/
theorem AllResolve.of_behind {script : Script} (hscript : scripts.find? name = some script)
    (hown : ∀ a ∈ script, a.name = copyScript → a.Resolves scripts)
    (hbehind : ∀ target, LeadsTo scripts name target → AllResolve scripts target) :
    AllResolve scripts name := by
  intro other script' hreach hother
  obtain rfl | ⟨next, hlead, hrest⟩ := hreach.cases_head
  · rw [Option.some.inj (hother.symm.trans hscript)]
    exact hown
  · exact hbehind next hlead other script' hrest hother

/-- What can be inlined resolves and does not go on forever. -/
theorem Inlines.of_mem {script inlined : Script} (h : Inlines scripts script inlined) :
    ∀ a ∈ script, (a.name = copyScript → a.Resolves scripts) ∧
      ∀ target, a.Copies target → target ≠ nullScript →
        Grounded scripts target ∧ AllResolve scripts target := by
  induction h with
  | nil => exact List.forall_mem_nil _
  | keep hname _ ih =>
    refine List.forall_mem_cons.2 ⟨⟨fun hcopy => (hname hcopy).elim, ?_⟩, ih⟩
    exact fun target hcopy => (hname hcopy.1).elim
  | nothing hnull _ ih =>
    refine List.forall_mem_cons.2 ⟨⟨fun _ => ⟨nullScript, hnull.2, by decide, .inl rfl⟩, ?_⟩, ih⟩
    exact fun target hcopy htarget => (htarget (hcopy.unique hnull)).elim
  | @copy a target script part rest inlined hcopy hempty htarget hfind _ _ ihpart ihrest =>
    refine List.forall_mem_cons.2 ⟨⟨fun _ => ⟨target, hcopy.2, hempty, .inr ?_⟩, ?_⟩, ihrest⟩
    · exact Option.isSome_iff_exists.2 ⟨script, hfind⟩
    · intro other hother _
      obtain rfl := hcopy.unique hother
      have hnext : ∀ next, LeadsTo scripts target next →
          Grounded scripts next ∧ AllResolve scripts next := by
        rintro next ⟨hnull, script', hfind', b, hb, hnext⟩
        obtain rfl := Option.some.inj (hfind.symm.trans hfind')
        exact (ihpart b hb).2 next hnext hnull
      exact ⟨⟨target, fun next hlead => (hnext next hlead).1⟩,
        .of_behind hfind (fun b hb => (ihpart b hb).1) fun next hlead => (hnext next hlead).2⟩

/-- What resolves and does not go on forever can be inlined. -/
theorem exists_inlines (hground : Grounded scripts name) {script : Script}
    (hscript : scripts.find? name = some script) (hresolve : AllResolve scripts name) :
    ∃ inlined, Inlines scripts script inlined := by
  induction hground generalizing script with
  | intro name _ ih =>
    have hpart : ∀ part : Script, (∀ a ∈ part, a ∈ script) →
        ∃ inlined, Inlines scripts part inlined := by
      intro part
      induction part with
      | nil => exact fun _ => ⟨[], .nil⟩
      | cons a rest ihrest =>
        intro hsub
        obtain ⟨ha, hrest⟩ := List.forall_mem_cons.1 hsub
        obtain ⟨inlined, hinlined⟩ := ihrest hrest
        by_cases hcopy : a.name = copyScript
        · have hresolves := hresolve name script .refl hscript a ha hcopy
          obtain ⟨next, hnext⟩ := Option.ne_none_iff_exists'.1 ((resolves_iff hcopy).1 hresolves)
          obtain ⟨hkeep, -⟩ | ⟨hnull, -⟩ | ⟨target, hcopies, hempty, hnull, hfind⟩ :=
            expansion?_eq_some.1 hnext
          · exact (hkeep hcopy).elim
          · exact ⟨inlined, .nothing hnull hinlined⟩
          · have hlead : LeadsTo scripts name target := ⟨hnull, script, hscript, a, ha, hcopies⟩
            obtain ⟨part, hpart⟩ := ih target hlead hfind (hresolve.of_leadsTo hlead)
            exact ⟨part ++ inlined, .copy hcopies hempty hnull hfind hpart hinlined⟩
        · exact ⟨a :: inlined, .keep hcopy hinlined⟩
    exact hpart script fun _ ha => ha

/-- What can be inlined is what resolves and does not go on forever. -/
theorem exists_inlines_iff {script : Script} (hscript : scripts.find? name = some script) :
    (∃ inlined, Inlines scripts script inlined) ↔
      Grounded scripts name ∧ AllResolve scripts name := by
  constructor
  · rintro ⟨inlined, h⟩
    have hnext : ∀ target, LeadsTo scripts name target →
        Grounded scripts target ∧ AllResolve scripts target := by
      rintro target ⟨hnull, script', hscript', a, ha, hcopies⟩
      obtain rfl := Option.some.inj (hscript.symm.trans hscript')
      exact (h.of_mem a ha).2 target hcopies hnull
    exact ⟨⟨name, fun target hlead => (hnext target hlead).1⟩,
      .of_behind hscript (fun a ha => (h.of_mem a ha).1) fun target hlead => (hnext target hlead).2⟩
  · rintro ⟨hground, hresolve⟩
    exact exists_inlines hground hscript hresolve

/-! ## Enough rounds -/

theorem LeftAfter.mono {j k : Nat} (hjk : j ≤ k) {a : Action} (h : LeftAfter scripts k a) :
    LeftAfter scripts j a := by
  induction k, hjk using Nat.le_induction with
  | base => exact h
  | succ k _ ih => exact ih h.of_succ

/-- Each copy of a script that can be inlined is gone after some rounds. -/
theorem Inlines.exists_not_leftAfter {script inlined : Script}
    (h : Inlines scripts script inlined) :
    ∃ rounds, ∀ a ∈ script, ¬LeftAfter scripts rounds a := by
  induction h with
  | nil => exact ⟨0, List.forall_mem_nil _⟩
  | keep hname _ ih =>
    obtain ⟨rounds, hrest⟩ := ih
    refine ⟨rounds, List.forall_mem_cons.2 ⟨fun hleft => ?_, hrest⟩⟩
    exact hname (Action.isCopy_iff.1 hleft.isCopy)
  | @nothing a rest inlined hnull _ ih =>
    obtain ⟨rounds, hrest⟩ := ih
    refine ⟨rounds + 1, List.forall_mem_cons.2 ⟨?_, fun b hb hleft => hrest b hb hleft.of_succ⟩⟩
    rintro ⟨b, hb, -⟩
    rw [behind, expansion?_eq_some.2 (.inr (.inl ⟨hnull, rfl⟩)), Option.getD_some, ite_self] at hb
    cases hb
  | @copy a target script part rest inlined hcopy hempty hnull hfind _ _ ihpart ihrest =>
    obtain ⟨inner, hinner⟩ := ihpart
    obtain ⟨rounds, hrest⟩ := ihrest
    have hbehind : behind scripts a = script := by
      rw [behind, if_pos (Action.isCopy_iff.2 hcopy.1),
        expansion?_eq_some.2 (.inr (.inr ⟨target, hcopy, hempty, hnull, hfind⟩)), Option.getD_some]
    refine ⟨max inner rounds + 1, List.forall_mem_cons.2 ⟨?_, fun b hb hleft => ?_⟩⟩
    · rintro ⟨b, hb, hleft⟩
      rw [hbehind] at hb
      exact hinner b hb (hleft.mono (Nat.le_max_left inner rounds))
    · exact hrest b hb (hleft.mono (Nat.le_succ_of_le (Nat.le_max_right inner rounds)))

/-- Where an error comes up there is a copy that does not resolve. -/
theorem FailsWithin.not_allResolve {rounds : Nat} {script : Script} {a : Action}
    (h : FailsWithin scripts rounds a) (hscript : scripts.find? name = some script)
    (ha : a ∈ script) : ¬AllResolve scripts name := by
  intro hresolve
  induction rounds generalizing name script a with
  | zero => exact h
  | succ rounds ih =>
    have hcopy := Action.isCopy_iff.1 h.isCopy
    have hresolves := (resolves_iff hcopy).1 (hresolve name script .refl hscript a ha hcopy)
    obtain hnone | ⟨b, hb, hfails⟩ := h
    · exact hresolves hnone
    · obtain ⟨part, hpart⟩ := Option.ne_none_iff_exists'.1 hresolves
      rw [behind, if_pos (Action.isCopy_iff.2 hcopy), hpart, Option.getD_some] at hb
      obtain ⟨hkeep, -⟩ | ⟨-, rfl⟩ | ⟨target, hcopies, -, hnull, hfind⟩ :=
        expansion?_eq_some.1 hpart
      · exact hkeep hcopy
      · cases hb
      · have hlead : LeadsTo scripts name target := ⟨hnull, script, hscript, a, ha, hcopies⟩
        exact ih hfails hfind hb (hresolve.of_leadsTo hlead)

theorem FailsWithin.mono {j k : Nat} (hjk : j ≤ k) {a : Action} (h : FailsWithin scripts j a) :
    FailsWithin scripts k a := by
  induction k, hjk using Nat.le_induction with
  | base => exact h
  | succ k _ ih => exact ih.succ

/-- A copy that does not resolve is come across after some rounds. -/
theorem exists_failsWithin {other : String} {script script' : Script} {a : Action}
    (hreach : Reaches scripts name other) (hscript : scripts.find? name = some script)
    (hother : scripts.find? other = some script') (ha : a ∈ script') (hcopy : a.name = copyScript)
    (hnot : ¬a.Resolves scripts) : ∃ rounds, ∃ b ∈ script, FailsWithin scripts rounds b := by
  rw [resolves_iff hcopy, not_not] at hnot
  induction hreach using ReflTransGen.head_induction_on generalizing script with
  | refl =>
    obtain rfl := Option.some.inj (hscript.symm.trans hother)
    exact ⟨1, a, ha, .inl hnot⟩
  | head hlead hrest ih =>
    obtain ⟨hnull, script₁, hscript₁, b, hb, hcopies⟩ := hlead
    obtain rfl := Option.some.inj (hscript.symm.trans hscript₁)
    cases hnext : expansion? scripts b with
    | none => exact ⟨1, b, hb, .inl hnext⟩
    | some part =>
      obtain ⟨hkeep, -⟩ | ⟨hnothing, -⟩ | ⟨target, htarget, -, -, hfind⟩ :=
        expansion?_eq_some.1 hnext
      · exact (hkeep hcopies.1).elim
      · exact (hnull (hcopies.unique hnothing)).elim
      · obtain rfl := hcopies.unique htarget
        obtain ⟨rounds, c, hc, hfails⟩ := ih hfind
        refine ⟨rounds + 1, b, hb, .inr ⟨c, ?_, hfails⟩⟩
        rwa [behind, if_pos (Action.isCopy_iff.2 hcopies.1), hnext, Option.getD_some]

/-- If copies are left when the rounds are over, then each of them could be replaced. -/
theorem allResolve_of_expandRounds {script : Script} (hscript : scripts.find? name = some script)
    (h : expandRounds scripts name (scripts.size + 1) script = .ok none) :
    AllResolve scripts name := by
  intro other script' hreach hother a ha hcopy
  by_contra hnot
  obtain ⟨rounds, b, hb, hfails⟩ := exists_failsWithin hreach hscript hother ha hcopy hnot
  have hmore := expandRounds_settled hscript name
    (Nat.succ_le_succ (Nat.le_max_right rounds scripts.size))
  rw [h, expandRounds_eq_none] at hmore
  exact hmore.1 b hb (hfails.mono (Nat.le_succ_of_le (Nat.le_max_left rounds scripts.size)))

/-- An error of the rounds is one of an action that some round comes across. -/
theorem expandRounds_eq_error {rounds : Nat} {script : Script} {e : BuildError}
    (h : expandRounds scripts name rounds script = .error e) :
    (∃ a ∈ script, FailsWithin scripts rounds a) ∧ ∃ a, expandAction scripts name a = .error e := by
  induction rounds generalizing script with
  | zero => cases h
  | succ rounds ih =>
    rw [expandRounds] at h
    split at h
    · obtain hround | ⟨next, hnext, hrest⟩ := bind_eq_error.1 h
      · obtain hparts | ⟨parts, -, hpure⟩ := bind_eq_error.1 hround
        · obtain ⟨a, ha, herror⟩ := exists_of_mapM_eq_error hparts
          refine ⟨⟨a, ha, .inl (Option.eq_none_iff_forall_ne_some.2 fun part hpart => ?_)⟩, a, herror⟩
          rw [expandAction_eq_ok.2 hpart] at herror
          cases herror
        · cases hpure
      · obtain ⟨⟨b, hb, hfails⟩, herror⟩ := ih hrest
        obtain ⟨-, rfl⟩ := expandOnce_eq_ok.1 hnext
        obtain ⟨a, ha, hba⟩ := List.mem_flatMap.1 hb
        have hbehind := (exists_mem_expansion (fun _ => FailsWithin.isCopy) a).1 ⟨b, hba, hfails⟩
        exact ⟨⟨a, ha, .inr hbehind⟩, herror⟩
    · cases h

/-- A single action cannot tell that there is a circle. -/
theorem expandAction_ne_cycle {a : Action} {front : String} {circle : List String} :
    expandAction scripts name a ≠ .error (.copyScriptCycle front circle) := by
  unfold expandAction
  split
  · simp
  · split
    · simp
    · simp
    · split
      · simp
      · split <;> simp

/-- A script that can be inlined is inlined: the rounds that are allowed are enough. -/
theorem Inlines.expandCopies {script inlined : Script} (hscript : scripts.find? name = some script)
    (h : Inlines scripts script inlined) : expandCopies scripts name script = .ok inlined := by
  obtain ⟨-, hresolve⟩ := (exists_inlines_iff hscript).1 ⟨inlined, h⟩
  unfold GameBundle.expandCopies
  cases hrounds : expandRounds scripts name (scripts.size + 1) script with
  | error e =>
    obtain ⟨⟨a, ha, hfails⟩, -⟩ := expandRounds_eq_error hrounds
    exact (hfails.not_allResolve hscript ha hresolve).elim
  | ok result =>
    cases result with
    | none =>
      obtain ⟨rounds, hgone⟩ := h.exists_not_leftAfter
      have hmore := expandRounds_settled hscript name
        (Nat.succ_le_succ (Nat.le_max_right rounds scripts.size))
      rw [hrounds, expandRounds_eq_none] at hmore
      obtain ⟨-, a, ha, hleft⟩ := hmore
      exact (hgone a ha (hleft.mono (Nat.le_max_left rounds scripts.size))).elim
    | some expanded =>
      rw [(inlines_expandRounds hrounds).unique h]
      rfl

theorem inlines_of_expandCopies {script expanded : Script}
    (h : expandCopies scripts name script = .ok expanded) : Inlines scripts script expanded := by
  obtain ⟨result, hresult, hexpanded⟩ := bind_eq_ok.1 h
  cases result with
  | none => cases hexpanded
  | some expanded' =>
    cases hexpanded
    exact inlines_expandRounds hresult

/-- The error of a circle is the one that the search finds. -/
theorem expandCopies_eq_cycle {script : Script} (hscript : scripts.find? name = some script)
    {front : String} {circle : List String}
    (h : expandCopies scripts name script = .error (.copyScriptCycle front circle)) :
    front = name ∧ circle = findCycle scripts name ∧ ¬Grounded scripts name := by
  have hnot : ¬∃ inlined, Inlines scripts script inlined := by
    rintro ⟨inlined, hinlined⟩
    rw [hinlined.expandCopies hscript] at h
    cases h
  obtain hrounds | ⟨result, hresult, hcycle⟩ := bind_eq_error.1 h
  · obtain ⟨-, a, ha⟩ := expandRounds_eq_error hrounds
    exact (expandAction_ne_cycle ha).elim
  · cases result with
    | some expanded => cases hcycle
    | none =>
      cases hcycle
      exact ⟨rfl, rfl, fun hground =>
        hnot (exists_inlines hground hscript (allResolve_of_expandRounds hscript hresult))⟩

/-! ## Expansion -/

/-- What comes of the expansion of a script. -/
structure Expands (scripts : Ordered Script) (name : String) (script : Script) : Prop where
  /-- It is the script with all copies inlined. -/
  inlines : ∀ expanded, expandCopies scripts name script = .ok expanded ↔
    Inlines scripts script expanded
  no_copies : ∀ expanded, expandCopies scripts name script = .ok expanded →
    ∀ a ∈ expanded, a.name ≠ copyScript
  /-- There is one unless a circle can be reached, or a copy that does not resolve. -/
  succeeds : (∃ expanded, expandCopies scripts name script = .ok expanded) ↔
    (∀ other, Reaches scripts name other → ¬TransGen (LeadsTo scripts) other other) ∧
      AllResolve scripts name
  /-- The rounds are only used up if there is a circle. -/
  rounds : (∀ other, Reaches scripts name other → ¬TransGen (LeadsTo scripts) other other) →
    expandRounds scripts name (scripts.size + 1) script ≠ .ok none
  circle : ∀ front circle,
    expandCopies scripts name script = .error (.copyScriptCycle front circle) →
      front = name ∧ Circle scripts name circle
  /-- The search ends by itself, and in one way. -/
  search : ∃! result, Searches scripts [] [] [name] result ∧
    findCycle scripts name = match result with
      | .error circle => circle
      | .ok _ => [name]

/-- **Scripts are inlined, and refused for nothing but a circle or a copy of nothing.** What comes
    of the rounds is the script with all copies inlined. Circles that can be reached and copies that
    do not resolve are the only obstacles, and a circle that is reported is one. -/
theorem copies_inlined {script : Script} (hnull : scripts.find? nullScript = none)
    (hscript : scripts.find? name = some script) : Expands scripts name script := by
  have hname : scripts.contains name = true := Option.isSome_iff_exists.2 ⟨script, hscript⟩
  have hinlines : ∀ expanded, expandCopies scripts name script = .ok expanded ↔
      Inlines scripts script expanded :=
    fun expanded => ⟨inlines_of_expandCopies, fun h => h.expandCopies hscript⟩
  have hground : Grounded scripts name ↔
      ∀ other, Reaches scripts name other → ¬TransGen (LeadsTo scripts) other other := by
    refine ⟨Grounded.not_circle, fun h => ?_⟩
    obtain hcircle | hground := findCycle_cases hnull hname
    · obtain ⟨first, hreach, hback⟩ := hcircle.transGen
      exact (h first hreach hback).elim
    · exact hground
  refine ⟨hinlines, fun expanded h => (inlines_of_expandCopies h).no_copies, ?_, ?_, ?_, ?_⟩
  · rw [← hground, ← exists_inlines_iff hscript]
    exact exists_congr hinlines
  · intro hnone hrounds
    have hcycle : expandCopies scripts name script =
        .error (.copyScriptCycle name (findCycle scripts name)) := by
      rw [expandCopies, hrounds]
      rfl
    exact (expandCopies_eq_cycle hscript hcycle).2.2 (hground.2 hnone)
  · intro front circle h
    obtain ⟨hfront, rfl, hnot⟩ := expandCopies_eq_cycle hscript h
    exact ⟨hfront, (findCycle_cases hnull hname).resolve_right hnot⟩
  · refine ⟨walkCopies scripts (scripts.size + 2) [] [] name,
      ⟨searches_walkCopies scripts name, if_pos hname⟩, ?_⟩
    rintro result ⟨hsearch, -⟩
    exact hsearch.unique (searches_walkCopies scripts name)

/-- An instruction that copies a script. -/
def copyOf (target : String) : Action := ⟨copyScript, .ofList [("script", .string target)]⟩

/-- There are two ways down, and one way into a circle. -/
def stairs : Ordered Script := .ofList [
  ("cellar", [⟨"RETURN", .empty⟩]),
  ("left", [copyOf "cellar"]),
  ("right", [⟨"BLOCK", .empty⟩, copyOf "cellar", copyOf nullScript]),
  ("hall", [copyOf "left", copyOf "right"]),
  ("garden", [copyOf "left", copyOf "maze"]),
  ("maze", [copyOf "path"]),
  ("path", [copyOf "maze"])]

/-- Both ways down are inlined. From the garden there is a way into a circle that does not come
    back to it. -/
theorem stairs_inlined :
    (Expands stairs "hall" [copyOf "left", copyOf "right"] ∧
      expandCopies stairs "hall" [copyOf "left", copyOf "right"] =
        .ok [⟨"RETURN", .empty⟩, ⟨"BLOCK", .empty⟩, ⟨"RETURN", .empty⟩]) ∧
    Expands stairs "garden" [copyOf "left", copyOf "maze"] ∧
      expandCopies stairs "garden" [copyOf "left", copyOf "maze"] =
        .error (.copyScriptCycle "garden" ["maze", "path", "maze"]) :=
  ⟨⟨copies_inlined rfl rfl, rfl⟩, copies_inlined rfl rfl, rfl⟩

end GameBundle
