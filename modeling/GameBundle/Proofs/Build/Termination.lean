import GameBundle.Build.Scripts
import GameBundle.Proofs.Steps
import Mathlib.Data.List.Perm.Subperm

set_option autoImplicit false

/-! # The recursion of scripts and dialogs ends

Whoever builds an action, a dialog or a serial dialog is told how to compile scripts. If two ways to
do so agree, the results agree as well: that is the first half of this module, with one lemma for
each function. In the second half the two ways differ in how many compilations they allow at once.
The measure is the number of scripts of the table that are not listed on the map yet: each
compilation lists one more before it goes on. -/

namespace GameBundle

/-! ## Agreement of everything that compiles scripts -/

section Agreement

variable {P : MapState → Prop} {R : MapState → MapState → Prop}
  {compile compile' : String → Step MapState UInt16} {input : Input}

/-- A step on the project leaves the map as it is. -/
theorem Change.onProject {α : Type} (hmap : ∀ s p, R s ⟨s.map, p⟩) (x : Step Project α) :
    Alike P R (onProject x) (GameBundle.onProject x) :=
  fun s _ => ⟨rfl, hmap s _⟩

/-- The steps on the project that dialogs are built with make changes of kind `R`. -/
structure StoresAlike (P : MapState → Prop) (R : MapState → MapState → Prop) : Prop where
  text : ∀ pool map text, Alike P R (onProject (intern pool map text))
    (onProject (intern pool map text))
  once : ∀ {kind : Kind} {find? : Project → Option UInt16} {record : String} {bytes : Bytes}
    {remember : UInt16 → Project → Project}, (∀ index p, (remember index p).tables = p.tables) →
    Alike P R (onProject (addOnce kind find? record bytes remember))
      (onProject (addOnce kind find? record bytes remember))

theorem Change.internOnMap (hR : Change P R) (hstore : StoresAlike P R) (pool : Pool)
    (text : String) : Alike P R (internOnMap pool text) (GameBundle.internOnMap pool text) :=
  hR.bind hR.get fun _ => hstore.text _ _ _

theorem Change.buildResponse (hR : Change P R) (hstore : StoresAlike P R)
    (hcompile : ∀ name, Alike P R (compile name) (compile' name)) (r : Response) :
    Alike P R (buildResponse compile r) (GameBundle.buildResponse compile' r) := by
  refine hR.bind (hR.internOnMap hstore _ _) fun label => ?_
  exact hR.bind (hcompile _) fun script => hR.pure _

theorem Change.buildScreen (hR : Change P R) (hstore : StoresAlike P R)
    (hcompile : ∀ name, Alike P R (compile name) (compile' name)) (s : Screen) (context : String) :
    Alike P R (buildScreen compile s context) (GameBundle.buildScreen compile' s context) := by
  refine hR.bind hR.get fun state => ?_
  refine hR.bind (hR.except _) fun fixed => ?_
  refine hR.bind (hR.internOnMap hstore _ _) fun title => ?_
  refine hR.bind (hR.mapM fun text _ => hR.internOnMap hstore _ text) fun messages => ?_
  refine hR.bind (hR.mapM fun r _ => hR.buildResponse hstore hcompile r) fun responses => ?_
  exact hR.except _

theorem Change.buildDialog (hR : Change P R) (hstore : StoresAlike P R)
    (hcompile : ∀ name, Alike P R (compile name) (compile' name)) (name context : String) :
    Alike P R (buildDialog input compile name context)
      (GameBundle.buildDialog input compile' name context) := by
  refine hR.bind hR.get fun state => ?_
  refine hR.bind hR.get fun state' => ?_
  cases state'.project.dialogs.find? (dialogKey state.map.name name) with
  | some index => exact hR.pure index
  | none =>
    refine hR.bind (hR.orReject _ _) fun screens => ?_
    refine hR.rejectIf _ ?_
    cases screens.findIdx? fun s => s.messages.isEmpty with
    | some screen => exact hR.rejected _ _ _
    | none =>
      refine hR.bind (hR.except _) fun header => ?_
      refine hR.bind (hR.mapM fun s _ => hR.buildScreen hstore hcompile s.1 _) fun bodies => ?_
      exact hstore.once fun _ _ => rfl

theorem Change.buildSerialDialog (hR : Change P R) (hstore : StoresAlike P R)
    (hcompile : ∀ name, Alike P R (compile name) (compile' name)) (name context : String) :
    Alike P R (buildSerialDialog input compile name context)
      (GameBundle.buildSerialDialog input compile' name context) := by
  refine hR.bind hR.get fun state => ?_
  cases state.project.serialDialogs.find? name with
  | some index => exact hR.pure index
  | none =>
    refine hR.bind (hR.orReject _ _) fun dialog => ?_
    refine hR.rejectIf _ (hR.rejectIf _ (hR.rejectIf _ ?_))
    refine hR.bind (hR.internOnMap hstore _ _) fun message => ?_
    refine hR.bind (hR.mapM fun r _ => hR.buildResponse hstore hcompile r) fun responses => ?_
    exact hR.bind (hR.except _) fun bytes => hstore.once fun _ _ => rfl

theorem Change.resolve (hR : Change P R) (hstore : StoresAlike P R)
    (hcompile : ∀ name, Alike P R (compile name) (compile' name)) (a : Action) (operand : Operand) :
    Alike P R (resolve input compile a operand) (GameBundle.resolve input compile' a operand) := by
  unfold GameBundle.resolve
  cases operand.kind with
  | entity | geometry | map =>
    refine hR.bind (hR.except _) fun name => hR.bind hR.get fun state => ?_
    exact hR.bind (hR.except _) fun number => hR.pure _
  | entityType =>
    refine hR.bind (hR.except _) fun name => hR.bind hR.get fun state => ?_
    cases state.project.entityTypes.find? name with
    | some type => exact hR.pure _
    | none => exact hR.reject _
  | script =>
    exact hR.bind (hR.except _) fun name => hR.bind (hcompile name) fun number => hR.pure _
  | text pool =>
    refine hR.bind (hR.except _) fun text => ?_
    exact hR.bind (hR.internOnMap hstore pool text) fun number => hR.pure _
  | dialog =>
    refine hR.bind (hR.except _) fun name => ?_
    exact hR.bind (hR.buildDialog hstore hcompile name _) fun number => hR.pure _
  | serialDialog =>
    refine hR.bind (hR.except _) fun name => ?_
    exact hR.bind (hR.buildSerialDialog hstore hcompile name _) fun number => hR.pure _
  | key | turn | color | number | byte | twoBytes | bool => exact hR.except _
  | unsupported => exact hR.reject _

theorem Change.encodeAction (hR : Change P R) (hstore : StoresAlike P R)
    (hcompile : ∀ name, Alike P R (compile name) (compile' name)) (a : Action) :
    Alike P R (encodeAction input compile a) (GameBundle.encodeAction input compile' a) := by
  refine hR.bind (hR.orReject _ _) fun opcode => ?_
  refine hR.bind (hR.except _) fun w => ?_
  refine hR.bind (hR.foldlM (fun w operand _ => ?_) w) fun w => hR.pure _
  exact hR.bind (hR.resolve hstore hcompile a operand) fun value => hR.except _

end Agreement

/-! ## The measure -/

/-- A script is listed on the map. -/
def Listed (name : String) (s : MapState) : Prop := (s.map.scriptNumber? name).isSome

/-- How many of some scripts are not listed on the map. -/
def unlistedOf (names : List String) (s : MapState) : Nat :=
  names.countP fun name => !(s.map.scriptNumber? name).isSome

/-- How many scripts of the table are not listed on the map. -/
def unlisted (input : Input) (s : MapState) : Nat := unlistedOf input.definitions.scripts.keys s

/-- What is listed stays listed. -/
def Grows (s t : MapState) : Prop := ∀ name, Listed name s → Listed name t

/-- At most `n` scripts of the table can still be compiled, and those in progress are listed. -/
def Within (input : Input) (n : Nat) (stack : List String) (s : MapState) : Prop :=
  unlisted input s ≤ n ∧ ∀ name ∈ stack, Listed name s

theorem unlisted_le_size (input : Input) (s : MapState) :
    unlisted input s ≤ input.definitions.scripts.size := by
  have h := List.countP_le_length (p := fun name => !(s.map.scriptNumber? name).isSome)
    (l := input.definitions.scripts.keys)
  rwa [Ordered.keys, List.length_map] at h

theorem Grows.unlistedOf_le {s t : MapState} (h : Grows s t) (names : List String) :
    unlistedOf names t ≤ unlistedOf names s := by
  apply List.countP_mono_left
  intro name _ hnew
  rw [Bool.not_eq_true', Bool.eq_false_iff] at hnew ⊢
  exact mt (h name) hnew

theorem grows_onProject (s : MapState) (p : Project) : Grows s ⟨s.map, p⟩ := fun _ h => h

theorem stores_grow {P : MapState → Prop} : StoresAlike P Grows where
  text _ _ _ := Change.onProject grows_onProject _
  once _ := Change.onProject grows_onProject _

theorem change_grows (input : Input) (n : Nat) (stack : List String) :
    Change (Within input n stack) Grows where
  refl _ _ h := h
  trans _ _ _ hst htu name h := htu name (hst name h)
  keeps _ _ hs hst :=
    ⟨Nat.le_trans (hst.unlistedOf_le _) hs.1, fun name h => hst name (hs.2 name h)⟩

theorem listed_listScript {s : MapState} {name other : String} {global number : UInt16} :
    Listed other ⟨s.map.listScript name global number, s.project⟩ ↔
      other = name ∨ Listed other s := by
  simp only [Listed, MapContext.scriptNumber?, MapContext.listScript, Ordered.find?_put]
  by_cases h : other = name
  · simp [h]
  · simp [h]

theorem grows_listScript (s : MapState) (name : String) (global number : UInt16) :
    Grows s ⟨s.map.listScript name global number, s.project⟩ :=
  fun _ h => listed_listScript.2 (Or.inr h)

/-- Listing one more script of the table leaves one less to compile. -/
theorem unlisted_listScript (global number : UInt16) {input : Input} {s : MapState} {name : String}
    (hmem : name ∈ input.definitions.scripts.keys) (hnew : ¬Listed name s) :
    unlisted input ⟨s.map.listScript name global number, s.project⟩ < unlisted input s := by
  have hgrows := grows_listScript s name global number
  have hlisted : Listed name ⟨s.map.listScript name global number, s.project⟩ :=
    listed_listScript.2 (Or.inl rfl)
  generalize (⟨s.map.listScript name global number, s.project⟩ : MapState) = t at *
  obtain ⟨before, after, hkeys⟩ := List.append_of_mem hmem
  have hbefore := hgrows.unlistedOf_le before
  have hafter := hgrows.unlistedOf_le after
  have hthen : unlistedOf (name :: after) s = unlistedOf after s + 1 := by
    apply List.countP_cons_of_pos
    rw [Bool.not_eq_true', Bool.eq_false_iff]
    exact hnew
  have hnow : unlistedOf (name :: after) t = unlistedOf after t := by
    apply List.countP_cons_of_neg
    rw [Bool.not_eq_true', Bool.eq_false_iff]
    exact not_not_intro hlisted
  unfold unlisted
  rw [hkeys]
  unfold unlistedOf at *
  rw [List.countP_append, List.countP_append]
  omega

/-! ## One compilation -/

theorem yields_listScript {name : String} {global number : UInt16} {s t : MapState} :
    Yields (listScript name global) s number t ↔
      s.map.nextScript = .ok number ∧ t = ⟨s.map.listScript name global number, s.project⟩ := by
  simp only [listScript, yields_bind, yields_get, yields_except, liftM_eq_ok, yields_changeMap,
    yields_pure]
  constructor
  · rintro ⟨_, _, ⟨rfl, rfl⟩, _, _, ⟨hnext, rfl⟩, _, _, rfl, rfl, rfl⟩
    exact ⟨hnext, rfl⟩
  · rintro ⟨hnext, rfl⟩
    exact ⟨_, _, ⟨rfl, rfl⟩, _, _, ⟨hnext, rfl⟩, (), _, rfl, rfl, rfl⟩

theorem listScript_alike {P : MapState → Prop} (hR : Change P Grows) (name : String)
    (global : UInt16) : Alike P Grows (listScript name global) (listScript name global) := by
  refine hR.bind hR.get fun state => hR.bind (hR.except _) fun number => ?_
  exact hR.bind (fun s _ => ⟨rfl, grows_listScript s name global number⟩) fun _ => hR.pure _

/-- A script is handed on only if it is in the table and not listed yet. -/
theorem scriptNumber_alike {input : Input} {start start' : String → Script → Step MapState UInt16}
    {name : String} {s : MapState}
    (hstart : name ∈ input.definitions.scripts.keys → ¬Listed name s →
      ∀ actions, AlikeAt Grows (start name actions) (start' name actions) s) :
    AlikeAt Grows (scriptNumber input start name) (scriptNumber input start' name) s := by
  have hR := change_grows input (unlisted input s) []
  have hs : Within input (unlisted input s) [] s := ⟨Nat.le_refl _, by simp⟩
  refine AlikeAt.bind hR.trans (hR.refl s) fun _ _ hget => ?_
  obtain ⟨rfl, rfl⟩ := yields_get.1 hget
  cases hnumber : s.map.scriptNumber? name with
  | some number => exact hR.pure number s hs
  | none =>
    have hnew : ¬Listed name s := by
      rw [Listed, hnumber]
      simp
    by_cases hnull : name = nullScript
    · simp only [if_pos hnull]
      exact listScript_alike hR name 0 s hs
    · simp only [if_neg hnull]
      refine AlikeAt.bind hR.trans (hR.refl s) fun _ _ hget => ?_
      obtain ⟨rfl, rfl⟩ := yields_get.1 hget
      refine AlikeAt.bind hR.trans (hR.orReject _ _ s hs).2 fun script _ hscript => ?_
      obtain ⟨hfind, rfl⟩ := yields_orReject.1 hscript
      refine AlikeAt.bind hR.trans (hR.except _ s hs).2 fun actions _ hactions => ?_
      obtain ⟨-, rfl⟩ := yields_except.1 hactions
      exact hstart (Ordered.mem_keys hfind) hnew actions

/-- A compilation asks for other scripts only when its own is listed. -/
theorem compileActions_alike {input : Input} {compile compile' : String → Step MapState UInt16}
    {n : Nat} {stack : List String} {name : String} {s : MapState}
    (hmem : name ∈ input.definitions.scripts.keys) (hnew : ¬Listed name s)
    (hs : Within input (n + 1) stack s)
    (hcompile : ∀ other,
      Alike (Within input n (name :: stack)) Grows (compile other) (compile' other))
    (actions : Script) :
    AlikeAt Grows (compileActions input compile name actions)
      (compileActions input compile' name actions) s := by
  have hR := change_grows input (n + 1) stack
  have hR' := change_grows input n (name :: stack)
  refine AlikeAt.bind hR.trans (hR.except _ s hs).2 fun header _ hheader => ?_
  obtain ⟨-, rfl⟩ := yields_except.1 hheader
  refine AlikeAt.bind hR.trans (grows_onProject s _) fun global _ hreserve => ?_
  obtain ⟨project, -, rfl⟩ := yields_onProject.1 hreserve
  have hu : Within input (n + 1) stack ⟨s.map, project⟩ := hs
  refine AlikeAt.bind hR.trans (listScript_alike hR name global _ hu).2 fun number _ hlist => ?_
  obtain ⟨-, rfl⟩ := yields_listScript.1 hlist
  have hless := unlisted_listScript global number hmem (s := ⟨s.map, project⟩) hnew
  have hv : Within input n (name :: stack) ⟨s.map.listScript name global number, project⟩ := by
    refine ⟨Nat.le_of_lt_succ (Nat.lt_of_lt_of_le hless hu.1), fun other hother => ?_⟩
    rcases List.mem_cons.1 hother with rfl | hother
    · exact listed_listScript.2 (Or.inl rfl)
    · exact listed_listScript.2 (Or.inr (hu.2 other hother))
  refine (hR'.bind (hR'.mapM fun a _ => hR'.encodeAction stores_grow hcompile a)
    fun instructions => ?_) _ hv
  exact hR'.bind (Change.onProject grows_onProject _) fun _ => hR'.pure number

/-! ## Watching the scripts in progress -/

/-- The compilation of scripts, with the names of those in progress, the latest first. `watch` sees
    them each time a compilation starts. More than `depth` at a time would be handed to `beyond`. -/
def compileWatched (input : Input) (watch : List String → Step MapState Unit)
    (beyond : String → Script → Step MapState UInt16) :
    Nat → List String → String → Step MapState UInt16
  | 0, _ => scriptNumber input beyond
  | depth + 1, stack => scriptNumber input fun name actions => do
    watch (name :: stack)
    compileActions input (compileWatched input watch beyond depth (name :: stack)) name actions

/-- Different scripts, no more of them than the table has. -/
def Bounded (input : Input) (stack : List String) : Prop :=
  stack.Nodup ∧ stack.length ≤ input.definitions.scripts.size

instance (input : Input) (stack : List String) : Decidable (Bounded input stack) :=
  inferInstanceAs (Decidable (_ ∧ _))

/-- Object to scripts in progress that are not bounded by the table. -/
def objectTo (input : Input) (objection : List String → Step MapState Unit) (stack : List String) :
    Step MapState Unit :=
  if Bounded input stack then pure () else objection stack

theorem bounded_of_subset {input : Input} {stack : List String} (hnodup : stack.Nodup)
    (hsub : stack ⊆ input.definitions.scripts.keys) : Bounded input stack := by
  refine ⟨hnodup, ?_⟩
  have hlength := (List.subperm_of_subset hnodup hsub).length_le
  rwa [Ordered.keys, List.length_map] at hlength

/-- As long as no more scripts can be compiled than either side has room for, what lies beyond the
    room makes no difference, and no objection is raised. The induction is on the number of scripts
    that can still be compiled. -/
theorem compileWatched_alike (input : Input) (objection : List String → Step MapState Unit)
    (beyond beyond' : String → Script → Step MapState UInt16) (n depth depth' : Nat)
    (stack : List String) (hdepth : n ≤ depth) (hdepth' : n ≤ depth') (hnodup : stack.Nodup)
    (hsub : stack ⊆ input.definitions.scripts.keys) (name : String) :
    Alike (Within input n stack) Grows
      (compileWatched input (objectTo input objection) beyond depth stack name)
      (compileWithin input beyond' depth' name) := by
  induction n generalizing depth depth' stack name with
  | zero =>
    intro s hs
    -- no script is left that could be started, so nothing gets beyond the room
    have hnone : name ∈ input.definitions.scripts.keys → ¬Listed name s → False := by
      intro hmem hnew
      have hless := unlisted_listScript 0 0 hmem hnew
      have := hs.1
      omega
    cases depth <;> cases depth' <;>
      exact scriptNumber_alike fun hmem hnew => (hnone hmem hnew).elim
  | succ n ih =>
    obtain ⟨depth, rfl⟩ := Nat.exists_eq_add_of_le' hdepth
    obtain ⟨depth', rfl⟩ := Nat.exists_eq_add_of_le' hdepth'
    intro s hs
    refine scriptNumber_alike fun hmem hnew actions => ?_
    -- scripts in progress are listed, so a new one is not among them
    have hfresh : name ∉ stack := fun hin => hnew (hs.2 name hin)
    have hnodup' : (name :: stack).Nodup := List.nodup_cons.2 ⟨hfresh, hnodup⟩
    have hsub' : name :: stack ⊆ input.definitions.scripts.keys := List.cons_subset.2 ⟨hmem, hsub⟩
    have hwatch : objectTo input objection (name :: stack) = pure () :=
      if_pos (bounded_of_subset hnodup' hsub')
    rw [hwatch]
    exact compileActions_alike hmem hnew hs
      (ih (depth + n) (depth' + n) (name :: stack) (by omega) (by omega) hnodup' hsub') actions

/-- From a map on which no more than `n` scripts can be compiled, room for `n` is as good as any. -/
theorem compileWatched_alike_compileScript (input : Input)
    (objection : List String → Step MapState Unit)
    (beyond : String → Script → Step MapState UInt16) (s : MapState) (extra : Nat) (name : String) :
    Alike (Within input (unlisted input s) []) Grows
      (compileWatched input (objectTo input objection) beyond (unlisted input s + extra) [] name)
      (compileScript input name) :=
  compileWatched_alike input objection beyond _ _ _ _ [] (Nat.le_add_right _ _)
    (unlisted_le_size input s) List.nodup_nil (List.nil_subset _) name

/-- More room than there are scripts makes no difference. -/
theorem compileScript_eq_compileWithin (input : Input) (extra : Nat) :
    compileScript input = compileWithin input (fun _ _ => throw .overrun)
      (input.definitions.scripts.size + extra) := by
  have hwatched : ∀ extra, compileWatched input (objectTo input fun _ => pure ())
      (fun _ _ => throw .overrun) (input.definitions.scripts.size) [] =
        compileWithin input (fun _ _ => throw .overrun)
          (input.definitions.scripts.size + extra) := by
    intro extra
    funext name s
    exact (compileWatched_alike input _ _ _ input.definitions.scripts.size _ _ [] (Nat.le_refl _)
      (Nat.le_add_right _ _) List.nodup_nil (List.nil_subset _) name s
      ⟨unlisted_le_size input s, by simp⟩).1
  exact (hwatched 0).symm.trans (hwatched extra)

/-- The bound has no part in what a compilation does. -/
theorem compileScript_eq (input : Input) :
    compileScript input = scriptNumber input (compileActions input (compileScript input)) :=
  compileScript_eq_compileWithin input 1

/-- **The recursion of scripts and dialogs ends.** A compilation is defined by the recursion without
    a bound. From any state, the compilation of a script, an action, a dialog or a serial dialog
    starts further compilations only inside of at most as many as there are unlisted scripts: any
    bound from there on will do, whatever lies beyond it. Nor is there ever an objection to the
    scripts in progress, so they are different ones, no more than the table has. -/
theorem recursion_ends (input : Input) (objection : List String → Step MapState Unit)
    (beyond : String → Script → Step MapState UInt16) (s : MapState) (extra : Nat) :
    let compile := compileWatched input (objectTo input objection) beyond
      (unlisted input s + extra) []
    compileScript input = scriptNumber input (compileActions input (compileScript input)) ∧
      unlisted input s ≤ input.definitions.scripts.size ∧
      (∀ name, outcome (compile name) s = outcome (compileScript input name) s) ∧
      (∀ a, outcome (encodeAction input compile a) s =
        outcome (encodeAction input (compileScript input) a) s) ∧
      (∀ name context, outcome (buildDialog input compile name context) s =
        outcome (buildDialog input (compileScript input) name context) s) ∧
      ∀ name context, outcome (buildSerialDialog input compile name context) s =
        outcome (buildSerialDialog input (compileScript input) name context) s := by
  have hR := change_grows input (unlisted input s) []
  have hs : Within input (unlisted input s) [] s := ⟨Nat.le_refl _, by simp⟩
  have hcompile := compileWatched_alike_compileScript input objection beyond s extra
  refine ⟨compileScript_eq input, unlisted_le_size input s, ?_, ?_, ?_, ?_⟩
  · intro name
    exact (hcompile name s hs).1
  · intro a
    exact (hR.encodeAction stores_grow hcompile a s hs).1
  · intro name context
    exact (hR.buildDialog stores_grow hcompile name context s hs).1
  · intro name context
    exact (hR.buildSerialDialog stores_grow hcompile name context s hs).1

end GameBundle
