import GameBundle.Proofs.Build.SharedSideBySide
import GameBundle.Proofs.Build.Termination
import GameBundle.Proofs.Script.Copies

set_option autoImplicit false

/-! # Scripts side by side

Two builds of the same project are compared that differ in their maps and in their tables of
scripts. A script that both know is expanded to the same actions and compiled to the same record.
The induction is on the room for further compilations, of which both sides are given the same: more
than one needs. -/

namespace GameBundle

variable {input : Input} {maps : Ordered MapSettings} {scripts : Ordered Script} {c : Comparison}

/-- The same project with other maps and other scripts. -/
def Input.replace (input : Input) (maps : Ordered MapSettings) (scripts : Ordered Script) : Input :=
  { input with definitions := { input.definitions with maps, scripts } }

namespace Comparison

/-- Another table has the scripts that both builds know, and they copy the same. -/
structure Knows (c : Comparison) (scripts scripts' : Ordered Script) : Prop where
  null : c.Common nullScript
  find? : ∀ name, c.Common name → scripts'.find? name = scripts.find? name
  copies : ∀ name script, c.Common name → scripts.find? name = some script →
    expandCopies scripts' name script = expandCopies scripts name script
  names : ∀ name script actions, c.Common name → scripts.find? name = some script →
    expandCopies scripts name script = .ok actions → ∀ a ∈ actions, a.NamesOnly c.Common

end Comparison

/-! ## Dialogs -/

theorem internOnMap_together (pool : Pool) (text : String) :
    Together c c.States Any (internOnMap pool text) (internOnMap pool text) :=
  .get_bind_map fun _ _ _ _ _ => .onProject (.text pool _ text)

variable {compile compile' : String → Step MapState UInt16}

theorem buildResponse_together
    (hcompile : ∀ name, c.Common name → Together c c.States Any (compile name) (compile' name))
    {r : Response} (hr : c.Common r.script) :
    Together c c.States Any (buildResponse compile r) (buildResponse compile' r) :=
  .bind (internOnMap_together _ _) fun _ _ => .bind (hcompile _ hr) fun _ _ => .pure trivial

theorem buildScreen_together
    (hcompile : ∀ name, c.Common name → Together c c.States Any (compile name) (compile' name))
    {s : Screen} (hs : ∀ r ∈ s.options, c.Common r.script) (context : String) :
    Together c c.States Any (buildScreen compile s context) (buildScreen compile' s context) := by
  refine .get_bind_map fun map p tables maps _ => ?_
  refine .bind (.except fun _ _ => trivial) fun fixed _ => ?_
  refine .bind (internOnMap_together _ _) fun title _ => ?_
  refine .bind (.mapM fun _ _ => internOnMap_together _ _) fun messages _ => ?_
  refine .bind (.mapM fun r hr => buildResponse_together hcompile (hs r hr)) fun responses _ => ?_
  exact .except fun _ _ => trivial

theorem addOnce_together {kind : Kind} (hkind : kind ≠ .maps) {find? : Project → Option UInt16}
    (hfind : ∀ p tables maps, find? { p with tables, maps } = find? p)
    {remember : UInt16 → Project → Project}
    (hremember : ∀ index p p', c.Projects p p' → c.Projects (remember index p) (remember index p'))
    (record : String) (bytes : Bytes) :
    Together c c.Projects Any (addOnce kind find? record bytes remember)
      (addOnce kind find? record bytes remember) := by
  refine .get_bind fun p tables maps _ => ?_
  rw [hfind p tables maps]
  cases find? p with
  | some index => exact .pure trivial
  | none =>
    refine .bind (.push hkind _ _) fun index _ => ?_
    exact .bind (.remember (hremember index)) fun _ _ => .pure trivial

theorem buildDialog_together (hfits : c.Fits input)
    (hcompile : ∀ name, c.Common name → Together c c.States Any (compile name) (compile' name))
    (name context : String) :
    Together c c.States Any (buildDialog input compile name context)
      (buildDialog (input.replace maps scripts) compile' name context) := by
  refine .get_bind_map fun map _ _ _ _ => .get_bind_map fun _ p tables maps' _ => ?_
  cases p.dialogs.find? (dialogKey map.name name) with
  | some index => exact .pure trivial
  | none =>
    refine .bind (.orReject _ (hfits.dialogs name)) fun screens hscreens => ?_
    refine .rejectIf _ ?_
    cases screens.findIdx? fun s => s.messages.isEmpty with
    | some screen => exact .rejected _ _ _
    | none =>
      refine .bind (.except fun _ _ => trivial) fun header _ => ?_
      refine .bind (.mapM (Q := Any) fun screen hmem => ?_) fun bodies _ => ?_
      · exact buildScreen_together hcompile (hscreens _ (List.fst_mem_of_mem_zipIdx hmem)) _
      · refine .onProject (addOnce_together (by decide) (fun _ _ _ => rfl) ?_ _ _)
        exact fun index q q' hq =>
          ⟨hq.records, hq.maps, hq.same, by rw [hq.rest], hq.tiles, hq.types⟩

theorem buildSerialDialog_together (hfits : c.Fits input)
    (hcompile : ∀ name, c.Common name → Together c c.States Any (compile name) (compile' name))
    (name context : String) :
    Together c c.States Any (buildSerialDialog input compile name context)
      (buildSerialDialog (input.replace maps scripts) compile' name context) := by
  refine .get_bind_map fun map p tables maps' _ => ?_
  cases p.serialDialogs.find? name with
  | some index => exact .pure trivial
  | none =>
    refine .bind (.orReject _ (hfits.serialDialogs name)) fun dialog hdialog => ?_
    refine .rejectIf _ (.rejectIf _ (.rejectIf _ ?_))
    refine .bind (internOnMap_together _ _) fun message _ => ?_
    refine .bind (.mapM fun r hr => buildResponse_together hcompile (hdialog r hr)) fun _ _ => ?_
    refine .bind (.except fun _ _ => trivial) fun bytes _ => ?_
    refine .onProject (addOnce_together (by decide) (fun _ _ _ => rfl) ?_ _ _)
    exact fun index q q' hq =>
      ⟨hq.records, hq.maps, hq.same, by rw [hq.rest], hq.tiles, hq.types⟩

/-! ## Actions -/

theorem Action.text_eq_ok {a : Action} {property text : String} (h : a.text property = .ok text) :
    a.args.find? property = some (.string text) := by
  unfold Action.text at h
  split at h
  · next hfound =>
    cases h
    obtain ⟨value, hvalue, htext⟩ := Option.bind_eq_some_iff.1 hfound
    rwa [Json.asString?_eq_some.1 htext] at hvalue
  · cases h

theorem Action.nonEmptyText_eq_ok {a : Action} {property text : String}
    (h : a.nonEmptyText property = .ok text) : a.args.find? property = some (.string text) := by
  obtain ⟨found, hfound, hrest⟩ := bind_eq_ok.1 h
  split at hrest
  · cases hrest
  · cases pure_eq_ok.1 hrest
    exact Action.text_eq_ok hfound

/-- A map that the first build knows has the same number in the second. -/
theorem numberOf_together {σ : Type} {R : σ → σ → Prop} {numbers numbers' : Ordered UInt16}
    (hstays : numbers.StaysIn numbers') (hsame : c.extra = [] → numbers' = numbers)
    (context kind name : String) :
    Together c R Any (liftM (numberOf numbers context kind name) : Step σ UInt16)
      (liftM (numberOf numbers' context kind name)) := by
  refine .grown (.except fun _ _ => trivial) ?_ fun hextra => by rw [hsame hextra]
  unfold numberOf
  cases hfind : numbers.find? name with
  | some index =>
    rw [hstays name index hfind]
    exact Or.inr rfl
  | none => exact Or.inl ⟨_, rfl⟩

theorem resolve_together (hfits : c.Fits input)
    (hcompile : ∀ name, c.Common name → Together c c.States Any (compile name) (compile' name))
    {a : Action} (ha : a.NamesOnly c.Common) (operand : Operand) :
    Together c c.States Any (resolve input compile a operand)
      (resolve (input.replace maps scripts) compile' a operand) := by
  unfold resolve
  cases operand.kind
  case entity =>
    refine .bind (.except fun _ _ => trivial) fun name _ => .get_bind_map fun map p _ _ _ => ?_
    exact .bind (.except fun _ _ => trivial) fun _ _ => .pure trivial
  case geometry =>
    refine .bind (.except fun _ _ => trivial) fun name _ => .get_bind_map fun map p _ _ _ => ?_
    exact .bind (.except fun _ _ => trivial) fun _ _ => .pure trivial
  case map =>
    refine .bind (.except fun _ _ => trivial) fun name _ => .get_bind_map fun map p _ maps' hp => ?_
    exact .bind (numberOf_together hp.maps hp.same _ _ _) fun _ _ => .pure trivial
  case entityType =>
    refine .bind (.except fun _ _ => trivial) fun name _ => .get_bind_map fun map p _ _ _ => ?_
    cases p.entityTypes.find? name with
    | some type => exact .pure trivial
    | none => exact .reject _
  case script =>
    refine .bind (P := c.Common) (.except fun name h => ?_) fun name hname => ?_
    · exact ha _ _ (Action.nonEmptyText_eq_ok (liftM_eq_ok.1 h))
    · exact .bind (hcompile name hname) fun _ _ => .pure trivial
  case text pool =>
    refine .bind (.except fun _ _ => trivial) fun text _ => ?_
    exact .bind (internOnMap_together _ _) fun _ _ => .pure trivial
  case dialog =>
    refine .bind (.except fun _ _ => trivial) fun name _ => ?_
    exact .bind (buildDialog_together hfits hcompile _ _) fun _ _ => .pure trivial
  case serialDialog =>
    refine .bind (.except fun _ _ => trivial) fun name _ => ?_
    exact .bind (buildSerialDialog_together hfits hcompile _ _) fun _ _ => .pure trivial
  case unsupported => exact .reject _
  all_goals exact .except fun _ _ => trivial

theorem encodeAction_together (hfits : c.Fits input)
    (hcompile : ∀ name, c.Common name → Together c c.States Any (compile name) (compile' name))
    {a : Action} (ha : a.NamesOnly c.Common) :
    Together c c.States Any (encodeAction input compile a)
      (encodeAction (input.replace maps scripts) compile' a) := by
  refine .bind (.orReject _ fun _ _ => trivial) fun opcode _ => ?_
  refine .bind (.except fun _ _ => trivial) fun w _ => ?_
  refine .bind (.foldlM (Q := Any) (fun w _ operand _ => ?_) trivial) fun w _ => .pure trivial
  refine .bind (resolve_together hfits hcompile ha operand) fun value _ => ?_
  exact .except fun _ _ => trivial

/-! ## Scripts -/

theorem listScript_together (name : String) (global : UInt16) :
    Together c c.States Any (listScript name global) (listScript name global) := by
  refine .get_bind_map fun map p _ _ _ => .bind (.except fun _ _ => trivial) fun number _ => ?_
  exact .bind (.changeMap _) fun _ _ => .pure trivial

theorem scriptNumber_together {start start' : String → Script → Step MapState UInt16}
    (hknows : c.Knows input.definitions.scripts scripts) {name : String} (hname : c.Common name)
    (hstart : ∀ actions, (∀ a ∈ actions, a.NamesOnly c.Common) →
      Together c c.States Any (start name actions) (start' name actions)) :
    Together c c.States Any (scriptNumber input start name)
      (scriptNumber (input.replace maps scripts) start' name) := by
  refine .get_bind_map fun map p _ _ _ => ?_
  cases map.scriptNumber? name with
  | some number => exact .pure trivial
  | none =>
    by_cases hnull : name = nullScript
    · simp only [if_pos hnull]
      exact listScript_together name 0
    · simp only [if_neg hnull]
      refine .get_bind_map fun map p _ _ _ => ?_
      simp only [Input.replace, hknows.find? name hname]
      refine .bind (.orReject _ fun script h => h) fun script hscript => ?_
      rw [hknows.copies name script hname hscript]
      refine .bind (.except fun actions h => ?_) fun actions hactions => hstart actions hactions
      exact hknows.names name script actions hname hscript (liftM_eq_ok.1 h)

theorem compileActions_together (hfits : c.Fits input)
    (hcompile : ∀ name, c.Common name → Together c c.States Any (compile name) (compile' name))
    (name : String) {actions : Script} (hactions : ∀ a ∈ actions, a.NamesOnly c.Common) :
    Together c c.States Any (compileActions input compile name actions)
      (compileActions (input.replace maps scripts) compile' name actions) := by
  refine .bind (.except fun _ _ => trivial) fun header _ => ?_
  refine .bind (.onProject (.reserve (by decide) _)) fun global _ => ?_
  refine .bind (listScript_together _ _) fun number _ => ?_
  refine .bind (.mapM fun a ha => encodeAction_together hfits hcompile (hactions a ha))
    fun _ _ => ?_
  exact .bind (.onProject (.fill _ _ _)) fun _ _ => .pure trivial

theorem compileWithin_together (hfits : c.Fits input)
    (hknows : c.Knows input.definitions.scripts scripts) (depth : Nat) (name : String)
    (hname : c.Common name) :
    Together c c.States Any (compileWithin input (fun _ _ => throw .overrun) depth name)
      (compileWithin (input.replace maps scripts) (fun _ _ => throw .overrun) depth name) := by
  induction depth generalizing name with
  | zero => exact scriptNumber_together hknows hname fun _ _ => .throw _
  | succ depth ih =>
    exact scriptNumber_together hknows hname fun _ h => compileActions_together hfits ih name h

/-- A script that both builds know is compiled alike. -/
theorem compileScript_together (hfits : c.Fits input)
    (hknows : c.Knows input.definitions.scripts scripts) (name : String) (hname : c.Common name) :
    Together c c.States Any (compileScript input name)
      (compileScript (input.replace maps scripts) name) := by
  rw [compileScript_eq_compileWithin input scripts.size,
    compileScript_eq_compileWithin (input.replace maps scripts) input.definitions.scripts.size,
    Nat.add_comm input.definitions.scripts.size]
  exact compileWithin_together hfits hknows _ name hname

end GameBundle
