import GameBundle.Proofs.Build.Instructions
import GameBundle.Proofs.Build.Refusals

set_option autoImplicit false

/-! # Which actions are unknown

An action is unknown if its name is not in the table of instructions. While its operands are
resolved, scripts and dialogs are built whose actions may be unknown too, so the action that a build
complains about need not be the one that was to be encoded; but it never complains about an action
that is in the table. -/

namespace GameBundle

variable {input : Input}

/-- An action is said to be unknown although it is in the table. -/
def BuildError.BlamesInstruction : BuildError → Prop
  | .unknownAction name => name ∈ Opcode.all.map Opcode.name
  | _ => False

def Failure.BlamesInstruction : Failure → Prop
  | .error e => e.BlamesInstruction
  | .overrun => False

theorem Failure.blamesInstruction_sparesRecords : SparesRecords Failure.BlamesInstruction :=
  ⟨id, fun _ _ _ => id⟩

/-! ## Arguments -/

namespace Action

variable (a : Action) (property : String)

theorem text_avoids : Avoids BuildError.BlamesInstruction (a.text property) := by
  unfold text
  split
  · exact .ok _
  · exact .error id

theorem nonEmptyText_avoids : Avoids BuildError.BlamesInstruction (a.nonEmptyText property) := by
  refine .bind (a.text_avoids property) fun text => ?_
  split
  · exact .error id
  · exact .ok _

theorem value_avoids : Avoids BuildError.BlamesInstruction (a.value property) := by
  unfold value
  split
  · exact .ok _
  · exact .error id

theorem key_avoids (keys : Keys) : Avoids BuildError.BlamesInstruction (a.key property keys) := by
  refine .bind (a.value_avoids property) fun value => ?_
  split
  · exact .ok _
  · exact .error id

theorem number_avoids : Avoids BuildError.BlamesInstruction (a.number property) := by
  unfold number
  split
  · split
    · dsimp only
      split
      · exact .error id
      · exact .ok _
    · exact .error id
  · exact .error id

theorem bounded_avoids (limit : Nat) :
    Avoids BuildError.BlamesInstruction (a.bounded property limit) := by
  refine .bind (a.number_avoids property) fun value => ?_
  split
  · exact .error id
  · exact .ok _

theorem turn_avoids : Avoids BuildError.BlamesInstruction (a.turn property) := by
  refine .bind (a.value_avoids property) fun value => ?_
  dsimp only
  split
  · split
    · exact .ok _
    · exact .error id
  · exact .error id

theorem color_avoids : Avoids BuildError.BlamesInstruction (a.color property) := by
  refine .bind (a.text_avoids property) fun text => ?_
  split
  · exact .ok _
  · exact .error id

theorem bool_avoids : Avoids BuildError.BlamesInstruction (a.bool property) := by
  unfold bool
  split
  · exact .ok _
  · exact .error id

end Action

/-! ## Names -/

theorem MapContext.number_avoids (map : MapContext) (kind name context : String)
    (p : ObjectSlot → Bool) :
    Avoids BuildError.BlamesInstruction (map.number kind name context p) := by
  unfold MapContext.number
  split
  · exact .ok _
  · exact .error id

theorem numberOf_avoids (numbers : Ordered UInt16) (context kind name : String) :
    Avoids BuildError.BlamesInstruction (numberOf numbers context kind name) := by
  unfold numberOf
  split
  · exact .ok _
  · exact .error id

theorem MapContext.nextScript_avoids (map : MapContext) :
    Avoids BuildError.BlamesInstruction map.nextScript := by
  unfold MapContext.nextScript
  split
  · exact .ok _
  · exact .error id

/-! ## Texts -/

theorem objectToken_avoids (map : Option MapContext) (text name : String) :
    Avoids BuildError.BlamesInstruction (objectToken map text name) := by
  unfold objectToken
  split
  · exact .ok _
  · dsimp only
    split
    · exact MapContext.number_avoids _ _ _ _ _
    · exact .error id

theorem variableToken_avoids (numbers : Ordered UInt16) (text name : String) :
    Avoids BuildError.BlamesInstruction (variableToken numbers text name) := by
  unfold variableToken
  split
  · exact .ok _
  · exact .error id

theorem replaceTokens_avoids {P : BuildError → Prop} {mark : Char}
    {value : String → Except BuildError String} (hvalue : ∀ name, Avoids P (value name))
    (text : String) : Avoids P (Text.replaceTokens mark value text) := by
  refine .bind (.mapM ?_ _) fun parts => .ok _
  rintro (c | name)
  · exact .ok _
  · dsimp only
    rw [map_eq_pure_bind]
    exact .bind (hvalue _) fun _ => .ok _

theorem templatize_avoids (map : Option MapContext) (numbers : Ordered UInt16) (text : String) :
    Avoids BuildError.BlamesInstruction (templatize map numbers text) := by
  refine .bind (replaceTokens_avoids (fun name => ?_) _) fun withObjects =>
    replaceTokens_avoids (fun name => ?_) _
  · exact .bind (objectToken_avoids _ _ _) fun _ => .ok _
  · exact .bind (variableToken_avoids _ _ _) fun _ => .ok _

theorem intern_neverFails (pool : Pool) (map : Option MapContext) (text : String) :
    NeverFails Failure.BlamesInstruction (intern pool map text) := by
  apply NeverFails.get_bind
  intro project
  apply NeverFails.bind (.except (.lift (templatize_avoids _ _ _)))
  intro value
  cases (project.pools.get pool).find? value with
  | some index => exact .pure index
  | none =>
    apply NeverFails.rejectIf id
    apply NeverFails.bind (.onTables (Failure.blamesInstruction_sparesRecords.push _ _ _))
    intro index
    exact .modify_bind (.pure index)

theorem internOnMap_neverFails (pool : Pool) (text : String) :
    NeverFails Failure.BlamesInstruction (internOnMap pool text) :=
  .get_bind fun _ => .onProject (intern_neverFails _ _ _)

/-! ## Screens -/

theorem byteOf_avoids (context : String) (value : Nat) :
    Avoids BuildError.BlamesInstruction (byteOf context value) := by
  unfold byteOf
  split
  · exact .ok _
  · exact .error id

theorem wordCode_avoids (keys : Keys) (word : Option String) (context property : String) :
    Avoids BuildError.BlamesInstruction (wordCode keys word context property) := by
  unfold wordCode
  split
  · exact .ok _
  · split
    · exact .ok _
    · exact .error id

namespace Screen

variable (screen : Screen) (context : String)

theorem entityByte_avoids (map : MapContext) :
    Avoids BuildError.BlamesInstruction (screen.entityByte map context) := by
  unfold entityByte
  split
  · exact .bind (MapContext.number_avoids _ _ _ _ _) fun _ => byteOf_avoids _ _
  · exact .ok _

theorem portraitByte_avoids (portraits : Ordered UInt16) :
    Avoids BuildError.BlamesInstruction (screen.portraitByte portraits context) := by
  unfold portraitByte
  split
  · split
    · exact byteOf_avoids _ _
    · exact .error id
  · exact .ok _

theorem border_avoids (skins : Ordered UInt16) :
    Avoids BuildError.BlamesInstruction (screen.border skins context) := by
  unfold border
  dsimp only
  split
  · exact .ok _
  · exact .error id

theorem fixedFields_avoids (map : MapContext) (project : Project) :
    Avoids BuildError.BlamesInstruction (screen.fixedFields map project context) := by
  refine .bind (screen.entityByte_avoids context map) fun entity => ?_
  refine .bind (screen.portraitByte_avoids context _) fun portrait => ?_
  refine .bind (screen.border_avoids context _) fun border => ?_
  refine .bind (wordCode_avoids _ _ _ _) fun alignment => ?_
  refine .bind (wordCode_avoids _ _ _ _) fun responseType => ?_
  refine .bind (byteOf_avoids _ _) fun messages => ?_
  exact .bind (byteOf_avoids _ _) fun responses => .ok _

end Screen

/-! ## Dialogs -/

section Compile

variable {compile : String → Step MapState UInt16}
  (hcompile : ∀ name, NeverFails Failure.BlamesInstruction (compile name))
include hcompile

theorem buildResponse_neverFails (r : Response) :
    NeverFails Failure.BlamesInstruction (buildResponse compile r) :=
  .bind (internOnMap_neverFails _ _) fun _ => .bind (hcompile _) fun _ => .pure _

theorem buildScreen_neverFails (screen : Screen) (context : String) :
    NeverFails Failure.BlamesInstruction (buildScreen compile screen context) := by
  apply NeverFails.get_bind
  intro s
  apply NeverFails.bind (.except (.lift (screen.fixedFields_avoids context _ _)))
  intro fixed
  apply NeverFails.bind (internOnMap_neverFails _ _)
  intro title
  apply NeverFails.bind (.mapM fun text _ => internOnMap_neverFails _ _)
  intro messages
  apply NeverFails.bind (.mapM fun r _ => buildResponse_neverFails hcompile r)
  intro responses
  exact .except (Failure.blamesInstruction_sparesRecords.encode _ _)

omit hcompile in
theorem addOnce_neverFails (kind : Kind) (find? : Project → Option UInt16) (record : String)
    (bytes : Bytes) (remember : UInt16 → Project → Project) :
    NeverFails Failure.BlamesInstruction (addOnce kind find? record bytes remember) := by
  apply NeverFails.get_bind
  intro project
  cases find? project with
  | some index => exact .pure index
  | none =>
    apply NeverFails.bind (.onTables (Failure.blamesInstruction_sparesRecords.push _ _ _))
    intro index
    exact .modify_bind (.pure index)

theorem buildDialog_neverFails (name context : String) :
    NeverFails Failure.BlamesInstruction (buildDialog input compile name context) := by
  apply NeverFails.get_bind
  intro s
  apply NeverFails.get_bind
  intro s'
  cases s'.project.dialogs.find? (dialogKey s.map.name name) with
  | some index => exact .pure index
  | none =>
    apply NeverFails.bind (.orReject fun _ => id)
    intro screens
    apply NeverFails.rejectIf id
    cases screens.findIdx? fun s => s.messages.isEmpty with
    | some screen => exact .rejected id _
    | none =>
      apply NeverFails.bind (.except (Failure.blamesInstruction_sparesRecords.encode _ _))
      intro header
      apply NeverFails.bind (.mapM fun q _ => buildScreen_neverFails hcompile q.1 _)
      intro bodies
      exact .onProject (addOnce_neverFails _ _ _ _ _)

theorem buildSerialDialog_neverFails (name context : String) :
    NeverFails Failure.BlamesInstruction (buildSerialDialog input compile name context) := by
  apply NeverFails.get_bind
  intro s
  cases s.project.serialDialogs.find? name with
  | some index => exact .pure index
  | none =>
    apply NeverFails.bind (.orReject fun _ => id)
    intro dialog
    apply NeverFails.rejectIf id
    apply NeverFails.rejectIf id
    apply NeverFails.rejectIf id
    apply NeverFails.bind (internOnMap_neverFails _ _)
    intro message
    apply NeverFails.bind (.mapM fun r _ => buildResponse_neverFails hcompile r)
    intro responses
    apply NeverFails.bind (.except (Failure.blamesInstruction_sparesRecords.encode _ _))
    intro bytes
    exact .onProject (addOnce_neverFails _ _ _ _ _)

/-! ## Actions -/

theorem resolve_neverFails (a : Action) (operand : Operand) :
    NeverFails Failure.BlamesInstruction (resolve input compile a operand) := by
  have hname : NeverFails Failure.BlamesInstruction
      (liftM (liftM (a.nonEmptyText operand.property) : Except Failure String) :
        Step MapState String) := .except (.lift (a.nonEmptyText_avoids _))
  have htext : NeverFails Failure.BlamesInstruction
      (liftM (liftM (a.text operand.property) : Except Failure String) : Step MapState String) :=
    .except (.lift (a.text_avoids _))
  unfold resolve
  cases operand.kind with
  | entity | geometry =>
    apply NeverFails.bind hname
    intro name
    apply NeverFails.get_bind
    intro s
    exact .bind (.except (.lift (MapContext.number_avoids _ _ _ _ _))) fun number => .pure _
  | map =>
    apply NeverFails.bind hname
    intro name
    apply NeverFails.get_bind
    intro s
    exact .bind (.except (.lift (numberOf_avoids _ _ _ _))) fun number => .pure _
  | entityType =>
    apply NeverFails.bind hname
    intro name
    apply NeverFails.get_bind
    intro s
    cases s.project.entityTypes.find? name with
    | some type => exact .pure _
    | none => exact .reject id
  | script => exact .bind hname fun name => .bind (hcompile name) fun number => .pure _
  | text pool =>
    exact .bind htext fun text => .bind (internOnMap_neverFails _ _) fun number => .pure _
  | dialog =>
    exact .bind htext fun name => .bind (buildDialog_neverFails hcompile _ _) fun number => .pure _
  | serialDialog =>
    exact .bind htext fun name =>
      .bind (buildSerialDialog_neverFails hcompile _ _) fun number => .pure _
  | key keys => exact .except (.lift (a.key_avoids _ keys))
  | turn => exact .except (.lift (a.turn_avoids _))
  | color => exact .except (.lift (a.color_avoids _))
  | number | byte | twoBytes => exact .except (.lift (a.bounded_avoids _ _))
  | bool => exact .except (.lift (a.bool_avoids _))
  | unsupported => exact .reject id

theorem encodeAction_neverFails (a : Action) :
    NeverFails Failure.BlamesInstruction (encodeAction input compile a) := by
  apply NeverFails.bind (.orReject Opcode.find?_eq_none.1)
  rintro ⟨number, opcode⟩
  apply NeverFails.bind (.except (Failure.blamesInstruction_sparesRecords.write _ _))
  intro w
  apply NeverFails.bind
  · apply NeverFails.foldlM
    intro w operand _
    apply NeverFails.bind (resolve_neverFails hcompile a operand)
    intro value
    exact .except (Failure.blamesInstruction_sparesRecords.write _ _)
  · exact fun w => .pure _

/-! ## Scripts -/

omit hcompile in
theorem listScript_neverFails (name : String) (global : UInt16) :
    NeverFails Failure.BlamesInstruction (listScript name global) := by
  apply NeverFails.get_bind
  intro s
  apply NeverFails.bind (.except (.lift (MapContext.nextScript_avoids _)))
  intro number
  exact .changeMap_bind (.pure number)

theorem compileActions_neverFails (name : String) (actions : Script) :
    NeverFails Failure.BlamesInstruction (compileActions input compile name actions) := by
  apply NeverFails.bind (.except (Failure.blamesInstruction_sparesRecords.encode _ _))
  intro header
  apply NeverFails.bind
    (.onProject (.onTables (Failure.blamesInstruction_sparesRecords.reserve _ _)))
  intro global
  apply NeverFails.bind (listScript_neverFails _ _)
  intro number
  apply NeverFails.bind (.mapM fun a _ => encodeAction_neverFails hcompile a)
  intro instructions
  apply NeverFails.bind
  · refine .onProject (.onTables (.get_bind fun tables => ?_))
    split
    · exact fun _ _ _ h => (fails_modify.1 h).elim
    · exact .reject id
  · exact fun _ => .pure number

end Compile

theorem expandAction_avoids (scripts : Ordered Script) (name : String) (a : Action) :
    Avoids BuildError.BlamesInstruction (expandAction scripts name a) := by
  unfold expandAction
  split
  · exact .ok _
  · split
    · exact .error id
    · exact .error id
    · split
      · exact .ok _
      · split
        · exact .ok _
        · exact .error id

theorem expandRounds_avoids (scripts : Ordered Script) (name : String) (rounds : Nat)
    (script : Script) :
    Avoids BuildError.BlamesInstruction (expandRounds scripts name rounds script) := by
  induction rounds generalizing script with
  | zero => exact .ok _
  | succ rounds ih =>
    rw [expandRounds]
    split
    · refine .bind (.bind (.mapM (expandAction_avoids scripts name) _) fun _ => .ok _) ih
    · exact .ok _

theorem expandCopies_avoids (scripts : Ordered Script) (name : String) (script : Script) :
    Avoids BuildError.BlamesInstruction (expandCopies scripts name script) := by
  refine .bind (expandRounds_avoids _ _ _ _) fun expanded => ?_
  cases expanded with
  | some expanded => exact .ok _
  | none => exact .error id

theorem scriptNumber_neverFails {start : String → Script → Step MapState UInt16}
    (hstart : ∀ name actions, NeverFails Failure.BlamesInstruction (start name actions))
    (name : String) : NeverFails Failure.BlamesInstruction (scriptNumber input start name) := by
  apply NeverFails.get_bind
  intro s
  cases s.map.scriptNumber? name with
  | some number => exact .pure number
  | none =>
    dsimp only
    split
    · exact listScript_neverFails _ _
    · apply NeverFails.get_bind
      intro s'
      apply NeverFails.bind (.orReject fun _ => id)
      intro script
      exact .bind (.except (.lift (expandCopies_avoids _ _ _))) fun actions => hstart name actions

/-- The induction is on how many compilations may be in progress. -/
theorem compileScript_neverFails (name : String) :
    NeverFails Failure.BlamesInstruction (compileScript input name) := by
  have hwithin : ∀ depth name, NeverFails Failure.BlamesInstruction
      (compileWithin input (fun _ _ => throw .overrun) depth name) := by
    intro depth
    induction depth with
    | zero => exact fun name => scriptNumber_neverFails (fun _ _ => .throw id) name
    | succ depth ih => exact fun name => scriptNumber_neverFails (compileActions_neverFails ih) name
  exact hwithin _ name

/-! ## Actions and their instructions -/

/-- **What becomes of an action.** Its instruction is its number, the numbers of its operands in
    their slots, and zeros. If it has none, then because it is not in the table or because of an
    operand, for whose slot there is always room. It is said to be unknown exactly if it is not in
    the table, and the same holds of whatever else is said to be unknown. -/
theorem actions_laid_out (input : Input) (a : Action) (s : MapState) :
    (∀ bytes t, Yields (encodeAction input (compileScript input) a) s bytes t →
      ∃ (number : UInt8) (opcode : Opcode) (values : List Nat),
        Opcode.all[number.toNat]? = some opcode ∧ opcode.name = a.name ∧
        Yields (opcode.operands.mapM (resolve input (compileScript input) a)) s values t ∧
        List.Forall₂ Operand.Admits opcode.operands values ∧
        opcode.LaidOut number values bytes) ∧
    (∀ f t, Fails (encodeAction input (compileScript input) a) s f t ↔
      (a.name ∉ Opcode.all.map Opcode.name ∧ f = .error (.unknownAction a.name) ∧ s = t) ∨
      ∃ opcode ∈ Opcode.all, opcode.name = a.name ∧
        OperandRefused input (compileScript input) a opcode.operands s f t) ∧
    ((∃ t, Fails (encodeAction input (compileScript input) a) s
      (.error (.unknownAction a.name)) t) ↔ a.name ∉ Opcode.all.map Opcode.name) ∧
    (∀ name t, Fails (encodeAction input (compileScript input) a) s
      (.error (.unknownAction name)) t → name ∉ Opcode.all.map Opcode.name) ∧
    copyScript ∉ Opcode.all.map Opcode.name := by
  have hblameless : ∀ name t, Fails (encodeAction input (compileScript input) a) s
      (.error (.unknownAction name)) t → name ∉ Opcode.all.map Opcode.name :=
    fun _ _ h => (encodeAction_neverFails compileScript_neverFails a).spares h
  refine ⟨fun bytes t h => ?_, fun f t => ?_, ?_, hblameless, by decide +kernel⟩
  · obtain ⟨number, opcode, values, hfind, hvalues, hall, rfl⟩ := yields_encodeAction.1 h
    obtain ⟨hplace, hname⟩ := Opcode.find?_eq_some.1 hfind
    exact ⟨number, opcode, values, hplace, hname, hvalues, hall,
      Action.instruction_laidOut hfind hall⟩
  · rw [fails_encodeAction, Opcode.find?_eq_none]
    refine or_congr_right ⟨?_, ?_⟩
    · rintro ⟨number, opcode, hfind, hrefused⟩
      exact ⟨opcode, Opcode.mem_all_of_find? hfind, (Opcode.find?_eq_some.1 hfind).2, hrefused⟩
    · rintro ⟨opcode, hmem, hname, hrefused⟩
      obtain ⟨number, hfind⟩ := Opcode.exists_find? hmem
      exact ⟨number, opcode, hname ▸ hfind, hrefused⟩
  · constructor
    · rintro ⟨t, h⟩
      exact hblameless a.name t h
    · intro hunknown
      exact ⟨s, fails_encodeAction.2 (.inl ⟨Opcode.find?_eq_none.2 hunknown, rfl, rfl⟩)⟩

/-- A project with a script that names an action there is not. -/
def misspelt : Input where
  source := {
    read := fun name => .error (.missingFile name)
    contains := fun _ => false
    image := fun name => .error (.missingFile name) }
  definitions := { scripts := .ofList [("s", [⟨"BOGUS", ∅⟩])] }

def town : MapState where
  map := { name := "town", index := 0 }
  project := {}

/-- Two operands, and one of them written as a reserved word. -/
def glitch (entity : String) : Action :=
  ⟨"SET_ENTITY_GLITCHED", .ofList [("entity", .string entity), ("bool_value", .bool true)]⟩

/-- `%SELF%` fits the slot of an entity, and `%ENTITY_PATH%` does not. -/
theorem glitch_laid_out :
    (∃ t, Yields (encodeAction misspelt (compileScript misspelt) (glitch "%SELF%")) town
        #[45, 254, 1, 0, 0, 0, 0, 0] t ∧
      ∃ opcode values, Opcode.all[45]? = some opcode ∧
        Yields (opcode.operands.mapM (resolve misspelt (compileScript misspelt) (glitch "%SELF%")))
          town values t ∧
        opcode.LaidOut 45 values #[45, 254, 1, 0, 0, 0, 0, 0]) ∧
    (∃ t, Fails (encodeAction misspelt (compileScript misspelt) (glitch "%ENTITY_PATH%")) town
        ((glitch "%ENTITY_PATH%").overflow .entity 65535) t ∧
      ∃ opcode ∈ Opcode.all, OperandRefused misspelt (compileScript misspelt) (glitch "%ENTITY_PATH%") opcode.operands town
        ((glitch "%ENTITY_PATH%").overflow .entity 65535) t) := by
  have hfits : (outcome (encodeAction misspelt (compileScript misspelt) (glitch "%SELF%")) town).1 =
      .ok #[45, 254, 1, 0, 0, 0, 0, 0] := by decide +kernel
  have hlarge : (outcome (encodeAction misspelt (compileScript misspelt) (glitch "%ENTITY_PATH%"))
      town).1 = .error ((glitch "%ENTITY_PATH%").overflow .entity 65535) := by decide +kernel
  obtain ⟨hsound, -⟩ := actions_laid_out misspelt (glitch "%SELF%") town
  obtain ⟨-, hrefused, -⟩ := actions_laid_out misspelt (glitch "%ENTITY_PATH%") town
  refine ⟨⟨_, yields_outcome hfits, ?_⟩, _, fails_outcome hlarge, ?_⟩
  · obtain ⟨number, opcode, values, hplace, -, hvalues, -, hlaid⟩ :=
      hsound _ _ (yields_outcome hfits)
    obtain rfl : 45 = number := Option.some.inj hlaid.number
    exact ⟨opcode, values, hplace, hvalues, hlaid⟩
  · obtain ⟨-, hunknown, -⟩ | ⟨opcode, hmem, -, hoperand⟩ :=
      (hrefused _ _).1 (fails_outcome hlarge)
    · cases hunknown
    · exact ⟨opcode, hmem, hoperand⟩

/-- **The unknown action can be another one**: running a script compiles it. -/
theorem run_script_blames_another :
    "RUN_SCRIPT" ∈ Opcode.all.map Opcode.name ∧
    ∃ t, Fails (encodeAction misspelt (compileScript misspelt)
      ⟨"RUN_SCRIPT", .ofList [("script", .string "s")]⟩) town (.error (.unknownAction "BOGUS")) t := by
  have hfails : ((outcome (encodeAction misspelt (compileScript misspelt)
      ⟨"RUN_SCRIPT", .ofList [("script", .string "s")]⟩) town).1.map fun _ => ()) =
        .error (.error (.unknownAction "BOGUS")) := by decide +kernel
  exact ⟨by decide +kernel, _, fails_outcome (eq_error_of_map hfails)⟩

end GameBundle
