import GameBundle.Proofs.Build.Instructions
import GameBundle.Proofs.Build.Termination

set_option autoImplicit false

/-! # Compiling scripts, actions and dialogs

One lemma for each function says that it advances the state, and what its result stores. Whoever
compiles the scripts it names is only asked to advance the state as well and to return the number
that the script has then; `compileScript_spec` closes the circle by induction on the depth. -/

namespace GameBundle

variable {input : Input} {first : Nat} {s t : MapState}

/-! ## Texts -/

/-- A text is in its pool already, or a record is added. -/
theorem yields_intern {pool : Pool} {map : Option MapContext} {text : String} {p p' : Project}
    {index : UInt16} (h : Yields (intern pool map text) p index p') :
    p' = p ∨ ∃ value pools, p' = { p with
      tables := p.tables.add pool.kind ⟨value, some (encodeText value)⟩
      pools } := by
  simp only [intern, yields_bind, yields_get, yields_buildError] at h
  obtain ⟨_, _, ⟨rfl, rfl⟩, value, _, ⟨-, rfl⟩, h⟩ := h
  split at h
  · exact Or.inl (yields_pure.1 h).2.symm
  · split at h
    · simp at h
    · simp only [yields_bind, yields_onTables, Tables.yields_push, yields_modify, yields_pure] at h
      obtain ⟨_, _, ⟨_, ⟨-, -, rfl⟩, rfl⟩, _, _, rfl, -, rfl⟩ := h
      exact Or.inr ⟨value, _, rfl⟩

theorem internOnMap_spec {pool : Pool} {text : String} {index : UInt16} (hs : Numbered first s)
    (h : Yields (internOnMap pool text) s index t) : Advances input first [] s t := by
  simp only [internOnMap, yields_bind, yields_get, yields_onProject] at h
  obtain ⟨_, _, ⟨rfl, rfl⟩, p, hp, rfl⟩ := h
  have hkind : pool.kind ∈ compiledKinds ∧ pool.kind ≠ .scripts ∧ pool.kind ≠ .dialogs ∧
      pool.kind ≠ .serialDialogs := by cases pool <;> decide
  obtain ⟨hcompiled, hscripts, hdialogs, hserial⟩ := hkind
  rcases yields_intern hp with rfl | ⟨value, pools, rfl⟩
  · exact .refl hs
  · refine .of_project hs rfl (Tables.records_add_of_ne _ hscripts.symm)
      (.of_eq (Tables.records_add_of_ne _ hdialogs.symm))
      (.of_eq (Tables.records_add_of_ne _ hserial.symm)) fun kind hkind _ => ?_
    exact Tables.records_add_of_ne _ fun heq => hkind (heq ▸ hcompiled)

/-! ## Responses -/

/-- A way to compile scripts that advances the state and returns the number of the script. -/
def Compiles (input : Input) (first : Nat)
    (compile : String → Step MapState UInt16) : Prop :=
  ∀ name s number t, Numbered first s → Yields (compile name) s number t →
    Advances input first [] s t ∧ t.map.meaning name number

variable {compile : String → Step MapState UInt16}

/-- Traversals advance the state if each step does, and what is true of a result stays true. -/
theorem mapM_spec {α β : Type} {f : α → Step MapState β} (out : α → β → Meaning → Prop)
    {xs : List α} {ys : List β}
    (hout : ∀ a b m n, Keeps m n → out a b m → out a b n)
    (hstep : ∀ a ∈ xs, ∀ s b t, Numbered first s → Yields (f a) s b t →
      Advances input first [] s t ∧ out a b t.map.meaning)
    (hs : Numbered first s) (h : Yields (xs.mapM f) s ys t) :
    Advances input first [] s t ∧
      List.Forall₂ (fun a b => out a b t.map.meaning) xs ys :=
  yields_mapM (Numbered first) (Advances input first []) (fun a b s => out a b s.map.meaning)
    (fun _ => .refl) (fun _ _ _ => .trans) (fun _ _ h => h.numbered)
    (fun a b _ _ h => hout a b _ _ h.keeps) hstep hs h

/-- The fields of a response: the number of its text, and the number of its script. -/
def ResponseFields (r : Response) (fields : List Field) (means : Meaning) : Prop :=
  ∃ label number, fields = [.word label, .word number] ∧ means r.script number

theorem ResponseFields.mono {r : Response} {fields : List Field} {m n : Meaning}
    (hkeeps : Keeps m n) (h : ResponseFields r fields m) : ResponseFields r fields n := by
  obtain ⟨label, number, rfl, hnumber⟩ := h
  exact ⟨label, number, rfl, hkeeps _ _ hnumber⟩

theorem buildResponse_spec (hcompile : Compiles input first compile) {r : Response}
    {fields : List Field} (hs : Numbered first s)
    (h : Yields (buildResponse compile r) s fields t) :
    Advances input first [] s t ∧ ResponseFields r fields t.map.meaning := by
  simp only [buildResponse, yields_bind, yields_pure] at h
  obtain ⟨label, u, hlabel, number, t, hnumber, rfl, rfl⟩ := h
  have hsu : Advances input first [] s u := internOnMap_spec hs hlabel
  obtain ⟨hut, hfind⟩ := hcompile r.script u number t hsu.numbered hnumber
  exact ⟨hsu.trans hut, label, number, rfl, hfind⟩

theorem buildResponses_spec (hcompile : Compiles input first compile)
    {responses : List Response} {fields : List (List Field)} (hs : Numbered first s)
    (h : Yields (responses.mapM (buildResponse compile)) s fields t) :
    Advances input first [] s t ∧
      List.Forall₂ (fun r part => ResponseFields r part t.map.meaning) responses fields :=
  mapM_spec ResponseFields (fun _ _ _ _ => ResponseFields.mono)
    (fun _ _ _ _ _ hs => buildResponse_spec hcompile hs) hs h

theorem responsesAt_of_fields {means : Meaning} {bytes : Bytes} {start : Nat}
    {responses : List Response} {fields : List (List Field)}
    (hfields : List.Forall₂ (fun r part => ResponseFields r part means) responses fields)
    (h : bytes.HasFields start fields.flatten) : ResponsesAt means bytes start responses := by
  intro k r hk
  obtain ⟨part, hpart, label, number, rfl, hnumber⟩ := forall₂_getElem? hfields hk
  have hflip : List.Forall₂ (fun part r => ResponseFields r part means) fields responses :=
    hfields.flip
  have hwidths : ∀ part ∈ fields, widthOf part = 4 := by
    intro part hpart
    obtain ⟨j, hj⟩ := List.getElem?_of_mem hpart
    obtain ⟨_, -, _, _, rfl, -⟩ := forall₂_getElem? hflip hj
    rfl
  have hgroup := h.group 4 hwidths hpart
  exact ⟨number, hgroup.2.2.1.word?, hnumber⟩

/-! ## Screens and dialogs -/

theorem widthOf_fixedFields {screen : Screen} {map : MapContext} {project : Project}
    {context : String} {fields : List Field}
    (h : screen.fixedFields map project context = .ok fields) : widthOf fields = 10 := by
  simp only [Screen.fixedFields, bind_eq_ok, pure_eq_ok] at h
  obtain ⟨_, -, _, -, _, -, _, -, _, -, _, -, _, -, rfl⟩ := h
  rfl

/-- The fields before the messages are encoded first, then the texts and the responses. -/
theorem yields_buildScreen {screen : Screen} {context : String} {bytes : Bytes}
    (h : Yields (buildScreen compile screen context) s bytes t) :
    ∃ fixed title u messages v responses,
      screen.fixedFields s.map s.project context = .ok fixed ∧
      Yields (internOnMap .strings screen.title) s title u ∧
      Yields (screen.messages.mapM (internOnMap .strings)) u messages v ∧
      Yields (screen.options.mapM (buildResponse compile)) v responses t ∧
      Record.encode (12 + 2 * screen.messages.length + 4 * screen.options.length)
        ([.word title] ++ fixed ++ messages.map (fun id => .word id) ++ responses.flatten) =
          .ok bytes := by
  simp only [buildScreen, yields_bind, yields_get, yields_except, liftM_eq_ok] at h
  obtain ⟨_, _, ⟨rfl, rfl⟩, fixed, _, ⟨hfixed, rfl⟩, title, u, htitle, messages, v, hmessages,
    responses, w, hresponses, hencode, rfl⟩ := h
  exact ⟨fixed, title, u, messages, v, responses, hfixed, htitle, hmessages, hresponses, hencode⟩

theorem buildScreen_spec (hcompile : Compiles input first compile) {screen : Screen}
    {context : String} {bytes : Bytes} (hs : Numbered first s)
    (h : Yields (buildScreen compile screen context) s bytes t) :
    Advances input first [] s t ∧ bytes.size = screen.length ∧
      ResponsesAt t.map.meaning bytes (12 + 2 * screen.messages.length) screen.options := by
  obtain ⟨fixed, title, u, messages, v, responses, hfixed, htitle, hmessages, hresponses,
    hencode⟩ := yields_buildScreen h
  have hsu : Advances input first [] s u := internOnMap_spec hs htitle
  obtain ⟨huv, hlength⟩ := mapM_spec (fun _ _ _ => True) (fun _ _ _ _ _ h => h)
    (fun _ _ _ _ _ hs h => ⟨internOnMap_spec hs h, trivial⟩) hsu.numbered hmessages
  obtain ⟨hvw, hfields⟩ := buildResponses_spec hcompile huv.numbered hresponses
  refine ⟨(hsu.trans huv).trans hvw, Record.size_of_encode hencode,
    responsesAt_of_fields hfields ?_⟩
  have hlast := (Record.hasFields_of_encode hencode).right
  rwa [widthOf_append, widthOf_append, widthOf_fixedFields hfixed, widthOf_map 2
    (fun _ => rfl), ← hlength.length_eq, Nat.zero_add] at hlast

/-- Either the record is there already, or it is added and remembered. -/
theorem yields_addOnce {kind : Kind} {find? : Project → Option UInt16} {record : String}
    {bytes : Bytes} {remember : UInt16 → Project → Project} {p p' : Project} {index : UInt16}
    (h : Yields (addOnce kind find? record bytes remember) p index p') :
    p' = p ∨ p' = remember index { p with tables := p.tables.add kind ⟨record, some bytes⟩ } := by
  simp only [addOnce, yields_bind, yields_get] at h
  obtain ⟨_, _, ⟨rfl, rfl⟩, h⟩ := h
  split at h
  · exact Or.inl (yields_pure.1 h).2.symm
  · simp only [yields_bind, yields_onTables, Tables.yields_push, yields_modify, yields_pure] at h
    obtain ⟨_, _, ⟨_, ⟨-, -, rfl⟩, rfl⟩, _, _, rfl, rfl, rfl⟩ := h
    exact Or.inr rfl

/-- A dialog is as long as its header and its screens. -/
theorem size_concat_screens {P : Screen → Bytes → Prop} {header : Bytes} {screens : List Screen}
    {bodies : List Bytes} (hheader : header.size = 36)
    (hbodies : List.Forall₂ (fun screen body => body.size = screen.length ∧ P screen body) screens
      bodies) :
    (bodies.foldl (· ++ ·) header).size = screenOffset screens screens.length := by
  have hsizes : bodies.map Array.size = screens.map Screen.length :=
    map_eq_of_forall₂ (hbodies.imp fun _ _ h => h.1)
  rw [Bytes.size_concat, hheader, hsizes, screenOffset, List.take_length]

/-- Each screen of a dialog is where its offset says. -/
theorem hasAt_concat_screens {header : Bytes} {screens : List Screen} {bodies : List Bytes}
    (hheader : header.size = 36) (hsizes : bodies.map Array.size = screens.map Screen.length)
    {j : Nat} {body : Bytes} (hbody : bodies[j]? = some body) :
    Bytes.HasAt (bodies.foldl (· ++ ·) header) (screenOffset screens j) body.toList := by
  have hat := Bytes.hasAt_concat header hbody
  rwa [hheader, List.map_take, hsizes, ← List.map_take, ← screenOffset] at hat

/-- The screens of a dialog keep their responses when they are put behind one another. -/
theorem responsesAt_concat {means : Meaning} {header : Bytes} {screens : List Screen}
    {bodies : List Bytes} (hheader : header.size = 36)
    (hbodies : List.Forall₂ (fun (screen : Screen) (body : Bytes) => body.size = screen.length ∧
      ResponsesAt means body (12 + 2 * screen.messages.length) screen.options) screens bodies)
    {j : Nat} {screen : Screen} (hj : screens[j]? = some screen) :
    ResponsesAt means (bodies.foldl (· ++ ·) header)
      (screenOffset screens j + 12 + 2 * screen.messages.length) screen.options := by
  obtain ⟨body, hbody, -, hresponses⟩ := forall₂_getElem? hbodies hj
  have hsizes : bodies.map Array.size = screens.map Screen.length :=
    map_eq_of_forall₂ (hbodies.imp fun _ _ h => h.1)
  have hat := hasAt_concat_screens hheader hsizes hbody
  intro k r hk
  have hstored := (hresponses k r hk).within hat
  rwa [← Nat.add_assoc, ← Nat.add_assoc, ← Nat.add_assoc] at hstored

theorem buildDialog_spec (hcompile : Compiles input first compile) {name context : String}
    {index : UInt16} (hs : Numbered first s)
    (h : Yields (buildDialog input compile name context) s index t) :
    Advances input first [] s t := by
  simp only [buildDialog, yields_bind, yields_get] at h
  obtain ⟨_, _, ⟨rfl, rfl⟩, _, _, ⟨rfl, rfl⟩, h⟩ := h
  split at h
  · obtain ⟨-, rfl⟩ := yields_pure.1 h
    exact .refl hs
  · simp only [yields_bind, yields_orReject] at h
    obtain ⟨screens, _, ⟨hscreens, rfl⟩, h⟩ := h
    split at h
    · simp at h
    · split at h
      · simp at h
      · simp only [yields_bind, yields_except, yields_onProject] at h
        obtain ⟨header, _, ⟨hheader, rfl⟩, bodies, u, hbodies, p, hp, rfl⟩ := h
        obtain ⟨hsu, hscreen⟩ := mapM_spec
          (fun (q : Screen × Nat) (body : Bytes) means => body.size = q.1.length ∧
            ResponsesAt means body (12 + 2 * q.1.messages.length) q.1.options)
          (fun _ _ _ _ hkeeps h => ⟨h.1, h.2.mono hkeeps⟩)
          (fun _ _ _ _ _ hs h => buildScreen_spec hcompile hs h) hs hbodies
        rw [← List.forall₂_map_left_iff (f := Prod.fst)
          (R := fun (screen : Screen) (body : Bytes) => body.size = screen.length ∧ ResponsesAt
            u.map.meaning body (12 + 2 * screen.messages.length) screen.options),
          List.zipIdx_map_fst] at hscreen
        have hrecord : DialogRecord input u.map.name u.map.meaning
            ⟨dialogKey s.map.name name, some (bodies.foldl (· ++ ·) header)⟩ :=
          ⟨name, screens, _, hscreens, by rw [hsu.name_eq], rfl,
            size_concat_screens (Record.size_of_encode hheader) hscreen,
            fun j screen hj => responsesAt_concat (Record.size_of_encode hheader) hscreen hj⟩
        -- a response may have shown the dialog again and added its record
        refine hsu.trans ?_
        rcases yields_addOnce hp with rfl | rfl
        · exact .refl hsu.numbered
        · refine .of_project hsu.numbered rfl (Tables.records_add_of_ne _ (by decide))
            (.add hrecord) (.of_eq (Tables.records_add_of_ne _ (by decide))) fun kind hkind _ => ?_
          exact Tables.records_add_of_ne _ fun heq => hkind (heq ▸ by decide)

theorem buildSerialDialog_spec (hcompile : Compiles input first compile)
    {name context : String} {index : UInt16} (hs : Numbered first s)
    (h : Yields (buildSerialDialog input compile name context) s index t) :
    Advances input first [] s t := by
  simp only [buildSerialDialog, yields_bind, yields_get] at h
  obtain ⟨_, _, ⟨rfl, rfl⟩, h⟩ := h
  split at h
  · obtain ⟨-, rfl⟩ := yields_pure.1 h
    exact .refl hs
  · simp only [yields_bind, yields_orReject] at h
    obtain ⟨dialog, _, ⟨hdialog, rfl⟩, h⟩ := h
    split at h
    · simp at h
    · split at h
      · simp at h
      · split at h
        · simp at h
        · simp only [yields_bind, yields_except, yields_onProject] at h
          obtain ⟨message, u, hmessage, responses, v, hresponses, bytes, _, ⟨hbytes, rfl⟩, p, hp,
            rfl⟩ := h
          have hsu : Advances input first [] s u := internOnMap_spec hs hmessage
          obtain ⟨huv, hfields⟩ := buildResponses_spec hcompile hsu.numbered hresponses
          have hrecord : SerialDialogRecord input v.map.meaning
              ⟨serialDialogKey name, some bytes⟩ := by
            have hsize := Record.size_of_encode hbytes
            rw [paddedLength_of_dvd (by omega)] at hsize
            refine ⟨name, dialog, bytes, hdialog, rfl, rfl, hsize, ?_⟩
            have hlast := (Record.hasFields_of_encode hbytes).right
            exact responsesAt_of_fields hfields hlast
          refine (hsu.trans huv).trans ?_
          rcases yields_addOnce hp with rfl | rfl
          · exact .refl huv.numbered
          · refine .of_project huv.numbered rfl (Tables.records_add_of_ne _ (by decide))
              (.of_eq (Tables.records_add_of_ne _ (by decide))) (.add hrecord)
              fun kind hkind _ => ?_
            exact Tables.records_add_of_ne _ fun heq => hkind (heq ▸ by decide)

/-! ## Actions -/

/-- What the slot of an operand gets: a slot for a script gets the number of the script. -/
def Resolves (a : Action) (operand : Operand) (value : Nat) (means : Meaning) : Prop :=
  operand.kind = .script → ∃ name number, a.nonEmptyText operand.property = .ok name ∧
    means name number ∧ value = number.toNat

theorem Resolves.mono {a : Action} {operand : Operand} {value : Nat} {m n : Meaning}
    (h : Resolves a operand value m) (hkeeps : Keeps m n) : Resolves a operand value n := by
  intro hscript
  obtain ⟨name, number, hname, hnumber, rfl⟩ := h hscript
  exact ⟨name, number, hname, hkeeps name number hnumber, rfl⟩

theorem Resolves.of_ne {a : Action} {operand : Operand} {value : Nat} {means : Meaning}
    (h : operand.kind ≠ .script) : Resolves a operand value means :=
  fun hscript => absurd hscript h

theorem resolve_spec (hcompile : Compiles input first compile) {a : Action}
    {operand : Operand} {value : Nat} (hs : Numbered first s)
    (h : Yields (resolve input compile a operand) s value t) :
    Advances input first [] s t ∧ Resolves a operand value t.map.meaning := by
  unfold resolve at h
  cases hkind : operand.kind with
  | script =>
    simp only [hkind, yields_bind, yields_except, liftM_eq_ok, yields_pure] at h
    obtain ⟨name, _, ⟨hname, rfl⟩, number, _, hnumber, rfl, rfl⟩ := h
    obtain ⟨hst, hfind⟩ := hcompile name s number _ hs hnumber
    exact ⟨hst, fun _ => ⟨name, number, hname, hfind, rfl⟩⟩
  | text pool =>
    simp only [hkind, yields_bind, yields_except, yields_pure] at h
    obtain ⟨_, _, ⟨-, rfl⟩, _, _, hindex, -, rfl⟩ := h
    exact ⟨internOnMap_spec hs hindex, .of_ne (by simp [hkind])⟩
  | dialog =>
    simp only [hkind, yields_bind, yields_except, yields_pure] at h
    obtain ⟨_, _, ⟨-, rfl⟩, _, _, hindex, -, rfl⟩ := h
    exact ⟨buildDialog_spec hcompile hs hindex, .of_ne (by simp [hkind])⟩
  | serialDialog =>
    simp only [hkind, yields_bind, yields_except, yields_pure] at h
    obtain ⟨_, _, ⟨-, rfl⟩, _, _, hindex, -, rfl⟩ := h
    exact ⟨buildSerialDialog_spec hcompile hs hindex, .of_ne (by simp [hkind])⟩
  | entity | geometry | map =>
    simp only [hkind, yields_bind, yields_get, yields_except, yields_pure] at h
    obtain ⟨_, _, ⟨-, rfl⟩, _, _, ⟨rfl, rfl⟩, _, _, ⟨-, rfl⟩, -, rfl⟩ := h
    exact ⟨.refl hs, .of_ne (by simp [hkind])⟩
  | entityType =>
    simp only [hkind, yields_bind, yields_get, yields_except] at h
    obtain ⟨_, _, ⟨-, rfl⟩, _, _, ⟨rfl, rfl⟩, h⟩ := h
    split at h
    · obtain ⟨-, rfl⟩ := yields_pure.1 h
      exact ⟨.refl hs, .of_ne (by simp [hkind])⟩
    · simp at h
  | key | turn | color | number | byte | twoBytes | bool =>
    simp only [hkind, yields_except] at h
    obtain ⟨-, rfl⟩ := h
    exact ⟨.refl hs, .of_ne (by simp [hkind])⟩
  | unsupported =>
    simp only [hkind, yields_reject] at h

/-- The slots of all instructions have a width that numbers can have, and a script takes a word. -/
def Operand.Regular (o : Operand) : Prop :=
  (o.width = 1 ∨ o.width = 2 ∨ o.width = 4) ∧ (o.kind = .script → o.width = 2 ∧ o.order = .data)

instance (o : Operand) : Decidable o.Regular := inferInstanceAs (Decidable (_ ∧ _))

theorem Opcode.regular {name : String} {number : UInt8} {opcode : Opcode}
    (h : Opcode.find? name = some (number, opcode)) : ∀ o ∈ opcode.operands, o.Regular := by
  have hall : ∀ opcode ∈ Opcode.all, ∀ o ∈ opcode.operands, o.Regular := by decide +kernel
  exact hall opcode (Opcode.mem_all_of_find? h)

theorem encodeAction_spec (hcompile : Compiles input first compile) {a : Action}
    {bytes : Bytes} (hs : Numbered first s) (h : Yields (encodeAction input compile a) s bytes t) :
    Advances input first [] s t ∧ bytes.size = 8 ∧
      InstructionAt t.map.meaning bytes 0 a := by
  obtain ⟨number, opcode, values, hopcode, hvalues, hall, rfl⟩ := yields_encodeAction.1 h
  obtain ⟨hst, hresolved⟩ := mapM_spec (Resolves a) (fun _ _ _ _ hkeeps h => h.mono hkeeps)
    (fun _ _ _ _ _ hs h => resolve_spec hcompile hs h) hs hvalues
  have hlaid := Action.instruction_laidOut hopcode hall
  refine ⟨hst, hlaid.size, number, opcode, hopcode, hlaid.number, fun k operand hk hkind => ?_⟩
  obtain ⟨value, hvalue, -, hslot⟩ := Action.hasAt_slot hopcode hall hk
  obtain ⟨value', hvalue', hresolves⟩ := forall₂_getElem? hresolved hk
  obtain rfl : value = value' := Option.some.inj (hvalue.symm.trans hvalue')
  obtain ⟨name, script, hname, hmeans, rfl⟩ := hresolves hkind
  obtain ⟨htwo, hdata⟩ := (Opcode.regular hopcode operand (List.mem_of_getElem? hk)).2 hkind
  have hword : (Field.written (.number script.toNat 2 s!"{a.name} \"{operand.property}\"")) =
      ByteOrder.data.word script := by
    rw [Field.written, Nat.toUInt16, UInt16.ofNat_toNat]
  rw [Action.slot, htwo, hdata] at hslot
  have hwritten := hslot.left
  rw [hword] at hwritten
  rw [Nat.zero_add]
  exact ⟨name, hname, script, hwritten.word?, hmeans⟩

/-! ## Scripts -/

/-- The instructions of a script lie behind its header. -/
theorem scriptRecord_of_instructions {means : Meaning} {name : String} {script : Script}
    {actions : List Action} {header : Bytes} {instructions : List Bytes} (hnull : name ≠ nullScript)
    (hscript : input.definitions.scripts.find? name = some script)
    (hactions : expandCopies input.definitions.scripts name script = .ok actions)
    (hheader : scriptHeader name actions.length = .ok header)
    (hinstructions : List.Forall₂ (fun a (bytes : Bytes) => bytes.size = 8 ∧
      InstructionAt means bytes 0 a) actions instructions) :
    ScriptRecord input means ⟨name, some (instructions.foldl (· ++ ·) header)⟩ := by
  have hsize : header.size = 36 := Record.size_of_encode hheader
  have hsizes : instructions.map Array.size = actions.map fun _ => 8 :=
    map_eq_of_forall₂ (hinstructions.imp fun _ _ h => h.1)
  refine ⟨hnull, script, actions, _, hscript, hactions, rfl, ?_, fun j a hj => ?_⟩
  · rw [Bytes.size_concat, hsizes, hsize, List.map_const', List.sum_replicate_nat, Nat.mul_comm]
  · obtain ⟨bytes, hbytes, -, hinstruction⟩ := forall₂_getElem? hinstructions hj
    have hlt := (List.getElem?_eq_some_iff.1 hj).1
    have hat := Bytes.hasAt_concat header hbytes
    rw [hsize, List.map_take, hsizes, ← List.map_take, List.map_const', List.sum_replicate_nat,
      List.length_take, Nat.min_eq_left (Nat.le_of_lt hlt), Nat.mul_comm] at hat
    exact hinstruction.within hat

theorem compileActions_spec (hcompile : Compiles input first compile) {name : String}
    {script actions : Script} {number : UInt16} (hs : Numbered first s)
    (hnew : s.map.scriptNumbers.find? name = none) (hnull : name ≠ nullScript)
    (hscript : input.definitions.scripts.find? name = some script)
    (hactions : expandCopies input.definitions.scripts name script = .ok actions)
    (h : Yields (compileActions input compile name actions) s number t) :
    Advances input first [] s t ∧ t.map.meaning name number := by
  simp only [compileActions, yields_bind, yields_except, yields_onProject, yields_onTables,
    Tables.yields_reserve, Tables.yields_fill, yields_listScript, yields_pure] at h
  obtain ⟨header, _, ⟨hheader, rfl⟩, global, _, ⟨_, ⟨_, ⟨hcount, rfl, rfl⟩, rfl⟩, rfl⟩, number, _,
    ⟨hnumber, rfl⟩, instructions, v, hinstructions, _, _, ⟨_, ⟨_, ⟨-, rfl⟩, rfl⟩, rfl⟩, rfl,
    rfl⟩ := h
  have hclaimed := hs.claim hnew hcount hnumber
  obtain ⟨hadv, hall⟩ := mapM_spec (fun a (bytes : Bytes) means => bytes.size = 8 ∧
      InstructionAt means bytes 0 a) (fun _ _ _ _ hkeeps h => ⟨h.1, h.2.mono hkeeps⟩)
    (fun _ _ _ _ _ hs h => encodeAction_spec hcompile hs h) hclaimed hinstructions
  have hrecord := scriptRecord_of_instructions hnull hscript hactions hheader hall
  have hglobal : (UInt16.ofNat (s.project.tables.count .scripts)).toNat =
      (s.project.tables.records .scripts).toList.length := by
    rw [UInt16.toNat_ofNat_of_lt' hcount, Tables.count_eq_length]
  -- the claimed record lies before all that its instructions have added
  obtain ⟨added, hadded, hsound⟩ := hadv.scripts
  rw [Tables.toList_records_add, List.append_assoc] at hadded
  have hfilled := Tables.toList_records_set (instructions.foldl (· ++ ·) header) hadded
  refine ⟨{
    numbered := hadv.numbered.of_eq rfl rfl Tables.map_name_records_set
    map := by rw [hadv.map]; rfl
    keeps := fun _ _ hother => hadv.keeps _ _ (MapContext.keeps_listScript hnew _ _ hother)
    maps := hadv.maps
    scripts := ⟨_, by rw [hglobal]; exact hfilled, ?_⟩
    dialogs := hadv.dialogs.congr (Tables.records_add_of_ne _ (by decide)).symm
      (Tables.records_set_of_ne (by decide))
    serialDialogs := hadv.serialDialogs.congr (Tables.records_add_of_ne _ (by decide)).symm
      (Tables.records_set_of_ne (by decide))
    frame := fun kind hkind hpatched => ?_ }, hadv.keeps _ _ MapContext.meaning_listScript⟩
  · rintro record (_ | ⟨_, hrecord'⟩)
    · exact hrecord
    · exact hsound record hrecord'
  · have hne : kind ≠ .scripts := fun heq => hkind (heq ▸ by decide)
    exact (Tables.records_set_of_ne hne).trans
      ((hadv.frame kind hkind hpatched).trans (Tables.records_add_of_ne _ hne))

/-- A script that is listed already has its number; any other is compiled from its expanded
    actions. -/
theorem scriptNumber_spec {start : String → Script → Step MapState UInt16}
    (hstart : ∀ name script actions s number t, Numbered first s →
      s.map.scriptNumbers.find? name = none → name ≠ nullScript →
      input.definitions.scripts.find? name = some script →
      expandCopies input.definitions.scripts name script = .ok actions →
      Yields (start name actions) s number t →
      Advances input first [] s t ∧ t.map.meaning name number) :
    Compiles input first (scriptNumber input start) := by
  intro name s number t hs h
  simp only [scriptNumber, yields_bind, yields_get] at h
  obtain ⟨_, _, ⟨rfl, rfl⟩, h⟩ := h
  split at h
  · next known hknown =>
    obtain ⟨rfl, rfl⟩ := yields_pure.1 h
    exact ⟨.refl hs, hknown⟩
  · next hnew =>
    -- the script that does nothing is listed from the start, so this is another one
    have hnull : name ≠ nullScript := by
      rintro rfl
      rw [hs.null_number] at hnew
      cases hnew
    rw [if_neg hnull] at h
    simp only [yields_bind, yields_get, yields_orReject, yields_except, liftM_eq_ok] at h
    obtain ⟨_, _, ⟨rfl, rfl⟩, script, _, ⟨hscript, rfl⟩, actions, _, ⟨hactions, rfl⟩, h⟩ := h
    exact hstart name script actions s number t hs hnew hnull hscript hactions h

/-- **Compiling a script advances the state and returns the number of the script.** The induction is
    on how many compilations may be in progress. -/
theorem compileScript_spec : Compiles input first (compileScript input) := by
  have hwithin : ∀ depth, Compiles input first
      (compileWithin input (fun _ _ => throw .overrun) depth) := by
    intro depth
    induction depth with
    | zero => exact scriptNumber_spec fun _ _ _ _ _ _ _ _ _ _ _ h => (yields_throw.1 h).elim
    | succ depth ih =>
      exact scriptNumber_spec fun _ _ _ _ _ _ hs hnew hnull hscript hactions h =>
        compileActions_spec ih hs hnew hnull hscript hactions h
  exact hwithin _

end GameBundle
