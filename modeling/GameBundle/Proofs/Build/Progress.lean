import GameBundle.Proofs.Build.Numbering
import GameBundle.Proofs.Record.Fields

set_option autoImplicit false

/-! # What a compilation leaves behind

While scripts and dialogs of a map are built, records are added and numbers are handed out.
`Advances` says what kind of change that is: the map gets more numbers and keeps the old ones, and
each record that was added stores, wherever its source names a script, the number which that script
has in the end. -/

namespace GameBundle

/-! ## Stored means -/

/-- Which numbers stand for which scripts. -/
abbrev Meaning : Type := String → UInt16 → Prop

/-- The numbers of the scripts on a map. -/
def MapContext.meaning (map : MapContext) : Meaning :=
  fun name number => map.scriptNumbers.find? name = some number

/-- Every number stays what it is. -/
def Keeps (m n : Meaning) : Prop := ∀ name number, m name number → n name number

theorem MapContext.meaning_listScript {map : MapContext} {name : String} {global number : UInt16} :
    (map.listScript name global number).meaning name number := by
  rw [meaning, listScript, Ordered.find?_put, if_pos rfl]

theorem MapContext.keeps_listScript {map : MapContext} {name : String} {global number : UInt16}
    (hnew : map.scriptNumbers.find? name = none) :
    Keeps map.meaning (map.listScript name global number).meaning := by
  intro other number' hother
  rw [meaning, listScript, Ordered.find?_put, if_neg, ← hother]
  rintro rfl
  rw [meaning, hnew] at hother
  cases hother

/-- The word at `offset` is the number of a script. -/
def Stored (means : Meaning) (bytes : Bytes) (offset : Nat) (name : String) : Prop :=
  ∃ number, bytes.word? offset = some number ∧ means name number

theorem Stored.mono {m n : Meaning} {bytes : Bytes} {offset : Nat} {name : String}
    (h : Stored m bytes offset name) (hkeeps : Keeps m n) : Stored n bytes offset name := by
  obtain ⟨number, hword, hnumber⟩ := h
  exact ⟨number, hword, hkeeps name number hnumber⟩

theorem Stored.within {means : Meaning} {record part : Bytes} {start offset : Nat}
    {name : String} (h : Stored means part offset name) (hpart : record.HasAt start part.toList) :
    Stored means record (start + offset) name := by
  obtain ⟨number, hword, hnumber⟩ := h
  exact ⟨number, Bytes.word?_within hword hpart, hnumber⟩

/-! ## Records that store numbers -/

/-- Where the slot of an operand starts in an instruction. -/
def Opcode.slotOffset (opcode : Opcode) (k : Nat) : Nat :=
  1 + ((opcode.operands.take k).map Operand.width).sum

/-- An instruction lies at `start`, with the number of a script in each slot for one. -/
def InstructionAt (means : Meaning) (bytes : Bytes) (start : Nat) (a : Action) : Prop :=
  ∃ number opcode, Opcode.find? a.name = some (number, opcode) ∧ bytes[start]? = some number ∧
    ∀ k operand, opcode.operands[k]? = some operand → operand.kind = .script →
      ∃ name, a.nonEmptyText operand.property = .ok name ∧
        Stored means bytes (start + opcode.slotOffset k) name

theorem InstructionAt.within {means : Meaning} {record part : Bytes} {start offset : Nat}
    {a : Action} (h : InstructionAt means part offset a)
    (hpart : record.HasAt start part.toList) : InstructionAt means record (start + offset) a := by
  obtain ⟨number, opcode, hopcode, hnumber, hslots⟩ := h
  refine ⟨number, opcode, hopcode, ?_, fun k operand hk hscript => ?_⟩
  · have hlt := (Array.getElem?_eq_some_iff.1 hnumber).1
    rw [hpart offset (by rwa [Array.length_toList]), Array.getElem?_toList, hnumber]
  · obtain ⟨name, hname, hstored⟩ := hslots k operand hk hscript
    refine ⟨name, hname, ?_⟩
    rw [Nat.add_assoc]
    exact hstored.within hpart

/-- The responses of a screen or a serial dialog lie at `start`, each with the number of its
    script. -/
def ResponsesAt (means : Meaning) (bytes : Bytes) (start : Nat)
    (responses : List Response) : Prop :=
  ∀ k r, responses[k]? = some r → Stored means bytes (start + 4 * k + 2) r.script

/-- The record of a script: its expanded actions behind the header. -/
structure ScriptRecord (input : Input) (means : Meaning) (record : Record) : Prop where
  named : record.name ≠ nullScript
  filled : ∃ script actions bytes,
    input.definitions.scripts.find? record.name = some script ∧
    expandCopies input.definitions.scripts record.name script = .ok actions ∧
    record.bytes = some bytes ∧ bytes.size = 36 + 8 * actions.length ∧
    ∀ j a, actions[j]? = some a → InstructionAt means bytes (36 + 8 * j) a

/-- The length of a screen in its dialog. -/
def Screen.length (s : Screen) : Nat :=
  paddedLength (12 + 2 * s.messages.length + 4 * s.options.length)

/-- Where a screen starts in its dialog. -/
def screenOffset (screens : List Screen) (j : Nat) : Nat :=
  36 + ((screens.take j).map Screen.length).sum

/-- The record of a dialog: its screens behind the header. -/
def DialogRecord (input : Input) (map : String) (means : Meaning) (record : Record) : Prop :=
  ∃ name screens bytes, input.definitions.dialogs.find? name = some screens ∧
    record.name = dialogKey map name ∧ record.bytes = some bytes ∧
    bytes.size = screenOffset screens screens.length ∧
    ∀ j screen, screens[j]? = some screen →
      ResponsesAt means bytes (screenOffset screens j + 12 + 2 * screen.messages.length)
        screen.options

/-- The record of a serial dialog: its responses behind the header. -/
def SerialDialogRecord (input : Input) (means : Meaning) (record : Record) : Prop :=
  ∃ name dialog bytes, input.definitions.serialDialogs.find? name = some dialog ∧
    record.name = serialDialogKey name ∧ record.bytes = some bytes ∧
    bytes.size = 36 + 4 * dialog.answers.responses.length ∧
    ResponsesAt means bytes 36 dialog.answers.responses

section Mono

variable {m n : Meaning} {bytes : Bytes} {start : Nat}

theorem InstructionAt.mono {a : Action} (h : InstructionAt m bytes start a) (hkeeps : Keeps m n) :
    InstructionAt n bytes start a := by
  obtain ⟨number, opcode, hopcode, hnumber, hslots⟩ := h
  refine ⟨number, opcode, hopcode, hnumber, fun k operand hk hscript => ?_⟩
  obtain ⟨name, hname, hstored⟩ := hslots k operand hk hscript
  exact ⟨name, hname, hstored.mono hkeeps⟩

theorem ResponsesAt.mono {responses : List Response} (h : ResponsesAt m bytes start responses)
    (hkeeps : Keeps m n) : ResponsesAt n bytes start responses :=
  fun k r hk => (h k r hk).mono hkeeps

theorem ScriptRecord.mono {input : Input} {record : Record} (h : ScriptRecord input m record)
    (hkeeps : Keeps m n) : ScriptRecord input n record := by
  obtain ⟨hnamed, script, actions, bytes, hscript, hactions, hbytes, hsize, hall⟩ := h
  exact ⟨hnamed, script, actions, bytes, hscript, hactions, hbytes, hsize,
    fun j a hj => (hall j a hj).mono hkeeps⟩

theorem DialogRecord.mono {input : Input} {map : String} {record : Record}
    (h : DialogRecord input map m record) (hkeeps : Keeps m n) :
    DialogRecord input map n record := by
  obtain ⟨name, screens, bytes, hscreens, hname, hbytes, hsize, hall⟩ := h
  exact ⟨name, screens, bytes, hscreens, hname, hbytes, hsize,
    fun j screen hj => (hall j screen hj).mono hkeeps⟩

theorem SerialDialogRecord.mono {input : Input} {record : Record}
    (h : SerialDialogRecord input m record) (hkeeps : Keeps m n) :
    SerialDialogRecord input n record := by
  obtain ⟨name, dialog, bytes, hdialog, hname, hbytes, hsize, hall⟩ := h
  exact ⟨name, dialog, bytes, hdialog, hname, hbytes, hsize, hall.mono hkeeps⟩

end Mono

/-! ## Progress -/

/-- The kinds of which a compilation adds records. -/
def compiledKinds : List Kind :=
  [.scripts, .dialogs, .serialDialogs, .strings, .saveFlags, .gameVariables]

/-- How the state changes while scripts of a map are compiled. Records of the kinds in `patched` may
    have been changed on top of it. -/
structure Advances (input : Input) (first : Nat) (patched : List Kind) (s t : MapState) : Prop where
  numbered : Numbered first t
  map : t.map = { s.map with scripts := t.map.scripts, scriptNumbers := t.map.scriptNumbers }
  keeps : Keeps s.map.meaning t.map.meaning
  maps : t.project.maps = s.project.maps
  scripts : Added (ScriptRecord input t.map.meaning) .scripts s.project.tables t.project.tables
  dialogs : Added (DialogRecord input t.map.name t.map.meaning) .dialogs s.project.tables
    t.project.tables
  serialDialogs : Added (SerialDialogRecord input t.map.meaning) .serialDialogs
    s.project.tables t.project.tables
  frame : ∀ kind, kind ∉ compiledKinds → kind ∉ patched →
    t.project.tables.records kind = s.project.tables.records kind

namespace Advances

variable {input : Input} {first : Nat} {patched : List Kind} {s t u : MapState}

theorem refl (h : Numbered first s) : Advances input first patched s s where
  numbered := h
  map := rfl
  keeps _ _ h := h
  maps := rfl
  scripts := .of_eq rfl
  dialogs := .of_eq rfl
  serialDialogs := .of_eq rfl
  frame _ _ _ := rfl

theorem name_eq (h : Advances input first patched s t) : t.map.name = s.map.name := by rw [h.map]

theorem trans (hst : Advances input first patched s t) (htu : Advances input first patched t u) :
    Advances input first patched s u where
  numbered := htu.numbered
  map := by rw [htu.map, hst.map]
  keeps name number h := htu.keeps name number (hst.keeps name number h)
  maps := htu.maps.trans hst.maps
  scripts := (hst.scripts.mono fun _ h => h.mono htu.keeps).trans htu.scripts
  dialogs := (hst.dialogs.mono fun _ h => htu.name_eq ▸ h.mono htu.keeps).trans htu.dialogs
  serialDialogs := (hst.serialDialogs.mono fun _ h => h.mono htu.keeps).trans htu.serialDialogs
  frame kind hkind hpatched :=
    (htu.frame kind hkind hpatched).trans (hst.frame kind hkind hpatched)

theorem weaken (h : Advances input first [] s t) : Advances input first patched s t where
  numbered := h.numbered
  map := h.map
  keeps := h.keeps
  maps := h.maps
  scripts := h.scripts
  dialogs := h.dialogs
  serialDialogs := h.serialDialogs
  frame kind hkind _ := h.frame kind hkind (by simp)

/-- A change of the project that leaves the scripts alone. -/
theorem of_project {p : Project} (h : Numbered first s) (hmaps : p.maps = s.project.maps)
    (hscripts : p.tables.records .scripts = s.project.tables.records .scripts)
    (hdialogs : Added (DialogRecord input s.map.name s.map.meaning) .dialogs
      s.project.tables p.tables)
    (hserial : Added (SerialDialogRecord input s.map.meaning) .serialDialogs
      s.project.tables p.tables)
    (hframe : ∀ kind, kind ∉ compiledKinds → kind ∉ patched →
      p.tables.records kind = s.project.tables.records kind) :
    Advances input first patched s ⟨s.map, p⟩ where
  numbered := h.of_eq rfl rfl (by simp only [scriptNames, hscripts])
  map := rfl
  keeps _ _ h := h
  maps := hmaps
  scripts := .of_eq hscripts
  dialogs := hdialogs
  serialDialogs := hserial
  frame := hframe

end Advances

end GameBundle
