import GameBundle.Proofs.Build.DialogReader
import GameBundle.Proofs.Build.Pools

set_option autoImplicit false

/-! # What stored dialogs say

Whatever is compiled on a map, the record of each dialog that is stored on the way reads back as its
definition, with the numbers that texts and scripts have on the map. No record is stored for a
definition that is incomplete. -/

namespace GameBundle

variable {input : Input} {s t : MapState} {p q : Project} {map : MapContext}

/-! ## Texts of a project -/

/-- The string with this number is the text with its tokens replaced, as it is on the map. -/
def TextTold (map : MapContext) (p : Project) : Meaning := fun text index =>
  ∃ value, templatize (some map) p.pools.gameVariables text = .ok value ∧
    (p.tables.records .strings)[index.toNat]? = some (.ofText value)

theorem TextsStored.told (h : TextsStored s.project) :
    Keeps s.texts (TextTold s.map s.project) := by
  rintro text index ⟨value, hvalue, hfind⟩
  have hrecord := h.getElem?_records_pool .strings index.toNat
  rw [(h.find?_pool .strings).1 hfind] at hrecord
  exact ⟨value, hvalue, hrecord⟩

/-- The records of texts are still there. -/
def Project.KeepsTexts (p q : Project) : Prop :=
  ∀ (pool : Pool) (i : Nat) (record : Record),
    (p.tables.records pool.kind)[i]? = some record → (q.tables.records pool.kind)[i]? = some record

namespace Project.KeepsTexts

theorem refl (p : Project) : p.KeepsTexts p := fun _ _ _ h => h

theorem trans {r : Project} (hpq : p.KeepsTexts q) (hqr : q.KeepsTexts r) : p.KeepsTexts r :=
  fun pool i record h => hqr pool i record (hpq pool i record h)

theorem of_same (h : ∀ pool, p.SameTexts pool q) : p.KeepsTexts q := by
  intro pool i record hrecord
  rwa [(h pool).records]

theorem operation (o : Operation) (p : Project) : p.KeepsTexts (outcome o.step p).2 := by
  by_cases htext : ∃ pool map raw, o = .text pool map raw
  · obtain ⟨pool, map, raw, rfl⟩ := htext
    change p.KeepsTexts (outcome (intern pool map raw) p).2
    rcases hout : outcome (intern pool map raw) p with ⟨e | index, q⟩
    · rw [atomic_intern _ _ _ p e q hout]
      exact .refl p
    · obtain ⟨value, -, ⟨-, rfl⟩ | ⟨-, -, -, -, rfl⟩⟩ := intern_succeeds hout
      · exact .refl _
      · exact fun other => (Tables.Kept.refl p.tables).add _ _ other.kind
  · exact .of_same fun pool => o.sameTexts (fun map raw heq => htext ⟨pool, map, raw, heq⟩) p

/-- A text has the number that it had before, with the same tokens replaced. -/
theorem told (h : p.KeepsTexts q) (hp : TextsStored p) (hq : TextsStored q) (map : MapContext) :
    Keeps (TextTold map p) (TextTold map q) := by
  rintro text index ⟨value, hvalue, hrecord⟩
  -- variables that were known keep their numbers, so no token is replaced in another way
  refine ⟨value, templatize_mono (fun key found hfind => ?_) hvalue, h .strings _ _ hrecord⟩
  obtain ⟨record, hvariable, hname⟩ := ((hp.mirrors .gameVariables).numbered key found).1 hfind
  exact ((hq.mirrors .gameVariables).numbered key found).2 ⟨record, h _ _ _ hvariable, hname⟩

end Project.KeepsTexts

/-! ## Dialogs -/

/-- The record is that of a complete dialog of the map. From its first byte to its last it says what
    the definition says. -/
def DialogTold (input : Input) (map : MapContext) (p : Project) (key : String) (record : Record) :
    Prop :=
  ∃ name screens bytes, input.definitions.dialogs.find? name = some screens ∧ Showable screens ∧
    key = dialogKey map.name name ∧ record = ⟨key, some bytes⟩ ∧
    (screens.length < 2 ^ 32 → ∃ read, ReadDialog.reader.readAll? bytes = some read ∧
      read.key = ReadMap.zeroFilled key 32 ∧
      List.Forall₂ (ScreenSays (TextTold map p) map.meaning) screens read.screens)

/-- How a serial dialog is answered: not at all, by number, or by typing a word in any letters. -/
inductive AnswersSay (texts scripts : Meaning) (d : SerialDialog) (read : ReadSerialDialog) : Prop
  | none (options : d.options = []) (typed : (d.textOptions.getD ∅).entries = [])
      (type : read.answers = 0) (responses : read.responses = [])
  | numbered (options : d.options ≠ []) (typed : d.textOptions = Option.none)
      (type : read.answers = 1)
      (responses : List.Forall₂ (ResponseSays texts scripts) d.options read.responses)
  | typed (words : Ordered String) (options : d.options = []) (typed : d.textOptions = some words)
      (some : words.entries ≠ []) (type : read.answers = 2)
      (responses : List.Forall₂ (fun word response =>
        ResponseSays texts scripts ⟨Text.lowercase word.1, word.2⟩ response) words.entries
          read.responses)

/-- The record is that of a complete serial dialog, and says what the definition says. -/
def SerialDialogTold (input : Input) (map : MapContext) (p : Project) (name : String)
    (record : Record) : Prop :=
  ∃ dialog bytes read, input.definitions.serialDialogs.find? name = some dialog ∧
    dialog.Showable ∧ record = ⟨serialDialogKey name, some bytes⟩ ∧
    bytes.size = 36 + 4 * read.responses.length ∧ read.responses.length ≤ 255 ∧
    ReadSerialDialog.reader.readAll? bytes = some read ∧
    read.key = ReadMap.zeroFilled (serialDialogKey name) 32 ∧
    TextTold map p ("\n".intercalate dialog.messages) read.message ∧
    AnswersSay (TextTold map p) map.meaning dialog read

theorem CompleteDialog.told {key : String} {record : Record} (h : CompleteDialog input s key record)
    (htexts : Keeps s.texts (TextTold s.map p)) : DialogTold input s.map p key record := by
  obtain ⟨name, screens, bytes, hscreens, hshowable, hkey, hrecord, hsettled⟩ := h
  refine ⟨name, screens, bytes, hscreens, hshowable, hkey, hrecord, fun hfew => ?_⟩
  obtain ⟨read, hread, hkeyRead, hsays⟩ := composeDialog_reads hfew hsettled.now
  exact ⟨read, hread, hkeyRead, hsays.imp fun _ _ h => h.mono htexts fun _ _ h => h⟩

theorem SerialDialog.Showable.answersSay {texts scripts : Meaning} {d : SerialDialog}
    {read : ReadSerialDialog} (h : d.Showable) (htype : read.answers = d.answers.code)
    (hresponses : List.Forall₂ (ResponseSays texts scripts) d.answers.responses read.responses) :
    AnswersSay texts scripts d read := by
  unfold SerialDialog.answers at htype hresponses
  cases hwords : (d.textOptions.getD ∅).entries with
  | nil =>
    simp only [hwords] at htype hresponses
    by_cases hoptions : d.options = []
    · simp only [hoptions, List.isEmpty_nil, if_true] at htype hresponses
      exact .none hoptions hwords htype (List.forall₂_nil_left_iff.1 hresponses)
    · rw [if_neg (by rwa [List.isEmpty_iff])] at htype hresponses
      exact .numbered hoptions (h.single.resolve_left hoptions) htype hresponses
  | cons word rest =>
    simp only [hwords] at htype hresponses
    rw [← hwords] at hresponses
    cases hoptional : d.textOptions with
    | none =>
      rw [hoptional] at hwords
      cases hwords
    | some words =>
      have hsingle := h.single.resolve_right (by rw [hoptional]; nofun)
      rw [hoptional] at hwords hresponses
      refine .typed words hsingle hoptional (fun hnil => ?_) htype
        (List.forall₂_map_left_iff.1 hresponses)
      rw [Option.getD_some, hnil] at hwords
      cases hwords

theorem CompleteSerialDialog.told {name : String} {record : Record}
    (h : CompleteSerialDialog input s name record) (htexts : Keeps s.texts (TextTold s.map p)) :
    SerialDialogTold input s.map p name record := by
  obtain ⟨dialog, bytes, hdialog, hshowable, hrecord, hsettled⟩ := h
  obtain ⟨hsize, read, hread, hkey, hmessage, htype, hresponses⟩ :=
    composeSerialDialog_reads hshowable.few hsettled.now
  rw [hresponses.length_eq] at hsize
  refine ⟨dialog, bytes, read, hdialog, hshowable, hrecord, hsize,
    hresponses.length_eq ▸ hshowable.few, hread, hkey, htexts _ _ hmessage,
    hshowable.answersSay htype ?_⟩
  exact hresponses.imp fun _ _ h => h.mono htexts fun _ _ h => h

/-! ## Calls -/

/-- The dialogs that are added from `s` to `t` say what their definitions say, with the numbers that
    texts and scripts have in the end. Each is remembered under its key. -/
structure DialogsTold (input : Input) (s t : MapState) : Prop where
  dialogs : Remembers (DialogTold input t.map t.project) .dialogs Project.dialogs s.project
    t.project
  serialDialogs : Remembers (SerialDialogTold input t.map t.project) .serialDialogs
    Project.serialDialogs s.project t.project

theorem Stores.told (h : Stores input s t) (ht : TextsStored t.project) :
    DialogsTold input s t where
  dialogs := by
    obtain ⟨added, hadded⟩ := h.dialogs
    exact ⟨added, hadded.mono fun _ _ hcomplete => hcomplete.told ht.told⟩
  serialDialogs := by
    obtain ⟨added, hadded⟩ := h.serialDialogs
    exact ⟨added, hadded.mono fun _ _ hcomplete => hcomplete.told ht.told⟩

/-- What a step adds for dialogs, whether it succeeds or not. -/
theorem told_of_moves {α : Type} {x : Step MapState α} (hs : TextsStored s.project)
    (hadds : Adds MapState.project x) (hstores : Moves (Stores input) x s) :
    DialogsTold input s (outcome x s).2 :=
  Stores.told hstores (hs.performs (hadds.unrestricted s))

/-- What calls from `s` on store. A name that had no number leads to the record that was added. -/
structure CallsTold (input : Input) (s : MapState) : Prop where
  script : ∀ name, DialogsTold input s (outcome (compileScript input name) s).2
  dialog : ∀ name context,
    DialogsTold input s (outcome (buildDialog input (compileScript input) name context) s).2
  serialDialog : ∀ name context,
    DialogsTold input s (outcome (buildSerialDialog input (compileScript input) name context) s).2
  dialogNumber : ∀ name context index t,
    s.project.dialogs.find? (dialogKey s.map.name name) = none →
    Yields (buildDialog input (compileScript input) name context) s index t →
      ∃ record, (t.project.tables.records .dialogs)[index.toNat]? = some record ∧
        DialogTold input t.map t.project (dialogKey s.map.name name) record
  serialDialogNumber : ∀ name context index t, s.project.serialDialogs.find? name = none →
    Yields (buildSerialDialog input (compileScript input) name context) s index t →
      ∃ record, (t.project.tables.records .serialDialogs)[index.toNat]? = some record ∧
        SerialDialogTold input t.map t.project name record

theorem TextsStored.callsTold (hs : TextsStored s.project) : CallsTold input s := by
  have hcompile : ReplaysScripts input (compileScript input) := compileScript_replays
  have hstores := compileScript_stores input
  have hdialog : ∀ name context,
      DialogsTold input s (outcome (buildDialog input (compileScript input) name context) s).2 :=
    fun name context => told_of_moves hs (buildDialog_adds (compileScript_adds input) name context)
      (buildDialog_stores hcompile hstores name context s)
  have hserialDialog : ∀ name context, DialogsTold input s
      (outcome (buildSerialDialog input (compileScript input) name context) s).2 :=
    fun name context =>
      told_of_moves hs (buildSerialDialog_adds (compileScript_adds input) name context)
        (buildSerialDialog_stores hcompile hstores name context s)
  refine ⟨fun name => told_of_moves hs (compileScript_adds input name) (hstores name s), hdialog,
    hserialDialog, fun name context index t hnew h => ?_, fun name context index t hnew h => ?_⟩
  · obtain ⟨added, hadded⟩ := (hdialog name context).dialogs
    rw [show outcome _ s = (.ok index, t) from h] at hadded
    obtain ⟨record, -, hrecord, htold⟩ := hadded.record hnew (buildDialog_finds hcompile h)
    exact ⟨record, hrecord, htold⟩
  · obtain ⟨added, hadded⟩ := (hserialDialog name context).serialDialogs
    rw [show outcome _ s = (.ok index, t) from h] at hadded
    obtain ⟨record, -, hrecord, htold⟩ := hadded.record hnew (buildSerialDialog_finds hcompile h)
    exact ⟨record, hrecord, htold⟩

end GameBundle
