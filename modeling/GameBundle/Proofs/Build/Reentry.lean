import GameBundle.Proofs.Build.Remembering
import GameBundle.Proofs.Build.Slots

set_option autoImplicit false

/-! # Dialogs that show themselves

The responses of a dialog run scripts, and those may show the same dialog again while it has no
record yet. Then it is built once more inside, and what is built inside is stored, while the outer
bytes are thrown away. That makes no difference: all of them get one record, and its bytes are those
that were thrown away. -/

namespace GameBundle

variable {input : Input} {s t u : MapState}

/-! ## One record for a key -/

/-- One of the records that were added is for the key, and the key leads to it. -/
structure StoredOnce (kind : Kind) (memo : Project → Ordered UInt16) (key : String)
    (record : Record) (index : UInt16) (p q : Project) : Prop where
  remembered : (memo q).find? key = some index
  stored : (q.tables.records kind)[index.toNat]? = some record
  once : ∃ added : List (String × Record),
    (q.tables.records kind).toList = (p.tables.records kind).toList ++ added.map Prod.snd ∧
    (memo q).entries = (memo p).entries ++ numberedFrom (p.tables.count kind) added ∧
    (added.map Prod.fst).count key = 1

theorem RemembersAs.storedOnce {P : String → Record → Prop} {kind : Kind}
    {memo : Project → Ordered UInt16} {added : List (String × Record)} {p q : Project}
    {key : String} {index : UInt16} (h : RemembersAs P kind memo added p q)
    (hnew : (memo p).find? key = none) (hfind : (memo q).find? key = some index) :
    ∃ record, StoredOnce kind memo key record index p q ∧ P key record := by
  obtain ⟨record, -, hrecord, hP⟩ := h.record hnew hfind
  exact ⟨record, ⟨hfind, hrecord, added, h.records, h.entries, h.count_key hnew hfind⟩, hP⟩

/-! ## Scripts that show it -/

/-- All scripts that were compiled between the two states are finished, and wherever an argument of
    this kind says `name`, they have `index` in the slot. -/
def ShowsAs (input : Input) (kind : OperandKind) (name : String) (index : UInt16)
    (s t : MapState) : Prop :=
  ∀ i record, s.project.tables.count .scripts ≤ i →
    (t.project.tables.records .scripts)[i]? = some record →
    ∃ bytes actions, record.bytes = some bytes ∧ HasActions input record.name actions ∧
      ∀ j a number opcode k operand, actions[j]? = some a →
        Opcode.find? a.name = some (number, opcode) → opcode.operands[k]? = some operand →
        operand.kind = kind → a.text operand.property = .ok name →
        bytes.slot? (36 + 8 * j + opcode.slotOffset k) operand.width = some index.toNat

theorem Follows.showsAs {kind : OperandKind} {name : String} {index : UInt16}
    (h : Follows input s t) (hcompletes : s.project.tables.Completes t.project.tables)
    (hcolor : kind ≠ .color)
    (hfound : ∀ a operand value, operand.kind = kind → a.text operand.property = .ok name →
      Found a operand value t → value = index.toNat) :
    ShowsAs input kind name index s t := by
  rintro i ⟨script, bytes | bytes⟩ hi hrecord
  · obtain ⟨other, hother⟩ := hcompletes .scripts i ⟨script, hrecord⟩
    exact absurd (Array.getElem?_eq_some_iff.1 hother).1 (Nat.not_lt.2 hi)
  · obtain ⟨actions, hactions, hsettled⟩ :=
      h.compiledFrom (compiledFrom_count s) i script bytes hi hrecord
    refine ⟨bytes, actions, rfl, hactions, ?_⟩
    intro j a number opcode k operand hj hopcode hk hkind htext
    obtain ⟨-, -, hholds⟩ := composeScript_holds hsettled.now
    obtain ⟨number', opcode', hopcode', -, hslots⟩ := hholds j a hj
    rw [hopcode] at hopcode'
    obtain ⟨rfl, rfl⟩ := Prod.mk.inj (Option.some.inj hopcode')
    obtain ⟨value, hvalue, hslot⟩ := hslots k operand hk
    rw [← hfound a operand value hkind htext hvalue]
    refine hslot ((Opcode.plain hopcode operand (List.mem_of_getElem? hk)).2 ?_)
    rwa [hkind]

/-! ## Dialogs of both kinds -/

/-- A dialog or a serial dialog: where it is stored and remembered, and the steps that build it. -/
structure Shown where
  /-- The arguments that name it. -/
  operand : OperandKind
  kind : Kind
  memo : Project → Ordered UInt16
  /-- What it is remembered by. -/
  key : String
  /-- The name of its record. -/
  record : String
  build : String → Step MapState UInt16
  compose : Step MapState Bytes
  store : Bytes → Step MapState UInt16

/-- A dialog of a map. -/
def Shown.dialog (input : Input) (map name : String) (screens : List Screen) : Shown where
  operand := .dialog
  kind := .dialogs
  memo := Project.dialogs
  key := dialogKey map name
  record := dialogKey map name
  build := buildDialog input (compileScript input) name
  compose := composeDialog (compileScript input) (dialogKey map name) name screens
  store := storeDialog (dialogKey map name)

/-- A serial dialog, which is remembered by its full name. -/
def Shown.serialDialog (input : Input) (name : String) (dialog : SerialDialog) : Shown where
  operand := .serialDialog
  kind := .serialDialogs
  memo := Project.serialDialogs
  key := name
  record := serialDialogKey name
  build := buildSerialDialog input (compileScript input) name
  compose := composeSerialDialog (compileScript input) name dialog
  store := storeSerialDialog name

/-- Between two states `name` was built, and all requests for it have one result. -/
structure BuiltOnce (input : Input) (d : Shown) (name : String) (index : UInt16) (s t : MapState) :
    Prop where
  /-- It is composed from `s`, and those are the bytes that are stored. If it was stored in the
      meantime, the last step changes nothing. -/
  composed : ∃ bytes u, Yields d.compose s bytes u ∧ Yields (d.store bytes) u index t ∧
    ((d.memo u.project).find? d.key ≠ none → t = u) ∧
    StoredOnce d.kind d.memo d.key ⟨d.record, some bytes⟩ index s.project t.project
  /-- Whoever asks for it until the end gets the record. -/
  requests : ∀ v w index' context, Yields (d.build context) v index' w → Follows input w t →
    index' = index
  /-- And so do all scripts that are compiled in between. -/
  scripts : ShowsAs input d.operand name index s t

/-- If the memo was still empty at `u`, the bytes that were composed are stored; else they are
    those that are stored already. -/
theorem builtOnce_of_composed {d : Shown} {name : String} {index : UInt16} {bytes : Bytes}
    {P : String → Record → Prop}
    (hcompose : Yields d.compose s bytes u) (hstore : Yields (d.store bytes) u index t)
    (hnew : (d.memo s.project).find? d.key = none)
    (hfind : (d.memo t.project).find? d.key = some index)
    (hknown : (d.memo u.project).find? d.key ≠ none → t = u)
    (hadded : Remembers P d.kind d.memo s.project t.project)
    (hrecord : ∀ record, P d.key record → record = ⟨d.record, some bytes⟩)
    (hrequest : ∀ v w index' context, Yields (d.build context) v index' w → Follows input w t →
      (d.memo t.project).find? d.key = some index')
    (hscripts : ShowsAs input d.operand name index s t) : BuiltOnce input d name index s t where
  composed := by
    obtain ⟨added, hadded⟩ := hadded
    obtain ⟨record, hstored, hP⟩ := hadded.storedOnce hnew hfind
    obtain rfl := hrecord record hP
    exact ⟨bytes, u, hcompose, hstore, hknown, hstored⟩
  requests v w index' context h hwt := by
    have hsame := hrequest v w index' context h hwt
    rw [hfind] at hsame
    exact (Option.some.inj hsame).symm
  scripts := hscripts

/-- The last step of building a dialog changes nothing if there is a record. -/
theorem addOnce_known {kind : Kind} {find? : Project → Option UInt16} {record : String}
    {bytes : Bytes} {remember : UInt16 → Project → Project} {index : UInt16}
    (h : Yields (onProject (addOnce kind find? record bytes remember)) u index t)
    (hknown : find? u.project ≠ none) : t = u := by
  obtain ⟨p, hp, rfl⟩ := yields_onProject.1 h
  obtain ⟨-, rfl⟩ | ⟨hnone, -⟩ := addOnce_cases hp
  · rfl
  · exact absurd hnone hknown

theorem buildDialog_builtOnce {name context : String} {index : UInt16}
    (hnew : s.project.dialogs.find? (dialogKey s.map.name name) = none)
    (hdistinct : ∀ other screens, input.definitions.dialogs.find? other = some screens →
      dialogKey s.map.name other = dialogKey s.map.name name → other = name)
    (h : Yields (buildDialog input (compileScript input) name context) s index t) :
    ∃ screens, input.definitions.dialogs.find? name = some screens ∧
      BuiltOnce input (.dialog input s.map.name name screens) name index s t := by
  have hcompile : ReplaysScripts input (compileScript input) := compileScript_replays
  have hreplays := buildDialog_replays hcompile name context
  have hfollows := (hreplays.moves h).follows
  have hfind := buildDialog_finds hcompile h
  have hname := hfollows.later.name
  obtain ⟨hfound, -⟩ | ⟨screens, bytes, u, -, hscreens, hcompose, hstore⟩ := buildDialog_cases h
  · rw [hnew] at hfound
    cases hfound
  have hlast := storeDialog_composed hcompile hscreens hcompose hstore
  have hsettled := ((composeDialog_replays hcompile _ name screens).again _ _ _
    hcompose).mono hlast.2.1.follows.later
  refine ⟨screens, hscreens, builtOnce_of_composed hcompose hstore hnew hfind
    (addOnce_known hstore) hfollows.dialogs ?_ ?_ ?_⟩
  · -- a record with this key was settled for a dialog, which can only be this one
    rintro record ⟨other, screens', bytes', hscreens', hkey, rfl, hsettled'⟩
    rw [hname] at hkey
    obtain rfl := hdistinct other screens' hscreens' hkey.symm
    rw [hscreens] at hscreens'
    obtain rfl := Option.some.inj hscreens'
    rw [hsettled.unique hsettled']
    rfl
  · intro v w index' context' hrequest hwt
    have hfind' := buildDialog_finds hcompile hrequest
    have hvw := ((buildDialog_replays hcompile _ _).moves hrequest).follows.later.name
    rw [← hvw, ← hwt.later.name, hname] at hfind'
    exact hwt.later.dialogs _ _ hfind'
  · refine hfollows.showsAs (hreplays.completes _ _ _ h)
      (show OperandKind.dialog ≠ .color by decide) ?_
    intro a operand value hkind htext hvalue
    simp only [Found, hkind, Shown.dialog] at hvalue
    obtain ⟨other, index', hother, hindex', rfl⟩ := hvalue
    rw [htext] at hother
    cases hother
    rw [hname, hfind] at hindex'
    rw [Option.some.inj hindex']

theorem buildSerialDialog_builtOnce {name context : String} {index : UInt16}
    (hnew : s.project.serialDialogs.find? name = none)
    (h : Yields (buildSerialDialog input (compileScript input) name context) s index t) :
    ∃ dialog, input.definitions.serialDialogs.find? name = some dialog ∧
      BuiltOnce input (.serialDialog input name dialog) name index s t := by
  have hcompile : ReplaysScripts input (compileScript input) := compileScript_replays
  have hreplays := buildSerialDialog_replays hcompile name context
  have hfollows := (hreplays.moves h).follows
  have hfind := buildSerialDialog_finds hcompile h
  obtain ⟨hfound, -⟩ | ⟨dialog, bytes, u, -, hdialog, hwithin, hcompose, hstore⟩ :=
    buildSerialDialog_cases h
  · rw [hnew] at hfound
    cases hfound
  have hlast := storeSerialDialog_composed hcompile hdialog hwithin hcompose hstore
  have hsettled := ((composeSerialDialog_replays hcompile name dialog).again _ _ _
    hcompose).mono hlast.2.1.follows.later
  refine ⟨dialog, hdialog, builtOnce_of_composed hcompose hstore hnew hfind
    (addOnce_known hstore) hfollows.serialDialogs ?_ ?_ ?_⟩
  · rintro record ⟨dialog', bytes', hdialog', rfl, hsettled'⟩
    obtain rfl := Option.some.inj (hdialog.symm.trans hdialog')
    rw [hsettled.unique hsettled']
    rfl
  · intro v w index' context' hrequest hwt
    exact hwt.later.serialDialogs _ _ (buildSerialDialog_finds hcompile hrequest)
  · refine hfollows.showsAs (hreplays.completes _ _ _ h)
      (show OperandKind.serialDialog ≠ .color by decide) ?_
    intro a operand value hkind htext hvalue
    simp only [Found, hkind, Shown.serialDialog] at hvalue
    obtain ⟨other, index', hother, hindex', rfl⟩ := hvalue
    rw [htext] at hother
    cases hother
    rw [hfind] at hindex'
    rw [Option.some.inj hindex']

/-- **However a dialog or a serial dialog leads back to itself, it is stored once**, and the bytes
    that are stored are those that the outermost call composed. A dialog needs a key that no other
    dialog has on the map. -/
theorem shown_again_stored_once (input : Input) :
    (∀ (s t : MapState) (name context : String) (index : UInt16),
      s.project.dialogs.find? (dialogKey s.map.name name) = none →
      (∀ other screens, input.definitions.dialogs.find? other = some screens →
        dialogKey s.map.name other = dialogKey s.map.name name → other = name) →
      Yields (buildDialog input (compileScript input) name context) s index t →
      ∃ screens, input.definitions.dialogs.find? name = some screens ∧
        BuiltOnce input (.dialog input s.map.name name screens) name index s t) ∧
    (∀ (s t : MapState) (name context : String) (index : UInt16),
      s.project.serialDialogs.find? name = none →
      Yields (buildSerialDialog input (compileScript input) name context) s index t →
      ∃ dialog, input.definitions.serialDialogs.find? name = some dialog ∧
        BuiltOnce input (.serialDialog input name dialog) name index s t) :=
  ⟨fun _ _ _ _ _ => buildDialog_builtOnce, fun _ _ _ _ _ => buildSerialDialog_builtOnce⟩

/-! ## A rumour -/

/-- A dialog of two screens. Whoever answers hears it again, and a serial dialog that leads back to
    both of them. -/
def rumour : Input where
  source := {
    read := fun name => .error (.missingFile name)
    contains := fun _ => false
    image := fun name => .error (.missingFile name) }
  definitions := {
    scripts := .ofList [("retell",
      [⟨"SHOW_DIALOG", .ofList [("dialog", .string "rumour")]⟩,
        ⟨"SHOW_SERIAL_DIALOG", .ofList [("serial_dialog", .string "riddle")]⟩])]
    dialogs := .ofList [("rumour",
      [{ (default : Screen) with messages := ["Listen."], options := [⟨"Again", "retell"⟩] },
        { (default : Screen) with messages := ["That is all."], options := [⟨"Why", "retell"⟩] }])]
    serialDialogs := .ofList [("riddle", ⟨["Who?"], [⟨"You", "retell"⟩], none⟩)] }

/-- A map of a project with a dialog frame. -/
def village : MapState where
  map := { name := "village", index := 0 }
  project := { dialogSkins := .ofList [(defaultSkin, 0)] }

theorem rumour_stored_once :
    (∃ t screens, Yields (buildDialog rumour (compileScript rumour) "rumour" "") village 0 t ∧
      BuiltOnce rumour (.dialog rumour "village" "rumour" screens) "rumour" 0 village t) ∧
    (∃ t dialog, Yields (buildSerialDialog rumour (compileScript rumour) "riddle" "") village 0 t ∧
      BuiltOnce rumour (.serialDialog rumour "riddle" dialog) "riddle" 0 village t) := by
  have hdialog : (outcome (buildDialog rumour (compileScript rumour) "rumour" "") village).1 =
      .ok 0 := by decide +kernel
  have hserial : (outcome (buildSerialDialog rumour (compileScript rumour) "riddle" "")
      village).1 = .ok 0 := by decide +kernel
  have hdistinct : ∀ other screens, rumour.definitions.dialogs.find? other = some screens →
      dialogKey "village" other = dialogKey "village" "rumour" → other = "rumour" := by
    intro other screens hother _
    have hmem := Ordered.mem_entries hother
    exact congrArg Prod.fst (List.mem_singleton.1 hmem)
  obtain ⟨hdialogs, hserials⟩ := shown_again_stored_once rumour
  obtain ⟨screens, -, honce⟩ :=
    hdialogs village _ _ _ _ rfl hdistinct (yields_outcome hdialog)
  obtain ⟨dialog, -, honce'⟩ := hserials village _ _ _ _ rfl (yields_outcome hserial)
  exact ⟨⟨_, screens, yields_outcome hdialog, honce⟩, _, dialog, yields_outcome hserial, honce'⟩

end GameBundle
