import GameBundle.Proofs.Build.Compiling
import GameBundle.Proofs.Build.Remembering

set_option autoImplicit false

/-! # Which dialogs are stored

A dialog with nothing to show is refused before any part of it is built, and so is a serial dialog
that cannot be answered in a single way. So all records that are added for them have a complete
definition, whatever is compiled and whether it succeeds or not. `Stores` is what every function
that compiles something does to a state in this respect; there is one lemma for each. -/

namespace GameBundle

variable {input : Input} {s t u : MapState}

/-! ## Complete definitions -/

/-- A dialog with something to show on each of its screens. -/
structure Showable (screens : List Screen) : Prop where
  nonempty : screens ≠ []
  speaks : ∀ screen ∈ screens, screen.messages ≠ []

/-- A serial dialog that says something and is answered in a single way. -/
structure SerialDialog.Showable (d : SerialDialog) : Prop where
  speaks : d.messages ≠ []
  single : d.options = [] ∨ d.textOptions = none
  few : d.answers.responses.length ≤ responseLimit

/-- The record is that of a complete dialog on the map, and it is settled what its bytes are. -/
def CompleteDialog (input : Input) (s : MapState) (key : String) (record : Record) : Prop :=
  ∃ name screens bytes, input.definitions.dialogs.find? name = some screens ∧ Showable screens ∧
    key = dialogKey s.map.name name ∧ record = ⟨key, some bytes⟩ ∧
    Settled (composeDialog (compileScript input) key name screens) bytes s

/-- The same for a serial dialog, which is remembered under its full name. -/
def CompleteSerialDialog (input : Input) (s : MapState) (name : String) (record : Record) : Prop :=
  ∃ dialog bytes, input.definitions.serialDialogs.find? name = some dialog ∧ dialog.Showable ∧
    record = ⟨serialDialogKey name, some bytes⟩ ∧
    Settled (composeSerialDialog (compileScript input) name dialog) bytes s

theorem CompleteDialog.mono {key : String} {record : Record} (h : CompleteDialog input s key record)
    (hst : Later s t) : CompleteDialog input t key record := by
  obtain ⟨name, screens, bytes, hscreens, hshowable, hkey, hrecord, hsettled⟩ := h
  exact ⟨name, screens, bytes, hscreens, hshowable, hst.name ▸ hkey, hrecord, hsettled.mono hst⟩

theorem CompleteSerialDialog.mono {name : String} {record : Record}
    (h : CompleteSerialDialog input s name record) (hst : Later s t) :
    CompleteSerialDialog input t name record := by
  obtain ⟨dialog, bytes, hdialog, hshowable, hrecord, hsettled⟩ := h
  exact ⟨dialog, bytes, hdialog, hshowable, hrecord, hsettled.mono hst⟩

/-! ## Adding dialogs -/

/-- No name loses its number, and all that is added for dialogs is complete in the end. -/
structure Stores (input : Input) (s t : MapState) : Prop where
  later : Later s t
  dialogs : Remembers (CompleteDialog input t) .dialogs Project.dialogs s.project t.project
  serialDialogs : Remembers (CompleteSerialDialog input t) .serialDialogs Project.serialDialogs
    s.project t.project

namespace Stores

/-- A change that has nothing to do with dialogs. -/
theorem of_others (hlater : Later s t)
    (hrecords : ∀ kind ∈ [Kind.dialogs, .serialDialogs],
      t.project.tables.records kind = s.project.tables.records kind)
    (hdialogs : t.project.dialogs = s.project.dialogs)
    (hserialDialogs : t.project.serialDialogs = s.project.serialDialogs) : Stores input s t where
  later := hlater
  dialogs := ⟨[], .of_eq (hrecords _ (by decide)) hdialogs⟩
  serialDialogs := ⟨[], .of_eq (hrecords _ (by decide)) hserialDialogs⟩

theorem refl (s : MapState) : Stores input s s := .of_others (.refl s) (fun _ _ => rfl) rfl rfl

theorem trans (s t u : MapState) (hst : Stores input s t) (htu : Stores input t u) :
    Stores input s u where
  later := hst.later.trans htu.later
  dialogs := by
    obtain ⟨added, hadded⟩ := hst.dialogs
    obtain ⟨more, hmore⟩ := htu.dialogs
    exact ⟨added ++ more, (hadded.mono fun _ _ h => h.mono htu.later).trans hmore⟩
  serialDialogs := by
    obtain ⟨added, hadded⟩ := hst.serialDialogs
    obtain ⟨more, hmore⟩ := htu.serialDialogs
    exact ⟨added ++ more, (hadded.mono fun _ _ h => h.mono htu.later).trans hmore⟩

/-- A record of another kind is added or filled. -/
theorem of_tables {tables : Tables}
    (hrecords : ∀ kind ∈ [Kind.dialogs, .serialDialogs],
      tables.records kind = s.project.tables.records kind) :
    Stores input s ⟨s.map, { s.project with tables }⟩ :=
  .of_others (.of_tables s tables) hrecords rfl rfl

end Stores

/-- The dialog is added, unless it was added in the meantime. -/
theorem storeDialog_stores {name : String} {screens : List Screen} {bytes : Bytes}
    (hsource : input.definitions.dialogs.find? name = some screens) (hshowable : Showable screens)
    (hsettled : Settled (composeDialog (compileScript input) (dialogKey s.map.name name) name
      screens) bytes s) :
    Moves (Stores input) (storeDialog (dialogKey s.map.name name) bytes) s := by
  refine (Atomic.onProject (atomic_addOnce _ _ _ _ _)).moves (.refl s) fun index t h => ?_
  obtain ⟨p, hp, rfl⟩ := yields_onProject.1 h
  rcases addOnce_cases hp with ⟨-, rfl⟩ | ⟨hnew, hroom, rfl, rfl⟩
  · exact .refl s
  · have hlater := (Writes.dialog name screens bytes hsource hnew hsettled hroom).later
    exact {
      later := hlater
      dialogs := ⟨_, .single hroom rfl (Ordered.entries_put _ hnew)
        ⟨name, screens, bytes, hsource, hshowable, rfl, rfl, hsettled.mono hlater⟩⟩
      serialDialogs := ⟨_, .of_eq (Tables.records_add_of_ne _ (by decide)) rfl⟩ }

theorem storeSerialDialog_stores {name : String} {dialog : SerialDialog} {bytes : Bytes}
    (hsource : input.definitions.serialDialogs.find? name = some dialog)
    (hshowable : dialog.Showable)
    (hsettled : Settled (composeSerialDialog (compileScript input) name dialog) bytes s) :
    Moves (Stores input) (storeSerialDialog name bytes) s := by
  refine (Atomic.onProject (atomic_addOnce _ _ _ _ _)).moves (.refl s) fun index t h => ?_
  obtain ⟨p, hp, rfl⟩ := yields_onProject.1 h
  rcases addOnce_cases hp with ⟨-, rfl⟩ | ⟨hnew, hroom, rfl, rfl⟩
  · exact .refl s
  · have hlater :=
      (Writes.serialDialog name dialog bytes hsource hshowable.few hnew hsettled hroom).later
    exact {
      later := hlater
      dialogs := ⟨_, .of_eq (Tables.records_add_of_ne _ (by decide)) rfl⟩
      serialDialogs := ⟨_, .single hroom rfl (Ordered.entries_put _ hnew)
        ⟨dialog, bytes, hsource, hshowable, rfl, hsettled.mono hlater⟩⟩ }

/-! ## Texts and responses -/

theorem internOnMap_stores (pool : Pool) (text : String) (s : MapState) :
    Moves (Stores input) (internOnMap pool text) s := by
  refine Atomic.moves (.get_bind fun _ => .onProject (atomic_intern _ _ _)) (.refl s)
    fun index t h => ?_
  have hlater := (internOnMap_writes input h).2.1.follows.later
  simp only [yields_bind, yields_get, yields_onProject] at h
  obtain ⟨_, _, ⟨rfl, rfl⟩, p, hp, rfl⟩ := h
  obtain rfl | ⟨value, pools, rfl⟩ := yields_intern hp
  · exact .refl s
  · refine .of_others hlater (fun kind hkind => Tables.records_add_of_ne _ ?_) rfl rfl
    rintro rfl
    cases pool <;> revert hkind <;> decide

/-- Compiling a script, all that is added for dialogs is complete. -/
abbrev StoresDialogs (input : Input) (compile : String → Step MapState UInt16) : Prop :=
  ∀ name s, Moves (Stores input) (compile name) s

variable {compile : String → Step MapState UInt16}

theorem buildResponse_stores (hstores : StoresDialogs input compile) (r : Response) (s : MapState) :
    Moves (Stores input) (buildResponse compile r) s := by
  refine .bind Stores.trans (internOnMap_stores _ _ s) fun label t _ => ?_
  exact .bind Stores.trans (hstores _ t) fun script u _ => Stores.refl u

theorem buildScreen_stores (hstores : StoresDialogs input compile) (screen : Screen)
    (context : String) (s : MapState) :
    Moves (Stores input) (buildScreen compile screen context) s := by
  refine .get_bind (.except_bind (.refl s) fun fixed _ => ?_)
  refine .bind Stores.trans (internOnMap_stores _ _ s) fun title t _ => ?_
  refine .bind Stores.trans (.mapM .refl Stores.trans (fun _ _ => internOnMap_stores _ _) t)
    fun messages u _ => ?_
  refine .bind Stores.trans (.mapM .refl Stores.trans
    (fun r _ => buildResponse_stores hstores r) u) fun responses v _ => ?_
  exact .except (.refl v)

/-! ## Dialogs -/

theorem buildDialog_stores (hcompile : ReplaysScripts input compile)
    (hstores : StoresDialogs input compile) (name context : String) (s : MapState) :
    Moves (Stores input) (buildDialog input compile name context) s := by
  refine .get_bind (.get_bind ?_)
  split
  · exact Stores.refl s
  · refine .orReject_bind (.refl s) fun screens hscreens => .rejectIf (.refl s) fun hsome => ?_
    cases hsilent : screens.findIdx? fun s => s.messages.isEmpty with
    | some screen => exact Stores.refl s
    | none =>
      have hshowable : Showable screens := {
        nonempty := fun hnil => hsome (List.isEmpty_iff.2 hnil)
        speaks := fun screen hmem hnil => by
          have hsays := List.findIdx?_eq_none_iff.1 hsilent screen hmem
          rw [List.isEmpty_iff.2 hnil] at hsays
          cases hsays }
      refine .except_bind (.refl s) fun header hheader => ?_
      refine .bind Stores.trans (.mapM .refl Stores.trans
        (fun q _ => buildScreen_stores hstores q.1 _) s) fun bodies u hbodies => ?_
      -- the last step stores what composing gives in the state the call began with
      have hcompose : Yields (composeDialog compile (dialogKey s.map.name name) name screens) s
          (bodies.foldl (· ++ ·) header) u :=
        yields_bind.2 ⟨header, s, yields_except.2 ⟨hheader, rfl⟩, yields_bind.2
          ⟨bodies, u, hbodies, yields_pure.2 ⟨rfl, rfl⟩⟩⟩
      have hreplays := composeDialog_replays hcompile (dialogKey s.map.name name) name screens
      have hsettled := hreplays.again _ _ _ hcompose
      rw [← (hreplays.moves hcompose).follows.later.name] at hsettled ⊢
      exact storeDialog_stores hscreens hshowable hsettled

theorem buildSerialDialog_stores (hcompile : ReplaysScripts input compile)
    (hstores : StoresDialogs input compile) (name context : String) (s : MapState) :
    Moves (Stores input) (buildSerialDialog input compile name context) s := by
  refine .get_bind ?_
  split
  · exact Stores.refl s
  · refine .orReject_bind (.refl s) fun dialog hdialog => .rejectIf (.refl s) fun hsays =>
      .rejectIf (.refl s) fun hsingle => .rejectIf (.refl s) fun hfew => ?_
    have hshowable : dialog.Showable := {
      speaks := fun hnil => hsays (List.isEmpty_iff.2 hnil)
      single := by
        simpa [Decidable.or_iff_not_imp_left] using hsingle
      few := Nat.not_lt.1 hfew }
    refine .bind Stores.trans (internOnMap_stores _ _ s) fun message u hmessage => ?_
    refine .bind Stores.trans (.mapM .refl Stores.trans
      (fun r _ => buildResponse_stores hstores r) u) fun responses v hresponses => ?_
    refine .except_bind (.refl v) fun bytes hbytes => ?_
    have hcompose : Yields (composeSerialDialog compile name dialog) s bytes v :=
      yields_bind.2 ⟨message, u, hmessage, yields_bind.2 ⟨responses, v, hresponses,
        yields_except.2 ⟨hbytes, rfl⟩⟩⟩
    exact storeSerialDialog_stores hdialog hshowable
      ((composeSerialDialog_replays hcompile name dialog).again _ _ _ hcompose)

/-! ## Actions -/

theorem resolve_stores (hcompile : ReplaysScripts input compile)
    (hstores : StoresDialogs input compile) (a : Action) (operand : Operand) (s : MapState) :
    Moves (Stores input) (resolve input compile a operand) s := by
  unfold resolve
  cases operand.kind with
  | entity | geometry | map =>
    refine .except_bind (.refl s) fun name _ => .get_bind ?_
    exact .except_bind (.refl s) fun number _ => Stores.refl s
  | entityType =>
    refine .except_bind (.refl s) fun name _ => .get_bind ?_
    cases s.project.entityTypes.find? name with
    | some type => exact Stores.refl s
    | none => exact Stores.refl s
  | script =>
    refine .except_bind (.refl s) fun name _ => ?_
    exact .bind Stores.trans (hstores name s) fun number t _ => Stores.refl t
  | text pool =>
    refine .except_bind (.refl s) fun text _ => ?_
    exact .bind Stores.trans (internOnMap_stores pool text s) fun number t _ => Stores.refl t
  | dialog =>
    refine .except_bind (.refl s) fun name _ => ?_
    exact .bind Stores.trans (buildDialog_stores hcompile hstores name _ s) fun _ t _ => Stores.refl t
  | serialDialog =>
    refine .except_bind (.refl s) fun name _ => ?_
    exact .bind Stores.trans (buildSerialDialog_stores hcompile hstores name _ s)
      fun _ t _ => Stores.refl t
  | key | turn | color | number | byte | twoBytes | bool => exact .except (.refl s)
  | unsupported => exact Stores.refl s

theorem encodeAction_stores (hcompile : ReplaysScripts input compile)
    (hstores : StoresDialogs input compile) (a : Action) (s : MapState) :
    Moves (Stores input) (encodeAction input compile a) s := by
  refine .orReject_bind (.refl s) fun opcode _ => .except_bind (.refl s) fun w _ => ?_
  refine .bind Stores.trans (.foldlM .refl Stores.trans (fun w operand _ t => ?_) w s)
    fun w t _ => Stores.refl t
  refine .bind Stores.trans (resolve_stores hcompile hstores a operand t) fun value u _ => ?_
  exact .except (.refl u)

/-! ## Scripts -/

theorem listScript_stores {name : String} (hnew : s.map.scriptNumber? name = none)
    (global : UInt16) : Moves (Stores input) (listScript name global) s := by
  refine Atomic.moves (atomic_listScript name global) (.refl s) fun number t h => ?_
  obtain ⟨-, rfl⟩ := yields_listScript.1 h
  have hlater : Later s ⟨s.map.listScript name global number, s.project⟩ :=
    ⟨rfl, .put hnew, fun _ => .refl _, .refl _, .refl _, rfl⟩
  exact .of_others hlater (fun _ _ => rfl) rfl rfl

theorem compileActions_stores (hcompile : ReplaysScripts input compile)
    (hstores : StoresDialogs input compile) {name : String} (actions : Script)
    (hnew : s.map.scriptNumber? name = none) :
    Moves (Stores input) (compileActions input compile name actions) s := by
  refine .except_bind (.refl s) fun header _ => ?_
  refine .bind Stores.trans ?_ fun global t hreserve => ?_
  · refine (Atomic.onProject (.onTables Tables.atomic_reserve)).moves (.refl s) fun _ _ h => ?_
    simp only [yields_onProject, yields_onTables, Tables.yields_reserve] at h
    obtain ⟨_, ⟨_, ⟨-, -, rfl⟩, rfl⟩, rfl⟩ := h
    exact .of_tables fun kind hkind =>
      Tables.records_add_of_ne _ (ne_of_mem_of_not_mem hkind (by decide))
  simp only [yields_onProject, yields_onTables, Tables.yields_reserve] at hreserve
  obtain ⟨_, ⟨_, ⟨-, -, rfl⟩, rfl⟩, rfl⟩ := hreserve
  refine .bind Stores.trans (listScript_stores (by exact hnew) global) fun number t _ => ?_
  refine .bind Stores.trans (.mapM .refl Stores.trans
    (fun a _ => encodeAction_stores hcompile hstores a) t) fun instructions u _ => ?_
  refine .bind Stores.trans ?_ fun _ v _ => Stores.refl v
  refine (Atomic.onProject (.onTables Tables.atomic_fill)).moves (.refl u) fun _ _ h => ?_
  simp only [yields_onProject, yields_onTables, Tables.yields_fill] at h
  obtain ⟨_, ⟨_, ⟨-, rfl⟩, rfl⟩, rfl⟩ := h
  exact .of_tables fun kind hkind =>
    Tables.records_set_of_ne (ne_of_mem_of_not_mem hkind (by decide))

theorem scriptNumber_stores {start : String → Script → Step MapState UInt16} {name : String}
    (hstart : ∀ actions, s.map.scriptNumber? name = none →
      Moves (Stores input) (start name actions) s) :
    Moves (Stores input) (scriptNumber input start name) s := by
  refine .get_bind ?_
  split
  · exact Stores.refl s
  · next hnew =>
    by_cases hnull : name = nullScript
    · rw [if_pos hnull]
      exact listScript_stores hnew 0
    · rw [if_neg hnull]
      refine .get_bind (.orReject_bind (.refl s) fun script _ => ?_)
      exact .except_bind (.refl s) fun actions _ => hstart actions hnew

/-- The induction is on how many compilations may be in progress. -/
theorem compileScript_stores (input : Input) : StoresDialogs input (compileScript input) := by
  have hwithin : ∀ depth, StoresDialogs input
      (compileWithin input (fun _ _ => throw .overrun) depth) := by
    intro depth
    induction depth with
    | zero => exact fun name s => scriptNumber_stores fun actions _ => Stores.refl s
    | succ depth ih =>
      exact fun name s => scriptNumber_stores fun actions hnew =>
        compileActions_stores (compileWithin_replays depth) ih actions hnew
  exact hwithin _

end GameBundle
