import GameBundle.Proofs.Build.Remembering

set_option autoImplicit false

/-! # What tells dialogs apart

Dialogs are asked for by the name of a map and the name of a dialog, and remembered by the key that
is made of both. As long as nothing else stores dialogs, two requests get the same record exactly if
their keys are the same, whatever was asked for before and whatever failed. A key does not have all
of the names in it, so two maps whose names differ can share a record. -/

namespace GameBundle

variable {input : Input}

/-! ## Requests -/

/-- A request for a dialog of a map. The context is for messages. -/
structure DialogRequest where
  map : MapContext
  name : String
  context : String

/-- What the dialog will be known by. -/
def DialogRequest.key (r : DialogRequest) : String := dialogKey r.map.name r.name

/-- Build the dialog or use the record it has. -/
def DialogRequest.run (r : DialogRequest) (input : Input) : Step Project UInt16 :=
  onMap r.map (buildDialog input (compileScript input) r.name r.context)

/-- Requests one after the other, with the result of each. One that fails does not stop those that
    come after it. -/
def answers (input : Input) : List DialogRequest → Project → List (Except Failure UInt16) × Project
  | [], p => ([], p)
  | r :: rest, p =>
    let (result, q) := outcome (r.run input) p
    let (results, q') := answers input rest q
    (result :: results, q')

/-! ## What requests leave -/

/-- A record that was composed for its key from the screens of a dialog, on one of the maps. -/
def DialogOf (input : Input) (maps : List String) (key : String) (record : Record) : Prop :=
  ∃ (u : MapState) (name : String) (screens : List Screen) (bytes : Bytes), u.map.name ∈ maps ∧
    input.definitions.dialogs.find? name = some screens ∧ key = dialogKey u.map.name name ∧
    record = ⟨key, some bytes⟩ ∧
    Settled (composeDialog (compileScript input) key name screens) bytes u

theorem DialogOf.mono {maps maps' : List String} {key : String} {record : Record}
    (h : DialogOf input maps key record) (hmaps : maps ⊆ maps') :
    DialogOf input maps' key record := by
  obtain ⟨u, name, screens, bytes, hmap, hdialog⟩ := h
  exact ⟨u, name, screens, bytes, hmaps hmap, hdialog⟩

/-- One request, whether it succeeds or not, keeps what is remembered and adds dialogs of its map.
    If it succeeds its key leads to the result. -/
theorem DialogRequest.run_spec (input : Input) (r : DialogRequest) (p : Project) :
    let q := (outcome (r.run input) p).2
    p.dialogs.StaysIn q.dialogs ∧
      Remembers (DialogOf input [r.map.name]) .dialogs Project.dialogs p q ∧
      ∀ index, (outcome (r.run input) p).1 = .ok index → q.dialogs.find? r.key = some index := by
  have hcompile : ReplaysScripts input (compileScript input) := compileScript_replays
  have hfollows := ((buildDialog_replays hcompile r.name r.context).proceeds ⟨r.map, p⟩).follows
  obtain ⟨added, hadded⟩ := hfollows.dialogs
  rw [DialogRequest.run, outcome_onMap]
  refine ⟨hfollows.later.dialogs, ⟨added, hadded.mono fun key record h => ?_⟩, fun index h => ?_⟩
  · obtain ⟨name, screens, bytes, hscreens, hkey, hrecord, hsettled⟩ := h
    refine ⟨_, name, screens, bytes, ?_, hscreens, hkey, hrecord, hsettled⟩
    rw [hfollows.later.name]
    exact List.mem_singleton_self _
  · have hfind := buildDialog_finds hcompile (yields_outcome h)
    exact hfind

/-- **All requests together.** The induction is on the requests that are still to come. -/
theorem answers_spec (input : Input) (requests : List DialogRequest) (p : Project) :
    let q := (answers input requests p).2
    p.dialogs.StaysIn q.dialogs ∧
      Remembers (DialogOf input (requests.map (·.map.name))) .dialogs Project.dialogs p q ∧
      List.Forall₂ (fun r result => ∀ index, result = .ok index →
        q.dialogs.find? r.key = some index) requests (answers input requests p).1 := by
  induction requests generalizing p with
  | nil => exact ⟨.refl _, ⟨[], .of_eq rfl rfl⟩, .nil⟩
  | cons r rest ih =>
    obtain ⟨hstays, ⟨added, hadded⟩, hresult⟩ := r.run_spec input p
    obtain ⟨hstays', ⟨more, hmore⟩, hresults⟩ := ih (outcome (r.run input) p).2
    refine ⟨hstays.trans hstays', ⟨added ++ more, ?_⟩, .cons (fun index h => ?_) hresults⟩
    · refine (hadded.mono fun _ _ h => h.mono ?_).trans (hmore.mono fun _ _ h => h.mono ?_)
      · exact List.cons_subset.2 ⟨List.mem_cons_self, List.nil_subset _⟩
      · exact List.subset_cons_self _ _
    · exact hstays' _ _ (hresult index h)

/-- **Two requests get the same record exactly if their keys are the same.** The record was composed
    for that key, from the screens of a dialog that has it on one of the maps. -/
theorem dialogs_told_apart_by_key (input : Input) (requests : List DialogRequest) {p : Project}
    (hnew : ∀ r ∈ requests, p.dialogs.find? r.key = none) :
    let results := (answers input requests p).1
    let q := (answers input requests p).2
    results.length = requests.length ∧
      (∀ (i j : Nat) (r r' : DialogRequest) (index index' : UInt16),
        requests[i]? = some r → requests[j]? = some r' →
        results[i]? = some (.ok index) → results[j]? = some (.ok index') →
        (index = index' ↔ r.key = r'.key)) ∧
      ∀ (i : Nat) (r : DialogRequest) (index : UInt16),
        requests[i]? = some r → results[i]? = some (.ok index) →
        ∃ record, (q.tables.records .dialogs)[index.toNat]? = some record ∧
          DialogOf input (requests.map (·.map.name)) r.key record := by
  obtain ⟨-, ⟨added, hadded⟩, hresults⟩ := answers_spec input requests p
  have hfind : ∀ {i : Nat} {r : DialogRequest} {index : UInt16}, requests[i]? = some r →
      (answers input requests p).1[i]? = some (.ok index) →
      p.dialogs.find? r.key = none ∧
        (answers input requests p).2.dialogs.find? r.key = some index := by
    intro i r index hi hindex
    obtain ⟨result, hresult, hkey⟩ := forall₂_getElem? hresults hi
    rw [hindex] at hresult
    obtain rfl := Option.some.inj hresult
    exact ⟨hnew r (List.mem_of_getElem? hi), hkey index rfl⟩
  refine ⟨hresults.length_eq.symm, ?_, ?_⟩
  · intro i j r r' index index' hi hj hindex hindex'
    obtain ⟨hr, hfound⟩ := hfind hi hindex
    obtain ⟨hr', hfound'⟩ := hfind hj hindex'
    constructor
    · rintro rfl
      exact hadded.key_unique hr hr' hfound hfound'
    · intro hkey
      rw [hkey, hfound'] at hfound
      exact (Option.some.inj hfound).symm
  · intro i r index hi hindex
    obtain ⟨hr, hfound⟩ := hfind hi hindex
    obtain ⟨record, -, hrecord, hdialog⟩ := hadded.record hr hfound
    exact ⟨record, hrecord, hdialog⟩

/-! ## Two maps with one key -/

/-- A greeting by Bob. -/
def greeting : Input where
  source := {
    read := fun name => .error (.missingFile name)
    contains := fun _ => false
    image := fun name => .error (.missingFile name) }
  definitions := {
    dialogs := .ofList
      [("greeting", [{ (default : Screen) with entity := some "Bob", messages := ["Hello."] }])] }

/-- The same dialog for two maps. Bob is the first entity of one and the second of the other. -/
def twoGreetings : List DialogRequest :=
  [⟨{ name := "town", index := 0, objects := #[⟨1, "Bob", .entity 0⟩] }, "greeting", "SHOW_DIALOG"⟩,
    ⟨{ name := "map-town", index := 1,
       objects := #[⟨1, "Ann", .entity 0⟩, ⟨2, "Bob", .entity 1⟩] }, "greeting", "SHOW_DIALOG"⟩]

/-- A project with a dialog frame and nothing else. -/
def framed : Project := { dialogSkins := .ofList [(defaultSkin, 0)] }

/-- The maps are different, and still the second one gets the dialog of the first. -/
theorem twoGreetings_share_a_record :
    (twoGreetings.map fun r => (r.map.name, r.name)).Nodup ∧
      (answers greeting twoGreetings framed).1.map Except.toOption = [some 0, some 0] := by
  decide +kernel

/-- The record that the second map gets. -/
theorem twoGreetings_second_record :
    (∀ r ∈ twoGreetings, framed.dialogs.find? r.key = none) ∧
      ∃ record, ((answers greeting twoGreetings framed).2.tables.records .dialogs)[0]? =
          some record ∧
        DialogOf greeting ["town", "map-town"] "map:town,dialog:greeting" record := by
  have hnew : ∀ r ∈ twoGreetings, framed.dialogs.find? r.key = none := by decide +kernel
  have hkey : ∀ r ∈ twoGreetings, r.key = "map:town,dialog:greeting" := by decide +kernel
  have hresult : (answers greeting twoGreetings framed).1[1]? = some (.ok 0) := by decide +kernel
  obtain ⟨-, -, hrecord⟩ := dialogs_told_apart_by_key greeting twoGreetings hnew
  obtain ⟨record, hget, hdialog⟩ := hrecord 1 _ 0 rfl hresult
  rw [hkey _ (by simp [twoGreetings])] at hdialog
  exact ⟨hnew, record, hget, hdialog⟩

end GameBundle
