import GameBundle.Proofs.Build.DialogsTold
import GameBundle.Proofs.Build.Portraits
import GameBundle.Proofs.Build.Reentry

set_option autoImplicit false

/-! # Dialogs of a bundle

Every dialog of a bundle was stored when one of the maps was compiled. Later maps leave its record
alone, and the texts it refers to keep their numbers, so in the bundle it says what it said then. -/

namespace GameBundle

variable {input : Input} {name : String} {settings : MapSettings} {s t : MapState} {p : Project}
  {bytes : Bytes}

/-! ## Maps -/

theorem compileAll_stores (scripts : List (String × String)) (s : MapState) :
    Moves (Stores input) (compileAll input scripts) s := by
  refine .mapM .refl Stores.trans (fun script _ t => ?_) s
  exact .bind Stores.trans (compileScript_stores input _ t) fun number u _ => Stores.refl u

theorem compileEvents_stores (tiled : Tiled.Map) (settings : MapSettings) (s : MapState) :
    Moves (Stores input) (compileEvents input tiled settings) s := by
  refine .bind Stores.trans (compileScript_stores input _ s) fun null t _ => .get_bind ?_
  refine .except_bind (.refl t) fun scripts _ => ?_
  exact .bind Stores.trans (compileAll_stores scripts t) fun numbers u _ => Stores.refl u

theorem wireSlot_stores {global : UInt16} {script : Option String} {offset : Nat}
    (h : Yields (wireSlot input global script offset) s () t) : Stores input s t := by
  cases script with
  | none =>
    obtain ⟨-, rfl⟩ := yields_pure.1 h
    exact .refl s
  | some script =>
    simp only [wireSlot, yields_bind, yields_onProject, yields_onTables, Tables.yields_update] at h
    obtain ⟨number, u, hnumber, _, ⟨_, ⟨record, old, new, hold, hnew, rfl⟩, rfl⟩, rfl⟩ := h
    refine .trans _ _ _ ((compileScript_stores input script s).of_yields hnumber) ?_
    exact .of_tables fun kind hkind =>
      Tables.records_set_of_ne (ne_of_mem_of_not_mem hkind (by decide))

theorem wireEntity_stores {global : UInt16} {e : Entity}
    (h : Yields (wireEntity input global e) s () t) : Stores input s t := by
  obtain ⟨u, hinteract, htick⟩ := yields_wireEntity.1 h
  exact .trans _ _ _ (wireSlot_stores hinteract) (wireSlot_stores htick)

/-- Once its objects are placed, all that a map adds for dialogs is complete. -/
theorem composeMap_stores {tiled : Tiled.Map} {tilesets : List (UInt32 × Tileset)}
    {layers : List Bytes} (h : Yields (composeMap input settings tiled tilesets layers) s bytes t) :
    ∃ r, Places s r ∧ Stores input r t := by
  simp only [composeMap, yields_bind, yields_get, yields_except, yields_pure] at h
  obtain ⟨placed, r, hplaced, events, u, hevents, directions, v, hdirections, _, w, hwired, _, _,
    ⟨rfl, rfl⟩, header, _, ⟨-, rfl⟩, -, rfl⟩ := h
  obtain ⟨composed, -, -, hadds⟩ := placeObjects_spec hplaced
  have hcompiled : Stores input r v := .trans _ _ _
    ((compileEvents_stores tiled settings r).of_yields hevents)
    ((compileAll_stores settings.directions.entries u).of_yields hdirections)
  have hentities : Stores input v w :=
    yields_forM (fun _ => True) (Stores input) (fun s _ => .refl s) Stores.trans
      (fun _ _ _ => trivial) (fun _ _ s t _ hwire => wireEntity_stores hwire) trivial hwired
  exact ⟨r, hadds.places, .trans _ _ _ hcompiled hentities⟩

/-- What a map adds for dialogs. -/
theorem CompiledMap.stores (h : CompiledMap input name settings p bytes s) :
    Added (fun record => ∃ key, CompleteDialog input s key record) .dialogs p.tables
        s.project.tables ∧
      Added (fun record => ∃ key, CompleteSerialDialog input s key record) .serialDialogs p.tables
        s.project.tables := by
  obtain ⟨path, tiled, tilesets, p', index, layers, -, -, htilesets, -, -, hcompose⟩ := h
  obtain ⟨r, hplaces, hstores⟩ := composeMap_stores hcompose
  have hapart := (loadTilesets_apart tiled).apart htilesets
  have hsame : ∀ kind ∈ [Kind.dialogs, .serialDialogs],
      p.tables.records kind = r.project.tables.records kind := by
    intro kind hkind
    have hframe := hplaces.frame kind (ne_of_mem_of_not_mem hkind (by decide))
      (ne_of_mem_of_not_mem hkind (by decide))
    have hkinds : ∀ kind ∈ [Kind.dialogs, .serialDialogs], kind ∈ mapKinds := by decide
    exact (hframe.trans (hapart.tables kind (hkinds kind hkind))).symm
  exact ⟨hstores.dialogs.added.congr (hsame _ (by decide)) rfl,
    hstores.serialDialogs.added.congr (hsame _ (by decide)) rfl⟩

/-! ## Whole builds -/

theorem buildShared_performs (p : Project) : Performs Unrestricted id (buildShared input) p := by
  refine .bind (storeVariables_adds.unrestricted _) fun _ _ _ => ?_
  refine .bind (reserveMaps_adds.unrestricted _) fun _ _ _ => ?_
  refine .bind (buildPrototypes_adds.unrestricted _) fun _ _ _ => ?_
  refine .bind (loadDialogSkins_adds.unrestricted _) fun _ _ _ => ?_
  refine .bind (buildPortraits_adds.unrestricted _) fun _ _ _ => ?_
  refine .bind (buildEntityTypes_performs _) fun _ _ _ => ?_
  exact .bind (addNullScript_adds.unrestricted _) fun _ _ _ => .pure _ _

theorem buildMap_unrestricted (name : String) (settings : MapSettings) (p : Project) :
    Performs Unrestricted id (buildMap input name settings) p :=
  (Request.wholeMap name settings).performs p

theorem keepsTexts_of_buildMap {q : Project} (h : Yields (buildMap input name settings) p () q) :
    p.KeepsTexts q := by
  have hperforms : Performs Unrestricted id (buildMap input name settings) p :=
    buildMap_unrestricted name settings p
  have hkeeps := hperforms.moves (R := Project.KeepsTexts) .refl (fun _ _ _ => .trans)
    fun q o _ => .operation o q
  rwa [show outcome _ p = (.ok (), q) from h] at hkeeps

/-- Whether it gets there or not, a build has stored all its texts. -/
theorem projectBefore_texts (input : Input) (i : Nat) : TextsStored (projectBefore input i) := by
  have hperforms : Performs Unrestricted id (buildUpTo input i) {} := by
    refine .bind (buildShared_performs _) fun _ p _ => ?_
    exact .forM (fun _ => True) trivial fun map _ q _ =>
      ⟨buildMap_unrestricted map.1 map.2 q, fun _ _ => trivial⟩
  have hstart : TextsStored (id ({} : Project)) := .empty
  exact hstart.performs hperforms

/-- The record is that of a dialog of one of the maps: `P` is true of it when that map has been
    compiled. -/
def OfSomeMap (input : Input) (P : MapState → Record → Prop) (record : Record) : Prop :=
  ∃ i name settings bytes s, input.definitions.maps.entries[i]? = some (name, settings) ∧
    CompiledMap input name settings (projectBefore input i) bytes s ∧ s.map.name = name ∧
    projectBefore input (i + 1) = s.project.fill .maps i bytes ∧ P s record

section Succeeds

variable {tables : Tables} (h : build input = .ok tables)
include h

/-- **Records that only maps add come from maps.** The induction is on the maps that have been
    built. -/
theorem ofSomeMap_of_build {kind : Kind} {P : MapState → Record → Prop} (hkind : kind ≠ .maps)
    (hempty : (projectBefore input 0).tables.records kind = #[])
    (hadds : ∀ name settings p bytes s, CompiledMap input name settings p bytes s →
      Added (P s) kind p.tables s.project.tables)
    {i : Nat} (hi : i ≤ input.definitions.maps.size) :
    ∀ record ∈ ((projectBefore input i).tables.records kind).toList,
      OfSomeMap input P record := by
  induction i with
  | zero => simp [hempty]
  | succ i ih =>
    have hmap := List.getElem?_eq_getElem hi
    obtain ⟨bytes, s, hcompiled, hbuilt, -, hafter⟩ := compiled_of_build h hmap
    obtain ⟨added, hadded, hP⟩ := hadds _ _ _ _ _ hcompiled
    intro record hrecord
    -- all that follows the compilation is that the record of the map is filled
    have hsame : (projectBefore input (i + 1)).tables.records kind =
        s.project.tables.records kind := by
      rw [hafter]
      exact Tables.records_set_of_ne hkind
    rw [hsame, hadded, List.mem_append] at hrecord
    rcases hrecord with hold | hnew
    · exact ih (Nat.le_of_succ_le hi) record hold
    · exact ⟨i, _, _, bytes, s, hmap, hcompiled, hbuilt.named, hafter, hP record hnew⟩

/-- Later maps leave the records of texts alone. -/
theorem keepsTexts_of_build {i j : Nat} (hij : i ≤ j) (hj : j ≤ input.definitions.maps.size) :
    (projectBefore input i).KeepsTexts (projectBefore input j) := by
  induction j, hij using Nat.le_induction with
  | base => exact .refl _
  | succ j hij ih =>
    obtain ⟨-, hbuild⟩ := yields_buildUpTo_succ (List.getElem?_eq_getElem hj) (yields_before h hj)
    exact (ih (Nat.le_of_succ_le hj)).trans (keepsTexts_of_buildMap hbuild)

/-- The texts of a map are in the bundle, with the same numbers. -/
theorem texts_of_build {i : Nat} (hi : i < input.definitions.maps.size)
    (hafter : projectBefore input (i + 1) = s.project.fill .maps i bytes) :
    Keeps s.texts (TextTold s.map (projectBefore input input.definitions.maps.size)) := by
  -- texts are stored when the record of the map is filled, and filling it does not concern them
  have hfilled := projectBefore_texts input (i + 1)
  rw [hafter] at hfilled
  have hrecords : ∀ pool : Pool, (s.project.fill .maps i bytes).tables.records pool.kind =
      s.project.tables.records pool.kind := fun pool =>
    Tables.records_set_of_ne (by cases pool <;> decide)
  have hs : TextsStored s.project := hfilled.of_same fun pool => ⟨(hrecords pool).symm, rfl⟩
  have hlast : s.project.KeepsTexts (projectBefore input input.definitions.maps.size) :=
    .trans (.of_same fun pool => ⟨hrecords pool, rfl⟩)
      (hafter ▸ keepsTexts_of_build h hi (Nat.le_refl _))
  intro text index htext
  exact hlast.told hs (projectBefore_texts input _) s.map _ _ (hs.told _ _ htext)

/-- What is told of a record when its map has been compiled is told of it in the bundle, if it is
    about scripts of the map and texts. -/
theorem told_of_build {kind : Kind} {P Q : MapState → Record → Prop} (hkind : kind ≠ .maps)
    (hempty : (projectBefore input 0).tables.records kind = #[])
    (hadds : ∀ name settings p bytes s, CompiledMap input name settings p bytes s →
      Added (P s) kind p.tables s.project.tables)
    (htold : ∀ s record,
      Keeps s.texts (TextTold s.map (projectBefore input input.definitions.maps.size)) →
      P s record → Q s record) :
    ∀ record ∈ (tables.records kind).toList, OfSomeMap input Q record := by
  intro record hrecord
  rw [← (yields_of_build h).2] at hrecord
  obtain ⟨i, name, settings, bytes, s, hmap, hcompiled, hnamed, hafter, hP⟩ :=
    ofSomeMap_of_build h hkind hempty hadds (Nat.le_refl _) record hrecord
  have htexts := texts_of_build h (List.getElem?_eq_some_iff.1 hmap).1 hafter
  exact ⟨i, name, settings, bytes, s, hmap, hcompiled, hnamed, hafter, htold s record htexts hP⟩

end Succeeds

/-! ## The main result -/

/-- The dialogs of a bundle: each was stored for one of the maps and says what its definition says,
    with the numbers that scripts have on the map and texts have in the bundle. -/
structure BundleTold (input : Input) (tables : Tables) : Prop where
  dialogs : ∀ record ∈ (tables.records .dialogs).toList,
    OfSomeMap input (fun s record => ∃ key, DialogTold input s.map
      (projectBefore input input.definitions.maps.size) key record) record
  serialDialogs : ∀ record ∈ (tables.records .serialDialogs).toList,
    OfSomeMap input (fun s record => ∃ name, SerialDialogTold input s.map
      (projectBefore input input.definitions.maps.size) name record) record

theorem bundleTold_of_build {tables : Tables} (h : build input = .ok tables) :
    BundleTold input tables where
  dialogs := told_of_build h (by decide) (prepared_of_build h).dialogs
    (fun _ _ _ _ _ hcompiled => hcompiled.stores.1)
    fun _ _ htexts ⟨key, hcomplete⟩ => ⟨key, hcomplete.told htexts⟩
  serialDialogs := told_of_build h (by decide) (prepared_of_build h).serialDialogs
    (fun _ _ _ _ _ hcompiled => hcompiled.stores.2)
    fun _ _ htexts ⟨name, hcomplete⟩ => ⟨name, hcomplete.told htexts⟩

/-- **A dialog that is stored reads back as it is defined**, screen by screen, and so does a serial
    dialog, response by response. That is so for all that is stored by any call, whether it succeeds
    or not, and for all that is in a bundle. -/
theorem dialogs_read_back (input : Input) :
    (∀ requests, TextsStored (afterRequests input requests)) ∧
      (∀ s, TextsStored s.project → CallsTold input s) ∧
      ∀ tables, build input = .ok tables → BundleTold input tables :=
  ⟨afterRequests_texts input, fun _ => TextsStored.callsTold, fun _ => bundleTold_of_build⟩

/-! ## At court -/

/-- The file of a map with the queen. -/
def courtFile : String :=
  "\x7b\"width\":0,\"height\":0,\"tilewidth\":2,\"tileheight\":2," ++
    "\"tilesets\":[\x7b\"firstgid\":1,\"source\":\"faces.json\"\x7d]," ++
    "\"layers\":[\x7b\"type\":\"objectgroup\",\"name\":\"\",\"objects\":[" ++
    "\x7b\"id\":1,\"name\":\"queen\",\"gid\":1\x7d]\x7d]\x7d"

/-- The herald announces the queen, who speaks under no name but that of her entity. The last screen
    has neither. -/
def audience : List Screen :=
  [{ (default : Screen) with
      name := some "Herald", entity := some "queen", messages := ["Bow.", "Speak."]
      options := [⟨"I bow.", "attend"⟩] },
    { (default : Screen) with name := some "", entity := some "queen", messages := ["Rise."] },
    { (default : Screen) with messages := ["She leaves."] }]

/-- An oath that is answered with a word, a meal that is chosen by number, and a farewell without an
    answer. -/
def courtesies : Ordered SerialDialog :=
  .ofList [("oath", ⟨["Swear.", "By what?"], [], some (.ofList [("My SWORD", "attend")])⟩),
    ("meal", ⟨["Eat."], [⟨"Meat", "attend"⟩, ⟨"Bread", "null_script"⟩], none⟩),
    ("farewell", ⟨["Go."], [], none⟩)]

def court : Input where
  source := .inMemory .none
    (.ofList [("hall.json", courtFile.toUTF8), ("faces.json", facesFile.toUTF8)])
    (.ofList [("faces.png", ⟨2, 2, 3, Array.replicate 12 0⟩)])
  definitions := {
    maps := .ofList [("hall", { path := some "hall.json", onLoad := some "attend" })]
    scripts := .ofList [("null_script", []), ("attend",
      ⟨"SHOW_DIALOG", .ofList [("dialog", .string "audience")]⟩ :: courtesies.keys.map fun name =>
        ⟨"SHOW_SERIAL_DIALOG", .ofList [("serial_dialog", .string name)]⟩)]
    dialogs := .ofList [("audience", audience)]
    serialDialogs := courtesies
    dialogSkins := .ofList [(defaultSkin, "faces.json")] }

/-- The text with this number. -/
def Tables.text? (tables : Tables) (id : UInt16) : Option String :=
  ((tables.records .strings)[id.toNat]?).map Record.name

/-- What is read of a screen, with texts behind or in place of their numbers. -/
structure SpokenScreen where
  title : UInt16 × Option String
  messages : List (Option String)
  responses : List (Option String × UInt16)
  deriving DecidableEq

/-- The screens of the first dialog. -/
def Tables.screens? (tables : Tables) : Option (List SpokenScreen) := do
  let record ← (tables.records .dialogs)[0]?
  let read ← ReadDialog.reader.readAll? (← record.bytes)
  return read.screens.map fun screen => {
    title := (screen.title, tables.text? screen.title)
    messages := screen.messages.map tables.text?
    responses := screen.responses.map fun response => (tables.text? response.1, response.2) }

/-- What is read of a serial dialog, with texts in place of their numbers. -/
structure SpokenSerialDialog where
  answers : UInt8
  message : Option String
  responses : List (Option String × UInt16)
  deriving DecidableEq

def Tables.serialDialogs? (tables : Tables) : Option (List SpokenSerialDialog) :=
  (tables.records .serialDialogs).toList.mapM fun record => do
    let read ← ReadSerialDialog.reader.readAll? (← record.bytes)
    return {
      answers := read.answers
      message := tables.text? read.message
      responses := read.responses.map fun response => (tables.text? response.1, response.2) }

/-- A rumour and the riddle in it read back where they are stored, and so does all that is said at
    court in its bundle. The screens have the names of the herald, of the queen and of nobody. -/
theorem rumour_reads_back :
    (∃ t record, Yields (buildDialog rumour (compileScript rumour) "rumour" "") village 0 t ∧
      (t.project.tables.records .dialogs)[0]? = some record ∧
      DialogTold rumour t.map t.project (dialogKey "village" "rumour") record) ∧
    (∃ t record, Yields (buildSerialDialog rumour (compileScript rumour) "riddle" "") village 0 t ∧
      (t.project.tables.records .serialDialogs)[0]? = some record ∧
      SerialDialogTold rumour t.map t.project "riddle" record) ∧
    ∃ tables, build court = .ok tables ∧ BundleTold court tables ∧
      tables.screens? = some [⟨(0, "Herald"), ["Bow.", "Speak."], [("I bow.", 1)]⟩,
        ⟨(4, "queen"), ["Rise."], []⟩, ⟨(6, ""), ["She leaves."], []⟩] ∧
      tables.serialDialogs? = some [⟨2, "Swear.\nBy what?", [("my sword", 1)]⟩,
        ⟨1, "Eat.", [("Meat", 1), ("Bread", 0)]⟩, ⟨0, "Go.", []⟩] := by
  have hdialog : (outcome (buildDialog rumour (compileScript rumour) "rumour" "") village).1 =
      .ok 0 := by decide +kernel
  have hserial : (outcome (buildSerialDialog rumour (compileScript rumour) "riddle" "")
      village).1 = .ok 0 := by decide +kernel
  have hvillage : TextsStored village.project := TextsStored.empty.of_same fun _ => ⟨rfl, rfl⟩
  have hcourt : (build court).toOption.map (fun tables => (tables.screens?, tables.serialDialogs?)) =
      some (some [⟨(0, "Herald"), ["Bow.", "Speak."], [("I bow.", 1)]⟩,
          ⟨(4, "queen"), ["Rise."], []⟩, ⟨(6, ""), ["She leaves."], []⟩],
        some [⟨2, "Swear.\nBy what?", [("my sword", 1)]⟩,
          ⟨1, "Eat.", [("Meat", 1), ("Bread", 0)]⟩, ⟨0, "Go.", []⟩]) := by decide +kernel
  obtain ⟨-, hcalls, -⟩ := dialogs_read_back rumour
  obtain ⟨-, -, hbuilds⟩ := dialogs_read_back court
  obtain ⟨record, hrecord, htold⟩ :=
    (hcalls village hvillage).dialogNumber _ _ _ _ rfl (yields_outcome hdialog)
  obtain ⟨record', hrecord', htold'⟩ :=
    (hcalls village hvillage).serialDialogNumber _ _ _ _ rfl (yields_outcome hserial)
  obtain ⟨tables, htables, hsaid⟩ := Option.map_eq_some_iff.1 hcourt
  have hbuild := eq_ok_of_toOption htables
  exact ⟨⟨_, record, yields_outcome hdialog, hrecord, htold⟩,
    ⟨_, record', yields_outcome hserial, hrecord', htold'⟩,
    tables, hbuild, hbuilds tables hbuild, Prod.mk.inj hsaid⟩

end GameBundle
