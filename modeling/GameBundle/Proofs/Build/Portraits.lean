import GameBundle.Proofs.Build.Finished
import GameBundle.Proofs.Build.Looks

set_option autoImplicit false

/-! # Portraits in records

A screen of a dialog and an entity type have one byte for a portrait. It is the number of the
portrait, and 255 stands for none. All that is checked when a record is encoded is whether the
number fits the byte, and 255 does. So the first 255 portraits are told apart from none, a record
that names a later one than the 256th is refused, and the 256th is stored as if none was named. -/

namespace GameBundle

variable {input : Input} {bytes : Bytes}

/-! ## The byte of a portrait -/

/-- The byte is the number of the portrait, or the one that stands for none. -/
def PortraitStored (numbers : Numbers) (portrait : Option String) (byte : UInt8) : Prop :=
  match portrait with
  | none => byte = noPortrait
  | some name => numbers name byte.toNat

/-- The record has that byte at a place. -/
def Bytes.StoresPortrait (bytes : Bytes) (offset : Nat) (numbers : Numbers)
    (portrait : Option String) : Prop :=
  ∃ byte, bytes[offset]? = some byte ∧ PortraitStored numbers portrait byte

/-- The portrait of an entity type if it has one: the one it names, else the one that has the name
    of the type. -/
def EntityTypeDef.portraitAmong (looks : EntityTypeDef) (portraits : List String) (name : String) :
    Option String :=
  looks.portrait <|> if name ∈ portraits then some name else none

/-- What a record says about a portrait: its number, and 255 if there is none. The portrait that
    has this very number is said like none. -/
structure Bytes.ShowsPortrait (bytes : Bytes) (offset : Nat) (numbers : Numbers)
    (portrait : Option String) : Prop where
  stored : bytes.StoresPortrait offset numbers portrait
  marked : bytes[offset]? = some noPortrait ↔
    portrait = none ∨ ∃ name, portrait = some name ∧ numbers name 255

/-- No portrait has two numbers. -/
def Numbers.Unique (numbers : Numbers) : Prop :=
  ∀ name m n, numbers name m → numbers name n → m = n

theorem Ordered.unique_numbers {portraits : Ordered UInt16} : portraits.numbers.Unique := by
  rintro name _ _ ⟨index, hindex, rfl⟩ ⟨other, hother, rfl⟩
  rw [hindex] at hother
  cases hother
  rfl

theorem PortraitStored.eq_noPortrait_iff {numbers : Numbers} {portrait : Option String}
    {byte : UInt8} (hunique : numbers.Unique)
    (h : PortraitStored numbers portrait byte) :
    byte = noPortrait ↔
      portrait = none ∨ ∃ name, portrait = some name ∧ numbers name 255 := by
  cases portrait with
  | none => exact ⟨fun _ => Or.inl rfl, fun _ => h⟩
  | some name =>
    constructor
    · rintro rfl
      exact Or.inr ⟨name, rfl, h⟩
    · rintro (hnone | ⟨other, hother, hlast⟩)
      · cases hnone
      · cases hother
        exact UInt8.toNat_inj.1 (hunique name _ _ h hlast)

theorem Bytes.StoresPortrait.shows {numbers : Numbers} {portrait : Option String} {offset : Nat}
    (h : bytes.StoresPortrait offset numbers portrait) (hunique : numbers.Unique) :
    bytes.ShowsPortrait offset numbers portrait where
  stored := h
  marked := by
    obtain ⟨byte, hbyte, hstored⟩ := h
    rw [hbyte, Option.some.injEq, hstored.eq_noPortrait_iff hunique]

theorem Bytes.StoresPortrait.mono {numbers numbers' : Numbers} {portrait : Option String}
    {offset : Nat} (h : bytes.StoresPortrait offset numbers portrait)
    (hmono : ∀ name n, numbers name n → numbers' name n) :
    bytes.StoresPortrait offset numbers' portrait := by
  obtain ⟨byte, hbyte, hstored⟩ := h
  refine ⟨byte, hbyte, ?_⟩
  cases portrait with
  | none => exact hstored
  | some name => exact hmono name _ hstored

section Encoders

variable {portraits : Ordered UInt16} {name context portrait : String} {byte : UInt8}
  {index : UInt16}

theorem numberByte_eq_ok :
    byteOf context index.toNat = .ok byte ↔ index.toNat = byte.toNat :=
  byteOf_eq_ok_iff.trans eq_comm

/-- The portrait of a screen is encoded exactly if there is a byte for it. -/
theorem Screen.portraitByte_eq_ok {screen : Screen} :
    screen.portraitByte portraits context = .ok byte ↔
      PortraitStored portraits.numbers (nonEmpty? screen.portrait) byte := by
  unfold Screen.portraitByte PortraitStored Ordered.numbers
  cases nonEmpty? screen.portrait with
  | none => simp [eq_comm]
  | some name =>
    cases hindex : portraits.find? name with
    | none => simp [hindex]
    | some index => simp [hindex, numberByte_eq_ok]

/-- The same for the portrait of an entity type. -/
theorem portraitByte_eq_ok {looks : EntityTypeDef} :
    portraitByte portraits name looks context = .ok byte ↔
      PortraitStored portraits.numbers (looks.portraitAmong portraits.keys name) byte := by
  unfold portraitByte PortraitStored Ordered.numbers EntityTypeDef.portraitAmong
  cases looks.portrait with
  | some portrait =>
    cases hindex : portraits.find? portrait with
    | none => simp [hindex]
    | some index => simp [hindex, numberByte_eq_ok]
  | none =>
    by_cases hname : name ∈ portraits.keys
    · obtain ⟨index, hindex⟩ := Ordered.exists_find? hname
      simp [hname, hindex, numberByte_eq_ok]
    · have hnone : portraits.find? name = none :=
        Option.eq_none_iff_forall_ne_some.2 fun index h => hname (Ordered.mem_keys h)
      simp [hname, hnone, eq_comm]

/-- The number of a portrait that no byte can hold is refused. -/
theorem Screen.portraitByte_eq_error {screen : Screen}
    (hportrait : nonEmpty? screen.portrait = some portrait)
    (hindex : portraits.find? portrait = some index) (hlarge : UInt8.size ≤ index.toNat) :
    screen.portraitByte portraits context =
      .error (.fieldOverflow s!"{context} portrait" index.toNat 1) := by
  rw [Screen.portraitByte, hportrait]
  dsimp only
  rw [hindex]
  exact if_neg (Nat.not_lt.2 hlarge)

theorem portraitByte_eq_error {looks : EntityTypeDef}
    (hportrait : looks.portraitAmong portraits.keys name = some portrait)
    (hindex : portraits.find? portrait = some index) (hlarge : UInt8.size ≤ index.toNat) :
    portraitByte portraits name looks context =
      .error (.fieldOverflow s!"{context} portrait" index.toNat 1) := by
  have hfound : portraits.find? (looks.portrait.getD name) = some index := by
    unfold EntityTypeDef.portraitAmong at hportrait
    cases hnamed : looks.portrait with
    | some other =>
      rw [hnamed] at hportrait
      cases hportrait
      exact hindex
    | none =>
      rw [hnamed] at hportrait
      change (if name ∈ portraits.keys then some name else none) = some portrait at hportrait
      split at hportrait
      · cases hportrait
        exact hindex
      · cases hportrait
  rw [portraitByte, hfound]
  exact if_neg (Nat.not_lt.2 hlarge)

end Encoders

/-! ## Screens and entity types -/

/-- Where a screen has its portrait. -/
def Screen.portraitOffset : Nat := 10

/-- Where an entity type has its portrait. -/
def EntityType.portraitOffset : Nat := 34

section Records

variable {compile : String → Step MapState UInt16} {context key name : String} {s t : MapState}

theorem size_of_buildScreen {screen : Screen}
    (h : Yields (buildScreen compile screen context) s bytes t) : bytes.size = screen.length := by
  obtain ⟨_, _, _, _, _, _, -, -, -, -, hencode⟩ := yields_buildScreen h
  exact Record.size_of_encode hencode

/-- **What a screen says about its portrait**, in any project and whatever compiles its scripts. -/
theorem buildScreen_portrait {screen : Screen}
    (h : Yields (buildScreen compile screen context) s bytes t) :
    bytes.size = screen.length ∧ bytes.StoresPortrait Screen.portraitOffset
      s.project.portraits.numbers (nonEmpty? screen.portrait) := by
  obtain ⟨fixed, title, u, messages, v, responses, hfixed, -, -, -, hencode⟩ :=
    yields_buildScreen h
  have hfields := (Record.hasFields_of_encode hencode).left.left.right
  simp only [Screen.fixedFields, bind_eq_ok, pure_eq_ok] at hfixed
  obtain ⟨_, -, byte, hbyte, _, -, _, -, _, -, _, -, _, -, rfl⟩ := hfixed
  obtain ⟨-, -, -, -, -, -, -, -, -, -, -, -, -, -, hportrait, -⟩ := hfields
  exact ⟨size_of_buildScreen h, byte, hportrait.byte?, Screen.portraitByte_eq_ok.1 hbyte⟩

/-- **What an entity type says about its portrait.** -/
theorem encodeEntityType_portrait {portraits : Ordered UInt16} {looks : EntityTypeDef}
    {tileset : Tileset} (h : encodeEntityType portraits name looks tileset = .ok bytes) :
    bytes.StoresPortrait EntityType.portraitOffset portraits.numbers
      (looks.portraitAmong portraits.keys name) := by
  obtain ⟨byte, _, hbyte, -, -, hencode⟩ := encodeEntityType_eq_ok.1 h
  obtain ⟨-, -, -, -, hportrait, -⟩ := (Record.hasFields_of_encode hencode).left
  exact ⟨byte, hportrait.byte?, portraitByte_eq_ok.1 hbyte⟩

/-- A mistake in the fixed fields of a screen is found before anything is done. -/
theorem buildScreen_fails {screen : Screen} {e : BuildError}
    (h : screen.fixedFields s.map s.project context = .error e) :
    Fails (buildScreen compile screen context) s (.error e) s := by
  rw [buildScreen, fails_bind]
  refine .inr ⟨s, s, yields_get.2 ⟨rfl, rfl⟩, fails_bind.2 (.inl (fails_except.2 ⟨?_, rfl⟩))⟩
  exact liftM_eq_error.2 ⟨e, h, rfl⟩

/-- A screen with a portrait whose number no byte can hold is refused before anything is done. Only
    a mistake about its entity is found earlier. -/
theorem buildScreen_refuses {screen : Screen} {portrait : String} {index : UInt16}
    (hportrait : nonEmpty? screen.portrait = some portrait)
    (hindex : s.project.portraits.find? portrait = some index)
    (hlarge : UInt8.size ≤ index.toNat) :
    ∃ e, outcome (buildScreen compile screen context) s = (.error (.error e), s) ∧
      ∀ entity, screen.entityByte s.map context = .ok entity →
        e = .fieldOverflow s!"{context} portrait" index.toNat 1 := by
  have hrefused : screen.portraitByte s.project.portraits context =
      .error (.fieldOverflow s!"{context} portrait" index.toNat 1) :=
    Screen.portraitByte_eq_error hportrait hindex hlarge
  cases hentity : screen.entityByte s.map context with
  | error e =>
    refine ⟨e, buildScreen_fails ?_, by simp⟩
    rw [Screen.fixedFields, hentity]
    rfl
  | ok entity =>
    refine ⟨_, buildScreen_fails ?_, fun _ _ => rfl⟩
    rw [Screen.fixedFields, hentity, hrefused]
    rfl

theorem encodeEntityType_refuses {portraits : Ordered UInt16} {looks : EntityTypeDef}
    {tileset : Tileset} {portrait : String} {index : UInt16}
    (hportrait : looks.portraitAmong portraits.keys name = some portrait)
    (hindex : portraits.find? portrait = some index) (hlarge : UInt8.size ≤ index.toNat) :
    encodeEntityType portraits name looks tileset =
      .error (.error (.fieldOverflow s!"entity type \"{name}\" portrait" index.toNat 1)) := by
  have hcontext : s!"entity type \"{name}\"" ++ " portrait" = s!"entity type \"{name}\" portrait" :=
    String.append_assoc
  rw [encodeEntityType, portraitByte_eq_error hportrait hindex hlarge, ← hcontext]
  rfl

theorem Later.portraits (h : Later s t) : t.project.portraits = s.project.portraits := by
  rw [h.project]

/-- A dialog has its screens one behind the other. What a byte of each of them says when it is
    built, and still says when more is compiled, it says in the dialog. -/
theorem composeDialog_byte {screens : List Screen} {P : Screen → UInt8 → MapState → Prop}
    {offset : Nat} (hmono : ∀ screen byte s t, Later s t → P screen byte s → P screen byte t)
    (hbuild : ∀ screen context s body t,
      Yields (buildScreen (compileScript input) screen context) s body t → Later s t →
        ∃ byte, body[offset]? = some byte ∧ P screen byte t)
    (h : Yields (composeDialog (compileScript input) key name screens) s bytes t) {j : Nat}
    {screen : Screen} (hj : screens[j]? = some screen) :
    ∃ byte, bytes[screenOffset screens j + offset]? = some byte ∧ P screen byte t := by
  simp only [composeDialog, yields_bind, yields_except, yields_pure] at h
  obtain ⟨header, _, ⟨hheader, rfl⟩, bodies, t, hbodies, rfl, rfl⟩ := h
  obtain ⟨-, hall⟩ := later_mapM (fun (q : Screen × Nat) (body : Bytes) u =>
      body.size = q.1.length ∧ ∃ byte, body[offset]? = some byte ∧ P q.1 byte u)
    (fun _ _ _ _ hlater hscreen => by
      obtain ⟨hsize, byte, hbyte, hP⟩ := hscreen
      exact ⟨hsize, byte, hbyte, hmono _ _ _ _ hlater hP⟩)
    (fun q s body t h => by
      have hlater := ((buildScreen_replays compileScript_replays q.1 _).moves h).follows.later
      exact ⟨hlater, size_of_buildScreen h, hbuild _ _ _ _ _ h hlater⟩) hbodies
  rw [← List.forall₂_map_left_iff (f := Prod.fst)
    (R := fun (screen : Screen) (body : Bytes) => body.size = screen.length ∧
      ∃ byte, body[offset]? = some byte ∧ P screen byte t), List.zipIdx_map_fst] at hall
  have hsizes : bodies.map Array.size = screens.map Screen.length :=
    map_eq_of_forall₂ (hall.imp fun _ _ h => h.1)
  obtain ⟨body, hbody, -, byte, hbyte, hP⟩ := forall₂_getElem? hall hj
  have hat := hasAt_concat_screens (Record.size_of_encode hheader) hsizes hbody
  obtain ⟨hlt, -⟩ := Array.getElem?_eq_some_iff.1 hbyte
  refine ⟨byte, ?_, hP⟩
  rw [hat _ (by rwa [Array.length_toList]), Array.getElem?_toList, hbyte]

/-- No screen touches the portraits, so each says the same as by itself. -/
theorem composeDialog_portraits {screens : List Screen}
    (h : Yields (composeDialog (compileScript input) key name screens) s bytes t) {j : Nat}
    {screen : Screen} (hj : screens[j]? = some screen) :
    bytes.StoresPortrait (screenOffset screens j + Screen.portraitOffset)
      t.project.portraits.numbers (nonEmpty? screen.portrait) :=
  composeDialog_byte
    (P := fun screen byte u =>
      PortraitStored u.project.portraits.numbers (nonEmpty? screen.portrait) byte)
    (fun _ _ _ _ hlater hstored => by rwa [hlater.portraits])
    (fun _ _ _ _ _ hbuild hlater => by
      rw [hlater.portraits]
      exact (buildScreen_portrait hbuild).2) h hj

end Records

/-! ## Whole builds -/

/-- The record of a type is filled and says which portrait it has. -/
def TypeStored (numbers : Numbers) (portraits : List String) (name : String)
    (looks : EntityTypeDef) (record : Record) : Prop :=
  ∃ bytes, record.bytes = some bytes ∧ bytes.StoresPortrait EntityType.portraitOffset numbers
    (looks.portraitAmong portraits name)

/-- The numbers of the portraits of a project: their places among its definitions. -/
def Input.portraitNumbers (input : Input) : Numbers := fun name n =>
  input.definitions.portraits.keys[n]? = some name

/-- Portraits and types have the records they will have in the bundle. -/
structure LooksDone (input : Input) (p : Project) : Prop where
  portraits : PortraitsNumbered p
  keys : p.portraits.keys = input.definitions.portraits.keys
  names : (p.tables.records .entityTypes).toList.map Record.name =
    input.definitions.entityTypes.keys
  types : ∀ (i : Nat) name looks, input.definitions.entityTypes.entries[i]? = some (name, looks) →
    ∃ record, (p.tables.records .entityTypes)[i]? = some record ∧
      TypeStored input.portraitNumbers input.definitions.portraits.keys name looks record

theorem LooksDone.numbers {p : Project} (h : LooksDone input p) {name : String} {n : Nat}
    (hn : p.portraits.numbers name n) : input.portraitNumbers name n := by
  have hplace := h.portraits.places name n hn
  rwa [h.keys] at hplace

theorem LooksDone.of_same {p q : Project} (h : LooksDone input p) (hsame : SameLooks p q) :
    LooksDone input q where
  portraits := h.portraits.of_same hsame.portraits (hsame.records _ (by decide))
  keys := by rw [hsame.portraits, h.keys]
  names := by rw [hsame.records _ (by decide), h.names]
  types := by
    rw [hsame.records _ (by decide)]
    exact h.types

theorem LooksEncoded.done {p : Project} (h : LooksEncoded input p) : LooksDone input p where
  portraits := h.numbered
  keys := h.keys
  names := h.names
  types i name looks hi := by
    obtain ⟨tileset, bytes, -, hencode, hrecord⟩ := h.types i name looks hi
    have hstored := encodeEntityType_portrait hencode
    rw [h.keys] at hstored
    refine ⟨_, hrecord, bytes, rfl, hstored.mono fun other n hn => ?_⟩
    have hplace := h.numbered.places other n hn
    rwa [h.keys] at hplace

/-! ## Dialogs -/

/-- The record of a dialog says which portraits its screens have. -/
def DialogStored (input : Input) (record : Record) : Prop :=
  ∃ map name screens bytes, input.definitions.dialogs.find? name = some screens ∧
    record = ⟨dialogKey map name, some bytes⟩ ∧
    ∀ j screen, screens[j]? = some screen →
      bytes.StoresPortrait (screenOffset screens j + Screen.portraitOffset) input.portraitNumbers
        (nonEmpty? screen.portrait)

/-- What is settled about a dialog on a map, seen from the definitions. -/
theorem SettledDialog.stored {s : MapState} {key : String} {record : Record}
    (h : SettledDialog input s key record) (hlooks : LooksDone input s.project) :
    DialogStored input record := by
  obtain ⟨name, screens, bytes, hscreens, rfl, rfl, hsettled⟩ := h
  refine ⟨s.map.name, name, screens, bytes, hscreens, rfl, fun j screen hj => ?_⟩
  exact (composeDialog_portraits hsettled.now hj).mono fun _ _ => hlooks.numbers

section Succeeds

variable {tables : Tables} (h : build input = .ok tables)
include h

/-- The induction is on the maps that have been built. -/
theorem portraits_of_build {i : Nat} (hi : i ≤ input.definitions.maps.size) :
    LooksDone input (projectBefore input i) ∧
      ∀ record ∈ ((projectBefore input i).tables.records .dialogs).toList,
        DialogStored input record := by
  induction i with
  | zero =>
    obtain ⟨_, p, hshared, hnone⟩ := yields_bind.1 (yields_before h (Nat.zero_le _))
    rw [List.take_zero] at hnone
    rw [← yields_forM_nil.1 hnone]
    refine ⟨(buildShared_encoded hshared).done, ?_⟩
    rw [(buildShared_spec hshared).dialogs]
    simp
  | succ i ih =>
    obtain ⟨hlooks, hdialogs⟩ := ih (Nat.le_of_succ_le hi)
    have hmap := List.getElem?_eq_getElem hi
    obtain ⟨bytes, s, -, hbuilt, -, hafter⟩ := compiled_of_build h hmap
    obtain ⟨-, hbuild⟩ := yields_buildUpTo_succ hmap (yields_before h hi)
    have hsame : SameLooks (projectBefore input i) (projectBefore input (i + 1)) :=
      (generous_aside.buildMap (fun _ _ _ _ _ _ _ _ _ => trivial) _ _).sameLooks hbuild
    have hnext := hlooks.of_same hsame
    refine ⟨hnext, fun record hrecord => ?_⟩
    -- all that is done to the project after its dialogs is that the record of the map is filled
    have hstate : LooksDone input s.project := hnext.of_same {
      portraits := by rw [hafter]; rfl
      entityTypes := by rw [hafter]; rfl
      records := fun kind hkind => by
        rw [hafter, Project.fill, Tables.records_set_of_ne]
        rintro rfl
        exact absurd hkind (by decide) }
    rw [hafter, Project.fill, Tables.records_set_of_ne (by decide)] at hrecord
    obtain ⟨added, hadded, hsettled⟩ := hbuilt.dialogs
    rw [hadded, List.mem_append] at hrecord
    rcases hrecord with hold | hnew
    · exact hdialogs record hold
    · obtain ⟨key, hkey⟩ := hsettled record hnew
      exact hkey.stored hstate

end Succeeds

/-! ## The main result -/

theorem Input.unique_portraitNumbers : input.portraitNumbers.Unique := by
  intro name m n hm hn
  obtain ⟨hlt, -⟩ := List.getElem?_eq_some_iff.1 hm
  exact (List.getElem?_inj hlt input.definitions.portraits.nodup_keys).1 (hm.trans hn.symm)

/-- What a screen says about its portrait, wherever it is built. A portrait whose number no byte
    can hold is refused. -/
structure ScreenTells (compile : String → Step MapState UInt16) (screen : Screen)
    (context : String) (s : MapState) : Prop where
  encoded : ∀ bytes t, Yields (buildScreen compile screen context) s bytes t →
    bytes.ShowsPortrait Screen.portraitOffset s.project.portraits.numbers
      (nonEmpty? screen.portrait)
  refused : ∀ portrait index, nonEmpty? screen.portrait = some portrait →
    s.project.portraits.find? portrait = some index → UInt8.size ≤ index.toNat →
      ∃ e, outcome (buildScreen compile screen context) s = (.error (.error e), s) ∧
        ∀ entity, screen.entityByte s.map context = .ok entity →
          e = .fieldOverflow s!"{context} portrait" index.toNat 1

/-- The same for an entity type. -/
structure TypeTells (portraits : Ordered UInt16) (name : String) (looks : EntityTypeDef)
    (tileset : Tileset) : Prop where
  encoded : ∀ bytes, encodeEntityType portraits name looks tileset = .ok bytes →
    bytes.ShowsPortrait EntityType.portraitOffset portraits.numbers
      (looks.portraitAmong portraits.keys name)
  refused : ∀ portrait index, looks.portraitAmong portraits.keys name = some portrait →
    portraits.find? portrait = some index → UInt8.size ≤ index.toNat →
      encodeEntityType portraits name looks tileset =
        .error (.error (.fieldOverflow s!"entity type \"{name}\" portrait" index.toNat 1))

/-- What a bundle says about portraits. The number of a portrait is the place of its record. -/
structure PortraitsTold (input : Input) (tables : Tables) : Prop where
  portraits : (tables.records .portraits).toList.map Record.name =
    input.definitions.portraits.keys
  entityTypes : (tables.records .entityTypes).toList.map Record.name =
    input.definitions.entityTypes.keys
  types : ∀ (i : Nat) name looks, input.definitions.entityTypes.entries[i]? = some (name, looks) →
    ∃ bytes, (tables.records .entityTypes)[i]? = some ⟨name, some bytes⟩ ∧
      bytes.ShowsPortrait EntityType.portraitOffset input.portraitNumbers
        (looks.portraitAmong input.definitions.portraits.keys name)
  dialogs : ∀ record ∈ (tables.records .dialogs).toList, ∃ map name screens bytes,
    input.definitions.dialogs.find? name = some screens ∧
    record = ⟨dialogKey map name, some bytes⟩ ∧
    ∀ j screen, screens[j]? = some screen →
      bytes.ShowsPortrait (screenOffset screens j + Screen.portraitOffset) input.portraitNumbers
        (nonEmpty? screen.portrait)

theorem LooksDone.typeRecord {p : Project} (h : LooksDone input p) {i : Nat} {name : String}
    {looks : EntityTypeDef}
    (hi : input.definitions.entityTypes.entries[i]? = some (name, looks)) :
    ∃ bytes, (p.tables.records .entityTypes)[i]? = some ⟨name, some bytes⟩ ∧
      bytes.ShowsPortrait EntityType.portraitOffset input.portraitNumbers
        (looks.portraitAmong input.definitions.portraits.keys name) := by
  obtain ⟨⟨own, _⟩, hrecord, bytes, rfl, hstored⟩ := h.types i name looks hi
  have hname : own = name := by
    have hkey : input.definitions.entityTypes.keys[i]? = some name := by
      rw [Ordered.keys, List.getElem?_map, hi]
      rfl
    rw [← h.names, List.getElem?_map, Array.getElem?_toList, hrecord] at hkey
    exact Option.some.inj hkey
  exact ⟨bytes, hname ▸ hrecord, hstored.shows Input.unique_portraitNumbers⟩

/-- **Every record that is encoded says which portrait is meant, but for the portrait whose number
    is the one that stands for none.** One with a number that no byte can hold is refused. -/
theorem portraits_told (input : Input) :
    (∀ compile screen context s, ScreenTells compile screen context s) ∧
      (∀ portraits name looks tileset, TypeTells portraits name looks tileset) ∧
      ∀ tables, build input = .ok tables → PortraitsTold input tables := by
  refine ⟨fun compile screen context s => ⟨fun bytes t hbuild => ?_, fun portrait index => ?_⟩,
    fun portraits name looks tileset => ⟨fun bytes hencode => ?_, fun portrait index => ?_⟩,
    fun tables h => ?_⟩
  · exact (buildScreen_portrait hbuild).2.shows Ordered.unique_numbers
  · exact buildScreen_refuses
  · exact (encodeEntityType_portrait hencode).shows Ordered.unique_numbers
  · exact encodeEntityType_refuses
  · obtain ⟨hlooks, hdialogs⟩ := portraits_of_build h (Nat.le_refl _)
    obtain ⟨-, rfl⟩ := yields_of_build h
    refine ⟨hlooks.portraits.names.trans hlooks.keys, hlooks.names,
      fun i name looks hi => hlooks.typeRecord hi, fun record hrecord => ?_⟩
    obtain ⟨map, name, screens, bytes, hscreens, heq, hstored⟩ := hdialogs record hrecord
    exact ⟨map, name, screens, bytes, hscreens, heq, fun j screen hj =>
      (hstored j screen hj).shows Input.unique_portraitNumbers⟩

/-! ## An example -/

/-- A screen with a face. -/
def speaking (face : String) : Screen :=
  { (default : Screen) with portrait := some face, messages := ["Hello."] }

/-- A hero with a face. -/
def hero (face : String) : EntityTypeDef := ⟨"faces.json", ∅, some face⟩

/-- The numbers of 257 portraits. -/
def faces : Ordered UInt16 :=
  .ofList ((List.range 257).map fun i => (s!"face{i}", UInt16.ofNat i))

/-- A project with these portraits and a dialog frame. -/
def gallery : MapState where
  map := { name := "town", index := 0 }
  project := { portraits := faces, dialogSkins := .ofList [(defaultSkin, 0)] }

theorem gallery_portraits : gallery.project.portraits = faces := by rw [gallery]

theorem find?_face255 : faces.find? "face255" = some 255 := by
  rw [faces, Ordered.find?_ofList]
  decide +kernel

theorem find?_face256 : faces.find? "face256" = some 256 := by
  rw [faces, Ordered.find?_ofList]
  decide +kernel

theorem named_face255 : nonEmpty? (speaking "face255").portrait = some "face255" := by
  decide +kernel

theorem hero_encodes :
    ∃ bytes, encodeEntityType faces "Hero" (hero "face255") default = .ok bytes := by
  have hbyte : ∀ context, portraitByte faces "Hero" (hero "face255") context = .ok 255 :=
    fun _ => portraitByte_eq_ok.2 ⟨255, find?_face255, rfl⟩
  rw [encodeEntityType, hbyte]
  exact exists_of_isOk (by decide +kernel)

theorem speaking_builds : ∃ bytes t,
    Yields (buildScreen (fun _ => pure 0) (speaking "face255") "screen") gallery bytes t := by
  have hbyte : (speaking "face255").portraitByte faces "screen" = .ok 255 := by
    rw [Screen.portraitByte_eq_ok, named_face255]
    exact ⟨255, find?_face255, rfl⟩
  have hborder : (speaking "face255").border gallery.project.dialogSkins "screen" = .ok 0 :=
    eq_ok_of_toOption (by decide +kernel)
  have hfixed : (speaking "face255").fixedFields gallery.map gallery.project "screen" =
      .ok [.word 0, .byte 0, .byte 0, .byte 1, .byte 0, .byte 0, .byte noEntity, .byte 255,
        .byte 0] := by
    rw [Screen.fixedFields, hborder, gallery_portraits, hbyte]
    rfl
  suffices hok : (outcome (buildScreen (fun _ => pure 0) (speaking "face255") "screen")
      gallery).1.isOk by
    obtain ⟨bytes, hbytes⟩ := exists_of_isOk hok
    exact ⟨bytes, _, yields_outcome hbytes⟩
  rw [buildScreen, (yields_get.2 ⟨rfl, rfl⟩).outcome_bind, hfixed]
  decide +kernel

/-- A hero and a screen with face 255 are encoded as if they had no portrait. -/
theorem face255_hidden : faces.find? "face255" = some 255 ∧
    (∃ bytes, encodeEntityType faces "Hero" (hero "face255") default = .ok bytes ∧
      bytes[EntityType.portraitOffset]? = some noPortrait) ∧
    ∃ bytes t,
      Yields (buildScreen (fun _ => pure 0) (speaking "face255") "screen") gallery bytes t ∧
        bytes[Screen.portraitOffset]? = some noPortrait := by
  obtain ⟨type, htype⟩ := hero_encodes
  obtain ⟨screen, t, hscreen⟩ := speaking_builds
  have hlast : faces.numbers "face255" 255 := ⟨255, find?_face255, rfl⟩
  refine ⟨find?_face255, ⟨type, htype, ?_⟩, screen, t, hscreen, ?_⟩
  · have hshown := (encodeEntityType_portrait htype).shows Ordered.unique_numbers
    exact hshown.marked.2 (Or.inr ⟨_, rfl, hlast⟩)
  · have hshown := (buildScreen_portrait hscreen).2.shows Ordered.unique_numbers
    rw [gallery_portraits] at hshown
    exact hshown.marked.2 (Or.inr ⟨_, named_face255, hlast⟩)

/-- The file of a tileset of one tile. -/
def facesFile : String :=
  "\x7b\"tilewidth\": 2, \"tileheight\": 2, \"tilecount\": 1, \"columns\": 1," ++
    "\"image\": \"faces.png\", \"imagewidth\": 2, \"imageheight\": 2\x7d"

/-- Ann has the portrait of her name, the hero has the one of Bob, and a rock has none. Bob speaks
    in the town, and then someone without a face. -/
def company : Input where
  source := .inMemory .none
    (.ofList [("town.json", townFile.toUTF8), ("faces.json", facesFile.toUTF8)])
    (.ofList [("faces.png", ⟨2, 2, 3, Array.replicate 12 0⟩)])
  definitions := {
    maps := .ofList [("town", { path := some "town.json" })]
    scripts := .ofList [("greet", [⟨"SHOW_DIALOG", .ofList [("dialog", .string "greeting")]⟩])]
    dialogs := .ofList [("greeting", [speaking "Bob", speaking ""])]
    dialogSkins := .ofList [(defaultSkin, "faces.json")]
    entityTypes := .ofList [("Ann", ⟨"faces.json", ∅, none⟩), ("Hero", hero "Bob"),
      ("Rock", ⟨"faces.json", ∅, none⟩)]
    portraits := .ofList [("Ann", ⟨"faces.json", ∅⟩), ("Bob", ⟨"faces.json", ∅⟩)] }

/-- Which portraits the company is stored with, and that face 256 is refused. -/
theorem company_told : ∃ tables, build company = .ok tables ∧ PortraitsTold company tables ∧
    tables.count .dialogs = 1 ∧
    encodeEntityType faces "Hero" (hero "face256") default =
      .error (.error (.fieldOverflow "entity type \"Hero\" portrait" 256 1)) := by
  have hcount : (build company).toOption.map (·.count .dialogs) = some 1 := by decide +kernel
  obtain ⟨-, htypes, hbuilds⟩ := portraits_told company
  cases hbuild : build company with
  | error e =>
    rw [hbuild] at hcount
    cases hcount
  | ok tables =>
    rw [hbuild] at hcount
    exact ⟨tables, rfl, hbuilds tables hbuild, Option.some.inj hcount,
      (htypes faces "Hero" (hero "face256") default).refused "face256" 256 rfl find?_face256
        (by decide)⟩

end GameBundle
