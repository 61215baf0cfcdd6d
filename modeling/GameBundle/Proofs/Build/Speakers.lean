import GameBundle.Proofs.Build.BundledDialogs
import GameBundle.Proofs.Build.MapRules
import GameBundle.Proofs.Build.TileIds

set_option autoImplicit false

/-! # Who speaks

A screen of a dialog has one byte for the object that speaks. Entities and outlines are numbered
apart, and the byte does not say in which of the two lists it counts. The name of the speaker is
looked up among all objects of the map, so the first object that has it is the one that is stored.
If that is an entity, then the byte is the number of an entity of the map. If it is an outline, then
the byte is the number of an outline, whether there is an entity of this name behind it or none. -/

namespace GameBundle

variable {tiled : Tiled.Map} {tilesets : List (UInt32 × Tileset)}
variable {objects : List Tiled.Object} {drawn : List (Option Entity)}
variable {map : MapContext} {name context : String}

/-! ## Names and numbers -/

/-- The number of an object at a place: of the outlines in front of it, or of its place in the order
    that the entities are added in. -/
def CountedAs (objects : List Tiled.Object) (drawn : List (Option Entity)) (i : Nat)
    (object : Tiled.Object) (n : Nat) : Prop :=
  match object.gid with
  | none => n = outlinesBefore objects i
  | some _ => n < entityLimit ∧ n < tileCount objects ∧
      ∃ e, (debugLast (entityPlaces drawn))[n]? = some (i, e)

/-- The number of the first object with the name, be it an entity or an outline. -/
def FirstNumber (objects : List Tiled.Object) (drawn : List (Option Entity)) (name : String)
    (n : Nat) : Prop :=
  ∃ i object, objects.findIdx? (·.name == name) = some i ∧ objects[i]? = some object ∧
    CountedAs objects drawn i object n

/-- The map lists its objects in the order of the layers, each with its number. -/
structure ObjectsListed (objects : List Tiled.Object) (drawn : List (Option Entity))
    (map : MapContext) : Prop where
  entities : map.entities.size = tileCount objects
  names : List.Forall₂ (fun o l => l.name = o.name) objects map.objects.toList
  counted : ∀ (i : Nat) object l, objects[i]? = some object → map.objects[i]? = some l →
    CountedAs objects drawn i object l.slot.index.toNat

theorem countedAs_outline {i n : Nat} {object : Tiled.Object} (hgid : object.gid = none) :
    CountedAs objects drawn i object n ↔ n = outlinesBefore objects i := by
  rw [CountedAs, hgid]

theorem countedAs_entity {i n : Nat} {object : Tiled.Object} {gid : UInt32}
    (hgid : object.gid = some gid) :
    CountedAs objects drawn i object n ↔ n < entityLimit ∧ n < tileCount objects ∧
      ∃ e, (debugLast (entityPlaces drawn))[n]? = some (i, e) := by
  rw [CountedAs, hgid]

theorem CountedAs.unique {i m n : Nat} {object : Tiled.Object}
    (hm : CountedAs objects drawn i object m) (hn : CountedAs objects drawn i object n) :
    m = n := by
  cases hgid : object.gid with
  | none =>
    rw [countedAs_outline hgid] at hm hn
    exact hm.trans hn.symm
  | some gid =>
    obtain ⟨-, -, e, he⟩ := (countedAs_entity hgid).1 hm
    obtain ⟨-, -, e', he'⟩ := (countedAs_entity hgid).1 hn
    -- no two entities come from one object
    have hplace : ∀ {k : Nat} {f : Entity}, (debugLast (entityPlaces drawn))[k]? = some (i, f) →
        ((debugLast (entityPlaces drawn)).map Prod.fst)[k]? = some i := fun hk => by
      rw [List.getElem?_map, hk]
      rfl
    exact (List.getElem?_inj (List.getElem?_eq_some_iff.1 (hplace he)).1 (nodup_places drawn)).1
      ((hplace he).trans (hplace he').symm)

theorem FirstNumber.unique {m n : Nat} (hm : FirstNumber objects drawn name m)
    (hn : FirstNumber objects drawn name n) : m = n := by
  obtain ⟨i, object, hi, hobject, hm⟩ := hm
  obtain ⟨j, other, hj, hother, hn⟩ := hn
  cases hi.symm.trans hj
  cases hobject.symm.trans hother
  exact hm.unique hn

theorem FirstNumber.exists_object {n : Nat} (h : FirstNumber objects drawn name n) :
    ∃ o ∈ objects, o.name = name := by
  obtain ⟨i, object, hi, -, -⟩ := h
  obtain ⟨hlt, hname, -⟩ := List.findIdx?_eq_some_iff_getElem.1 hi
  exact ⟨_, List.getElem_mem hlt, eq_of_beq hname⟩

/-- The number that an object is listed with. -/
theorem NumberOf.countedAs {i : Nat} {object : Tiled.Object} {number : ObjectSlot}
    {types : Ordered EntityType} (h : NumberOf objects drawn i object number)
    (hdrawn : List.Forall₂ (Becomes types tilesets) objects drawn)
    (hi : objects[i]? = some object)
    (hfits : object.gid = none → outlinesBefore objects i < UInt16.size)
    (hlimit : tileCount objects ≤ entityLimit) :
    CountedAs objects drawn i object number.index.toNat := by
  cases hgid : object.gid with
  | none =>
    rw [countedAs_outline hgid, h.outline hgid]
    exact UInt16.toNat_ofNat_of_lt' (hfits hgid)
  | some gid =>
    obtain ⟨become, hbecome, hbecomes⟩ := forall₂_getElem? hdrawn hi
    rw [Becomes, hgid] at hbecomes
    obtain ⟨_, _, e, -, -, rfl⟩ := hbecomes
    obtain ⟨k, hk, rfl⟩ := h.entity e hbecome
    have hlt : k < tileCount objects := by
      rw [← length_entityPlaces hdrawn, ← (debugLast_perm _).length_eq]
      exact (List.getElem?_eq_some_iff.1 hk).1
    have hsmall : k < entityLimit := Nat.lt_of_lt_of_le hlt hlimit
    have hnumber : (ObjectSlot.entity (UInt16.ofNat k)).index.toNat = k :=
      UInt16.toNat_ofNat_of_lt' (Nat.lt_trans hsmall (by decide))
    rw [countedAs_entity hgid, hnumber]
    exact ⟨hsmall, hlt, e, hk⟩

/-- **Placing objects lists all of them**, in the order of the layers and with their numbers. -/
theorem placeObjects_lists {index : UInt16} {p : Project} {placed : List (UInt16 × Entity)}
    {r : MapState} (h : Yields (placeObjects tiled tilesets) ⟨{ name, index }, p⟩ placed r) :
    ∃ drawn, List.Forall₂ (Becomes p.entityTypes tilesets) tiled.objects drawn ∧
      ObjectsListed tiled.objects drawn r.map := by
  obtain ⟨-, hentities, -, -⟩ := placeObjects_player h
  obtain ⟨outlines, u, composed, v, hcheck, houtlines, hcomposed, hplaced, rfl⟩ :=
    placeObjects_steps h
  have houtlines := outlinesAdded_of_placeOutlines houtlines
  obtain ⟨-, horder⟩ := entitiesAdded_of_placeEntities hplaced
  obtain ⟨tables, hproject⟩ := houtlines.project
  obtain ⟨drawn, hdrawn, rfl⟩ := composeEntities_becomes hcomposed
  rw [hproject] at hdrawn
  obtain ⟨numbers, hcount, hall, -, hnumbers⟩ :=
    exists_numbers hdrawn houtlines.length fun i object hi => by
      rw [houtlines.slots i object hi, Array.size_empty, Nat.zero_add]
  have hlisted : (listObjects tiled.objects (numbers.map some)
      { v.map with objects := #[] }).objects.toList = List.zipWith listed tiled.objects numbers :=
    listObjects_all rfl numbers
  rw [← hall] at hlisted
  have hnames : List.Forall₂ (fun o l => l.name = o.name ∧ l.slot.isGeometry = isOutline o)
      tiled.objects (List.zipWith listed tiled.objects numbers) :=
    forall₂_listed hcount fun i object hi => by
      obtain ⟨number, hnumber, hof⟩ := hnumbers i object hi
      exact ⟨number, hnumber, hof.kind⟩
  refine ⟨drawn, hdrawn, ?_, ?_, fun i object l hi hl => ?_⟩
  · rw [← Array.length_toList, hentities, List.length_map, ← List.length_map Prod.snd, horder,
      List.length_map, (debugLast_perm _).length_eq, length_entityPlaces hdrawn]
  · rw [hlisted]
    exact hnames.imp fun _ _ h => h.1
  · obtain ⟨number, hnumber, hof⟩ := hnumbers i object hi
    rw [← Array.getElem?_toList, hlisted, getElem?_listed hi hnumber] at hl
    cases hl
    exact hof.countedAs hdrawn hi (fun hgid => (houtlines.record rfl hi hgid).1)
      (checkObjects_ok hcheck).2

/-- Compiling scripts does nothing to the objects of a map. -/
theorem Later.objectsListed {s t : MapState} (h : Later s t) :
    ObjectsListed objects drawn t.map ↔ ObjectsListed objects drawn s.map := by
  rw [h.map]
  exact ⟨fun h => ⟨h.entities, h.names, h.counted⟩, fun h => ⟨h.entities, h.names, h.counted⟩⟩

/-- A name that is not reserved leads to the first object that has it, whatever it is. -/
theorem ObjectsListed.objectNumber (h : ObjectsListed objects drawn map)
    (hname : reservedNumber? name = none) (context : String) :
    (∃ number, map.objectNumber name context = .ok number ∧
        FirstNumber objects drawn name number.toNat) ∨
      ((∀ o ∈ objects, o.name ≠ name) ∧
        map.objectNumber name context = .error (.notFound context "object" name map.scope)) := by
  have hfirst : FindsFirst objects map (fun _ => true) "object" name context
      (map.objectNumber name context) :=
    number_findsFirst (h.names.imp fun _ _ hsame => ⟨hsame, rfl⟩) hname "object" context
  simp only [FindsFirst, Bool.and_true] at hfirst
  split at hfirst
  · next i hi =>
    obtain ⟨l, hl, hnumber⟩ := hfirst
    have hobject := List.getElem?_eq_getElem (List.findIdx?_eq_some_iff_getElem.1 hi).1
    exact .inl ⟨_, hnumber, i, _, hi, hobject, h.counted i _ l hobject hl⟩
  · next hnone =>
    refine .inr ⟨fun o ho => ?_, hfirst⟩
    exact ne_of_beq_false (List.findIdx?_eq_none_iff.1 hnone o ho)

/-! ## The byte of a screen -/

/-- The byte is the one that is stored for the speaker of a screen: for none the one that stands for
    none, for a reserved word its number, and else the number of the first object of the name. -/
def SpeakerStored (objects : List Tiled.Object) (drawn : List (Option Entity))
    (speaker : Option String) (byte : UInt8) : Prop :=
  match speaker with
  | none => byte = noEntity
  | some name =>
    match reservedNumber? name with
    | some number => byte.toNat = number.toNat
    | none => FirstNumber objects drawn name byte.toNat

/-- The record has that byte at a place. -/
def Bytes.StoresSpeaker (bytes : Bytes) (offset : Nat) (objects : List Tiled.Object)
    (drawn : List (Option Entity)) (speaker : Option String) : Prop :=
  ∃ byte, bytes[offset]? = some byte ∧ SpeakerStored objects drawn speaker byte

/-- Where a screen has its speaker. -/
def Screen.entityOffset : Nat := 9

namespace ObjectsListed

variable {screen : Screen}

/-- The speaker of a screen is encoded exactly if there is a byte for it. -/
theorem entityByte_eq_ok (h : ObjectsListed objects drawn map) {byte : UInt8} :
    screen.entityByte map context = .ok byte ↔
      SpeakerStored objects drawn (nonEmpty? screen.entity) byte := by
  unfold Screen.entityByte SpeakerStored
  cases nonEmpty? screen.entity with
  | none => simp [eq_comm]
  | some name =>
    cases hreserved : reservedNumber? name with
    | some number =>
      have hnumber : map.objectNumber name context = .ok number := by
        rw [MapContext.objectNumber, MapContext.number, hreserved]
        rfl
      simp only [hnumber, bind_eq_ok, Except.ok.injEq, exists_eq_left', hreserved,
        byteOf_eq_ok_iff]
    | none =>
      rcases h.objectNumber hreserved context with ⟨number, hnumber, hfirst⟩ | ⟨hnobody, herror⟩
      · simp only [hnumber, bind_eq_ok, Except.ok.injEq, exists_eq_left', hreserved,
          byteOf_eq_ok_iff]
        exact ⟨fun hbyte => hbyte ▸ hfirst, fun hbyte => hbyte.unique hfirst⟩
      · simp only [herror, bind_eq_ok, reduceCtorEq, false_and, exists_false, hreserved, false_iff]
        intro hfirst
        obtain ⟨o, ho, hname⟩ := hfirst.exists_object
        exact hnobody o ho hname

/-- A name that no object has is refused. -/
theorem entityByte_unknown (h : ObjectsListed objects drawn map)
    (hspeaker : nonEmpty? screen.entity = some name) (hreserved : reservedNumber? name = none)
    (hnobody : ∀ o ∈ objects, o.name ≠ name) :
    screen.entityByte map context = .error (.notFound context "object" name map.scope) := by
  rcases h.objectNumber hreserved context with ⟨number, -, hfirst⟩ | ⟨-, herror⟩
  · obtain ⟨o, ho, hname⟩ := hfirst.exists_object
    exact (hnobody o ho hname).elim
  · rw [Screen.entityByte, hspeaker]
    dsimp only
    rw [herror]
    rfl

/-- So is an outline with a number that no byte can hold. -/
theorem entityByte_large (h : ObjectsListed objects drawn map) {n : Nat}
    (hspeaker : nonEmpty? screen.entity = some name) (hreserved : reservedNumber? name = none)
    (hfirst : FirstNumber objects drawn name n) (hlarge : UInt8.size ≤ n) :
    screen.entityByte map context = .error (.fieldOverflow s!"{context} entity" n 1) := by
  rcases h.objectNumber hreserved context with ⟨number, hnumber, hfirst'⟩ | ⟨hnobody, -⟩
  · cases hfirst.unique hfirst'
    rw [Screen.entityByte, hspeaker]
    dsimp only
    rw [hnumber]
    exact if_neg (Nat.not_lt.2 hlarge)
  · obtain ⟨o, ho, hname⟩ := hfirst.exists_object
    exact (hnobody o ho hname).elim

end ObjectsListed

/-! ## Screens and dialogs -/

section Records

variable {input : Input} {compile : String → Step MapState UInt16} {screen : Screen}
  {s t : MapState} {bytes : Bytes}

/-- **What a screen says about its speaker**, whatever compiles its scripts. -/
theorem buildScreen_speaker (h : Yields (buildScreen compile screen context) s bytes t) :
    ∃ byte, bytes[Screen.entityOffset]? = some byte ∧
      screen.entityByte s.map context = .ok byte := by
  obtain ⟨fixed, title, u, messages, v, responses, hfixed, -, -, -, hencode⟩ :=
    yields_buildScreen h
  have hfields := (Record.hasFields_of_encode hencode).left.left.right
  simp only [Screen.fixedFields, bind_eq_ok, pure_eq_ok] at hfixed
  obtain ⟨byte, hbyte, _, -, _, -, _, -, _, -, _, -, _, -, rfl⟩ := hfixed
  obtain ⟨-, -, -, -, -, -, -, -, -, -, -, -, hentity, -⟩ := hfields
  exact ⟨byte, hentity.byte?, hbyte⟩

/-- The speaker is the first that a screen can be refused for. -/
theorem buildScreen_fails_of_entityByte {e : BuildError}
    (h : screen.entityByte s.map context = .error e) :
    Fails (buildScreen compile screen context) s (.error e) s := by
  refine buildScreen_fails ?_
  rw [Screen.fixedFields, h]
  rfl

/-- No screen touches the objects of the map, so each says the same as by itself. -/
theorem composeDialog_speakers {key : String} {screens : List Screen}
    (hlisted : ObjectsListed objects drawn t.map)
    (h : Yields (composeDialog (compileScript input) key name screens) s bytes t) {j : Nat}
    (hj : screens[j]? = some screen) :
    bytes.StoresSpeaker (screenOffset screens j + Screen.entityOffset) objects drawn
      (nonEmpty? screen.entity) := by
  have hsame : ∀ {u v : MapState} {screen : Screen} {context : String}, Later u v →
      screen.entityByte v.map context = screen.entityByte u.map context := fun hlater => by
    rw [hlater.map]
    rfl
  obtain ⟨byte, hbyte, context, hencoded⟩ := composeDialog_byte
    (P := fun screen byte u => ∃ context, screen.entityByte u.map context = .ok byte)
    (fun _ _ _ _ hlater hencoded => hencoded.imp fun _ => (hsame hlater).trans)
    (fun _ context _ _ _ hbuild hlater => by
      obtain ⟨byte, hbyte, hencoded⟩ := buildScreen_speaker hbuild
      exact ⟨byte, hbyte, context, (hsame hlater).trans hencoded⟩) h hj
  exact ⟨byte, hbyte, hlisted.entityByte_eq_ok.1 hencoded⟩

/-- A dialog is not built if there is no byte for one of its speakers. -/
theorem buildDialog_refuses {screens : List Screen} {index : UInt16}
    (hlisted : ObjectsListed objects drawn s.map)
    (hnew : s.project.dialogs.find? (dialogKey s.map.name name) = none)
    (hscreens : input.definitions.dialogs.find? name = some screens) (hscreen : screen ∈ screens)
    (hnobody : ∀ byte, ¬SpeakerStored objects drawn (nonEmpty? screen.entity) byte) :
    ¬Yields (buildDialog input (compileScript input) name context) s index t := by
  intro h
  rcases buildDialog_cases h with ⟨hfound, -⟩ | ⟨screens', bytes, u, -, hscreens', hcompose, -⟩
  · cases hnew.symm.trans hfound
  · cases hscreens.symm.trans hscreens'
    obtain ⟨j, hj⟩ := List.getElem?_of_mem hscreen
    have hlater := ((composeDialog_replays compileScript_replays _ name screens).moves
      hcompose).follows.later
    obtain ⟨byte, -, hstored⟩ :=
      composeDialog_speakers (hlater.objectsListed.2 hlisted) hcompose hj
    exact hnobody byte hstored

end Records

/-! ## The main result -/

/-- What screens say about their speakers while scripts are compiled for a map, and which of them
    are refused. -/
structure SpeakersTold (input : Input) (objects : List Tiled.Object) (drawn : List (Option Entity))
    (s : MapState) : Prop where
  entities : s.map.entities.size = tileCount objects
  encoded : ∀ compile screen context bytes t,
    Yields (buildScreen compile screen context) s bytes t →
      bytes.StoresSpeaker Screen.entityOffset objects drawn (nonEmpty? screen.entity)
  unknown : ∀ compile (screen : Screen) context name, nonEmpty? screen.entity = some name →
    reservedNumber? name = none → (∀ o ∈ objects, o.name ≠ name) →
      Fails (buildScreen compile screen context) s
        (.error (.notFound context "object" name s.map.scope)) s
  large : ∀ compile (screen : Screen) context name n, nonEmpty? screen.entity = some name →
    reservedNumber? name = none → FirstNumber objects drawn name n → UInt8.size ≤ n →
      Fails (buildScreen compile screen context) s
        (.error (.fieldOverflow s!"{context} entity" n 1)) s
  dialogs : ∀ name context screens, ∀ screen ∈ screens,
    s.project.dialogs.find? (dialogKey s.map.name name) = none →
    input.definitions.dialogs.find? name = some screens →
    (∀ byte, ¬SpeakerStored objects drawn (nonEmpty? screen.entity) byte) →
      ∀ index t, ¬Yields (buildDialog input (compileScript input) name context) s index t

theorem ObjectsListed.speakersTold {s : MapState} (h : ObjectsListed objects drawn s.map)
    (input : Input) : SpeakersTold input objects drawn s where
  entities := h.entities
  encoded _ _ _ _ _ hbuild := by
    obtain ⟨byte, hbyte, hencoded⟩ := buildScreen_speaker hbuild
    exact ⟨byte, hbyte, h.entityByte_eq_ok.1 hencoded⟩
  unknown _ _ _ _ hspeaker hreserved hnobody :=
    buildScreen_fails_of_entityByte (h.entityByte_unknown hspeaker hreserved hnobody)
  large _ _ _ _ _ hspeaker hreserved hfirst hlarge :=
    buildScreen_fails_of_entityByte (h.entityByte_large hspeaker hreserved hfirst hlarge)
  dialogs _ _ _ _ hscreen hnew hscreens hnobody _ _ :=
    buildDialog_refuses h hnew hscreens hscreen hnobody

/-- The record is that of a dialog on one of the maps, and its screens say which objects of the map
    speak. -/
def DialogSpeaks (input : Input) (record : Record) : Prop :=
  ∃ i map settings path tiled tilesets p drawn name screens bytes,
    input.definitions.maps.entries[i]? = some (map, settings) ∧ settings.path = some path ∧
    readJson input.source Tiled.Map.decode (Text.baseName path) = .ok tiled ∧
    Yields (loadTilesets input tiled) (projectBefore input i) tilesets p ∧
    List.Forall₂ (Becomes p.entityTypes tilesets) tiled.objects drawn ∧
    input.definitions.dialogs.find? name = some screens ∧
    record = ⟨dialogKey map name, some bytes⟩ ∧
    ∀ (j : Nat) (screen : Screen), screens[j]? = some screen →
      bytes.StoresSpeaker (screenOffset screens j + Screen.entityOffset) tiled.objects drawn
        (nonEmpty? screen.entity)

/-- The objects of a map file are placed before any dialog of the map is built. -/
theorem CompiledMap.objectsListed {input : Input} {settings : MapSettings} {p : Project}
    {bytes : Bytes} {s : MapState} (h : CompiledMap input name settings p bytes s) :
    ∃ path tiled tilesets p' drawn, settings.path = some path ∧
      readJson input.source Tiled.Map.decode (Text.baseName path) = .ok tiled ∧
      Yields (loadTilesets input tiled) p tilesets p' ∧
      List.Forall₂ (Becomes p'.entityTypes tilesets) tiled.objects drawn ∧
      ObjectsListed tiled.objects drawn s.map := by
  obtain ⟨path, tiled, tilesets, p', index, layers, hpath, htiled, htilesets, -, -, hcompose⟩ := h
  obtain ⟨placed, r, hplaced, -, hfinishes, -⟩ := composeMap_finishes hcompose
  obtain ⟨drawn, hdrawn, hlisted⟩ := placeObjects_lists hplaced
  exact ⟨path, tiled, tilesets, p', drawn, hpath, htiled, htilesets, hdrawn,
    hfinishes.follows.later.objectsListed.2 hlisted⟩

theorem dialogSpeaks_of_build {input : Input} {tables : Tables} (h : build input = .ok tables) :
    ∀ record ∈ (tables.records .dialogs).toList, DialogSpeaks input record := by
  intro record hrecord
  rw [← (yields_of_build h).2] at hrecord
  obtain ⟨i, map, settings, _, s, hmap, hcompiled, hnamed, -, _, name, screens, bytes, hscreens, -,
    rfl, rfl, hsettled⟩ := ofSomeMap_of_build h (by decide) (prepared_of_build h).dialogs
      (fun _ _ _ _ _ hcompiled => hcompiled.stores.1) (Nat.le_refl _) record hrecord
  obtain ⟨path, tiled, tilesets, p, drawn, hpath, htiled, htilesets, hdrawn, hlisted⟩ :=
    hcompiled.objectsListed
  exact ⟨i, map, settings, path, tiled, tilesets, p, drawn, name, screens, bytes, hmap, hpath,
    htiled, htilesets, hdrawn, hscreens, by rw [hnamed],
    fun j screen hj => composeDialog_speakers hlisted hsettled.now hj⟩

/-- **The first object of a name speaks, be it an entity or an outline.** That is so for every
    screen that is built when the objects of a map are placed, and for all dialogs of a bundle. A
    screen is refused if no object has the name, and if the number of the object is too large. -/
theorem first_object_speaks (input : Input) :
    (∀ tiled tilesets name index p placed r,
      Yields (placeObjects tiled tilesets) ⟨{ name, index }, p⟩ placed r →
        ∃ drawn, List.Forall₂ (Becomes p.entityTypes tilesets) tiled.objects drawn ∧
          ∀ s, Later r s → SpeakersTold input tiled.objects drawn s) ∧
      ∀ tables, build input = .ok tables →
        ∀ record ∈ (tables.records .dialogs).toList, DialogSpeaks input record := by
  refine ⟨fun tiled tilesets name index p placed r h => ?_, fun tables => dialogSpeaks_of_build⟩
  obtain ⟨drawn, hdrawn, hlisted⟩ := placeObjects_lists h
  exact ⟨drawn, hdrawn, fun s hlater => (hlater.objectsListed.2 hlisted).speakersTold input⟩

/-! ## An example -/

/-- The file of a map with two outlines and an entity. The door in front is an outline, and the one
    behind it is an entity. -/
def porchFile : String :=
  "\x7b\"width\":0,\"height\":0,\"tilewidth\":2,\"tileheight\":2," ++
    "\"tilesets\":[\x7b\"firstgid\":1,\"source\":\"grass.json\"\x7d]," ++
    "\"layers\":[\x7b\"type\":\"objectgroup\",\"name\":\"\",\"objects\":[" ++
    "\x7b\"id\":1,\"name\":\"gate\"\x7d,\x7b\"id\":2,\"name\":\"door\"\x7d," ++
    "\x7b\"id\":3,\"name\":\"door\",\"gid\":1\x7d]\x7d]\x7d"

/-- A gate and a door speak. -/
def voices : List Screen :=
  ["gate", "door"].map fun name =>
    { (default : Screen) with entity := some name, messages := ["Hello."] }

def porch : Input where
  source := .inMemory .none
    (.ofList [("town.json", porchFile.toUTF8), ("grass.json", grassFile.toUTF8)])
    (.ofList [("grass.png", ⟨4, 4, 3, Array.replicate 48 0⟩)])
  definitions := {
    maps := .ofList [("town", { path := some "town.json", onLoad := some "greet" })]
    scripts := .ofList [("greet", [⟨"SHOW_DIALOG", .ofList [("dialog", .string "greeting")]⟩])]
    dialogs := .ofList [("greeting", voices)]
    dialogSkins := .ofList [(defaultSkin, "grass.json")] }

/-- The objects on the map of the porch and which of them are entities, the names of the records of
    entities, and the bytes of the speakers in the record of the dialog. -/
def porchSpeakers :
    Except Failure (List (String × Bool) × List String × Option (List (Option UInt8))) := do
  let tiled ← readJson porch.source Tiled.Map.decode "town.json"
  let tables ← build porch
  let speakers := fun (record : Record) => record.bytes.map fun bytes =>
    [0, 1].map fun j => bytes[screenOffset voices j + Screen.entityOffset]?
  return (tiled.objects.map fun o => (o.name, o.gid.isSome),
    (tables.records .entities).toList.map Record.name, (tables.records .dialogs)[0]? >>= speakers)

theorem porchSpeakers_eq : porchSpeakers = .ok
    ([("gate", false), ("door", false), ("door", true)], ["door"], some [some 0, some 1]) :=
  eq_ok_of_toOption (by decide +kernel)

/-- The gate is stored as a speaker, but no entity has this name. The door is stored with number
    one, but the only entity of the map, which has this name, has number zero. -/
theorem porch_outlines_speak : ∃ tables tiled record bytes, build porch = .ok tables ∧
    readJson porch.source Tiled.Map.decode "town.json" = .ok tiled ∧
    tiled.objects.map (fun o => (o.name, o.gid.isSome)) =
      [("gate", false), ("door", false), ("door", true)] ∧
    (tables.records .entities).toList.map Record.name = ["door"] ∧
    (tables.records .dialogs)[0]? = some record ∧ record.bytes = some bytes ∧
    voices.map Screen.entity = [some "gate", some "door"] ∧
    bytes[screenOffset voices 0 + Screen.entityOffset]? = some 0 ∧
    bytes[screenOffset voices 1 + Screen.entityOffset]? = some 1 := by
  have hporch := porchSpeakers_eq
  simp only [porchSpeakers, bind_eq_ok, liftM_eq_ok, pure_eq_ok, Prod.mk.injEq] at hporch
  obtain ⟨tiled, htiled, tables, htables, hobjects, hentities, hspeakers⟩ := hporch
  obtain ⟨record, hrecord, hspeakers⟩ := Option.bind_eq_some_iff.1 hspeakers
  obtain ⟨bytes, hbytes, hspeakers⟩ := Option.map_eq_some_iff.1 hspeakers
  obtain ⟨hgate, hspeakers⟩ := List.cons.inj hspeakers
  obtain ⟨hdoor, -⟩ := List.cons.inj hspeakers
  exact ⟨tables, tiled, record, bytes, htables, htiled, hobjects, hentities, hrecord, hbytes, rfl,
    hgate, hdoor⟩

theorem porch_builds : ∃ tables record, build porch = .ok tables ∧
    record ∈ (tables.records .dialogs).toList := by
  have hporch := porchSpeakers_eq
  simp only [porchSpeakers, bind_eq_ok, pure_eq_ok, Prod.mk.injEq] at hporch
  obtain ⟨_, -, tables, htables, -, -, hspeakers⟩ := hporch
  obtain ⟨record, hrecord, -⟩ := Option.bind_eq_some_iff.1 hspeakers
  exact ⟨tables, record, htables, Array.mem_toList_iff.2 (Array.mem_of_getElem? hrecord)⟩

/-- Who speaks on the porch, and on a farm with outlines and entities. -/
theorem porch_told :
    (∃ placed r, Yields (placeObjects farm farmTilesets) ⟨{ name := "farm", index := 0 }, {}⟩
        placed r ∧
      ∃ drawn, List.Forall₂ (Becomes ∅ farmTilesets) farm.objects drawn ∧
        SpeakersTold porch farm.objects drawn r) ∧
    ∃ tables record, build porch = .ok tables ∧ record ∈ (tables.records .dialogs).toList ∧
      DialogSpeaks porch record := by
  obtain ⟨hplacing, hbuilds⟩ := first_object_speaks porch
  obtain ⟨placed, hplaced⟩ : ∃ placed,
      (outcome (placeObjects farm farmTilesets) ⟨{ name := "farm", index := 0 }, {}⟩).1 =
        .ok placed := exists_of_isOk (by decide +kernel)
  obtain ⟨drawn, hdrawn, hspeakers⟩ := hplacing _ _ _ _ _ _ _ (yields_outcome hplaced)
  obtain ⟨tables, record, htables, hrecord⟩ := porch_builds
  exact ⟨⟨placed, _, yields_outcome hplaced, drawn, hdrawn, hspeakers _ (.refl _)⟩, tables, record,
    htables, hrecord, hbuilds tables htables record hrecord⟩

end GameBundle
