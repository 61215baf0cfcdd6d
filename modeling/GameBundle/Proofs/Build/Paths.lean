import GameBundle.Proofs.Build.EntityFields
import GameBundle.Proofs.Build.MapReader
import GameBundle.Proofs.Build.ObjectNumbers
import GameBundle.Proofs.Build.TileIds

set_option autoImplicit false

/-! # The paths of entities

A property of an entity may name the outline it walks along by its object id. The number of that
outline is put into the record of the entity in place of two of its states. What comes later, the
scripts of the map and of its entities, leaves it there.

Object ids have 32 bits, and of a larger number only the lowest 32 are looked at. So a number that
is the id of no object may still lead to an outline. -/

namespace GameBundle

variable {input : Input} {name : String} {settings : MapSettings} {p q : Project} {s t u : MapState}

/-! ## Records of entities after they were added -/

theorem Bytes.AgreeOutside.trans {first last : Nat} {a b c : Bytes}
    (hab : Bytes.AgreeOutside first last a b) (hbc : Bytes.AgreeOutside first last b c) :
    Bytes.AgreeOutside first last a c :=
  ⟨hbc.1.trans hab.1, fun i hi => (hbc.2 i hi).trans (hab.2 i hi)⟩

/-- Records of entities keep all but the numbers of their scripts. -/
def KeepsEntities (s t : MapState) : Prop :=
  ∀ (i : Nat) (name : String) (old : Bytes),
    (s.project.tables.records .entities)[i]? = some ⟨name, some old⟩ →
    ∃ new, (t.project.tables.records .entities)[i]? = some ⟨name, some new⟩ ∧
      Bytes.AgreeOutside 16 19 old new

theorem KeepsEntities.of_eq
    (h : t.project.tables.records .entities = s.project.tables.records .entities) :
    KeepsEntities s t :=
  fun _ _ old hold => ⟨old, h ▸ hold, rfl, fun _ _ => rfl⟩

theorem KeepsEntities.trans (hst : KeepsEntities s t) (htu : KeepsEntities t u) :
    KeepsEntities s u := by
  intro i name old hold
  obtain ⟨mid, hmid, hfirst⟩ := hst i name old hold
  obtain ⟨new, hnew, hsecond⟩ := htu i name mid hmid
  exact ⟨new, hnew, hfirst.trans hsecond⟩

theorem Writes.keepsEntities (h : Writes input s t) : KeepsEntities s t := by
  cases h with
  | text pool text value made new within room =>
    exact .of_eq (Tables.records_add_of_ne _ (by cases pool <;> decide))
  | claim name actions source new room => exact .of_eq (Tables.records_add_of_ne _ (by decide))
  | list name global number new next claimed => exact .of_eq rfl
  | script index name actions bytes source claimed settled =>
    exact .of_eq (Tables.records_set_of_ne (by decide))
  | dialog name screens bytes source new settled room =>
    exact .of_eq (Tables.records_add_of_ne _ (by decide))
  | serialDialog name dialog bytes source within new settled room =>
    exact .of_eq (Tables.records_add_of_ne _ (by decide))
  | wire global number offset name script old new own slot record listed patched =>
    intro i other bytes hbytes
    rw [Project.fill, Tables.getElem?_records_set]
    by_cases hi : global.toNat = i
    · subst hi
      rw [record] at hbytes
      cases hbytes
      refine ⟨new, by rw [if_pos rfl, record]; rfl, ?_⟩
      rcases slot with rfl | rfl
      · exact agreeOutside_patchWord (by decide) (by decide) patched
      · exact agreeOutside_patchWord (by decide) (by decide) patched
    · exact ⟨bytes, by rw [if_neg hi, hbytes], rfl, fun _ _ => rfl⟩

theorem Follows.keepsEntities (h : Follows input s t) : KeepsEntities s t := by
  induction h with
  | refl => exact .of_eq rfl
  | tail _ hstep ih => exact ih.trans hstep.keepsEntities

/-! ## The first outline with an id -/

/-- The object at a place is the first without a tile that has the id. -/
def FirstOutline (objects : List Tiled.Object) (id i : Nat) : Prop :=
  (∃ object, objects[i]? = some object ∧ object.gid = none ∧ object.id.toNat = id) ∧
    ∀ j < i, ∀ other, objects[j]? = some other → other.gid = none → other.id.toNat ≠ id

theorem any_listed_outlineSlot {object : Tiled.Object} {number : Nat} {id : UInt32} :
    ((outlineSlot object number).map (listed object)).any
      (fun o => o.id == id && o.slot.isGeometry) = true ↔ object.gid = none ∧ object.id = id := by
  rw [outlineSlot]
  cases object.gid with
  | none => simp [listed, ObjectSlot.isGeometry]
  | some gid => simp

/-- When entities are added, only the outlines are listed. So an id leads to the first outline that
    has it. -/
theorem OutlinesAdded.firstOutline {objects : List Tiled.Object} {slots : List (Option ObjectSlot)}
    (h : OutlinesAdded s objects slots t) (hobjects : s.map.objects = #[])
    (hgeometry : s.map.geometry = #[]) {id : UInt32} {number : UInt16}
    (hid : (listObjects objects slots t.map).geometryOfId? id = some number) :
    ∃ i, FirstOutline objects id.toNat i ∧ number.toNat = outlinesBefore objects i := by
  have hslot : ∀ {i : Nat} {object : Tiled.Object}, objects[i]? = some object →
      (objects.zip slots)[i]? = some (object, outlineSlot object (outlinesBefore objects i)) := by
    intro i object hi
    have hat := h.slots i object hi
    rw [hgeometry, Array.size_empty, Nat.zero_add] at hat
    rw [List.zip, List.getElem?_zipWith, hi, hat]
  have hempty : t.map.objects = #[] := by
    obtain ⟨geometry, hmap⟩ := h.map
    rw [hmap]
    exact hobjects
  obtain ⟨found, hfound, rfl⟩ := Option.map_eq_some_iff.1 hid
  rw [← Array.find?_toList, listObjects_listed, hempty, List.nil_append, List.find?_filterMap,
    Option.bind_eq_some_iff] at hfound
  obtain ⟨⟨object, slot⟩, hfirst, hlisted⟩ := hfound
  obtain ⟨hmatch, i, hi, hat, hbefore⟩ := List.find?_eq_some_iff_getElem.1 hfirst
  obtain ⟨hlt, -⟩ : i < objects.length ∧ i < slots.length := by
    rwa [List.length_zip, Nat.lt_min] at hi
  have hpair := hslot (List.getElem?_eq_getElem hlt)
  rw [List.getElem?_eq_getElem hi, hat, Option.some.injEq, Prod.mk.injEq] at hpair
  obtain ⟨rfl, rfl⟩ := hpair
  obtain ⟨hgid, rfl⟩ := any_listed_outlineSlot.1 hmatch
  obtain ⟨hroom, -⟩ := h.record hgeometry (List.getElem?_eq_getElem hlt) hgid
  refine ⟨i, ⟨⟨_, List.getElem?_eq_getElem hlt, hgid, rfl⟩, fun j hj other hother hnone heq => ?_⟩,
    ?_⟩
  · have hnot := hbefore j hj
    have hpair := hslot hother
    rw [List.getElem?_eq_getElem (Nat.lt_trans hj hi), Option.some.injEq] at hpair
    rw [hpair, Bool.not_eq_true'] at hnot
    exact Bool.false_ne_true
      (hnot.symm.trans (any_listed_outlineSlot.2 ⟨hnone, UInt32.toNat_inj.1 heq⟩))
  · rw [outlineSlot, if_neg (by rw [hgid]; decide), Option.map_some] at hlisted
    cases hlisted
    exact UInt16.toNat_ofNat_of_lt' hroom

/-! ## Paths in records -/

/-- The number that is given for the path of an entity. -/
def Entity.pathNumber? (e : Entity) : Option Nat :=
  e.properties.find? "path" >>= Json.asUnsigned?

/-- What a record says about the path of an entity. A number other than zero leads to the first
    outline that has its lowest 32 bits for an id; the record has the place of this outline among
    all outlines. Without such a number it has two states of the entity there. -/
structure PathTold (objects : List Tiled.Object) (e : Entity) (bytes : Bytes) : Prop where
  outline : ∀ id, e.pathNumber? = some id → id ≠ 0 →
    ∃ i, FirstOutline objects (id % UInt32.size) i ∧
      bytes.slot? Entity.pathOffset 2 = some (outlinesBefore objects i)
  states : (∀ id, e.pathNumber? = some id → id = 0) →
    bytes.Tells "hackable_state_a" 1 (e.HasWhole Binary64.trunc ["hackable_state_a"]) ∧
    bytes.Tells "hackable_state_b" 1 (e.HasWhole Binary64.trunc ["hackable_state_b"])

/-- Scripts are stored elsewhere. -/
theorem PathTold.agree {objects : List Tiled.Object} {e : Entity} {old new : Bytes}
    (h : PathTold objects e old) (hagree : Bytes.AgreeOutside 16 19 old new) :
    PathTold objects e new where
  outline id hid hpos := by
    obtain ⟨i, hi, hslot⟩ := h.outline id hid hpos
    exact ⟨i, hi, hagree.slot? (by decide) hslot⟩
  states hnone := by
    obtain ⟨⟨a, ha, hfieldA⟩, b, hb, hfieldB⟩ := h.states hnone
    have hslot : ∀ {offset value : Nat}, 19 < offset → old.slot? offset 1 = some value →
        new.slot? offset 1 = some value := fun hbehind => hagree.slot? (.inr hbehind)
    exact ⟨⟨a, ha, hslot (by decide) (show old.slot? 28 1 = some a from hfieldA)⟩,
      b, hb, hslot (by decide) (show old.slot? 29 1 = some b from hfieldB)⟩

theorem Entity.slot?_path {e : Entity} {types : Ordered EntityType} {path : UInt16} {bytes : Bytes}
    (h : e.encode types (some path) = .ok bytes) :
    bytes.slot? pathOffset 2 = some path.toNat := by
  simp only [encode, bind_eq_ok] at h
  obtain ⟨x, -, y, -, look, -, _, -, _, -, _, -, _, -, _, -, _, -, record, -, h⟩ := h
  exact congrArg (Option.map UInt16.toNat) (word?_patchWord h)

theorem Entity.fieldsTold_of_encode {e : Entity} {types : Ordered EntityType}
    {path : Option UInt16} {bytes : Bytes} (h : e.encode types path = .ok bytes) :
    FieldsTold e types path bytes := by
  rcases e.encode_checked types path with ⟨-, other, hother, htold⟩ | ⟨-, _, _, _, herror⟩
  · rw [h, Except.ok.injEq] at hother
    rwa [hother]
  · cases h.symm.trans herror

/-- The path is looked for when the record is made. -/
theorem pathTold_of_entityRecord {objects : List Tiled.Object} {types : Ordered EntityType}
    {map : MapContext} {e : Entity} {record : Record}
    (hfinds : ∀ id number, map.geometryOfId? id = some number →
      ∃ i, FirstOutline objects id.toNat i ∧ number.toNat = outlinesBefore objects i)
    (h : EntityRecord types map e record) :
    ∃ bytes, record = ⟨e.label, some bytes⟩ ∧ PathTold objects e bytes := by
  obtain ⟨path, bytes, hpath, hbytes, rfl⟩ := h
  refine ⟨bytes, rfl, fun id hid hpos => ?_, fun hnone => ?_⟩
  · have hnumber : e.path? = some (UInt32.ofNat id) := by
      rw [Entity.path?, show (e.properties.find? "path" >>= Json.asUnsigned?) = some id from hid]
      exact if_neg hpos
    rw [pathOf, hnumber] at hpath
    dsimp only at hpath
    split at hpath
    · next number hgeometry =>
      cases hpath
      obtain ⟨i, hfirst, hplace⟩ := hfinds _ _ hgeometry
      rw [UInt32.toNat_ofNat'] at hfirst
      exact ⟨i, hfirst, hplace ▸ Entity.slot?_path hbytes⟩
    · cases hpath
  · have hnumber : e.path? = none := by
      unfold Entity.path?
      split
      · next id hid => exact if_pos (hnone id hid)
      · rfl
    rw [pathOf, hnumber] at hpath
    cases hpath
    exact (Entity.fieldsTold_of_encode hbytes).states

/-- Entities are added one after the other behind those of other maps. -/
theorem pathsTold_of_placeObjects {tiled : Tiled.Map} {tilesets : List (UInt32 × Tileset)}
    {placed : List (UInt16 × Entity)} {index : UInt16}
    (h : Yields (placeObjects tiled tilesets) ⟨{ name, index }, p⟩ placed t) :
    ∃ drawn, List.Forall₂ (Becomes p.entityTypes tilesets) tiled.objects drawn ∧
      ∀ (k i : Nat) e, (debugLast (entityPlaces drawn))[k]? = some (i, e) → ∃ bytes,
        (t.project.tables.records .entities)[p.tables.count .entities + k]? =
          some ⟨e.label, some bytes⟩ ∧
        PathTold tiled.objects e bytes := by
  obtain ⟨outlines, u, composed, v, -, houtlines, hcomposed, hplaced, rfl⟩ := placeObjects_steps h
  have houtlines := outlinesAdded_of_placeOutlines houtlines
  obtain ⟨hentities, horder⟩ := entitiesAdded_of_placeEntities hplaced
  obtain ⟨tables, hproject⟩ := houtlines.project
  rw [hproject] at hcomposed
  obtain ⟨drawn, hdrawn, rfl⟩ := composeEntities_becomes hcomposed
  refine ⟨drawn, hdrawn, fun k i e hk => ?_⟩
  obtain ⟨records, hrecords, htotal⟩ := hentities.records
  have hplace : (placed.map Prod.snd)[k]? = some e := by
    rw [horder, List.getElem?_map, hk]
    rfl
  obtain ⟨record, hrecord, hfrom⟩ := forall₂_getElem? hrecords hplace
  obtain ⟨bytes, rfl, htold⟩ :=
    pathTold_of_entityRecord (fun _ _ => houtlines.firstOutline rfl rfl) hfrom
  refine ⟨bytes, ?_, htold⟩
  have hcount : p.tables.count .entities = (u.project.tables.records .entities).toList.length := by
    rw [houtlines.frame .entities (by decide), Tables.count_eq_length]
  rw [← Array.getElem?_toList, htotal, hcount, List.getElem?_append_right (Nat.le_add_right _ _),
    Nat.add_sub_cancel_left, hrecord]

/-! ## Whole maps -/

/-- **Every entity of a map that was built walks along an outline of the map, or along none.** -/
theorem paths_told (h : Yields (buildMap input name settings) p () q) :
    ∃ path tiled tilesets p' drawn, settings.path = some path ∧
      readJson input.source Tiled.Map.decode (Text.baseName path) = .ok tiled ∧
      Yields (loadTilesets input tiled) p tilesets p' ∧
      List.Forall₂ (Becomes p'.entityTypes tilesets) tiled.objects drawn ∧
      ∀ (i : Nat) e, drawn[i]? = some (some e) → ∃ (k : Nat) (bytes : Bytes),
        (debugLast (entityPlaces drawn))[k]? = some (i, e) ∧
        (q.tables.records .entities)[p.tables.count .entities + k]? =
          some ⟨e.label, some bytes⟩ ∧
        PathTold tiled.objects e bytes := by
  obtain ⟨tiled, layers, events, directions, s, header, hprepared, -, rfl⟩ :=
    prepared_of_buildMap h
  obtain ⟨path, index, tilesets, p', placed, r, v, w, hpath, -, htiled, htilesets, -, hplaced,
    hevents, hdirections, hwired⟩ := hprepared
  obtain ⟨-, hrv, hvw, hws⟩ := contents_finish hplaced hevents hdirections hwired
  have hkeeps := ((hrv.trans hvw).trans hws).follows.keepsEntities
  obtain ⟨drawn, hdrawn, hall⟩ := pathsTold_of_placeObjects hplaced
  refine ⟨path, tiled, tilesets, p', drawn, hpath, htiled, htilesets, hdrawn, fun i e he => ?_⟩
  obtain ⟨k, hk⟩ := List.getElem?_of_mem (mem_debugLast.2 (mem_entityPlaces.2 he))
  obtain ⟨old, hold, htold⟩ := hall k i e hk
  obtain ⟨new, hnew, hagree⟩ := hkeeps _ _ _ hold
  have hcount : p'.tables.count .entities = p.tables.count .entities := by
    rw [Tables.count, ((loadTilesets_apart tiled).apart htilesets).tables .entities (by decide),
      Tables.count]
  refine ⟨k, new, hk, ?_, htold.agree hagree⟩
  rw [Project.fill, Tables.records_set_of_ne (by decide), ← hcount]
  exact hnew

/-- The file of a map with an outline, and with an entity whose path is an object that is not
    there. -/
def hamletFile : String :=
  "\x7b\"width\":0,\"height\":0,\"tilewidth\":2,\"tileheight\":2," ++
    "\"tilesets\":[\x7b\"firstgid\":1,\"source\":\"grass.json\"\x7d]," ++
    "\"layers\":[\x7b\"type\":\"objectgroup\",\"name\":\"\",\"objects\":[" ++
    "\x7b\"id\":1\x7d,\x7b\"id\":2,\"gid\":1,\"properties\":[" ++
    "\x7b\"name\":\"path\",\"type\":\"object\",\"value\":4294967297\x7d]\x7d]\x7d]\x7d"

def hamlet : Input where
  source := .inMemory .none
    (.ofList [("town.json", hamletFile.toUTF8), ("grass.json", grassFile.toUTF8)])
    (.ofList [("grass.png", ⟨4, 4, 3, Array.replicate 48 0⟩)])
  definitions := { maps := .ofList [("town", { path := some "town.json" })] }

/-- The paths on the map of the hamlet, the ids of its objects, and the place of the outline that
    the record of its entity has. -/
def hamletPaths : Except Failure (List (Option Nat) × List UInt32 × Option Nat) := do
  let tiled ← readJson hamlet.source Tiled.Map.decode "town.json"
  let (tilesets, p) := outcome (loadTilesets hamlet tiled) (projectBefore hamlet 0)
  let composed ← composeEntities p.entityTypes (← tilesets) "town" tiled.objects
  let tables ← build hamlet
  let place := (tables.records .entities)[0]? >>= Record.bytes >>= (·.slot? Entity.pathOffset 2)
  return (composed.map (·.2.pathNumber?), tiled.objects.map Tiled.Object.id, place)

theorem hamletPaths_eq : hamletPaths = .ok ([some 4294967297], [1, 2], some 0) :=
  eq_ok_of_toOption (by decide +kernel)

/-- The hamlet is built although no object has the id of the path. The entity walks along the
    outline, which has another id. -/
theorem hamlet_walks_elsewhere : ∃ tables tiled tilesets p composed bytes,
    build hamlet = .ok tables ∧
    readJson hamlet.source Tiled.Map.decode "town.json" = .ok tiled ∧
    Yields (loadTilesets hamlet tiled) (projectBefore hamlet 0) tilesets p ∧
    composeEntities p.entityTypes tilesets "town" tiled.objects = .ok composed ∧
    composed.map (·.2.pathNumber?) = [some 4294967297] ∧
    (∀ object ∈ tiled.objects, object.id.toNat ≠ 4294967297) ∧
    ((tables.records .entities)[0]? >>= Record.bytes) = some bytes ∧
    bytes.slot? Entity.pathOffset 2 = some 0 := by
  have hhamlet := hamletPaths_eq
  simp only [hamletPaths, bind_eq_ok, liftM_eq_ok, pure_eq_ok, Prod.mk.injEq] at hhamlet
  obtain ⟨tiled, htiled, tilesets, htilesets, composed, hcomposed, tables, htables, hpaths, hids,
    hplace⟩ := hhamlet
  obtain ⟨bytes, hbytes, hslot⟩ := Option.bind_eq_some_iff.1 hplace
  refine ⟨tables, tiled, tilesets, _, composed, bytes, htables, htiled, yields_outcome htilesets,
    hcomposed, hpaths, fun object hobject => ?_, hbytes, hslot⟩
  have hid : object.id ∈ [(1 : UInt32), 2] := hids ▸ List.mem_map_of_mem hobject
  have hlt := object.id.toNat_lt
  change object.id.toNat < 4294967296 at hlt
  omega

theorem hamlet_builds : ∃ tables, build hamlet = .ok tables := by
  have hhamlet := hamletPaths_eq
  simp only [hamletPaths, bind_eq_ok] at hhamlet
  obtain ⟨_, -, _, -, _, -, tables, htables, -⟩ := hhamlet
  exact ⟨tables, htables⟩

theorem hamlet_paths_told : ∃ p q path tiled tilesets p' drawn,
    Yields (buildMap hamlet "town" { path := some "town.json" }) p () q ∧
    some "town.json" = some path ∧
    readJson hamlet.source Tiled.Map.decode (Text.baseName path) = .ok tiled ∧
    Yields (loadTilesets hamlet tiled) p tilesets p' ∧
    List.Forall₂ (Becomes p'.entityTypes tilesets) tiled.objects drawn ∧
    ∀ (i : Nat) e, drawn[i]? = some (some e) → ∃ (k : Nat) (bytes : Bytes),
      (debugLast (entityPlaces drawn))[k]? = some (i, e) ∧
      (q.tables.records .entities)[p.tables.count .entities + k]? = some ⟨e.label, some bytes⟩ ∧
      PathTold tiled.objects e bytes := by
  obtain ⟨tables, htables⟩ := hamlet_builds
  have htown := (yields_buildUpTo_succ (i := 0) rfl (yields_of_build htables).1).2
  obtain ⟨path, tiled, tilesets, p', drawn, hall⟩ := paths_told htown
  exact ⟨_, _, path, tiled, tilesets, p', drawn, htown, hall⟩

end GameBundle
