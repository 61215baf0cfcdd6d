import GameBundle.Proofs.Build.Finished

set_option autoImplicit false

/-! # No index leads nowhere

What a record refers to exists. For an index of a record that is `Intact`; but the instructions of a
script also name entities and outlines by the numbers that these have on the map, so they are right
or wrong only together with the map that lists the script. -/

namespace GameBundle

variable {input : Input} {name : String} {settings : MapSettings}

/-! ## Numbers on a map -/

/-- A number is that of a reserved word, or of an object. -/
theorem MapContext.number_cases {map : MapContext} {kind word context : String}
    {p : ObjectSlot → Bool} {number : UInt16} (h : map.number kind word context p = .ok number) :
    reservedNumber? word = some number ∨
      ∃ o ∈ map.objects, p o.slot ∧ o.slot.index = number := by
  unfold MapContext.number at h
  split at h
  · next index hindex =>
    cases h
    rcases hreserved : reservedNumber? word with _ | reserved
    · rw [hreserved] at hindex
      obtain ⟨o, ho, rfl⟩ := Option.map_eq_some_iff.1 hindex
      have hmatch := Array.find?_some ho
      rw [Bool.and_eq_true] at hmatch
      exact Or.inr ⟨o, Array.mem_of_find?_eq_some ho, hmatch.2, rfl⟩
    · rw [hreserved] at hindex
      exact Or.inl hindex
  · cases h

theorem MapContext.entityNumber_lt {map : MapContext} {word context : String} {number : UInt16}
    (hobjects : ∀ o ∈ map.objects, o.slot.Within map)
    (h : map.entityNumber word context = .ok number) :
    reservedNumber? word = some number ∨ number.toNat < map.entities.size := by
  refine (number_cases h).imp_right fun ⟨o, ho, hentity, hindex⟩ => ?_
  have hwithin := hobjects o ho
  cases hslot : o.slot with
  | entity index =>
    rw [hslot] at hwithin hindex
    exact hindex ▸ hwithin
  | geometry index =>
    rw [hslot] at hentity
    cases hentity

theorem MapContext.geometryNumber_lt {map : MapContext} {word context : String} {number : UInt16}
    (hobjects : ∀ o ∈ map.objects, o.slot.Within map)
    (h : map.geometryNumber word context = .ok number) :
    reservedNumber? word = some number ∨ number.toNat < map.geometry.size := by
  refine (number_cases h).imp_right fun ⟨o, ho, houtline, hindex⟩ => ?_
  have hwithin := hobjects o ho
  cases hslot : o.slot with
  | entity index =>
    rw [hslot] at houtline
    cases houtline
  | geometry index =>
    rw [hslot] at hwithin hindex
    exact hindex ▸ hwithin

/-- The argument of an operand is a reserved word, and the number is that of the word. -/
def Reserved (a : Action) (operand : Operand) (value : Nat) : Prop :=
  ∃ word number, a.nonEmptyText operand.property = .ok word ∧
    reservedNumber? word = some number ∧ value = number.toNat

/-- What a stored number means on the map with this header. Numbers of objects count in the lists of
    the map, and a map that is named is the one of that name. -/
def OnMap (input : Input) (header : MapHeader) (a : Action) (operand : Operand) (value : Nat) :
    Prop :=
  match operand.kind with
  | .entity => value < header.entities.length ∨ Reserved a operand value
  | .geometry => value < header.geometry.length ∨ Reserved a operand value
  | .map => ∃ name, a.nonEmptyText operand.property = .ok name ∧
      input.definitions.maps.keys[value]? = some name
  | _ => True

/-- The header has the lists of the map. They cover all objects, and the maps are those of the
    project. -/
structure Describes (input : Input) (header : MapHeader) (s : MapState) : Prop where
  entities : header.entities = s.map.entities.toList
  geometry : header.geometry = s.map.geometry.toList
  objects : ∀ o ∈ s.map.objects, o.slot.Within s.map
  maps : ∀ name index, s.project.maps.find? name = some index →
    input.definitions.maps.keys[index.toNat]? = some name

theorem Found.onMap {a : Action} {operand : Operand} {value : Nat} {s : MapState}
    {header : MapHeader} (h : Found a operand value s) (hmap : Describes input header s) :
    OnMap input header a operand value := by
  unfold Found at h
  unfold OnMap
  cases hkind : operand.kind with
  | entity =>
    simp only [hkind] at h ⊢
    obtain ⟨word, number, hword, hnumber, rfl⟩ := h
    rw [hmap.entities, Array.length_toList, or_comm]
    exact (MapContext.entityNumber_lt hmap.objects hnumber).imp_left fun hreserved =>
      ⟨word, number, hword, hreserved, rfl⟩
  | geometry =>
    simp only [hkind] at h ⊢
    obtain ⟨word, number, hword, hnumber, rfl⟩ := h
    rw [hmap.geometry, Array.length_toList, or_comm]
    exact (MapContext.geometryNumber_lt hmap.objects hnumber).imp_left fun hreserved =>
      ⟨word, number, hword, hreserved, rfl⟩
  | map =>
    simp only [hkind] at h ⊢
    obtain ⟨name, index, hname, hindex, rfl⟩ := h
    exact ⟨name, hname, hmap.maps name index hindex⟩
  | _ => trivial

/-- The instructions of a script on the map with this header. Each lies in its eight bytes, with a
    number in the slot of each operand; colors alone are stored in another order. -/
def RunsOn (input : Input) (header : MapHeader) (actions : Script) (bytes : Bytes) : Prop :=
  bytes.size = 36 + 8 * actions.length ∧
    ∀ j a, actions[j]? = some a → ∃ number opcode, Opcode.find? a.name = some (number, opcode) ∧
      bytes[36 + 8 * j]? = some number ∧
      ∀ k operand, opcode.operands[k]? = some operand → operand.kind ≠ .color →
        ∃ value, bytes.slot? (36 + 8 * j + opcode.slotOffset k) operand.width = some value ∧
          OnMap input header a operand value

theorem runsOn_of_composed {script : String} {actions : Script} {bytes : Bytes} {s t : MapState}
    {header : MapHeader} (hmap : Describes input header t)
    (h : Yields (composeScript input (compileScript input) script actions) s bytes t) :
    RunsOn input header actions bytes := by
  obtain ⟨hsize, -, hholds⟩ := composeScript_holds h
  refine ⟨hsize, fun j a hj => ?_⟩
  obtain ⟨number, opcode, hopcode, hnumber, hslots⟩ := hholds j a hj
  refine ⟨number, opcode, hopcode, hnumber, fun k operand hk hcolor => ?_⟩
  obtain ⟨value, hfound, hslot⟩ := hslots k operand hk
  have hplain := Opcode.plain hopcode operand (List.mem_of_getElem? hk)
  exact ⟨value, hslot (hplain.2 hcolor), hfound.onMap hmap⟩

/-! ## All maps -/

section Succeeds

variable {tables : Tables} (h : build input = .ok tables)
include h

/-- A name leads to the map of that name. -/
theorem mapNumber_of_build {i : Nat} (hi : i ≤ input.definitions.maps.size) {index : UInt16}
    (hindex : (projectBefore input i).maps.find? name = some index) :
    input.definitions.maps.keys[index.toNat]? = some name := by
  have hprepared := prepared_of_build h
  rw [(ready_of_build h hi).2.maps] at hindex
  obtain ⟨j, hj⟩ := List.getElem?_of_mem (hprepared.known name index hindex)
  obtain ⟨other, hother, rfl⟩ := hprepared.indices j name hj
  rw [hindex, Option.some.injEq] at hother
  rw [hother, hj]

/-- The record of a map in the finished tables is what the map was compiled to. -/
theorem mapRecord_of_compiled {i : Nat} {bytes : Bytes} {s : MapState}
    (hmap : input.definitions.maps.entries[i]? = some (name, settings))
    (hafter : projectBefore input (i + 1) = s.project.fill .maps i bytes) :
    (tables.records .maps)[i]? = some ⟨name, some bytes⟩ := by
  have hi : i + 1 ≤ input.definitions.maps.size := (List.getElem?_eq_some_iff.1 hmap).1
  obtain ⟨q, hlater, rfl⟩ := finished_of_build h hi
  obtain ⟨stored, hclaimed⟩ := claimed_of_build h hi hmap
  rw [hlater.earlier i (Nat.lt_succ_self i), hclaimed]
  rw [hafter, Project.fill, Tables.getElem?_records_set, if_pos rfl,
    Option.map_eq_some_iff] at hclaimed
  obtain ⟨record, -, heq⟩ := hclaimed
  cases heq
  rfl

/-- The scripts that a map lists have their instructions for this map. -/
theorem scripts_of_compiled {i : Nat} {bytes : Bytes} {s : MapState} {header : MapHeader}
    (hmap : input.definitions.maps.entries[i]? = some (name, settings))
    (hbuilt : MapBuilt input name (projectBefore input i) bytes s)
    (hafter : projectBefore input (i + 1) = s.project.fill .maps i bytes)
    (hread : MapHeader.read? bytes = some header) (hdescribes : Describes input header s)
    {global : UInt16} (hglobal : global ∈ header.scripts) (hne : global ≠ 0) :
    ∃ script code actions,
      (tables.records .scripts)[global.toNat]? = some ⟨script, some code⟩ ∧
        HasActions input script actions ∧ RunsOn input header actions code := by
  have hi : i + 1 ≤ input.definitions.maps.size := (List.getElem?_eq_some_iff.1 hmap).1
  -- the list of the map is that of the records which were claimed while it was built
  have hlist := (scriptList_of_build h hi).1
  simp only [Tables.scriptList?, mapRecord_of_compiled h hmap hafter, hread, Option.bind_eq_bind,
    Option.bind_some, Option.pure_def, Option.some.injEq] at hlist
  have hsmall : countBefore input .scripts (i + 1) ≤ UInt16.size := (ready_of_build h hi).1.small
  rw [hlist] at hglobal
  obtain ⟨hfirst, hlast⟩ := (mem_tail_listing hsmall).1
    ((List.mem_cons.1 hglobal).resolve_left hne)
  obtain ⟨q, hlater, rfl⟩ := finished_of_build h hi
  have hpos : 0 < global.toNat := UInt16.lt_iff_toNat_lt.1 (UInt16.pos_iff_ne_zero.2 hne)
  obtain ⟨script, code, hrecord⟩ := filled_of_build h hpos
    (Nat.lt_of_lt_of_le hlast hlater.scripts.count_le)
  obtain ⟨actions, hactions, hsettled⟩ := scriptOf_of_build h hmap hbuilt hafter hfirst hlast hrecord
  exact ⟨script, code, actions, hrecord, hactions, runsOn_of_composed hdescribes hsettled.now⟩

end Succeeds

/-! ## Whole bundles -/

/-- The record of map `i` is what the map is compiled to on top of what was built before, and all
    instructions of the scripts on it are about this map. -/
def MapInRange (input : Input) (tables : Tables) (i : Nat) (name : String) (settings : MapSettings) :
    Prop :=
  ∃ bytes header s, (tables.records .maps)[i]? = some ⟨name, some bytes⟩ ∧
    CompiledMap input name settings (projectBefore input i) bytes s ∧ s.map.name = name ∧
    MapHeader.read? bytes = some header ∧
    ∀ global ∈ header.scripts, global ≠ 0 → ∃ script code actions,
      (tables.records .scripts)[global.toNat]? = some ⟨script, some code⟩ ∧
        HasActions input script actions ∧ RunsOn input header actions code

/-- No index of a bundle leads nowhere. -/
structure InRange (input : Input) (tables : Tables) : Prop where
  /-- Every index in a record is that of a record. -/
  records : ∀ (kind : Kind) (k : Nat) (record : Record),
    (tables.records kind)[k]? = some record →
      ∃ bytes, record.bytes = some bytes ∧ Intact tables.count kind bytes
  /-- There is a record for each map, and no other. -/
  mapCount : tables.count .maps = input.definitions.maps.size
  maps : ∀ i name settings, input.definitions.maps.entries[i]? = some (name, settings) →
    MapInRange input tables i name settings
  /-- Every script with instructions is on the list of a map. -/
  owned : ∀ k, 0 < k → k < tables.count .scripts →
    ∃ i list, tables.scriptList? i = some list ∧ k ∈ list.map UInt16.toNat

/-- **Every index in a bundle is in range.** -/
theorem build_inRange {input : Input} {tables : Tables} (h : build input = .ok tables) :
    InRange input tables where
  records kind k record hrecord := by
    obtain ⟨bytes, hbytes, -, hintact⟩ := whole_of_build h hrecord
    exact ⟨bytes, hbytes, hintact⟩
  mapCount := by
    have hnames := congrArg List.length (names_of_build h (Nat.le_refl _))
    rwa [(yields_of_build h).2, List.length_map, ← Tables.count_eq_length, Ordered.keys,
      List.length_map] at hnames
  maps i name settings hmap := by
    obtain ⟨bytes, s, hcompiled, hbuilt, -, hafter⟩ := compiled_of_build h hmap
    obtain ⟨header, hread, hentities, hgeometry⟩ := hbuilt.header
    have hlt := (List.getElem?_eq_some_iff.1 hmap).1
    have hdescribes : Describes input header s := {
      entities := hentities
      geometry := hgeometry
      objects := hbuilt.objects
      maps := fun name index hindex => by
        rw [hbuilt.maps] at hindex
        exact mapNumber_of_build h (Nat.le_of_lt hlt) hindex }
    exact ⟨bytes, header, s, mapRecord_of_compiled h hmap hafter, hcompiled, hbuilt.named, hread,
      fun _ hglobal hne => scripts_of_compiled h hmap hbuilt hafter hread hdescribes hglobal hne⟩
  owned k hpos hk := by
    obtain ⟨i, hi, hfirst, hlast⟩ := map_of_script h hpos hk
    have hsmall : countBefore input .scripts (i + 1) ≤ UInt16.size :=
      (ready_of_build h (show i + 1 ≤ _ from hi)).1.small
    exact ⟨i, _, (scriptList_of_build h hi).1, (mem_toNat_listing hsmall hpos).2 ⟨hfirst, hlast⟩⟩

/-- Two maps with a script that leads from one to the other, and with whoever runs it. -/
def journey : Input where
  source := twoMaps.source
  definitions := {
    maps := twoMaps.definitions.maps
    scripts := .ofList [("greet",
      [⟨"SET_CAMERA_TO_FOLLOW_ENTITY", .ofList [("entity", .string "%PLAYER%")]⟩,
        ⟨"LOAD_MAP", .ofList [("map", .string "cave")]⟩])] }

theorem journey_inRange : ∃ tables, build journey = .ok tables ∧ InRange journey tables ∧
    tables.count .scripts = 3 := by
  have hcount : (build journey).toOption.map (·.count .scripts) = some 3 := by decide +kernel
  cases hbuild : build journey with
  | ok tables =>
    rw [hbuild] at hcount
    exact ⟨tables, rfl, build_inRange hbuild, Option.some.inj hcount⟩
  | error e =>
    rw [hbuild] at hcount
    cases hcount

end GameBundle
