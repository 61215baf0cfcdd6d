import GameBundle.Proofs.Build.MapSound
import GameBundle.Proofs.Build.ScriptLists
import GameBundle.Proofs.Bundle.RoundTrip

set_option autoImplicit false

/-! # Finished builds

Seven kinds of records are claimed in one place and filled in another. A record that is claimed and
never filled would show only when the bundle is put together. No build leaves one: what is claimed
before the maps are built is filled before, but for the records of the maps themselves, and each map
fills its own and everything that was claimed for it. -/

namespace GameBundle

variable {input : Input} {name : String} {settings : MapSettings}

/-! ## Map after map -/

/-- Before map `i` is built, the only records without bytes are those of this and the later maps. -/
structure Underway (i : Nat) (p : Project) : Prop where
  sound : p.Sound
  holes : ∀ kind k, p.tables.Hole kind k → kind = .maps ∧ i ≤ k

section Succeeds

variable {tables : Tables} (h : build input = .ok tables)
include h

theorem underway_zero : Underway 0 (projectBefore input 0) := by
  obtain ⟨_, p, hshared, hnone⟩ := yields_bind.1 (yields_before h (Nat.zero_le _))
  rw [List.take_zero] at hnone
  rw [← yields_forM_nil.1 hnone]
  obtain ⟨hsound, hholes⟩ := buildShared_sound hshared
  exact ⟨hsound, fun kind k hhole => ⟨hholes kind k hhole, Nat.zero_le k⟩⟩

/-- Map `i` is compiled on top of the project before it, and its own record is filled last. -/
theorem compiled_of_underway {i : Nat} (hi : Underway i (projectBefore input i))
    (hmap : input.definitions.maps.entries[i]? = some (name, settings)) :
    ∃ bytes s, CompiledMap input name settings (projectBefore input i) bytes s ∧
      MapBuilt input name (projectBefore input i) bytes s ∧ s.map.index.toNat = i ∧
      projectBefore input (i + 1) = s.project.fill .maps i bytes := by
  have hlt := (List.getElem?_eq_some_iff.1 hmap).1
  obtain ⟨hready, hextends⟩ := ready_of_build h (Nat.le_of_lt hlt)
  obtain ⟨-, hbuild⟩ := yields_buildUpTo_succ hmap (yields_before h hlt)
  obtain ⟨bytes, s, hcompiled, -, heq⟩ := buildMap_compiled hbuild
  have hbuilt := hcompiled.built hi.sound (Array.getElem?_eq_some_iff.1 hready.null).1
  have hkey : input.definitions.maps.keys[i]? = some name := by
    rw [Ordered.keys, List.getElem?_map, hmap]
    rfl
  -- the name still leads to the record that was claimed for it at the start
  obtain ⟨own, hown, hindex⟩ := (prepared_of_build h).indices i name hkey
  have hsame := hbuilt.index
  rw [hextends.maps, hown, Option.some.injEq] at hsame
  rw [hsame] at hindex
  exact ⟨bytes, s, hcompiled, hbuilt, hindex, hindex ▸ heq⟩

theorem underway_of_build {i : Nat} (hi : i ≤ input.definitions.maps.size) :
    Underway i (projectBefore input i) := by
  induction i with
  | zero => exact underway_zero h
  | succ i ih =>
    have hbefore := ih (Nat.le_of_succ_le hi)
    obtain ⟨bytes, s, -, hbuilt, -, hafter⟩ :=
      compiled_of_underway h hbefore (List.getElem?_eq_getElem hi)
    rw [hafter]
    refine ⟨hbuilt.sound.project.fill hbuilt.whole, fun kind k hhole => ?_⟩
    obtain ⟨hhole, hother⟩ := hhole.of_set
    obtain ⟨hkind, hle⟩ := hbefore.holes kind k (hbuilt.completes kind k hhole)
    exact ⟨hkind, Nat.lt_of_le_of_ne hle fun heq => hother ⟨hkind, heq.symm⟩⟩

/-- **Each map is compiled on top of the project before it.** -/
theorem compiled_of_build {i : Nat}
    (hmap : input.definitions.maps.entries[i]? = some (name, settings)) :
    ∃ bytes s, CompiledMap input name settings (projectBefore input i) bytes s ∧
      MapBuilt input name (projectBefore input i) bytes s ∧ s.map.index.toNat = i ∧
      projectBefore input (i + 1) = s.project.fill .maps i bytes :=
  compiled_of_underway h
    (underway_of_build h (Nat.le_of_lt (List.getElem?_eq_some_iff.1 hmap).1)) hmap

/-! ## All records -/

/-- **Every record of a bundle is filled, padded and intact.** -/
theorem whole_of_build {kind : Kind} {k : Nat} {record : Record}
    (hrecord : (tables.records kind)[k]? = some record) :
    ∃ bytes, record.bytes = some bytes ∧ Whole tables.count kind bytes := by
  obtain ⟨hsound, hholes⟩ := underway_of_build h (Nat.le_refl _)
  obtain ⟨-, htables⟩ := yields_of_build h
  have hrecords := hsound.records
  rw [htables] at hholes hrecords
  obtain ⟨name, _ | bytes⟩ := record
  · -- there is no map that could still have to be built
    obtain ⟨rfl, hle⟩ := hholes kind k ⟨name, hrecord⟩
    have hnames := congrArg List.length (names_of_build h (Nat.le_refl _))
    rw [htables, List.length_map, Array.length_toList, Ordered.keys, List.length_map] at hnames
    have hlt := (Array.getElem?_eq_some_iff.1 hrecord).1
    exact absurd hle (Nat.not_le.2 (Nat.lt_of_lt_of_eq hlt hnames))
  · exact ⟨bytes, rfl, hrecords kind k name bytes hrecord⟩

theorem filled_tables_of_build : Bundle.Filled tables := by
  intro kind record hrecord
  obtain ⟨k, hk⟩ := Array.getElem?_of_mem (Array.mem_toList_iff.1 hrecord)
  obtain ⟨bytes, hbytes, -⟩ := whole_of_build h hk
  rw [hbytes]
  rfl

/-- The bytes of a script are settled when the map it belongs to is built. -/
theorem scriptOf_of_build {i k : Nat} {bytes : Bytes} {s : MapState}
    (hmap : input.definitions.maps.entries[i]? = some (name, settings))
    {mapBytes : Bytes} (hbuilt : MapBuilt input name (projectBefore input i) mapBytes s)
    (hafter : projectBefore input (i + 1) = s.project.fill .maps i mapBytes)
    (hfirst : countBefore input .scripts i ≤ k) (hlast : k < countBefore input .scripts (i + 1))
    {script : String} (hrecord : (tables.records .scripts)[k]? = some ⟨script, some bytes⟩) :
    ScriptOf input s script bytes := by
  have hlt : i + 1 ≤ input.definitions.maps.size := (List.getElem?_eq_some_iff.1 hmap).1
  obtain ⟨q, hlater, rfl⟩ := finished_of_build h hlt
  -- later maps leave the record as this map left it
  have hkept := hlater.scripts.getElem? (Array.getElem?_eq_getElem hlast)
  rw [hrecord, Option.some.injEq] at hkept
  refine hbuilt.scripts k script bytes hfirst ?_
  rw [hkept, ← Array.getElem?_eq_getElem hlast, hafter, Project.fill,
    Tables.records_set_of_ne (by decide)]

/-- A script is behind the one that does nothing, and belongs to one of the maps. -/
theorem map_of_script {k : Nat} (hpos : 0 < k) (hk : k < tables.count .scripts) :
    ∃ i, i < input.definitions.maps.size ∧ countBefore input .scripts i ≤ k ∧
      k < countBefore input .scripts (i + 1) := by
  have hsteps : ∀ i < input.definitions.maps.size,
      countBefore input .scripts i ≤ countBefore input .scripts (i + 1) :=
    fun i hi => countBefore_le_succ h hi
  rw [← countBefore_size h] at hk
  have hone : countBefore input .scripts 0 ≤ k := by
    rw [countBefore_zero h]
    exact hpos
  obtain ⟨i, ⟨hi, hfirst, hlast⟩, -⟩ := existsUnique_range hsteps hone hk
  exact ⟨i, hi, hfirst, hlast⟩

end Succeeds

/-! ## Scripts and bundles -/

/-- The record of a script has the instructions of all its actions, copies included. -/
def ScriptFinished (input : Input) (record : Record) : Prop :=
  ∃ bytes actions count, record.bytes = some bytes ∧
    (record.name = nullScript ∧ actions = [] ∨ HasActions input record.name actions) ∧
    bytes.size = 36 + 8 * actions.length ∧ bytes.long? 32 = some count ∧
    (actions.length < 2 ^ 32 → bytes.size = 36 + 8 * count.toNat)

theorem ScriptFinished.of_actions {record : Record} {bytes : Bytes} {actions : Script}
    (hbytes : record.bytes = some bytes)
    (hsource : record.name = nullScript ∧ actions = [] ∨ HasActions input record.name actions)
    (hsize : bytes.size = 36 + 8 * actions.length)
    (hcount : bytes.long? 32 = some (UInt32.ofNat actions.length)) :
    ScriptFinished input record := by
  refine ⟨bytes, actions, _, hbytes, hsource, hsize, hcount, fun hlt => ?_⟩
  rw [hsize, UInt32.toNat_ofNat_of_lt' hlt]

theorem nullRecord_finished (input : Input) : ScriptFinished input nullRecord :=
  .of_actions rfl (Or.inl ⟨rfl, rfl⟩) (by decide +kernel) (by decide +kernel)

theorem script_finished {tables : Tables} (h : build input = .ok tables) {k : Nat} {record : Record}
    (hrecord : (tables.records .scripts)[k]? = some record) : ScriptFinished input record := by
  obtain rfl | hpos := Nat.eq_zero_or_pos k
  · have hnull := (ready_of_build h (Nat.le_refl _)).1.null
    rw [(yields_of_build h).2, hrecord] at hnull
    exact Option.some.inj hnull ▸ nullRecord_finished input
  · obtain ⟨i, hi, hfirst, hlast⟩ := map_of_script h hpos (Array.getElem?_eq_some_iff.1 hrecord).1
    have hmap := List.getElem?_eq_getElem hi
    obtain ⟨mapBytes, s, -, hbuilt, -, hafter⟩ := compiled_of_build h hmap
    obtain ⟨bytes, hbytes, -⟩ := whole_of_build h hrecord
    obtain ⟨actions, hactions, hsettled⟩ := scriptOf_of_build h hmap hbuilt hafter hfirst hlast
      (hrecord.trans (congrArg (fun b => some (Record.mk record.name b)) hbytes))
    obtain ⟨hsize, hcount, -⟩ := composeScript_holds hsettled.now
    exact .of_actions hbytes (Or.inr hactions) hsize hcount

/-- Nothing is left to do but to put the bundle together. -/
structure Finished (input : Input) (tables : Tables) : Prop where
  records : ∀ kind, ∀ record ∈ (tables.records kind).toList,
    ∃ bytes, record.bytes = some bytes ∧ 4 ∣ bytes.size
  scripts : ∀ record ∈ (tables.records .scripts).toList, ScriptFinished input record
  /-- The only bundle that is refused is one that is too long for its own length field. -/
  refused : ∀ hash, (∃ e, Bundle.assembleWith hash tables = .error e) ↔
    2 ^ 32 - 1 < Bundle.laidOutSize tables
  /-- Records are in the bundle as they are in the tables, without any bytes behind them. -/
  unpadded : ∀ hash bundle, Bundle.assembleWith hash tables = .ok bundle →
    ∃ index, Bundle.Index.parseWith hash bundle = .ok index ∧
      ∀ kind k record, (tables.records kind)[k]? = some record →
        index.record? bundle kind k = record.bytes

theorem refused_of_build {tables : Tables} (h : build input = .ok tables) (hash : Bytes → UInt32) :
    (∃ e, Bundle.assembleWith hash tables = .error e) ↔
      2 ^ 32 - 1 < Bundle.laidOutSize tables := by
  have hsize : UInt32.size = 2 ^ 32 := rfl
  cases hresult : Bundle.assembleWith hash tables with
  | ok bundle =>
    obtain ⟨-, hlt, -⟩ := Bundle.assembleWith_eq_ok.1 hresult
    constructor
    · rintro ⟨e, he⟩
      cases he
    · intro hlong
      omega
  | error e =>
    refine ⟨fun _ => ?_, fun _ => ⟨e, rfl⟩⟩
    by_contra hshort
    have hok : Bundle.assembleWith hash tables = .ok _ :=
      Bundle.assembleWith_eq_ok.2 ⟨filled_tables_of_build h, by omega, rfl⟩
    rw [hresult] at hok
    cases hok

theorem unpadded_of_build {tables : Tables} (h : build input = .ok tables)
    {hash : Bytes → UInt32} {bundle : Bytes} (hbundle : Bundle.assembleWith hash tables = .ok bundle) :
    ∃ index, Bundle.Index.parseWith hash bundle = .ok index ∧
      ∀ kind k record, (tables.records kind)[k]? = some record →
        index.record? bundle kind k = record.bytes := by
  obtain ⟨-, hlt, hsigned⟩ := Bundle.assembleWith_eq_ok.1 hbundle
  rw [hsigned]
  obtain ⟨checksum, hparse⟩ := Bundle.parseWith_sign hash hlt
  refine ⟨_, hparse, fun kind k record hrecord => ?_⟩
  obtain ⟨bytes, hbytes, hpadded, -⟩ := whole_of_build h hrecord
  rw [Bundle.record?_sign hlt hrecord hbytes, hbytes, Bytes.pad, paddedLength_of_dvd hpadded,
    Nat.sub_self]
  simp

/-- **A build leaves nothing unfinished.** -/
theorem build_finished {input : Input} {tables : Tables} (h : build input = .ok tables) :
    Finished input tables where
  records kind record hrecord := by
    obtain ⟨k, hk⟩ := Array.getElem?_of_mem (Array.mem_toList_iff.1 hrecord)
    obtain ⟨bytes, hbytes, hpadded, -⟩ := whole_of_build h hk
    exact ⟨bytes, hbytes, hpadded⟩
  scripts record hrecord := by
    obtain ⟨k, hk⟩ := Array.getElem?_of_mem (Array.mem_toList_iff.1 hrecord)
    exact script_finished h hk
  refused hash := refused_of_build h hash
  unpadded hash bundle hbundle := unpadded_of_build h hbundle

theorem twoMaps_finished : ∃ tables bundle, build twoMaps = .ok tables ∧
    Bundle.assemble tables = .ok bundle ∧ Finished twoMaps tables := by
  obtain ⟨tables, htables⟩ := twoMaps_builds
  have hfinished : Finished twoMaps tables := build_finished htables
  have hsize : (build twoMaps).toOption.map Bundle.laidOutSize = some 440 := by decide +kernel
  rw [htables] at hsize
  have hlaidOut : Bundle.laidOutSize tables = 440 := Option.some.inj hsize
  cases hbundle : Bundle.assemble tables with
  | ok bundle => exact ⟨tables, bundle, htables, hbundle, hfinished⟩
  | error e =>
    have hlong := (hfinished.refused _).1 ⟨e, hbundle⟩
    rw [hlaidOut] at hlong
    exact absurd hlong (by decide)

end GameBundle
