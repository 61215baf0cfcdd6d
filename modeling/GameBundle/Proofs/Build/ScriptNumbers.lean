import GameBundle.Proofs.Build.Run

set_option autoImplicit false

/-! # Every number means the script that was named

Scripts get their numbers before anything of them is stored, and a number may be stored long before
the list of the map is complete. In the finished bundle all of them are right: wherever something on
a map names a script, the number that is stored leads through the list of the map to the record of
this script. -/

namespace GameBundle

variable {input : Input} {name : String} {settings : MapSettings}

/-! ## Numbers of a finished map -/

/-- Which number stands for which script on a map that lists `scripts`, if the records from `first`
    up to `last` were claimed for this map. Zero is the script that does nothing. -/
def listMeaning (tables : Tables) (scripts : List UInt16) (first last : Nat) : Meaning :=
  fun name number => ∃ global record, scripts[number.toNat]? = some global ∧
    (tables.records .scripts)[global.toNat]? = some record ∧ record.name = name ∧
    (number = 0 ↔ name = nullScript) ∧
    if name = nullScript then global = 0 else first ≤ global.toNat ∧ global.toNat < last

theorem Numbered.keeps_listMeaning {first : Nat} {s : MapState} {P : Record → Prop}
    {tables : Tables} (h : Numbered first s) (hlater : Added P .scripts s.project.tables tables) :
    Keeps s.map.meaning
      (listMeaning tables s.map.scripts.toList first (s.project.tables.count .scripts)) := by
  intro name number hnumber
  obtain ⟨global, record, hglobal, hrecord, hmeans⟩ := h.meaning hnumber
  refine ⟨global, record, ?_, hlater.getElem? hrecord, hmeans⟩
  rw [Array.getElem?_toList, hglobal]

/-- The numbers on map `i` of a finished build. -/
def meaningOn (input : Input) (tables : Tables) (i : Nat) (header : MapHeader) : Meaning :=
  listMeaning tables header.scripts (countBefore input .scripts i)
    (countBefore input .scripts (i + 1))

/-! ## Everything that a map stores -/

/-- The records that were built for map `i` of a finished build. -/
structure MapStores (input : Input) (tables : Tables) (i : Nat) (name : String)
    (settings : MapSettings) (tiled : Tiled.Map) (entities : List Entity) (bytes : Bytes)
    (header : MapHeader) : Prop where
  map : MapRecord (meaningOn input tables i header) tiled settings entities tables bytes header
  scripts : ∀ global ∈ header.scripts, global ≠ 0 →
    ∃ record, (tables.records .scripts)[global.toNat]? = some record ∧
      ScriptRecord input (meaningOn input tables i header) record
  dialogs : ∀ k, countBefore input .dialogs i ≤ k → k < countBefore input .dialogs (i + 1) →
    ∃ record, (tables.records .dialogs)[k]? = some record ∧
      DialogRecord input name (meaningOn input tables i header) record
  serialDialogs : ∀ k, countBefore input .serialDialogs i ≤ k →
    k < countBefore input .serialDialogs (i + 1) →
    ∃ record, (tables.records .serialDialogs)[k]? = some record ∧
      SerialDialogRecord input (meaningOn input tables i header) record

/-- **Every number that is stored for a map means the script that was named.** -/
theorem numbers_mean_scripts {tables : Tables} (h : build input = .ok tables) {i : Nat}
    (hmap : input.definitions.maps.entries[i]? = some (name, settings)) :
    ∃ tiled entities bytes header,
      MapSource input name settings (projectBefore input i) tiled entities ∧
      (tables.records .maps)[i]? = some ⟨name, some bytes⟩ ∧
      MapStores input tables i name settings tiled entities bytes header := by
  have hi : i + 1 ≤ input.definitions.maps.size := (List.getElem?_eq_some_iff.1 hmap).1
  obtain ⟨index, tiled, entities, t, hindex, hsource, hbuilds, hafter⟩ := map_of_build h hmap
  obtain ⟨q, hlater, rfl⟩ := finished_of_build h hi
  rw [hafter] at hlater
  have hcount : ∀ kind, countBefore input kind (i + 1) = t.project.tables.count kind := by
    intro kind
    rw [countBefore, hafter]
  obtain ⟨bytes, header, hbytes, hlist, hrecord⟩ :=
    mapRecord_of_build h hmap hindex hbuilds hlater
  -- later maps add records behind those that the list leads to
  have hkeeps : Keeps t.map.meaning (meaningOn input q.tables i header) := by
    rw [meaningOn, hlist, hcount]
    exact hbuilds.numbered.keeps_listMeaning hlater.scripts
  refine ⟨tiled, entities, bytes, header, hsource, hbytes, ?_⟩
  exact {
    map := hrecord.mono hkeeps hlater.entities
    scripts := by
      intro global hglobal hne
      rw [hlist, hbuilds.numbered.scripts] at hglobal
      obtain ⟨hle, hlt⟩ := (mem_tail_listing hbuilds.numbered.small).1
        ((List.mem_cons.1 hglobal).resolve_left hne)
      obtain ⟨record, hget, hscript⟩ := hbuilds.scripts.between hlater.scripts hle hlt
      exact ⟨record, hget, hscript.mono hkeeps⟩
    dialogs := by
      intro k hle hlt
      rw [hcount] at hlt
      obtain ⟨record, hget, hdialog⟩ := hbuilds.dialogs.between hlater.dialogs hle hlt
      exact ⟨record, hget, hdialog.mono hkeeps⟩
    serialDialogs := by
      intro k hle hlt
      rw [hcount] at hlt
      obtain ⟨record, hget, hdialog⟩ := hbuilds.serialDialogs.between hlater.serialDialogs hle hlt
      exact ⟨record, hget, hdialog.mono hkeeps⟩ }

theorem twoMaps_numbers_mean_scripts : ∃ tables, build twoMaps = .ok tables ∧
    ∃ tiled entities bytes header,
      MapSource twoMaps "cave" { path := some "cave.json", onTick := some "greet" }
        (projectBefore twoMaps 1) tiled entities ∧
      (tables.records .maps)[1]? = some ⟨"cave", some bytes⟩ ∧
      MapStores twoMaps tables 1 "cave" { path := some "cave.json", onTick := some "greet" } tiled
        entities bytes header := by
  obtain ⟨tables, htables⟩ := twoMaps_builds
  exact ⟨tables, htables, numbers_mean_scripts htables rfl⟩

end GameBundle
