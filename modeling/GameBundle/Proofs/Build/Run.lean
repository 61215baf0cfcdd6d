import GameBundle.Proofs.Build.MapContents
import GameBundle.Proofs.Build.Shared

set_option autoImplicit false

/-! # Building the maps one by one

A build that succeeds passes through a project before each map. What one map leaves in the tables
stays there while the later maps are built: `Extends` is what every map does to the project, and
`extends_run` is what all maps from one on do to it. -/

namespace GameBundle

variable {input : Input} {name : String} {settings : MapSettings}

/-! ## One map -/

/-- The file of a map, and the entities that its objects are if the map is built on top of `p`.
    Those for debugging come last. -/
def MapSource (input : Input) (name : String) (settings : MapSettings) (p : Project)
    (tiled : Tiled.Map) (entities : List Entity) : Prop :=
  ∃ path tilesets p' composed, settings.path = some path ∧
    readJson input.source Tiled.Map.decode (Text.baseName path) = .ok tiled ∧
    Yields (loadTilesets input tiled) p tilesets p' ∧
    composeEntities p'.entityTypes tilesets name tiled.objects = .ok composed ∧
    entities = (debugLast composed).map Prod.snd

/-- Tilesets that are loaded first make no difference. -/
theorem BuildsMap.of_apart {tiled : Tiled.Map} {entities : List Entity} {start : MapContext}
    {p p' : Project} {t : MapState} (hapart : Apart p p')
    (h : BuildsMap input settings tiled entities start p' t) :
    BuildsMap input settings tiled entities start p t := by
  have hrecords := hapart.tables
  have hcount : ∀ kind ∈ mapKinds, p'.tables.count kind = p.tables.count kind := by
    intro kind hkind
    rw [Tables.count, hrecords kind hkind, Tables.count]
  exact {
    numbered := hcount .scripts (by decide) ▸ h.numbered
    maps := h.maps.trans hapart.maps
    scripts := h.scripts.congr (hrecords _ (by decide)).symm rfl
    dialogs := h.dialogs.congr (hrecords _ (by decide)).symm rfl
    serialDialogs := h.serialDialogs.congr (hrecords _ (by decide)).symm rfl
    others := by
      rw [← hcount .entities (by decide), ← hrecords .entities (by decide)]
      exact h.others
    record := by
      obtain ⟨bytes, header, hindex, htable, hscripts, hrecord⟩ := h.record
      refine ⟨bytes, header, hcount .maps (by decide) ▸ hindex, ?_, hscripts, hrecord⟩
      rw [htable, Tables.set, Tables.set, Tables.records_change, Tables.records_change,
        hrecords .maps (by decide)] }

/-- What has to be true before a map is built. -/
structure Ready (p : Project) : Prop where
  null : (p.tables.records .scripts)[0]? = some nullRecord
  small : p.tables.count .scripts ≤ UInt16.size

theorem buildMap_spec {p q : Project} (hready : Ready p)
    (h : Yields (buildMap input name settings) p () q) :
    ∃ index tiled entities t, p.maps.find? name = some index ∧
      MapSource input name settings p tiled entities ∧
      BuildsMap input settings tiled entities { name, index } p t ∧ q = t.project := by
  simp only [buildMap, yields_bind, yields_orReject, yields_get, yields_except, liftM_eq_ok,
    yields_onMap] at h
  obtain ⟨path, _, ⟨hpath, rfl⟩, _, _, ⟨rfl, rfl⟩, index, _, ⟨hindex, rfl⟩, tiled, _, ⟨htiled, rfl⟩,
    tilesets, p', htilesets, layers, _, ⟨-, rfl⟩, t, hcontents, rfl⟩ := h
  have hapart := (loadTilesets_apart tiled).apart htilesets
  have hscripts := hapart.tables .scripts (by decide)
  have hcount : p'.tables.count .scripts = p.tables.count .scripts := by
    rw [Tables.count, hscripts, Tables.count]
  have hpos := (Array.getElem?_eq_some_iff.1 hready.null).1
  obtain ⟨composed, hcomposed, hbuilds⟩ := buildMapContents_spec (hcount ▸ hpos)
    (hcount ▸ hready.small) (by
      rw [scriptNames, List.getElem?_map, Array.getElem?_toList, hscripts, hready.null]
      rfl) hcontents
  exact ⟨index, tiled, _, t, hindex,
    ⟨path, tilesets, p', composed, hpath, htiled, htilesets, hcomposed, rfl⟩,
    hbuilds.of_apart hapart, rfl⟩

/-! ## What a map does to the project -/

/-- Maps from `first` on were built on top of `p`. -/
structure Extends (first : Nat) (p q : Project) : Prop where
  maps : q.maps = p.maps
  names : (q.tables.records .maps).toList.map Record.name =
    (p.tables.records .maps).toList.map Record.name
  earlier : ∀ i < first, (q.tables.records .maps)[i]? = (p.tables.records .maps)[i]?
  entities : ∀ i < p.tables.count .entities,
    (q.tables.records .entities)[i]? = (p.tables.records .entities)[i]?
  scripts : Added (fun record => record.bytes.isSome) .scripts p.tables q.tables
  dialogs : Added (fun _ => True) .dialogs p.tables q.tables
  serialDialogs : Added (fun _ => True) .serialDialogs p.tables q.tables

namespace Extends

variable {first next : Nat} {p q r : Project}

theorem refl (first : Nat) (p : Project) : Extends first p p where
  maps := rfl
  names := rfl
  earlier _ _ := rfl
  entities _ _ := rfl
  scripts := .of_eq rfl
  dialogs := .of_eq rfl
  serialDialogs := .of_eq rfl

theorem trans (hpq : Extends first p q) (hqr : Extends next q r) (hle : first ≤ next) :
    Extends first p r where
  maps := hqr.maps.trans hpq.maps
  names := hqr.names.trans hpq.names
  earlier i hi := (hqr.earlier i (Nat.lt_of_lt_of_le hi hle)).trans (hpq.earlier i hi)
  entities i hi := by
    have hkept := hpq.entities i hi
    rw [Array.getElem?_eq_getElem hi] at hkept
    rw [hqr.entities i (Array.getElem?_eq_some_iff.1 hkept).1, hkept, Array.getElem?_eq_getElem hi]
  scripts := hpq.scripts.trans hqr.scripts
  dialogs := hpq.dialogs.trans hqr.dialogs
  serialDialogs := hpq.serialDialogs.trans hqr.serialDialogs

theorem ready (hp : Ready p) (h : Extends first p q)
    (hsmall : q.tables.count .scripts ≤ UInt16.size) : Ready q where
  null := h.scripts.getElem? hp.null
  small := hsmall

end Extends

theorem BuildsMap.extends {tiled : Tiled.Map} {entities : List Entity} {start : MapContext}
    {p : Project} {t : MapState} (h : BuildsMap input settings tiled entities start p t) :
    Extends start.index.toNat p t.project := by
  obtain ⟨bytes, -, -, htable, -⟩ := h.record
  exact {
    maps := h.maps
    names := by rw [htable, Tables.map_name_records_set]
    earlier := fun i hi => by
      rw [htable, Tables.getElem?_records_set, if_neg (Nat.ne_of_gt hi)]
    entities := h.others
    scripts := h.scripts.mono fun _ hrecord => by
      obtain ⟨-, _, _, _, _, _, hbytes, -⟩ := hrecord
      rw [hbytes]
      rfl
    dialogs := h.dialogs.mono fun _ _ => trivial
    serialDialogs := h.serialDialogs.mono fun _ _ => trivial }

/-! ## The whole run -/

/-- The passes of a build before map `i`. -/
def buildUpTo (input : Input) (i : Nat) : Step Project Unit := do
  buildShared input
  (input.definitions.maps.entries.take i).forM fun (name, settings) => buildMap input name settings

/-- The project before map `i` is built. -/
def projectBefore (input : Input) (i : Nat) : Project := (outcome (buildUpTo input i) {}).2

/-- From which record of a kind on the records of map `i` begin. -/
def countBefore (input : Input) (kind : Kind) (i : Nat) : Nat :=
  (projectBefore input i).tables.count kind

theorem yields_buildUpTo {i : Nat} {p : Project} (h : Yields (buildUpTo input i) {} () p) :
    projectBefore input i = p := congrArg Prod.snd h

/-- A build returns the tables of the project it ends with. -/
theorem build_eq (input : Input) : build input =
    (outcome (buildAll input) {}).1.map fun _ => (outcome (buildAll input) {}).2.tables := rfl

/-- A build succeeds if it gets past its last map. -/
theorem yields_of_build {tables : Tables} (h : build input = .ok tables) :
    Yields (buildUpTo input input.definitions.maps.size) {} ()
        (projectBefore input input.definitions.maps.size) ∧
      (projectBefore input input.definitions.maps.size).tables = tables := by
  have hall : buildUpTo input input.definitions.maps.size = buildAll input := by
    rw [buildUpTo, buildAll, Ordered.size, List.take_length]
  rw [projectBefore, hall]
  rw [build_eq] at h
  unfold Yields
  rcases hout : outcome (buildAll input) {} with ⟨_ | _, p⟩
  · rw [hout] at h
    cases h
  · rw [hout] at h
    exact ⟨rfl, Except.ok.inj h⟩

theorem yields_buildUpTo_succ {i : Nat} {q : Project}
    (hmap : input.definitions.maps.entries[i]? = some (name, settings))
    (h : Yields (buildUpTo input (i + 1)) {} () q) :
    Yields (buildUpTo input i) {} () (projectBefore input i) ∧
      Yields (buildMap input name settings) (projectBefore input i) () q := by
  rw [buildUpTo, List.take_add_one, hmap, Option.toList_some, yields_bind] at h
  obtain ⟨_, p, hshared, hmaps⟩ := h
  obtain ⟨p', hearlier, hlast⟩ := yields_forM_append.1 hmaps
  obtain ⟨_, hbuild, hnil⟩ := yields_forM_cons.1 hlast
  obtain rfl := yields_forM_nil.1 hnil
  have hupTo : Yields (buildUpTo input i) {} () p' := yields_bind.2 ⟨_, p, hshared, hearlier⟩
  rw [yields_buildUpTo hupTo]
  exact ⟨hupTo, hbuild⟩

theorem yields_buildUpTo_of_le {i j : Nat} {q : Project} (hij : i ≤ j)
    (h : Yields (buildUpTo input j) {} () q) :
    Yields (buildUpTo input i) {} () (projectBefore input i) := by
  rw [buildUpTo, ← List.take_append_drop i (List.take j _), List.take_take, Nat.min_eq_left hij,
    yields_bind] at h
  obtain ⟨_, p, hshared, hmaps⟩ := h
  obtain ⟨p', hearlier, -⟩ := yields_forM_append.1 hmaps
  have hupTo : Yields (buildUpTo input i) {} () p' := yields_bind.2 ⟨_, p, hshared, hearlier⟩
  rwa [yields_buildUpTo hupTo]

section Succeeds

variable {tables : Tables} (h : build input = .ok tables)
include h

theorem yields_before {i : Nat} (hi : i ≤ input.definitions.maps.size) :
    Yields (buildUpTo input i) {} () (projectBefore input i) :=
  yields_buildUpTo_of_le hi (yields_of_build h).1

theorem prepared_of_build : Prepared input (projectBefore input 0) := by
  obtain ⟨_, p, hshared, hnone⟩ := yields_bind.1 (yields_before h (Nat.zero_le _))
  rw [List.take_zero] at hnone
  rw [← yields_forM_nil.1 hnone]
  exact buildShared_spec hshared

/-- Every map is built on top of a project that is ready for it. The induction is on the maps that
    have been built. -/
theorem ready_of_build {i : Nat} (hi : i ≤ input.definitions.maps.size) :
    Ready (projectBefore input i) ∧ Extends 0 (projectBefore input 0) (projectBefore input i) := by
  induction i with
  | zero =>
    have hscripts := (prepared_of_build h).scripts
    refine ⟨⟨by rw [hscripts]; rfl, ?_⟩, .refl _ _⟩
    rw [Tables.count, hscripts]
    decide
  | succ i ih =>
    obtain ⟨hready, hextends⟩ := ih (Nat.le_of_succ_le hi)
    obtain ⟨-, hbuild⟩ := yields_buildUpTo_succ (List.getElem?_eq_getElem hi) (yields_before h hi)
    obtain ⟨index, tiled, entities, t, -, -, hmap, heq⟩ := buildMap_spec hready hbuild
    rw [heq]
    exact ⟨hmap.extends.ready hready hmap.numbered.small,
      hextends.trans hmap.extends (Nat.zero_le _)⟩

/-- **Each map is built on top of the project before it and leaves the project before the next.** -/
theorem map_of_build {i : Nat} (hmap : input.definitions.maps.entries[i]? = some (name, settings)) :
    ∃ index tiled entities t, index.toNat = i ∧
      MapSource input name settings (projectBefore input i) tiled entities ∧
      BuildsMap input settings tiled entities { name, index } (projectBefore input i) t ∧
      projectBefore input (i + 1) = t.project := by
  have hi : i + 1 ≤ input.definitions.maps.size := (List.getElem?_eq_some_iff.1 hmap).1
  obtain ⟨hready, hextends⟩ := ready_of_build h (Nat.le_of_succ_le hi)
  obtain ⟨-, hbuild⟩ := yields_buildUpTo_succ hmap (yields_before h hi)
  obtain ⟨index, tiled, entities, t, hindex, hsource, hbuilds, heq⟩ := buildMap_spec hready hbuild
  have hkey : input.definitions.maps.keys[i]? = some name := by
    rw [Ordered.keys, List.getElem?_map, hmap]
    rfl
  -- the name still leads to the record that was claimed for it at the start
  obtain ⟨own, hown, hownIndex⟩ := (prepared_of_build h).indices i name hkey
  rw [hextends.maps, hown, Option.some.injEq] at hindex
  exact ⟨index, tiled, entities, t, hindex ▸ hownIndex, hsource, hbuilds, heq⟩

/-- The records of the maps are in the order of the maps, whether they are filled or not. -/
theorem names_of_build {i : Nat} (hi : i ≤ input.definitions.maps.size) :
    ((projectBefore input i).tables.records .maps).toList.map Record.name =
      input.definitions.maps.keys := by
  rw [(ready_of_build h hi).2.names, (prepared_of_build h).maps, List.map_map]
  exact List.map_id _

theorem claimed_of_build {i j : Nat} (hj : j ≤ input.definitions.maps.size)
    (hmap : input.definitions.maps.entries[i]? = some (name, settings)) :
    ∃ stored, ((projectBefore input j).tables.records .maps)[i]? = some ⟨name, stored⟩ := by
  have hname := congrArg (·[i]?) (names_of_build h hj)
  simp only [Ordered.keys, List.getElem?_map, hmap, Option.map_some] at hname
  rw [Option.map_eq_some_iff] at hname
  obtain ⟨⟨_, stored⟩, hrecord, rfl⟩ := hname
  rw [Array.getElem?_toList] at hrecord
  exact ⟨stored, hrecord⟩

/-- Later maps leave alone what earlier maps left behind. -/
theorem extends_run {i j : Nat} (hij : i ≤ j) (hj : j ≤ input.definitions.maps.size) :
    Extends i (projectBefore input i) (projectBefore input j) := by
  induction j, hij using Nat.le_induction with
  | base => exact .refl _ _
  | succ j hij ih =>
    obtain ⟨index, tiled, entities, t, hindex, -, hbuilds, heq⟩ :=
      map_of_build h (List.getElem?_eq_getElem hj)
    rw [heq]
    exact (ih (Nat.le_of_succ_le hj)).trans hbuilds.extends (by rwa [hindex])

/-- The finished tables have what the first maps left behind. -/
theorem finished_of_build {i : Nat} (hi : i ≤ input.definitions.maps.size) :
    ∃ q, Extends i (projectBefore input i) q ∧ q.tables = tables :=
  ⟨_, extends_run h hi (Nat.le_refl _), (yields_of_build h).2⟩

/-- The record that a map left behind is its record in the finished tables. -/
theorem mapRecord_of_build {i : Nat} {index : UInt16} {tiled : Tiled.Map} {entities : List Entity}
    {t : MapState} {q : Project}
    (hmap : input.definitions.maps.entries[i]? = some (name, settings)) (hindex : index.toNat = i)
    (hbuilds : BuildsMap input settings tiled entities { name, index } (projectBefore input i) t)
    (hlater : Extends (i + 1) t.project q) :
    ∃ bytes header, (q.tables.records .maps)[i]? = some ⟨name, some bytes⟩ ∧
      header.scripts = t.map.scripts.toList ∧
      MapRecord t.map.meaning tiled settings entities t.project.tables bytes header := by
  have hi : i < input.definitions.maps.size := (List.getElem?_eq_some_iff.1 hmap).1
  obtain ⟨stored, hclaimed⟩ := claimed_of_build h (Nat.le_of_lt hi) hmap
  obtain ⟨bytes, header, -, htable, hlist, hrecord⟩ := hbuilds.record
  refine ⟨bytes, header, ?_, hlist, hrecord⟩
  rw [hlater.earlier i (Nat.lt_succ_self i), htable, Tables.getElem?_records_set, if_pos hindex,
    hclaimed]
  rfl

end Succeeds

/-! ## An example -/

/-- The file of a map without tiles that greets whoever enters it. -/
def townFile : String :=
  "\x7b\"width\": 0, \"height\": 0, \"tilewidth\": 1, \"tileheight\": 1, \"properties\":" ++
    "[\x7b\"name\": \"on_load\", \"value\": \"greet\"\x7d]\x7d"

/-- Two maps that share a script. The script leads back to itself, both directly and through a
    dialog. -/
def twoMaps : Input where
  source := {
    read := fun _ => .ok townFile.toUTF8
    contains := fun _ => true
    image := fun name => .error (.missingFile name) }
  definitions := {
    maps := .ofList [("town", { path := some "town.json" }),
      ("cave", { path := some "cave.json", onTick := some "greet" })]
    scripts := .ofList [("greet",
      [⟨"SHOW_SERIAL_DIALOG", .ofList [("serial_dialog", .string "riddle")]⟩,
        ⟨"RUN_SCRIPT", .ofList [("script", .string "greet")]⟩])]
    serialDialogs := .ofList
      [("riddle", ⟨["Again?"], [⟨"Yes", "greet"⟩, ⟨"No", nullScript⟩], none⟩)] }

theorem twoMaps_builds : ∃ tables, build twoMaps = .ok tables :=
  exists_of_isOk (by decide +kernel)

end GameBundle
