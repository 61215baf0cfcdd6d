import GameBundle.Proofs.Build.Events
import GameBundle.Proofs.Build.MapHeader
import GameBundle.Proofs.Build.Wiring

set_option autoImplicit false

/-! # The contents of a map

What a map and everything on it leave in the tables once the map is built: the record of the map
and the records of its entities hold the numbers of their scripts, and so does every script and
dialog that was added on the way. -/

namespace GameBundle

/-! ## The record of a map -/

/-- The record of a map, with the numbers of the scripts of its events, of its directions and of its
    entities. -/
structure MapRecord (means : Meaning) (tiled : Tiled.Map) (settings : MapSettings)
    (entities : List Entity) (tables : Tables) (bytes : Bytes) (header : MapHeader) : Prop where
  read : MapHeader.read? bytes = some header
  exclusive : ∀ event ∈ mapEvents,
    tiled.eventScript? event = none ∨ settings.eventScript? event = none
  events : ∀ k event, mapEvents[k]? = some event →
    ScriptAt means bytes (24 + 2 * k) (tiled.eventScript? event <|> settings.eventScript? event)
  directionCount : header.directions.toNat = settings.directions.size
  directions : ∀ k direction script, settings.directions.entries[k]? = some (direction, script) →
    Stored means bytes (header.directionOffset k) script
  entities : List.Forall₂ (fun global e => ∃ record,
    (tables.records .entities)[global.toNat]? = some record ∧ Wired means e record)
      header.entities entities

/-- Later records change nothing. -/
theorem MapRecord.mono {m n : Meaning} {tiled : Tiled.Map} {settings : MapSettings}
    {entities : List Entity} {tables tables' : Tables} {bytes : Bytes} {header : MapHeader}
    (h : MapRecord m tiled settings entities tables bytes header) (hkeeps : Keeps m n)
    (htables : ∀ i < tables.count .entities,
      (tables'.records .entities)[i]? = (tables.records .entities)[i]?) :
    MapRecord n tiled settings entities tables' bytes header where
  read := h.read
  exclusive := h.exclusive
  events k event hk := (h.events k event hk).mono hkeeps
  directionCount := h.directionCount
  directions k direction script hk := (h.directions k direction script hk).mono hkeeps
  entities := by
    refine h.entities.imp fun global e ⟨record, hrecord, hwired⟩ => ⟨record, ?_, hwired.mono hkeeps⟩
    rw [htables _ (Array.getElem?_eq_some_iff.1 hrecord).1, hrecord]

/-! ## Building it -/

variable {input : Input} {settings : MapSettings} {tiled : Tiled.Map}

theorem EventNumber.scriptAt {means : Meaning} {events : Ordered UInt16} {event : String} {bytes : Bytes}
    {offset : Nat} (h : EventNumber tiled settings events means event)
    (hword : bytes.word? offset = some ((events.find? event).getD 0)) :
    ScriptAt means bytes offset (tiled.eventScript? event <|> settings.eventScript? event) := by
  unfold EventNumber at h
  split at h
  · next hnone =>
    rw [hnone]
    exact hword.trans (congrArg some h)
  · next script hscript =>
    rw [hscript]
    exact ⟨_, hword, h⟩

/-- What a map changes when it is built on top of `p`. -/
structure BuildsMap (input : Input) (settings : MapSettings) (tiled : Tiled.Map)
    (entities : List Entity) (start : MapContext) (p : Project) (t : MapState) : Prop where
  numbered : Numbered (p.tables.count .scripts) t
  maps : t.project.maps = p.maps
  scripts : Added (ScriptRecord input t.map.meaning) .scripts p.tables t.project.tables
  dialogs : Added (DialogRecord input start.name t.map.meaning) .dialogs p.tables t.project.tables
  serialDialogs : Added (SerialDialogRecord input t.map.meaning) .serialDialogs p.tables
    t.project.tables
  others : ∀ i < p.tables.count .entities,
    (t.project.tables.records .entities)[i]? = (p.tables.records .entities)[i]?
  record : ∃ bytes header, start.index.toNat < p.tables.count .maps ∧
    t.project.tables.records .maps = (p.tables.set .maps start.index.toNat bytes).records .maps ∧
    header.scripts = t.map.scripts.toList ∧
    MapRecord t.map.meaning tiled settings entities t.project.tables bytes header

/-- The scripts of a map: those of its events, of its directions and of its entities, in this order.
    The records of its entities are blank until their own turn comes. -/
theorem mapScripts_spec {placed : List (UInt16 × Entity)} {events : Ordered UInt16}
    {directions : List (String × UInt16)} {r s t u v : MapState}
    (hpos : 0 < r.project.tables.count .scripts)
    (hsmall : r.project.tables.count .scripts ≤ UInt16.size)
    (hnull : (scriptNames r.project.tables)[0]? = some nullScript) (hscripts : r.map.scripts = #[])
    (hnumbers : r.map.scriptNumbers = ∅) (hadds : AddsEntities (placed.map Prod.fst) r s)
    (hevents : Yields (compileEvents input tiled settings) s events t)
    (hdirections : Yields (compileAll input settings.directions.entries) t directions u)
    (hwired : Yields (placed.forM fun p => wireEntity input p.1 p.2) u () v) :
    (∃ number, Advances input (r.project.tables.count .scripts) [.entities]
      ⟨s.map.listScript nullScript 0 number, s.project⟩ v) ∧
    (∀ event ∈ mapEvents, (tiled.eventScript? event = none ∨ settings.eventScript? event = none) ∧
      EventNumber tiled settings events v.map.meaning event) ∧
    List.Forall₂ (fun script number => Compiled script number v.map.meaning)
      settings.directions.entries directions ∧
    (∀ i < r.project.tables.count .entities, (v.project.tables.records .entities)[i]? =
      (r.project.tables.records .entities)[i]?) ∧
    ∀ p ∈ placed, ∃ record, (v.project.tables.records .entities)[p.1.toNat]? = some record ∧
      Wired v.map.meaning p.2 record := by
  have hplaces := hadds.places
  have hsame : s.project.tables.records .scripts = r.project.tables.records .scripts :=
    hplaces.frame _ (by decide) (by decide)
  have hcount : s.project.tables.count .scripts = r.project.tables.count .scripts := by
    rw [Tables.count, hsame, Tables.count]
  have hnames : scriptNames s.project.tables = scriptNames r.project.tables := by
    simp only [scriptNames, hsame]
  obtain ⟨number, hst, hevents⟩ := compileEvents_spec (by rwa [hcount])
    (by rwa [hcount]) (by rwa [hnames]) (hplaces.scripts.trans hscripts)
    (hplaces.scriptNumbers.trans hnumbers) hevents
  rw [hcount] at hst
  obtain ⟨htu, hdirections⟩ := compileAll_spec hst.numbered hdirections
  -- until now no number was written into the record of an entity
  have hblank : u.project.tables.records .entities = s.project.tables.records .entities :=
    (hst.trans htu).frame _ (by decide) (by simp)
  obtain ⟨huv, hothers, hall⟩ := wireEntities_spec htu.numbered hadds.nodup (by
    intro p hp
    obtain ⟨-, hunwired⟩ := hadds.unwired (List.mem_map_of_mem hp)
    rwa [hblank]) hwired
  refine ⟨⟨number, (hst.trans htu).weaken.trans huv⟩, fun event hevent => ?_, ?_, fun i hi => ?_,
    hall⟩
  · obtain ⟨hone, hnumber⟩ := hevents event hevent
    exact ⟨hone, (hnumber.mono htu.keeps).mono huv.keeps⟩
  · exact hdirections.imp fun _ _ h => ⟨h.1, huv.keeps _ _ h.2⟩
  · have hnew : ∀ p ∈ placed, p.1.toNat ≠ i := by
      intro p hp heq
      exact absurd hi (Nat.not_lt.2 (heq ▸ (hadds.unwired (List.mem_map_of_mem hp)).1))
    rw [hothers i hnew, hblank, hadds.kept hi]

/-- **A map stores the numbers of its scripts.** The header is built last, so it has the complete
    list of scripts. -/
theorem buildMapContents_spec {tilesets : List (UInt32 × Tileset)} {layers : List Bytes}
    {name : String} {index : UInt16} {p : Project} {t : MapState}
    (hpos : 0 < p.tables.count .scripts) (hsmall : p.tables.count .scripts ≤ UInt16.size)
    (hnull : (scriptNames p.tables)[0]? = some nullScript)
    (h : Yields (buildMapContents input settings tiled tilesets layers) ⟨{ name, index }, p⟩ () t) :
    ∃ composed, composeEntities p.entityTypes tilesets name tiled.objects = .ok composed ∧
      BuildsMap input settings tiled ((debugLast composed).map Prod.snd) { name, index } p t := by
  simp only [buildMapContents, yields_bind, yields_get, yields_except, yields_onProject,
    yields_onTables, Tables.yields_fill] at h
  obtain ⟨placed, s, hplaced, events, _, hevents, directions, _, hdirections, ⟨⟩, u, hwired, _, _,
    ⟨rfl, rfl⟩, header, _, ⟨hheader, rfl⟩, _, ⟨_, ⟨hindex, rfl⟩, rfl⟩, rfl⟩ := h
  obtain ⟨composed, hcomposed, hentities, hadds⟩ := placeObjects_spec hplaced
  have hplaces := hadds.places
  obtain ⟨⟨number, hsu⟩, hevents, hdirections, hothers, hall⟩ :=
    mapScripts_spec hpos hsmall hnull rfl rfl hadds hevents hdirections hwired
  obtain ⟨fields, hread, hfieldsE, -, hfieldsS, hcountD, hdirectionWords, heventWords⟩ :=
    read?_of_encode hheader (Bytes.hasAt_concat_header header layers)
  have hframe : ∀ kind, kind ≠ .geometry → kind ≠ .entities →
      p.tables.records kind = s.project.tables.records kind := fun kind hgeometry hentities =>
    (hplaces.frame kind hgeometry hentities).symm
  have hmaps : u.project.tables.records .maps = p.tables.records .maps :=
    (hsu.frame _ (by decide) (by decide)).trans (hframe _ (by decide) (by decide)).symm
  have hmapIndex : u.map.index = index := by
    rw [hsu.map]
    exact hplaces.index
  have hlists : u.map.entities.toList = placed.map Prod.fst := by
    rw [hsu.map]
    exact hadds.entities
  refine ⟨composed, hcomposed, ?_⟩
  exact {
    numbered := hsu.numbered.of_eq rfl rfl (by simp only [scriptNames, Tables.map_name_records_set])
    maps := hsu.maps.trans hplaces.maps
    scripts := hsu.scripts.congr (hframe _ (by decide) (by decide))
      (Tables.records_set_of_ne (by decide))
    dialogs := by
      have hdialogs := hsu.dialogs
      rw [hsu.name_eq.trans hplaces.name] at hdialogs
      exact hdialogs.congr (hframe _ (by decide) (by decide)) (Tables.records_set_of_ne (by decide))
    serialDialogs := hsu.serialDialogs.congr (hframe _ (by decide) (by decide))
      (Tables.records_set_of_ne (by decide))
    others := fun i hi => by rw [Tables.records_set_of_ne (by decide), hothers i hi]
    record := by
      refine ⟨layers.foldl (· ++ ·) header, fields, ?_, ?_, hfieldsS, ?_⟩
      · rw [← hmapIndex, Tables.count, ← hmaps]
        exact hindex
      · rw [Tables.set, Tables.set, Tables.records_change, Tables.records_change, hmaps, hmapIndex]
      · exact {
          read := hread
          exclusive := fun event hevent => (hevents event hevent).1
          events := fun k event hk =>
            (hevents event (List.mem_of_getElem? hk)).2.scriptAt (heventWords k event hk)
          directionCount := hcountD.trans hdirections.length_eq.symm
          directions := by
            intro k direction script hk
            obtain ⟨⟨_, number⟩, hnumber, -, hmeans⟩ := forall₂_getElem? hdirections hk
            exact ⟨number, hdirectionWords k _ number hnumber, hmeans⟩
          entities := by
            rw [hfieldsE, hlists, ← hentities, List.forall₂_map_left_iff,
              List.forall₂_map_right_iff, List.forall₂_same]
            intro q hq
            rw [Tables.records_set_of_ne (by decide)]
            exact hall q hq } }

end GameBundle
