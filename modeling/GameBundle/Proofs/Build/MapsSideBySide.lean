import GameBundle.Proofs.Build.MapSound
import GameBundle.Proofs.Build.Run
import GameBundle.Proofs.Build.ScriptsSideBySide

set_option autoImplicit false

/-! # Maps side by side

The entities of a map name no script but those that both builds know, since their properties come
from the object, its tile and its type. So all scripts of a map are compiled alike, and both builds
make the same record of it. -/

namespace GameBundle

variable {input : Input} {maps : Ordered MapSettings} {scripts : Ordered Script} {c : Comparison}

/-! ## Entities -/

theorem ownProperties_plain {object : Tiled.Object} {properties : Properties}
    (hallows : c.Allows object.properties) (h : Entity.ownProperties object = .ok properties) :
    c.Plain properties := by
  refine Comparison.Plain.merge (fun event hevent script hscript => ?_) hallows h
  obtain ⟨hfind, -⟩ := Properties.text?_eq_some.1 hscript
  rw [Ordered.find?_ofList] at hfind
  rcases List.mem_pair.1 hevent with rfl | rfl <;> cases hfind

theorem compose_plain {types : Ordered EntityType} {object : Tiled.Object} {tile : PlacedTile}
    {e : Entity} (htypes : types.All fun type => c.Plain type.prototype)
    (htile : c.PlainTiles tile.tileset) (hallows : c.Allows object.properties)
    (h : Entity.compose types object tile = .ok e) : c.Plain e.properties := by
  simp only [Entity.compose, bind_eq_ok, pure_eq_ok] at h
  obtain ⟨own, hown, rfl⟩ := h
  have hover : c.Plain (Properties.overlay
      [((tile.tileset.tile? tile.tileIndex).map Tile.properties).getD ∅, own]) := by
    refine .overlay fun layer hlayer => ?_
    rcases List.mem_pair.1 hlayer with rfl | rfl
    · cases hfind : tile.tileset.tile? tile.tileIndex with
      | none => exact .empty
      | some found => exact htile _ found hfind
    · exact ownProperties_plain hallows hown
  refine .overlay fun layer hlayer => ?_
  rcases List.mem_pair.1 hlayer with rfl | rfl
  · generalize (Properties.overlay _).text? "type" = kind
    cases hfind : kind >>= types.find? with
    | none => exact .empty
    | some type =>
      obtain ⟨name, -, hname⟩ := Option.bind_eq_some_iff.1 hfind
      exact htypes name type hname
  · exact hover

theorem composeEntities_plain {types : Ordered EntityType} {tilesets : List (UInt32 × Tileset)}
    {map : String} {objects : List Tiled.Object} {composed : List (Nat × Entity)}
    (htypes : types.All fun type => c.Plain type.prototype)
    (htilesets : ∀ t ∈ tilesets, c.PlainTiles t.2)
    (hallows : ∀ object ∈ objects, c.Allows object.properties)
    (h : composeEntities types tilesets map objects = .ok composed) :
    ∀ p ∈ composed, c.Plain p.2.properties := by
  intro p hp
  obtain ⟨object, hobject, first, tile, hmem, he⟩ := composeEntities_spec h p hp
  exact compose_plain htypes (htilesets _ hmem) (hallows object hobject) he

theorem placeOutlines_together (objects : List Tiled.Object) :
    Together c c.States Any (placeOutlines objects) (placeOutlines objects) := by
  refine .imp (.mapM (Q := Any) fun object _ => ?_) fun _ _ => trivial
  split
  · exact .pure trivial
  · refine .bind (.onProject (addOutline_together object)) fun global _ => ?_
    refine .get_bind_map fun map p _ _ _ => .bind (.changeMap _) fun _ _ => .pure trivial

theorem addEntity_together (e : Entity) (path : Option UInt16) :
    Together c c.Projects Any (addEntity e path) (addEntity e path) :=
  .get_bind fun _ _ _ _ => .bind (.except fun _ _ => trivial) fun _ _ => .push (by decide) _ _

theorem placeEntity_together (earlier : List (UInt16 × Entity)) (e : Entity) :
    Together c c.States Any (placeEntity earlier e) (placeEntity earlier e) := by
  refine .get_bind_map fun map p _ _ _ => .bind (.except fun _ _ => trivial) fun path _ => ?_
  refine .bind (.onProject (addEntity_together e path)) fun global _ => ?_
  refine .bind (.changeMap _) fun _ _ => ?_
  split
  · cases map.player with
    | some player => exact .rejected _ _ _
    | none => exact .bind (.changeMap _) fun _ _ => .pure trivial
  · exact .pure trivial

/-- Entities whose properties name no script but those that both builds know. -/
abbrev Comparison.PlainEntities (c : Comparison) (placed : List (UInt16 × Entity)) : Prop :=
  ∀ p ∈ placed, c.Plain p.2.properties

theorem placeEntities_together {entities : List (Nat × Entity)}
    (hplain : ∀ p ∈ entities, c.Plain p.2.properties) :
    Together c c.States c.PlainEntities (placeEntities entities) (placeEntities entities) := by
  refine .foldlM (fun placed hplaced p hp => ?_) fun _ h => nomatch h
  refine .bind (placeEntity_together placed p.2) fun global _ => .pure ?_
  intro q hq
  rcases List.mem_append.1 hq with hq | hq
  · exact hplaced q hq
  · rw [List.mem_singleton.1 hq]
    exact hplain p hp

theorem placeObjects_together {tiled : Tiled.Map} {tilesets : List (UInt32 × Tileset)}
    (htilesets : ∀ t ∈ tilesets, c.PlainTiles t.2)
    (hallows : ∀ object ∈ tiled.objects, c.Allows object.properties) :
    Together c c.States c.PlainEntities (placeObjects tiled tilesets)
      (placeObjects tiled tilesets) := by
  refine .get_bind_map fun map _ _ _ _ => .bind (.except fun _ _ => trivial) fun _ _ => ?_
  refine .bind (placeOutlines_together _) fun outlines _ => .bind (.changeMap _) fun _ _ => ?_
  refine .get_bind_map fun _ p _ _ hp => ?_
  refine .bind (P := fun composed => ∀ q ∈ composed, c.Plain q.2.properties)
    (.except fun composed h => ?_) fun composed hcomposed => ?_
  · exact composeEntities_plain hp.types htilesets hallows (liftM_eq_ok.1 h)
  · refine .bind (placeEntities_together fun q hq => hcomposed q (mem_debugLast.1 hq))
      fun placed hplaced => ?_
    exact .bind (.changeMap _) fun _ _ => .pure hplaced

/-! ## Scripts of a map -/

theorem compileAll_together (hfits : c.Fits input)
    (hknows : c.Knows input.definitions.scripts scripts) {named : List (String × String)}
    (hnamed : ∀ entry ∈ named, c.Common entry.2) :
    Together c c.States Any (compileAll input named)
      (compileAll (input.replace maps scripts) named) := by
  refine .imp (.mapM (Q := Any) fun entry hentry => ?_) fun _ _ => trivial
  refine .bind (compileScript_together hfits hknows entry.2 (hnamed entry hentry)) fun _ _ => ?_
  exact .pure trivial

theorem nonEmpty?_eq_some {text : Option String} {found : String}
    (h : nonEmpty? text = some found) : text = some found := by
  unfold nonEmpty? at h
  split at h
  · split at h
    · cases h
    · exact h
  · cases h

/-- The scripts of the events are named in the map file or in the manifest. -/
theorem eventScripts_common {tiled : Tiled.Map} {settings : MapSettings} {map : String}
    {named : List (String × String)} (hallows : c.Allows tiled.properties)
    (hsettings : ∀ script ∈ settings.scripts, c.Common script)
    (h : eventScripts tiled settings map = .ok named) : ∀ entry ∈ named, c.Common entry.2 := by
  simp only [eventScripts] at h
  split at h
  · cases h
  · obtain rfl := pure_eq_ok.1 h
    intro entry hentry
    rcases List.mem_append.1 hentry with hfile | hmanifest
    · obtain ⟨p, hp, hevent⟩ := List.mem_filterMap.1 hfile
      split at hevent
      · obtain ⟨script, hscript, rfl⟩ := Option.map_eq_some_iff.1 hevent
        exact hallows p hp script (Json.asString?_eq_some.1 (nonEmpty?_eq_some hscript))
      · cases hevent
    · obtain ⟨⟨event, script?⟩, hzip, hevent⟩ := List.mem_filterMap.1 hmanifest
      obtain ⟨script, hscript, rfl⟩ := Option.map_eq_some_iff.1 hevent
      refine hsettings script (List.mem_append_left _ (List.mem_filterMap.2 ⟨script?, ?_, ?_⟩))
      · exact (List.of_mem_zip hzip).2
      · exact nonEmpty?_eq_some hscript

theorem compileEvents_together (hfits : c.Fits input)
    (hknows : c.Knows input.definitions.scripts scripts) {tiled : Tiled.Map}
    {settings : MapSettings} (hallows : c.Allows tiled.properties)
    (hsettings : ∀ script ∈ settings.scripts, c.Common script) :
    Together c c.States Any (compileEvents input tiled settings)
      (compileEvents (input.replace maps scripts) tiled settings) := by
  refine .bind (compileScript_together hfits hknows _ hknows.null) fun _ _ => ?_
  refine .get_bind_map fun map p _ _ _ => ?_
  refine .bind (P := fun named => ∀ entry ∈ named, c.Common entry.2) (.except fun named h => ?_)
    fun named hnamed => ?_
  · exact eventScripts_common hallows hsettings (liftM_eq_ok.1 h)
  · exact .bind (compileAll_together hfits hknows hnamed) fun _ _ => .pure trivial

theorem wireEntity_together (hfits : c.Fits input)
    (hknows : c.Knows input.definitions.scripts scripts) (global : UInt16) {e : Entity}
    (hplain : c.Plain e.properties) :
    Together c c.States Any (wireEntity input global e)
      (wireEntity (input.replace maps scripts) global e) := by
  refine .forM trivial fun slot hslot => ?_
  have hevent : slot.1 ∈ entityEvents := by
    rcases List.mem_pair.1 hslot with rfl | rfl <;> decide
  obtain ⟨property, offset⟩ := slot
  dsimp only
  cases hscript : e.script? property with
  | none => exact .pure trivial
  | some script =>
    have hcommon := hplain property hevent script hscript
    refine .bind (compileScript_together hfits hknows script hcommon) fun number _ => ?_
    exact .onProject (.update _ _ _)

/-! ## Records -/

theorem buildMapContents_together (hfits : c.Fits input)
    (hknows : c.Knows input.definitions.scripts scripts) {tiled : Tiled.Map}
    {settings : MapSettings} {tilesets : List (UInt32 × Tileset)}
    (htilesets : ∀ t ∈ tilesets, c.PlainTiles t.2) (hallows : c.Allows tiled.properties)
    (hobjects : ∀ object ∈ tiled.objects, c.Allows object.properties)
    (hsettings : ∀ script ∈ settings.scripts, c.Common script) (layers : List Bytes) :
    Together c c.States Any (buildMapContents input settings tiled tilesets layers)
      (buildMapContents (input.replace maps scripts) settings tiled tilesets layers) := by
  refine .bind (placeObjects_together htilesets hobjects) fun entities hentities => ?_
  refine .bind (compileEvents_together hfits hknows hallows hsettings) fun events _ => ?_
  refine .bind (compileAll_together hfits hknows fun entry hentry => ?_) fun directions _ => ?_
  · exact hsettings _ (List.mem_append_right _ (List.mem_map_of_mem hentry))
  refine .bind (.forM (Q := Any) trivial fun p hp => ?_) fun _ _ => ?_
  · exact wireEntity_together hfits hknows p.1 (hentities p hp)
  refine .get_bind_map fun map p _ _ _ => .bind (.except fun _ _ => trivial) fun header _ => ?_
  exact .onProject (.fill _ _ _)

/-- A map that the first build has a record for has the same one in the second. -/
theorem reserved_together {p p' : Project} (hp : c.Projects p p') {name : String} (e : BuildError) :
    Together c c.Projects Any (orReject (p.maps.find? name) e)
      (orReject (p'.maps.find? name) e) := by
  refine .grown (.orReject _ fun _ _ => trivial) ?_ fun hextra => by rw [hp.same hextra]
  cases hfind : p.maps.find? name with
  | some index =>
    rw [hp.maps name index hfind]
    exact Or.inr rfl
  | none => exact Or.inl ⟨_, rfl⟩

theorem buildMap_together (hfits : c.Fits input)
    (hknows : c.Knows input.definitions.scripts scripts) {name : String} {settings : MapSettings}
    (hmap : (name, settings) ∈ input.definitions.maps.entries) :
    Together c c.Projects Any (buildMap input name settings)
      (buildMap (input.replace maps scripts) name settings) := by
  refine .bind (.orReject _ fun _ _ => trivial) fun path _ => .get_bind fun p tables maps' hp => ?_
  refine .bind (reserved_together hp _) fun index _ => ?_
  refine .bind (.except fun tiled h => hfits.maps _ tiled (liftM_eq_ok.1 h)) fun tiled htiled => ?_
  refine .bind (loadTilesets_together hfits tiled) fun tilesets htilesets => ?_
  refine .bind (.except fun _ _ => trivial) fun layers _ => .onMap _ ?_
  exact buildMapContents_together hfits hknows htilesets htiled.1 htiled.2
    (hfits.settings _ hmap) layers

/-! ## The passes of a build -/

theorem storeVariables_together
    (hvariables : namedVariables scripts = namedVariables input.definitions.scripts) :
    Together c c.Projects Any (storeVariables input)
      (storeVariables (input.replace maps scripts)) := by
  rw [storeVariables, storeVariables, Input.replace, hvariables]
  exact .forM trivial fun name _ => .bind (.text _ _ _) fun _ _ => .pure trivial

/-- Without more maps both builds claim the same records. -/
theorem reserveMaps_together (hextra : c.extra = []) :
    Together c c.Projects Any (reserveMaps input)
      (reserveMaps (input.replace input.definitions.maps scripts)) := by
  refine .of_yields (fun _ _ h => h.eq_of_nil) fun p p' _ q hp h => ?_
  obtain rfl := hp.eq_of_nil hextra
  obtain ⟨-, -, -, -, hrest⟩ := reserveAll_spec input.definitions.maps.nodup_keys h
  refine ⟨trivial, q, h, .refl ?_ ?_ hextra⟩
  · rw [hrest]
    exact hp.tiles
  · rw [hrest]
    exact hp.types

/-- The passes between the claims for the maps and the maps. -/
theorem sharedPasses_together (hfits : c.Fits input) :
    Together c c.Projects Any
      (do buildPrototypes input
          loadDialogSkins input
          buildPortraits input
          buildEntityTypes input
          let _ ← addNullScript)
      (do buildPrototypes (input.replace maps scripts)
          loadDialogSkins (input.replace maps scripts)
          buildPortraits (input.replace maps scripts)
          buildEntityTypes (input.replace maps scripts)
          let _ ← addNullScript) := by
  refine .bind (buildPrototypes_together hfits) fun _ _ => ?_
  refine .bind (loadDialogSkins_together hfits) fun _ _ => ?_
  refine .bind (buildPortraits_together hfits) fun _ _ => ?_
  refine .bind (buildEntityTypes_together hfits) fun _ _ => ?_
  exact .bind addNullScript_together fun _ _ => .pure trivial

/-- The maps of the first build, built by both. -/
theorem buildMaps_together (hfits : c.Fits input)
    (hknows : c.Knows input.definitions.scripts scripts) :
    Together c c.Projects Any
      (input.definitions.maps.entries.forM fun (name, settings) => buildMap input name settings)
      (input.definitions.maps.entries.forM fun (name, settings) =>
        buildMap (input.replace maps scripts) name settings) :=
  .forM trivial fun _ hentry => buildMap_together hfits hknows hentry

theorem buildAll_together (hfits : c.Fits input)
    (hknows : c.Knows input.definitions.scripts scripts) (hextra : c.extra = [])
    (hvariables : namedVariables scripts = namedVariables input.definitions.scripts) :
    Together c c.Projects Any (buildAll input)
      (buildAll (input.replace input.definitions.maps scripts)) := by
  refine .bind (P := Any) ?_ fun _ _ => buildMaps_together hfits hknows
  refine .bind (storeVariables_together hvariables) fun _ _ => ?_
  exact .bind (reserveMaps_together hextra) fun _ _ => sharedPasses_together hfits

/-- Without more maps both builds come to the same tables or to the same error. -/
theorem build_together (hfits : c.Fits input)
    (hknows : c.Knows input.definitions.scripts scripts) (hextra : c.extra = [])
    (hvariables : namedVariables scripts = namedVariables input.definitions.scripts) :
    build (input.replace input.definitions.maps scripts) = build input := by
  have hstart : c.Projects {} {} := .refl (.empty _) (.empty _) hextra
  have htogether := buildAll_together hfits hknows hextra hvariables {} {} hstart
  rw [build_eq, build_eq]
  rcases hout : outcome (buildAll input) {} with ⟨e | u, p⟩
  · obtain ⟨p', hout'⟩ := htogether.fails e p hout hextra
    rw [hout']
    rfl
  · obtain ⟨-, p', hout', hp⟩ := htogether.yields u p hout
    obtain rfl := hp.eq_of_nil hextra
    rw [show outcome (buildAll (input.replace input.definitions.maps scripts)) {} = _ from hout']

end GameBundle
