import GameBundle.Proofs.Build.SharedSound
import GameBundle.Proofs.Build.SideBySide
import GameBundle.Proofs.Properties

set_option autoImplicit false

/-! # Shared parts side by side

What the maps share is built the same way in both builds. On the way it is seen which scripts the
tiles and the types of entities name, since entities inherit them. -/

namespace GameBundle

variable {input : Input} {c : Comparison}

/-! ## Scripts that are named -/

/-- The scripts that the manifest names for a map. -/
def MapSettings.scripts (settings : MapSettings) : List String :=
  [settings.onLoad, settings.onTick, settings.onLook].filterMap id ++ settings.directions.values

namespace Comparison

/-- Properties as an author gives them name no script but those that both builds know. -/
def Allows (c : Comparison) (properties : List Tiled.Property) : Prop :=
  ∀ p ∈ properties, ∀ script, p.value = .string script → c.Common script

/-- Nothing in the files of a project but its actions names other scripts. -/
structure Fits (c : Comparison) (input : Input) : Prop where
  objectTypes : ∀ type ∈ input.definitions.objectTypes, c.Allows type.properties
  tilesets : ∀ name file, readJson input.source Tiled.TilesetFile.decode name = .ok file →
    ∀ tile ∈ file.tiles, c.Allows tile.properties
  maps : ∀ name tiled, readJson input.source Tiled.Map.decode name = .ok tiled →
    c.Allows tiled.properties ∧ ∀ object ∈ tiled.objects, c.Allows object.properties
  settings : ∀ entry ∈ input.definitions.maps.entries, ∀ script ∈ entry.2.scripts, c.Common script
  dialogs : ∀ name screens, input.definitions.dialogs.find? name = some screens →
    ∀ screen ∈ screens, ∀ r ∈ screen.options, c.Common r.script
  serialDialogs : ∀ name dialog, input.definitions.serialDialogs.find? name = some dialog →
    ∀ r ∈ dialog.answers.responses, c.Common r.script

theorem Plain.merge {target result : Properties} {properties : List Tiled.Property}
    {context : String} (htarget : c.Plain target) (hallows : c.Allows properties)
    (h : Properties.merge context target properties = .ok result) : c.Plain result := by
  intro event hevent script hscript
  rcases Properties.text?_merge h hscript with hold | ⟨p, hp, hvalue⟩
  · exact htarget event hevent script hold
  · exact hallows p hp script hvalue

theorem Plain.overlay {layers : List Properties} (h : ∀ layer ∈ layers, c.Plain layer) :
    c.Plain (Properties.overlay layers) := by
  intro event hevent script hscript
  obtain ⟨layer, hlayer, htext⟩ := Properties.text?_overlay hscript
  exact h layer hlayer event hevent script htext

theorem Plain.empty : c.Plain ∅ := fun _ _ _ h => nomatch h

/-- Other keys name no scripts. -/
theorem Plain.put {properties : Properties} {key : String} (h : c.Plain properties)
    (hkey : key ∉ entityEvents) (value : Json) : c.Plain (properties.put key value) := by
  intro event hevent script hscript
  obtain ⟨hfind, hne⟩ := Properties.text?_eq_some.1 hscript
  rw [Ordered.find?_put, if_neg] at hfind
  · exact h event hevent script (Properties.text?_eq_some.2 ⟨hfind, hne⟩)
  · rintro rfl
    exact hkey hevent

end Comparison

/-! ## Tilesets -/

theorem loadImage_together (path : String) (layout : TileLayout) :
    Together c c.Projects Any (loadImage input path layout) (loadImage input path layout) := by
  refine .get_bind fun p tables maps hp => ?_
  cases p.images.find? (Text.baseName path) with
  | some index => exact .pure trivial
  | none =>
    refine .bind (.reserve (by decide) _) fun index _ => ?_
    refine .bind (.reserve (by decide) _) fun palette _ => ?_
    refine .bind (.remember fun q q' hq => ?_) fun _ _ => ?_
    · exact ⟨hq.records, hq.maps, hq.same, by rw [hq.rest], hq.tiles, hq.types⟩
    refine .bind (.except fun _ _ => trivial) fun image _ => ?_
    refine .bind (.except fun _ _ => trivial) fun picture _ => ?_
    refine .bind (.except fun _ _ => trivial) fun colors _ => ?_
    refine .bind (.fill _ _ _) fun _ _ => .bind (.fill _ _ _) fun _ _ => .pure trivial

theorem addOutline_together (object : Tiled.Object) :
    Together c c.Projects Any (addOutline object) (addOutline object) :=
  .bind (.except fun _ _ => trivial) fun _ _ => .push (by decide) _ _

theorem loadShape_together (file : Tiled.TilesetFile) (tile : Tiled.TileDef) (context : String) :
    Together c c.Projects Any (loadShape file tile context) (loadShape file tile context) := by
  unfold loadShape
  split
  · exact .pure trivial
  · exact .pure trivial
  · refine .rejectIf _ (.bind (addOutline_together _) fun index _ => ?_)
    exact .bind (.except fun _ _ => trivial) fun word _ => .pure trivial
  · exact .reject _

theorem loadAnimation_together (tileset : UInt16) (tile : Tiled.TileDef) (context : String) :
    Together c c.Projects Any (loadAnimation tileset tile context)
      (loadAnimation tileset tile context) := by
  unfold loadAnimation
  split
  · exact .pure trivial
  · exact .pure trivial
  · refine .bind (.except fun _ _ => trivial) fun bytes _ => ?_
    exact .bind (.push (by decide) _ _) fun index _ => .pure trivial

theorem tileProperties_plain {p : Project} {tile : Tiled.TileDef} {context : String}
    {properties : Properties} (htypes : p.entityTypes.All fun type => c.Plain type.prototype)
    (hallows : c.Allows tile.properties)
    (h : tileProperties p tile context = .ok properties) : c.Plain properties := by
  simp only [tileProperties, bind_eq_ok, pure_eq_ok] at h
  obtain ⟨own, hown, rfl⟩ := h
  have hnamed : c.Plain (if tile.kind.isEmpty then ∅
      else Ordered.empty.put "type" (.string tile.kind)) := by
    split
    · exact .empty
    · exact .put .empty (by decide) _
  refine .overlay fun layer hlayer => ?_
  rcases List.mem_cons.1 hlayer with rfl | hlayer
  · cases htype : p.entityTypes.find? tile.kind with
    | none => exact .empty
    | some type => exact htypes _ _ htype
  · rw [List.mem_singleton.1 hlayer]
    exact hnamed.merge hallows hown

theorem loadTile_together {file : Tiled.TilesetFile} {tile : Tiled.TileDef}
    (hallows : c.Allows tile.properties) (tileset : UInt16) (context : String) :
    Together c c.Projects (fun loaded => c.Plain loaded.1.properties)
      (loadTile file tileset context tile) (loadTile file tileset context tile) := by
  refine .get_bind fun p tables maps hp => ?_
  refine .bind (P := c.Plain) (.except fun properties h => ?_) fun properties hplain => ?_
  · exact tileProperties_plain hp.types hallows (liftM_eq_ok.1 h)
  · refine .bind (loadShape_together _ _ _) fun shape _ => ?_
    exact .bind (loadAnimation_together _ _ _) fun animation _ => .pure hplain

/-- A tileset whose tiles name no script but those that both builds know. -/
abbrev Comparison.PlainTiles (c : Comparison) (tileset : Tileset) : Prop :=
  ∀ id tile, tileset.tile? id = some tile → c.Plain tile.properties

theorem loadTileset_together (hfits : c.Fits input) (path : String) :
    Together c c.Projects c.PlainTiles (loadTileset input path) (loadTileset input path) := by
  refine .get_bind fun p tables maps hp => ?_
  cases hfind : p.tilesets.find? (Text.baseName path) with
  | some tileset => exact .pure (hp.tiles _ _ hfind)
  | none =>
    refine .bind (.except fun file h => hfits.tilesets _ file (liftM_eq_ok.1 h))
      fun file hfile => ?_
    refine .rejectIf _ (.bind (.reserve (by decide) _) fun index _ => ?_)
    refine .bind (.mapM (Q := fun b => c.Plain b.2.1.properties) fun tile htile => ?_)
      fun loaded hloaded => ?_
    · exact .bind (loadTile_together (hfile tile htile) _ _) fun _ h => .pure h
    refine .bind (loadImage_together _ _) fun image _ => ?_
    refine .bind (.except fun _ _ => trivial) fun header _ => ?_
    refine .bind (.except fun _ _ => trivial) fun shapes _ => ?_
    refine .bind (.fill _ _ _) fun _ _ => ?_
    have hplain : c.PlainTiles ⟨Text.stem (Text.baseName path), index, file.tileCount,
        loaded.foldl (fun tiles p => putEntry p.1 p.2.1 tiles) []⟩ := by
      intro id tile htile
      obtain ⟨shape, hmem⟩ := lookup_tiles htile
      exact hloaded _ hmem
    refine .bind (.remember fun q q' hq => ?_) fun _ _ => .pure hplain
    exact ⟨hq.records, hq.maps, hq.same, by rw [hq.rest], hq.tiles.put hplain, hq.types⟩

theorem loadTilesets_together (hfits : c.Fits input) (tiled : Tiled.Map) :
    Together c c.Projects (fun tilesets => ∀ t ∈ tilesets, c.PlainTiles t.2)
      (loadTilesets input tiled) (loadTilesets input tiled) :=
  .mapM fun _ _ => .bind (loadTileset_together hfits _) fun _ h => .pure h

/-! ## Passes -/

theorem prototypeOf_plain {types : List ObjectTypeDef} {name : String} {prototype : Properties}
    (htypes : ∀ type ∈ types, c.Allows type.properties)
    (h : prototypeOf types name = .ok prototype) : c.Plain prototype := by
  have hnamed : c.Plain (Ordered.empty.put "type" (.string name)) := .put .empty (by decide) _
  unfold prototypeOf at h
  split at h
  · next type htype => exact hnamed.merge (htypes type (List.mem_of_find?_eq_some htype)) h
  · cases h
    -- the scripts of the default prototype are empty texts
    intro event hevent script hscript
    obtain ⟨hfind, hne⟩ := Properties.text?_eq_some.1 hscript
    rw [Ordered.find?_putAll] at hfind
    have hempty : defaultPrototype.reverse.lookup event = some (.string "") := by
      rcases List.mem_pair.1 hevent with rfl | rfl <;> rfl
    rw [hempty] at hfind
    cases hfind
    exact (hne rfl).elim

theorem buildPrototypes_together (hfits : c.Fits input) :
    Together c c.Projects Any (buildPrototypes input) (buildPrototypes input) := by
  refine .forM trivial fun type _ => ?_
  refine .bind (P := c.Plain) (.except fun prototype h => ?_) fun prototype hplain => ?_
  · exact prototypeOf_plain hfits.objectTypes (liftM_eq_ok.1 h)
  refine .bind (.reserve (by decide) _) fun index _ => .remember fun q q' hq => ?_
  refine ⟨hq.records, hq.maps, hq.same, by rw [hq.rest], hq.tiles, hq.types.put ?_⟩
  exact hplain

theorem loadDialogSkins_together (hfits : c.Fits input) :
    Together c c.Projects Any (loadDialogSkins input) (loadDialogSkins input) := by
  refine .forM trivial fun skin _ => ?_
  refine .bind (loadTileset_together hfits _) fun tileset _ => .remember fun q q' hq => ?_
  exact ⟨hq.records, hq.maps, hq.same, by rw [hq.rest], hq.tiles, hq.types⟩

theorem buildPortraits_together (hfits : c.Fits input) :
    Together c c.Projects Any (buildPortraits input) (buildPortraits input) := by
  refine .forM trivial fun portrait _ => ?_
  refine .bind (.reserve (by decide) _) fun index _ => ?_
  refine .bind (.remember fun q q' hq => ?_) fun _ _ => ?_
  · exact ⟨hq.records, hq.maps, hq.same, by rw [hq.rest], hq.tiles, hq.types⟩
  refine .bind (loadTileset_together hfits _) fun tileset _ => ?_
  exact .bind (.except fun _ _ => trivial) fun bytes _ => .fill _ _ _

theorem buildEntityTypes_together (hfits : c.Fits input) :
    Together c c.Projects Any (buildEntityTypes input) (buildEntityTypes input) := by
  refine .get_bind fun p tables maps hp => .forM trivial fun type _ => ?_
  refine .bind (loadTileset_together hfits _) fun tileset _ => ?_
  refine .get_bind fun q tables' maps' hq => ?_
  exact .bind (.except fun _ _ => trivial) fun bytes _ => .fill _ _ _

theorem addNullScript_together :
    Together c c.Projects Any addNullScript addNullScript :=
  .bind (.except fun _ _ => trivial) fun _ _ => .push (by decide) _ _

end GameBundle
