import Mathlib.Data.List.TakeWhile
import GameBundle.Proofs.Build.Finished

set_option autoImplicit false

/-! # Which tile an id stands for

A map gives each of its tilesets the first of a range of tile ids. Nothing says where a range ends:
an id belongs to the last tileset that begins at or below it, as far as the first ids are in order.
So an id behind the tiles of a tileset is still taken from it, and only ids in front of all tilesets
are refused. `TakenFrom` says which tileset that is, and `Resolved` which of its tiles. -/

namespace GameBundle

variable {input : Input} {name : String} {settings : MapSettings}

/-! ## Ids -/

/-- The id of a tile without its flips. -/
def tileId (gid : UInt32) : UInt32 := gid &&& tileIdMask

/-- The tileset begins at or below the id, and so do all in front of it, but not the next one. -/
def TakenFrom (tilesets : List (UInt32 × Tileset)) (id first : UInt32) (tileset : Tileset) : Prop :=
  ∃ before after, tilesets = before ++ (first, tileset) :: after ∧
    (∀ t ∈ before, t.1 ≤ id) ∧ first ≤ id ∧ ∀ t, after.head? = some t → id < t.1

/-- The tile that an id stands for, in the tileset the id is taken from. It is one of the tiles of
    the tileset exactly if the id lies in front of the end of its range. -/
structure Resolved (tilesets : List (UInt32 × Tileset)) (gid : UInt32) (tile : PlacedTile) :
    Prop where
  succeeds : ∀ context, resolveTile tilesets gid context = .ok tile
  place : ∃ first, TakenFrom tilesets (tileId gid) first tile.tileset ∧
    tile.tileIndex.toNat = (tileId gid).toNat - first.toNat ∧
    (tile.tileIndex < tile.tileset.tileCount ↔
      (tileId gid).toNat < first.toNat + tile.tileset.tileCount.toNat)

theorem takenFrom_of_getLast? {tilesets : List (UInt32 × Tileset)} {id first : UInt32}
    {tileset : Tileset}
    (h : (tilesets.takeWhile fun t => t.1 ≤ id).getLast? = some (first, tileset)) :
    TakenFrom tilesets id first tileset := by
  obtain ⟨before, hbefore⟩ := List.getLast?_eq_some_iff.1 h
  have hreached : ∀ t ∈ before ++ [(first, tileset)], t.1 ≤ id := by
    intro t ht
    rw [← hbefore] at ht
    have hle := List.mem_takeWhile_imp ht
    exact of_decide_eq_true hle
  have hsplit : tilesets = before ++ (first, tileset) :: tilesets.dropWhile fun t => t.1 ≤ id := by
    conv => lhs; rw [← List.takeWhile_append_dropWhile (l := tilesets), hbefore]
    simp
  refine ⟨before, _, hsplit, fun t ht => hreached t (by simp [ht]), hreached (first, tileset)
    (by simp), ?_⟩
  intro t ht
  have hhead := List.head?_dropWhile_not (fun t => decide (t.1 ≤ id)) tilesets
  rw [ht] at hhead
  exact UInt32.not_le.1 (of_decide_eq_false hhead)

theorem TakenFrom.le {tilesets : List (UInt32 × Tileset)} {id first : UInt32} {tileset : Tileset}
    (h : TakenFrom tilesets id first tileset) : first ≤ id := by
  obtain ⟨before, after, -, -, hfirst, -⟩ := h
  exact hfirst

theorem resolveTile_resolved {tilesets : List (UInt32 × Tileset)} {gid : UInt32} {context : String}
    {tile : PlacedTile} (h : resolveTile tilesets gid context = .ok tile) :
    Resolved tilesets gid tile := by
  constructor
  · intro other
    rw [← h]
    simp only [resolveTile] at h ⊢
    split at h
    · rfl
    · cases h
  · simp only [resolveTile] at h
    split at h
    · next first tileset hlast =>
      cases h
      have htaken : TakenFrom tilesets (tileId gid) first tileset := takenFrom_of_getLast? hlast
      have hfirst : first ≤ tileId gid := htaken.le
      have hindex := UInt32.toNat_sub_of_le _ _ hfirst
      refine ⟨first, htaken, hindex, ?_⟩
      have hle := UInt32.le_iff_toNat_le.1 hfirst
      change tileId gid - first < _ ↔ _
      rw [UInt32.lt_iff_toNat_lt, hindex]
      omega
    · cases h

/-- Ids in front of the first tileset are the only ones that are refused. -/
theorem resolveTile_eq_error {tilesets : List (UInt32 × Tileset)} {gid : UInt32} {context : String}
    {e : BuildError} :
    resolveTile tilesets gid context = .error e ↔
      (∀ t, tilesets.head? = some t → tileId gid < t.1) ∧
        e = .malformed context s!"tile gid {tileId gid} belongs to no tileset" := by
  have hnone : (tilesets.takeWhile fun t => t.1 ≤ tileId gid).getLast? = none ↔
      ∀ t, tilesets.head? = some t → tileId gid < t.1 := by
    rw [List.getLast?_eq_none_iff]
    cases tilesets with
    | nil => simp
    | cons t rest => simp [List.takeWhile_cons]
  constructor
  · intro h
    simp only [resolveTile] at h
    split at h
    · cases h
    · next hlast =>
      cases h
      exact ⟨hnone.1 hlast, rfl⟩
  · rintro ⟨hfront, rfl⟩
    simp only [resolveTile]
    split
    · next hlast => cases (hnone.2 hfront).symm.trans hlast
    · rfl

/-! ## Ids on a map -/

/-- The ids on a map that stand for tiles: of its cells, as far as they are not empty, and of its
    objects. -/
def placedIds (tiled : Tiled.Map) : List UInt32 :=
  (tiled.tileLayers.flatMap fun layer => layer.2.filter (· ≠ 0)) ++
    tiled.objects.filterMap Tiled.Object.gid

theorem resolved_of_encodeLayers {tiled : Tiled.Map} {tilesets : List (UInt32 × Tileset)}
    {context : String} {layers : List Bytes} (h : encodeLayers tiled tilesets context = .ok layers)
    {gid : UInt32} (hgid : gid ∈ tiled.tileLayers.flatMap fun layer => layer.2.filter (· ≠ 0)) :
    ∃ tile, Resolved tilesets gid tile := by
  obtain ⟨⟨layer, cells⟩, hlayer, hgid⟩ := List.mem_flatMap.1 hgid
  obtain ⟨hcell, hfull⟩ := List.mem_filter.1 hgid
  obtain ⟨_, -, hencode⟩ := exists_of_mem_forall₂ (mapM_eq_ok.1 h).flip hlayer
  simp only [encodeLayer] at hencode
  split at hencode
  · cases hencode
  · simp only [bind_eq_ok, pure_eq_ok, mapM_eq_ok] at hencode
    obtain ⟨encoded, hencoded, -⟩ := hencode
    obtain ⟨_, -, hencode⟩ := exists_of_mem_forall₂ hencoded.flip hcell
    rw [encodeCell, if_neg (of_decide_eq_true hfull)] at hencode
    obtain ⟨tile, htile, -⟩ := bind_eq_ok.1 hencode
    exact ⟨tile, resolveTile_resolved htile⟩

theorem resolved_of_composeEntities {types : Ordered EntityType}
    {tilesets : List (UInt32 × Tileset)} {map : String} {objects : List Tiled.Object}
    {composed : List (Nat × Entity)}
    (h : composeEntities types tilesets map objects = .ok composed) {gid : UInt32}
    (hgid : gid ∈ objects.filterMap Tiled.Object.gid) : ∃ tile, Resolved tilesets gid tile := by
  obtain ⟨object, hobject, hgid⟩ := List.mem_filterMap.1 hgid
  obtain ⟨place, hplace⟩ := List.getElem?_of_mem hobject
  simp only [composeEntities, bind_eq_ok, mapM_eq_ok] at h
  obtain ⟨parts, hparts, -⟩ := h
  obtain ⟨_, -, hpart⟩ := exists_of_mem_forall₂ hparts.flip
    (List.mk_mem_zipIdx_iff_getElem?.2 hplace)
  simp only [hgid, bind_eq_ok] at hpart
  obtain ⟨tile, htile, -⟩ := hpart
  exact ⟨tile, resolveTile_resolved htile⟩

/-- **Every id on a map of a bundle is resolved by where the tilesets of the map begin.** The tile
    is one of the tileset exactly if the id lies in front of the end of its range, which nothing
    checks: an id is refused only in front of all tilesets. -/
theorem tile_ids_resolved {tables : Tables} (hbuild : build input = .ok tables) {i : Nat}
    (hmap : input.definitions.maps.entries[i]? = some (name, settings)) :
    ∃ path tiled tilesets p, settings.path = some path ∧
      readJson input.source Tiled.Map.decode (Text.baseName path) = .ok tiled ∧
      Yields (loadTilesets input tiled) (projectBefore input i) tilesets p ∧
      (∀ gid ∈ placedIds tiled, ∃ tile, Resolved tilesets gid tile) ∧
      ∀ gid context e, resolveTile tilesets gid context = .error e ↔
        (∀ t, tilesets.head? = some t → tileId gid < t.1) ∧
          e = .malformed context s!"tile gid {tileId gid} belongs to no tileset" := by
  obtain ⟨bytes, s, hcompiled, -, -, -⟩ := compiled_of_build hbuild hmap
  obtain ⟨path, tiled, tilesets, p, index, layers, hpath, htiled, htilesets, -, hlayers,
    hcompose⟩ := hcompiled
  refine ⟨path, tiled, tilesets, p, hpath, htiled, htilesets, ?_, fun gid context e =>
    resolveTile_eq_error⟩
  intro gid hgid
  rcases List.mem_append.1 hgid with hcell | hobject
  · exact resolved_of_encodeLayers hlayers hcell
  · obtain ⟨placed, r, hplaced, -⟩ := yields_bind.1 hcompose
    obtain ⟨composed, hcomposed, -, -⟩ := placeObjects_spec hplaced
    exact resolved_of_composeEntities hcomposed hobject

/-! ## An example -/

/-- The file of a map of one cell. -/
def meadowFile : String :=
  "\x7b\"width\": 1, \"height\": 1, \"tilewidth\": 2, \"tileheight\": 2," ++
    "\"tilesets\": [\x7b\"firstgid\": 1, \"source\": \"grass.json\"\x7d]," ++
    "\"layers\": [\x7b\"type\": \"tilelayer\", \"name\": \"ground\", \"data\": [9]\x7d]\x7d"

/-- The file of a tileset of four tiles. -/
def grassFile : String :=
  "\x7b\"tilewidth\": 2, \"tileheight\": 2, \"tilecount\": 4, \"columns\": 2," ++
    "\"image\": \"grass.png\", \"imagewidth\": 4, \"imageheight\": 4\x7d"

/-- A map of one cell and its tileset. The tileset has four tiles, which are the ids from 1 to 4,
    but the cell has the id 9. -/
def meadow : Input where
  source := .inMemory .none
    (.ofList [("town.json", meadowFile.toUTF8), ("grass.json", grassFile.toUTF8)])
    (.ofList [("grass.png", ⟨4, 4, 3, Array.replicate 48 0⟩)])
  definitions := { maps := .ofList [("town", { path := some "town.json" })] }

theorem meadow_builds : ∃ tables, build meadow = .ok tables :=
  exists_of_isOk (by decide +kernel)

/-- The ids on the map of the meadow, and which tile the id 9 is there, of how many. -/
def meadowTile : Except Failure (List UInt32 × UInt32 × UInt32) := do
  let tiled ← readJson meadow.source Tiled.Map.decode "town.json"
  let tilesets ← (outcome (loadTilesets meadow tiled) (projectBefore meadow 0)).1
  let tile ← resolveTile tilesets 9 "meadow"
  return (placedIds tiled, tile.tileIndex, tile.tileset.tileCount)

theorem meadowTile_eq : meadowTile = .ok ([9], 8, 4) :=
  eq_ok_of_toOption (by decide +kernel)

/-- The meadow is built with a tile that its tileset does not have. -/
theorem meadow_tile_outside : ∃ tables tiled tilesets p tile, build meadow = .ok tables ∧
    readJson meadow.source Tiled.Map.decode "town.json" = .ok tiled ∧
    Yields (loadTilesets meadow tiled) (projectBefore meadow 0) tilesets p ∧
    9 ∈ placedIds tiled ∧ (∀ context, resolveTile tilesets 9 context = .ok tile) ∧
    tile.tileset.tileCount ≤ tile.tileIndex := by
  obtain ⟨tables, htables⟩ := meadow_builds
  have hmeadow := meadowTile_eq
  simp only [meadowTile, bind_eq_ok, liftM_eq_ok, pure_eq_ok, Prod.mk.injEq] at hmeadow
  obtain ⟨tiled, htiled, tilesets, htilesets, tile, htile, hids, hindex, hcount⟩ := hmeadow
  refine ⟨tables, tiled, tilesets, _, tile, htables, htiled, yields_outcome htilesets, ?_,
    (resolveTile_resolved htile).succeeds, ?_⟩
  · rw [hids]
    exact List.mem_singleton_self 9
  · rw [hcount, hindex]
    decide

theorem meadow_ids_resolved : ∃ path tiled tilesets p, some "town.json" = some path ∧
    readJson meadow.source Tiled.Map.decode (Text.baseName path) = .ok tiled ∧
    Yields (loadTilesets meadow tiled) (projectBefore meadow 0) tilesets p ∧
    (∀ gid ∈ placedIds tiled, ∃ tile, Resolved tilesets gid tile) ∧
    ∀ gid context e, resolveTile tilesets gid context = .error e ↔
      (∀ t, tilesets.head? = some t → tileId gid < t.1) ∧
        e = .malformed context s!"tile gid {tileId gid} belongs to no tileset" := by
  obtain ⟨tables, htables⟩ := meadow_builds
  have hmap : meadow.definitions.maps.entries[0]? =
      some ("town", { path := some "town.json" }) := rfl
  exact tile_ids_resolved htables hmap

end GameBundle
