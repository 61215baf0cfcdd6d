import GameBundle.Proofs.Build.TileIds

set_option autoImplicit false

/-! # Tile layers read back

A cell of a tile layer has four bytes: the number of the tile in its tileset, counted from one, then
the tileset and the flips. With the first ids of the tilesets at hand all 32 bits of the id can be
told from them again. The tilesets of a map stand in the order of their first ids. -/

namespace GameBundle

variable {tilesets : List (UInt32 × Tileset)} {gid : UInt32} {context : String}

/-! ## Reading a cell -/

/-- The last tileset that begins at or below an id. -/
def lastBelow (tilesets : List (UInt32 × Tileset)) (id : UInt32) : Option (UInt32 × Tileset) :=
  (tilesets.filter fun t => t.1 ≤ id).getLast?

/-- The id that a cell was made from. Tiles are counted from one, and the flips are the highest
    three bits. -/
def cellId (first : UInt32) (word : UInt16) (flags : UInt8) : UInt32 :=
  (first + word.toUInt32 - (1 : UInt32)) ||| (flags.toUInt32 <<< 29)

/-- The four bytes of a cell are zero if there is no tile, and else give back its id. -/
structure ReadsBack (tilesets : List (UInt32 × Tileset)) (bytes : Bytes) (start : Nat)
    (gid : UInt32) : Prop where
  empty : bytes.HasAt start [0, 0, 0, 0] ↔ gid = 0
  reads : gid ≠ 0 → ∃ first tileset word byte flags,
    lastBelow tilesets (tileId gid) = some (first, tileset) ∧ bytes.word? start = some word ∧
      bytes[start + 2]? = some byte ∧ byte.toNat = tileset.index.toNat ∧
      bytes[start + 3]? = some flags ∧ cellId first word flags = gid

/-- There is no cell for an id in front of all tilesets, nor for a tile or a tileset of too high a
    number. -/
def Unencodable (tilesets : List (UInt32 × Tileset)) (gid : UInt32) : Prop :=
  gid ≠ 0 ∧ ((∀ t ∈ tilesets, tileId gid < t.1) ∨
    ∃ first tileset, lastBelow tilesets (tileId gid) = some (first, tileset) ∧
      (65535 < (tileId gid).toNat - first.toNat + 1 ∨ 255 < tileset.index.toNat))

/-! ## Tilesets in order -/

theorem takeWhile_eq_filter {id : UInt32} (hsorted : tilesets.Pairwise fun s t => s.1 ≤ t.1) :
    tilesets.takeWhile (fun t => t.1 ≤ id) = tilesets.filter fun t => t.1 ≤ id := by
  induction tilesets with
  | nil => rfl
  | cons t rest ih =>
    obtain ⟨hfirst, hrest⟩ := List.pairwise_cons.1 hsorted
    by_cases ht : t.1 ≤ id
    · rw [List.takeWhile_cons_of_pos (by simpa using ht), List.filter_cons_of_pos (by simpa using ht),
        ih hrest]
    · have hnone : rest.filter (fun t => decide (t.1 ≤ id)) = [] :=
        List.filter_eq_nil_iff.2 fun s hs => by
          simpa using fun hle => ht (UInt32.le_trans (hfirst s hs) hle)
      rw [List.takeWhile_cons_of_neg (by simpa using ht), List.filter_cons_of_neg (by simpa using ht),
        hnone]

theorem lastBelow_eq_none {id : UInt32} :
    lastBelow tilesets id = none ↔ ∀ t ∈ tilesets, id < t.1 := by
  rw [lastBelow, List.getLast?_eq_none_iff, List.filter_eq_nil_iff]
  simp only [decide_eq_true_eq, UInt32.not_le]

theorem le_of_lastBelow {id first : UInt32} {tileset : Tileset}
    (h : lastBelow tilesets id = some (first, tileset)) : first ≤ id :=
  of_decide_eq_true (List.mem_filter.1 (List.mem_of_getLast? h)).2

/-! ## Flips -/

theorem flip_eq_testBit {mask : UInt32} (bit : Nat) (hmask : mask.toNat = 1 <<< bit) :
    (gid &&& mask != 0) = gid.toNat.testBit bit := by
  have hand : (gid &&& mask).toNat = (gid.toNat.testBit bit).toNat * 2 ^ bit := by
    rw [UInt32.toNat_and, hmask, Nat.one_shiftLeft, Nat.and_two_pow]
  rw [Bool.eq_iff_iff, bne_iff_ne, ne_eq, ← UInt32.toNat_inj, hand]
  cases gid.toNat.testBit bit <;> simp

/-- The flips of an id as one byte. -/
def flipsOf (gid : UInt32) : UInt8 :=
  renderFlags (gid &&& 0x80000000 != 0) (gid &&& 0x40000000 != 0) (gid &&& 0x20000000 != 0)

/-- The flips of an id are what stands in front of the rest of it. -/
theorem toNat_flipsOf (gid : UInt32) : (flipsOf gid).toNat = gid.toNat >>> 29 := by
  have hhigh : ∀ q < 8,
      (renderFlags (q.testBit 2) (q.testBit 1) (q.testBit 0)).toNat = q := by decide
  have hlt : gid.toNat >>> 29 < 8 := by
    have := gid.toNat_lt
    rw [Nat.shiftRight_eq_div_pow]
    omega
  rw [flipsOf, flip_eq_testBit 31 rfl, flip_eq_testBit 30 rfl, flip_eq_testBit 29 rfl]
  simpa only [Nat.testBit_shiftRight] using hhigh _ hlt

theorem toNat_tileId (gid : UInt32) : (tileId gid).toNat = gid.toNat % 2 ^ 29 := by
  rw [tileId, UInt32.toNat_and]
  exact Nat.and_two_pow_sub_one_eq_mod gid.toNat 29

theorem tileId_lt (gid : UInt32) : (tileId gid).toNat < 2 ^ 29 := by
  rw [toNat_tileId]
  exact Nat.mod_lt _ (by decide)

theorem tileId_or_flips (gid : UInt32) : tileId gid ||| ((flipsOf gid).toUInt32 <<< 29) = gid := by
  have hlt := gid.toNat_lt
  have hhigh : ((flipsOf gid).toUInt32 <<< 29).toNat = (gid.toNat / 2 ^ 29) <<< 29 := by
    have hbits : UInt32.toNat 29 % 32 = 29 := rfl
    rw [UInt32.toNat_shiftLeft, UInt8.toNat_toUInt32, toNat_flipsOf, Nat.shiftRight_eq_div_pow, hbits,
      Nat.shiftLeft_eq]
    exact Nat.mod_eq_of_lt (by omega)
  apply UInt32.toNat_inj.1
  rw [UInt32.toNat_or, toNat_tileId, hhigh, Nat.lor_comm,
    ← Nat.shiftLeft_add_eq_or_of_lt (Nat.mod_lt _ (by decide)), Nat.shiftLeft_eq]
  omega

/-- Counting from one is undone. -/
theorem cellId_of_le {first : UInt32} (hle : first ≤ tileId gid)
    (hfits : (tileId gid).toNat - first.toNat + 1 ≤ 65535) :
    cellId first (UInt16.ofNat ((tileId gid).toNat - first.toNat + 1)) (flipsOf gid) = gid := by
  have hlt := tileId_lt gid
  have hfirst := UInt32.le_iff_toNat_le.1 hle
  have hback : first + (UInt16.ofNat ((tileId gid).toNat - first.toNat + 1)).toUInt32 - 1 =
      tileId gid := by
    apply UInt32.toNat_inj.1
    rw [UInt32.toNat_sub, UInt32.toNat_add, UInt16.toNat_toUInt32,
      UInt16.toNat_ofNat_of_lt' (Nat.lt_succ_of_le hfits)]
    change (2 ^ 32 - 1 + _) % 2 ^ 32 = _
    omega
  rw [cellId, hback, tileId_or_flips]

/-! ## Cells -/

theorem resolveTile_eq_ok {tile : PlacedTile} (hsorted : tilesets.Pairwise fun s t => s.1 ≤ t.1) :
    resolveTile tilesets gid context = .ok tile ↔ ∃ first tileset,
      lastBelow tilesets (tileId gid) = some (first, tileset) ∧
        tile = ⟨tileset, tileId gid - first, gid &&& 0x80000000 != 0, gid &&& 0x40000000 != 0,
          gid &&& 0x20000000 != 0⟩ := by
  unfold resolveTile lastBelow
  rw [← tileId, ← takeWhile_eq_filter hsorted]
  dsimp only
  cases (tilesets.takeWhile fun t => t.1 ≤ tileId gid).getLast? with
  | none => simp
  | some entry => simp [eq_comm (a := tile), Prod.ext_iff]

/-- The number of a tile is no less than zero, and there is room to count from one. -/
theorem resolveTile_exact {tile : PlacedTile} (hsorted : tilesets.Pairwise fun s t => s.1 ≤ t.1)
    (h : resolveTile tilesets gid context = .ok tile) :
    ∃ first, lastBelow tilesets (tileId gid) = some (first, tile.tileset) ∧
      first.toNat ≤ (tileId gid).toNat ∧
      tile.tileIndex.toNat = (tileId gid).toNat - first.toNat ∧
      (tile.tileIndex + 1).toNat = tile.tileIndex.toNat + 1 := by
  obtain ⟨first, tileset, hlast, rfl⟩ := (resolveTile_eq_ok hsorted).1 h
  have hle := le_of_lastBelow hlast
  have hindex := UInt32.toNat_sub_of_le _ _ hle
  have hlt := tileId_lt gid
  have hroom : (tileId gid - first).toNat + 1 < 2 ^ 32 := by omega
  refine ⟨first, hlast, UInt32.le_iff_toNat_le.1 hle, hindex, ?_⟩
  rw [UInt32.toNat_add]
  exact Nat.mod_eq_of_lt hroom

/-- The bytes of a cell that is not empty. -/
theorem encodeCell_eq_ok {cell : List UInt8} (hsorted : tilesets.Pairwise fun s t => s.1 ≤ t.1)
    (hgid : gid ≠ 0) : encodeCell tilesets context gid = .ok cell ↔ ∃ first tileset,
      lastBelow tilesets (tileId gid) = some (first, tileset) ∧
        (tileId gid).toNat - first.toNat + 1 ≤ 65535 ∧ tileset.index.toNat ≤ 255 ∧
        cell = ByteOrder.data.word (UInt16.ofNat ((tileId gid).toNat - first.toNat + 1)) ++
          [UInt8.ofNat tileset.index.toNat, flipsOf gid] := by
  rw [encodeCell, if_neg hgid]
  simp only [bind_eq_ok, resolveTile_eq_ok hsorted]
  constructor
  · rintro ⟨tile, ⟨first, tileset, hlast, rfl⟩, h⟩
    have hindex := UInt32.toNat_sub_of_le _ _ (le_of_lastBelow hlast)
    refine ⟨first, tileset, hlast, ?_⟩
    rw [← hindex]
    split at h
    · cases h
    · next hfits =>
      obtain ⟨byte, hbyte, hcell⟩ := bind_eq_ok.1 h
      have hindexByte := byteOf_eq_ok hbyte
      refine ⟨Nat.le_of_not_lt hfits, hindexByte ▸ Nat.le_of_lt_succ byte.toNat_lt, ?_⟩
      rw [← hindexByte, UInt8.ofNat_toNat]
      exact (pure_eq_ok.1 hcell).symm
  · rintro ⟨first, tileset, hlast, hfits, hsmall, rfl⟩
    have hindex := UInt32.toNat_sub_of_le _ _ (le_of_lastBelow hlast)
    refine ⟨_, ⟨first, tileset, hlast, rfl⟩, ?_⟩
    have hbyte : (UInt8.ofNat tileset.index.toNat).toNat = tileset.index.toNat :=
      UInt8.toNat_ofNat_of_lt' (Nat.lt_succ_of_le hsmall)
    rw [← hindex] at hfits ⊢
    dsimp only
    rw [if_neg (Nat.not_lt.2 hfits), byteOf_eq_ok_iff.2 hbyte]
    rfl

theorem encodeCell_fails_iff (hsorted : tilesets.Pairwise fun s t => s.1 ≤ t.1) :
    (∃ e, encodeCell tilesets context gid = .error e) ↔ Unencodable tilesets gid := by
  by_cases hgid : gid = 0
  · simp [hgid, encodeCell, Unencodable]
  · have hok : (∃ cell, encodeCell tilesets context gid = .ok cell) ↔ ∃ first tileset,
        lastBelow tilesets (tileId gid) = some (first, tileset) ∧
          (tileId gid).toNat - first.toNat + 1 ≤ 65535 ∧ tileset.index.toNat ≤ 255 := by
      simp only [encodeCell_eq_ok hsorted hgid]
      constructor
      · rintro ⟨_, first, tileset, hlast, hfits, hsmall, -⟩
        exact ⟨first, tileset, hlast, hfits, hsmall⟩
      · rintro ⟨first, tileset, hlast, hfits, hsmall⟩
        exact ⟨_, first, tileset, hlast, hfits, hsmall, rfl⟩
    have hfails : (∃ e, encodeCell tilesets context gid = .error e) ↔
        ¬∃ cell, encodeCell tilesets context gid = .ok cell := by
      cases encodeCell tilesets context gid <;> simp
    rw [hfails, hok, Unencodable, ← lastBelow_eq_none, and_iff_right hgid]
    cases lastBelow tilesets (tileId gid) with
    | none => simp
    | some entry =>
      obtain ⟨first, tileset⟩ := entry
      simp only [Option.some.injEq, Prod.mk.injEq, reduceCtorEq, false_or]
      constructor
      · intro hnot
        refine ⟨first, tileset, ⟨rfl, rfl⟩, ?_⟩
        by_contra hsmall
        exact hnot ⟨first, tileset, ⟨rfl, rfl⟩, by omega, by omega⟩
      · rintro ⟨_, _, ⟨rfl, rfl⟩, hlarge⟩ ⟨_, _, ⟨rfl, rfl⟩, hfits, hsmall⟩
        omega

/-- A cell gives back its id. -/
theorem readsBack_of_encodeCell {cell : List UInt8}
    (hsorted : tilesets.Pairwise fun s t => s.1 ≤ t.1)
    (h : encodeCell tilesets context gid = .ok cell) :
    cell.length = 4 ∧ ∀ {bytes : Bytes} {start : Nat}, bytes.HasAt start cell →
      ReadsBack tilesets bytes start gid := by
  by_cases hgid : gid = 0
  · rw [encodeCell, if_pos hgid] at h
    cases h
    exact ⟨rfl, fun hat => ⟨⟨fun _ => hgid, fun _ => hat⟩, fun hne => (hne hgid).elim⟩⟩
  · obtain ⟨first, tileset, hlast, hfits, hsmall, rfl⟩ := (encodeCell_eq_ok hsorted hgid).1 h
    refine ⟨rfl, fun {bytes start} hat => ?_⟩
    have hword := hat.left.word?
    have hid := cellId_of_le (le_of_lastBelow hlast) hfits
    refine ⟨⟨fun hzero => ?_, fun hzero => (hgid hzero).elim⟩, fun _ => ?_⟩
    · have hnothing := (hzero.left (a := ByteOrder.data.word 0) (b := [0, 0])).word?
      have heq := congrArg UInt16.toNat (Option.some.inj (hnothing.symm.trans hword))
      rw [UInt16.toNat_ofNat_of_lt' (Nat.lt_succ_of_le hfits)] at heq
      cases heq
    · exact ⟨first, tileset, _, _, _, hlast, hword, hat 2 (by simp), by
        rw [UInt8.toNat_ofNat_of_lt' (Nat.lt_succ_of_le hsmall)], hat 3 (by simp), hid⟩

/-! ## Layers -/

/-- Where pieces of one length are put together, each stands at a multiple of it. -/
theorem hasAt_flatten {pieces : List (List UInt8)} {length i : Nat} {piece : List UInt8}
    (hlength : ∀ p ∈ pieces, p.length = length) (hi : pieces[i]? = some piece) :
    Bytes.HasAt pieces.flatten.toArray (length * i) piece := by
  obtain ⟨hlt, rfl⟩ := List.getElem?_eq_some_iff.1 hi
  have hsplit : pieces.flatten =
      (pieces.take i).flatten ++ (pieces[i] ++ (pieces.drop (i + 1)).flatten) := by
    rw [← List.flatten_cons, ← List.drop_eq_getElem_cons hlt, ← List.flatten_append,
      List.take_append_drop]
  have hbefore : (pieces.take i).flatten.length = length * i := by
    rw [length_flatten_of_forall fun p hp => hlength p (List.mem_of_mem_take hp), List.length_take,
      Nat.min_eq_left (Nat.le_of_lt hlt)]
  rw [← hbefore]
  exact Bytes.hasAt_of_toList _ _ hsplit

/-- What a layer of some cells is encoded to. -/
structure Rasterized (map : Tiled.Map) (tilesets : List (UInt32 × Tileset))
    (layer : String × List UInt32) (bytes : Bytes) : Prop where
  size : bytes.size = 4 * (map.width.toNat * map.height.toNat)
  count : layer.2.length = map.width.toNat * map.height.toNat
  cells : ∀ i gid, layer.2[i]? = some gid → ReadsBack tilesets bytes (4 * i) gid

theorem encodeLayer_rasterized {map : Tiled.Map} {layer : String × List UInt32} {bytes : Bytes}
    (hsorted : tilesets.Pairwise fun s t => s.1 ≤ t.1)
    (h : encodeLayer map tilesets context layer.1 layer.2 = .ok bytes) :
    Rasterized map tilesets layer bytes := by
  have hsize := size_of_encodeLayer h
  simp only [encodeLayer] at h
  split at h
  · cases h
  · next hcount =>
    rw [not_not] at hcount
    simp only [bind_eq_ok, pure_eq_ok, mapM_eq_ok] at h
    obtain ⟨cells, hcells, rfl⟩ := h
    have hlength : ∀ cell ∈ cells, cell.length = 4 := by
      intro cell hcell
      obtain ⟨gid, -, hencode⟩ := exists_of_mem_forall₂ hcells hcell
      exact length_of_encodeCell hencode
    refine ⟨hsize, hcount, fun i gid hi => ?_⟩
    obtain ⟨cell, hcell, hencode⟩ := forall₂_getElem? hcells hi
    exact (readsBack_of_encodeCell hsorted hencode).2 (hasAt_flatten hlength hcell)

theorem encodeLayer_fails_iff {map : Tiled.Map} {name : String} {cells : List UInt32}
    (hsorted : tilesets.Pairwise fun s t => s.1 ≤ t.1) :
    (∃ e, encodeLayer map tilesets context name cells = .error e) ↔
      cells.length ≠ map.width.toNat * map.height.toNat ∨
        ∃ gid ∈ cells, Unencodable tilesets gid := by
  simp only [encodeLayer]
  split
  · next hcount => exact ⟨fun _ => .inl hcount, fun _ => ⟨_, rfl⟩⟩
  · next hcount =>
    rw [or_iff_right hcount]
    have hcells : (∃ e, cells.mapM (encodeCell tilesets s!"{context} layer \"{name}\"") = .error e) ↔
        ∃ gid ∈ cells, Unencodable tilesets gid := by
      simp only [mapM_fails_iff, encodeCell_fails_iff hsorted]
    rw [← hcells]
    refine exists_congr fun e => ?_
    simp [bind_eq_error, pure, Except.pure]

/-- What is true of the tile layers of a map. -/
structure LayersReadBack (map : Tiled.Map) (tilesets : List (UInt32 × Tileset))
    (context : String) : Prop where
  /-- The layers keep their order, and each of their cells gives back its id. -/
  rasters : ∀ layers, encodeLayers map tilesets context = .ok layers →
    List.Forall₂ (Rasterized map tilesets) map.tileLayers layers
  /-- Only a wrong number of cells, or an id that has no cell, is refused. -/
  fails : (∃ e, encodeLayers map tilesets context = .error e) ↔ ∃ layer ∈ map.tileLayers,
    layer.2.length ≠ map.width.toNat * map.height.toNat ∨
      ∃ gid ∈ layer.2, Unencodable tilesets gid
  /-- No number of a tile wraps around, whatever the id. -/
  exact : ∀ gid context tile, resolveTile tilesets gid context = .ok tile →
    ∃ first, lastBelow tilesets (tileId gid) = some (first, tile.tileset) ∧
      first.toNat ≤ (tileId gid).toNat ∧
      tile.tileIndex.toNat = (tileId gid).toNat - first.toNat ∧
      (tile.tileIndex + 1).toNat = tile.tileIndex.toNat + 1

/-- **The cells of a map give back their ids**, flips included, and an id is refused only if there
    is no room for its tile or no tileset for it. -/
theorem layers_read_back (map : Tiled.Map) (context : String)
    (hsorted : tilesets.Pairwise fun s t => s.1 ≤ t.1) : LayersReadBack map tilesets context where
  rasters _ h := (mapM_eq_ok.1 h).imp fun _ _ hlayer => encodeLayer_rasterized hsorted hlayer
  fails := by
    rw [encodeLayers, mapM_fails_iff]
    exact exists_congr fun layer => and_congr_right fun _ => encodeLayer_fails_iff hsorted
  exact _ _ _ h := resolveTile_exact hsorted h

/-- Two tilesets, of which the second begins at the id 5. -/
def shoreTilesets : List (UInt32 × Tileset) := [(1, ⟨"grass", 0, 4, []⟩), (5, ⟨"water", 3, 4, []⟩)]

/-- A map of an empty cell and two tiles, of which one is flipped both ways. -/
def shore : Tiled.Map where
  width := 3
  height := 1
  tileWidth := 8
  tileHeight := 8
  layers := [.tiles "ground" [0, 2, 0xc0000006], .other]
  tilesets := []
  properties := []

theorem shore_reads_back : LayersReadBack shore shoreTilesets "shore" ∧
    encodeLayers shore shoreTilesets "shore" = .ok [#[0, 0, 0, 0, 2, 0, 0, 0, 2, 0, 3, 6]] :=
  ⟨layers_read_back shore "shore" (by decide), by rfl⟩

end GameBundle
