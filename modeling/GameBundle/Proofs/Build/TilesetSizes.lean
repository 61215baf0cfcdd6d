import GameBundle.Proofs.Build.Overruns

set_option autoImplicit false

/-! # The sizes of tilesets

The record of a tileset has its sizes in fields of 16 bits, and a size that does not fit is reported
as a mistake of the project. The tiles form one column, so two of the sizes are products of numbers
that the file gives with 32 bits each: the number of tiles, and the height of the column. They have
to fit 32 bits themselves before they can be looked at. Nothing that is checked earlier keeps them
small, not even the image, whose own size does not matter here. So a file whose numbers are larger
still is not reported: the load overruns. -/

namespace GameBundle

open Tiled (TilesetFile TileDef)

variable {input : Input} {path name context : String} {file : TilesetFile} {image index : UInt16}
  {p q : Project}

/-! ## Sizes -/

namespace Tiled.TilesetFile

/-- The number of tiles that the file gives room for. -/
def tileTotal (file : TilesetFile) : Nat :=
  file.imageHeight.toNat / file.tileHeight.toNat * file.columns.toNat

/-- The height of all these tiles in one column. -/
def stripHeight (file : TilesetFile) : Nat := file.tileTotal * file.tileHeight.toNat

/-- A product does not fit 32 bits. The height is not worked out if the width is too large
    already. -/
def SizesOverrun (file : TilesetFile) : Prop :=
  UInt32.size ≤ file.tileTotal ∨ file.tileWidth.toNat ≤ 0xffff ∧ UInt32.size ≤ file.stripHeight

/-- The error for the first size that does not fit 16 bits. The last one is only reached if there
    are no tiles. -/
inductive TooLarge (file : TilesetFile) (context : String) : BuildError → Prop
  | width (large : 0xffff < file.tileWidth.toNat) :
      TooLarge file context (.fieldOverflow s!"{context} image width" file.tileWidth.toNat 2)
  | height (width : file.tileWidth.toNat ≤ 0xffff) (large : 0xffff < file.stripHeight) :
      TooLarge file context (.fieldOverflow s!"{context} image height" file.stripHeight 2)
  | tileHeight (width : file.tileWidth.toNat ≤ 0xffff) (height : file.stripHeight ≤ 0xffff)
      (large : 0xffff < file.tileHeight.toNat) :
      TooLarge file context (.fieldOverflow s!"{context} tile height" file.tileHeight.toNat 2)

/-- All sizes fit 16 bits. -/
structure SizesFit (file : TilesetFile) : Prop where
  tileWidth : file.tileWidth.toNat ≤ 0xffff
  tileHeight : file.tileHeight.toNat ≤ 0xffff
  stripHeight : file.stripHeight ≤ 0xffff
  tileTotal : file.tileTotal ≤ 0xffff

/-- A column of tiles is at least as high as there are tiles. -/
theorem tileTotal_le (hheight : file.tileHeight ≠ 0) : file.tileTotal ≤ file.stripHeight := by
  have hpos : 0 < file.tileHeight.toNat :=
    Nat.pos_of_ne_zero fun hzero => hheight (UInt32.toNat_inj.1 hzero)
  exact Nat.le_mul_of_pos_right _ hpos

end Tiled.TilesetFile

/-! ## The header -/

theorem product32_of_lt {a b : Nat} (h : a * b < UInt32.size) : product32 a b = .ok (a * b) :=
  if_pos h

theorem product32_of_le {a b : Nat} (h : UInt32.size ≤ a * b) : product32 a b = .error .overrun :=
  if_neg (Nat.not_lt.2 h)

/-- Behind fields that fit, a number that does not is refused. -/
theorem Writer.Holds.writeAll_number {w : Writer} {done : List UInt8} {rest : List Field}
    (fields : List Field) (left : Nat) (h : w.Holds done (widthOf fields + left))
    (hfits : ∀ field ∈ fields, field.Fits) (hword : done.length + widthOf fields < wordLimit)
    {value width : Nat} {context : String} {order : ByteOrder}
    (hlarge : maxForWidth width < value) :
    w.writeAll (fields ++ .number value width context order :: rest) =
      .error (.error (.fieldOverflow context value width)) := by
  obtain ⟨w', hw', -⟩ := h.writeAll hfits hword
  rw [Writer.writeAll] at hw' ⊢
  rw [List.foldlM_append, hw']
  change w'.write _ >>= _ = _
  rw [show w'.write (.number value width context order) =
    .error (.error (.fieldOverflow context value width)) from if_pos hlarge]
  rfl

/-- The fields that are written before the height is worked out. -/
def widthFields (file : TilesetFile) (name context : String) (image : UInt16) : List Field :=
  [.chars name 16, .word image, .number file.tileWidth.toNat 2 s!"{context} image width"]

theorem widthFields_cases (file : TilesetFile) (name context : String) (image : UInt16) :
    (0xffff < file.tileWidth.toNat ∧
      (Writer.new 30).writeAll (widthFields file name context image) =
        .error (.error (.fieldOverflow s!"{context} image width" file.tileWidth.toNat 2))) ∨
    (file.tileWidth.toNat ≤ 0xffff ∧ ∃ w done,
      (Writer.new 30).writeAll (widthFields file name context image) = .ok w ∧ w.Holds done 12 ∧
        done.length = 20) := by
  have hnew : (Writer.new 30).Holds [] 32 := Writer.holds_new 30
  rcases Nat.lt_or_ge 0xffff file.tileWidth.toNat with hlarge | hfits
  · refine .inl ⟨hlarge, ?_⟩
    exact Writer.Holds.writeAll_number [.chars name 16, .word image] 14 hnew
      (by simp [Field.Fits]) (show 18 < wordLimit by decide) hlarge
  · have hall : ∀ field ∈ widthFields file name context image, field.Fits := by
      simp only [widthFields, List.forall_mem_cons]
      exact ⟨trivial, trivial, hfits, List.forall_mem_nil _⟩
    have hroom : (Writer.new 30).Holds [] (widthOf (widthFields file name context image) + 12) :=
      hnew
    obtain ⟨w, hw, hholds⟩ := hroom.writeAll hall (show 20 < wordLimit by decide)
    exact .inr ⟨hfits, w, _, hw, hholds, hholds.offset.symm.trans (Writer.writeAll_spec hw).1⟩

/-- The fields behind them. -/
def heightFields (file : TilesetFile) (context : String) : List Field :=
  [.number file.stripHeight 2 s!"{context} image height",
    .number file.tileWidth.toNat 2 s!"{context} tile width",
    .number file.tileHeight.toNat 2 s!"{context} tile height",
    .word 1,
    .number file.tileTotal 2 s!"{context} rows"]

theorem heightFields_cases {w : Writer} {done : List UInt8} (context : String) (h : w.Holds done 12)
    (hdone : done.length = 20) (hnonzero : file.tileHeight ≠ 0)
    (hwidth : file.tileWidth.toNat ≤ 0xffff) :
    (∃ e, file.TooLarge context e ∧ w.writeAll (heightFields file context) = .error (.error e)) ∨
    (file.SizesFit ∧ ∃ w', w.writeAll (heightFields file context) = .ok w') := by
  rcases Nat.lt_or_ge 0xffff file.stripHeight with hlarge | hstrip
  · refine .inl ⟨_, .height hwidth hlarge, ?_⟩
    exact Writer.Holds.writeAll_number [] 12 h (List.forall_mem_nil _)
      (by rw [hdone]; exact show 20 < wordLimit by decide) hlarge
  rcases Nat.lt_or_ge 0xffff file.tileHeight.toNat with hlarge | hheight
  · refine .inl ⟨_, .tileHeight hwidth hstrip hlarge, ?_⟩
    have hbefore : ∀ field ∈ (heightFields file context).take 2, field.Fits := by
      simp only [heightFields, List.take_succ_cons, List.take_zero, List.forall_mem_cons]
      exact ⟨hstrip, hwidth, List.forall_mem_nil _⟩
    exact Writer.Holds.writeAll_number _ 8 h hbefore
      (by rw [hdone]; exact show 24 < wordLimit by decide) hlarge
  have hfit : file.SizesFit :=
    ⟨hwidth, hheight, hstrip, (Tiled.TilesetFile.tileTotal_le hnonzero).trans hstrip⟩
  have hall : ∀ field ∈ heightFields file context, field.Fits := by
    simp only [heightFields, List.forall_mem_cons]
    exact ⟨hstrip, hwidth, hheight, trivial, hfit.tileTotal, List.forall_mem_nil _⟩
  have hroom : w.Holds done (widthOf (heightFields file context) + 2) := h
  obtain ⟨w', hw', -⟩ := hroom.writeAll hall (by
    rw [hdone]
    exact show 30 < wordLimit by decide)
  exact .inr ⟨hfit, w', hw'⟩

/-- **What becomes of the sizes of a file**, one after the other. -/
theorem encodeTilesetHeader_cases (hnonzero : file.tileHeight ≠ 0) (name context : String)
    (image : UInt16) :
    (file.SizesOverrun ∧ encodeTilesetHeader file name context image = .error .overrun) ∨
    (¬file.SizesOverrun ∧ ∃ e, file.TooLarge context e ∧
      encodeTilesetHeader file name context image = .error (.error e)) ∨
    (¬file.SizesOverrun ∧ file.SizesFit ∧
      ∃ bytes, encodeTilesetHeader file name context image = .ok bytes) := by
  unfold encodeTilesetHeader
  rcases Nat.lt_or_ge file.tileTotal UInt32.size with htotal | htotal
  swap
  · exact .inl ⟨.inl htotal, bind_eq_error.2 (.inl (product32_of_le htotal))⟩
  have htiles := product32_of_lt htotal
  rcases widthFields_cases file name context image with ⟨hlarge, hw⟩ | ⟨hwidth, w, done, hw, hholds,
    hdone⟩
  · have hfits : ¬file.SizesOverrun := fun h => h.elim (Nat.not_le.2 htotal) fun h =>
      Nat.not_le.2 hlarge h.1
    exact .inr (.inl ⟨hfits, _, .width hlarge,
      bind_eq_error.2 (.inr ⟨_, htiles, bind_eq_error.2 (.inl hw)⟩)⟩)
  rcases Nat.lt_or_ge file.stripHeight UInt32.size with hstrip | hstrip
  swap
  · exact .inl ⟨.inr ⟨hwidth, hstrip⟩, bind_eq_error.2 (.inr ⟨_, htiles,
      bind_eq_error.2 (.inr ⟨w, hw, bind_eq_error.2 (.inl (product32_of_le hstrip))⟩)⟩)⟩
  have hheight := product32_of_lt hstrip
  have hfits : ¬file.SizesOverrun := fun h => h.elim (Nat.not_le.2 htotal) fun h =>
    Nat.not_le.2 hstrip h.2
  rcases heightFields_cases context hholds hdone hnonzero hwidth with ⟨e, he, hw'⟩ | ⟨hfit, w', hw'⟩
  · exact .inr (.inl ⟨hfits, e, he, bind_eq_error.2 (.inr ⟨_, htiles, bind_eq_error.2 (.inr ⟨w, hw,
      bind_eq_error.2 (.inr ⟨_, hheight, bind_eq_error.2 (.inl hw')⟩)⟩)⟩)⟩)
  · exact .inr (.inr ⟨hfits, hfit, w'.buffer, bind_eq_ok.2 ⟨_, htiles, bind_eq_ok.2 ⟨w, hw,
      bind_eq_ok.2 ⟨_, hheight, bind_eq_ok.2 ⟨w', hw', rfl⟩⟩⟩⟩⟩)

/-! ## The words of the tiles -/

section Shapes

variable {tile : TileDef} {tileset word : UInt16} {loaded : List (UInt32 × Tile × Option UInt16)}

/-- Only tiles of the tileset have outlines. -/
theorem loadShape_within (h : Yields (loadShape file tile context) p (some word) q) :
    tile.id.toNat < file.tileCount.toNat := by
  unfold loadShape at h
  split at h
  · cases (yields_pure.1 h).1
  · cases (yields_pure.1 h).1
  · split at h
    · obtain ⟨_, _, hnone, -⟩ := yields_bind.1 h
      exact (yields_reject.1 hnone).elim
    · next hwithin => exact UInt32.lt_iff_toNat_lt.1 (UInt32.not_le.1 hwithin)
  · exact (yields_reject.1 h).elim

theorem loadTiles_within (h : Yields (file.tiles.mapM fun tile => do
      return (tile.id, ← loadTile file tileset context tile)) p loaded q) :
    ∀ entry ∈ loaded, entry.2.2.isSome → entry.1.toNat < file.tileCount.toNat := by
  have hstep : ∀ tile ∈ file.tiles, ∀ (p : Project) (entry : UInt32 × Tile × Option UInt16)
      (q : Project), True → Yields (do return (tile.id, ← loadTile file tileset context tile)) p
        entry q → True ∧ (entry.2.2.isSome → entry.1.toNat < file.tileCount.toNat) := by
    intro tile _ p entry q _ hentry
    refine ⟨trivial, fun hsome => ?_⟩
    simp only [loadTile, yields_bind, yields_pure] at hentry
    obtain ⟨_, _, ⟨_, _, -, _, _, -, shape, _, hshape, _, _, -, rfl, -⟩, rfl, -⟩ := hentry
    obtain ⟨word, rfl⟩ := Option.isSome_iff_exists.1 hsome
    exact loadShape_within hshape
  obtain ⟨-, hall⟩ := yields_mapM (fun _ => True) (fun _ _ => True)
    (fun (_ : TileDef) (entry : UInt32 × Tile × Option UInt16) (_ : Project) =>
      entry.2.2.isSome → entry.1.toNat < file.tileCount.toNat)
    (fun _ _ => trivial) (fun _ _ _ _ _ => trivial) (fun _ _ _ => trivial)
    (fun _ _ _ _ _ hout => hout) hstep trivial h
  intro entry hentry
  obtain ⟨_, -, hwithin⟩ := exists_of_mem_forall₂ hall hentry
  exact hwithin

/-- There is a word for every tile. -/
theorem encodeShapes_of_within {tileCount : Nat} {shapes : List (UInt32 × UInt16)}
    (h : ∀ shape ∈ shapes, shape.1.toNat < tileCount) :
    ∃ bytes, encodeShapes tileCount shapes = .ok bytes := by
  have hfold : ∀ start : Bytes, 2 * tileCount ≤ start.size → ∃ bytes, shapes.foldlM
      (fun (bytes : Bytes) (shape : UInt32 × UInt16) => bytes.patchWord (2 * shape.1.toNat) shape.2)
      start = Except.ok (ε := Failure) bytes := by
    induction shapes with
    | nil => exact fun start _ => ⟨start, rfl⟩
    | cons shape rest ih =>
      intro start hsize
      have hlt := h shape List.mem_cons_self
      have hpatched : start.patchWord (2 * shape.1.toNat) shape.2 =
          .ok (start.overwrite (2 * shape.1.toNat) (ByteOrder.data.word shape.2)) :=
        patchWord_eq_ok.2 ⟨by omega, rfl⟩
      obtain ⟨bytes, hbytes⟩ := ih (fun other hother => h other (List.mem_cons_of_mem _ hother))
        (start.overwrite (2 * shape.1.toNat) (ByteOrder.data.word shape.2))
        (hsize.trans_eq (Bytes.size_overwrite _ _ _).symm)
      exact ⟨bytes, by rw [List.foldlM_cons, hpatched]; exact hbytes⟩
  refine hfold _ ?_
  rw [Array.size_replicate]
  exact le_paddedLength _

end Shapes

/-! ## Loading -/

/-- The last part of a load: the record of the tileset is encoded and stored. -/
def storeTileset (file : TilesetFile) (fileName : String) (index image : UInt16)
    (loaded : List (UInt32 × Tile × Option UInt16)) : Step Project Tileset := do
  let header ←
    encodeTilesetHeader file (Text.stem fileName) s!"tileset \"{fileName}\"" image
  let shapes ← encodeShapes file.tileCount.toNat <|
    loaded.filterMap fun (id, _, shape) => shape.map fun word => (id, word)
  onTables (Tables.fill .tilesets index (header ++ shapes))
  let tiles := loaded.foldl (fun tiles (id, tile, _) => putEntry id tile tiles) []
  let tileset : Tileset := ⟨Text.stem fileName, index, file.tileCount, tiles⟩
  modify fun project => { project with tilesets := project.tilesets.put fileName tileset }
  return tileset

/-- A load has come as far as its record. The file was read, and so were the tiles and the image
    that it asks for. -/
structure RecordDue (input : Input) (path : String) (p : Project) (file : TilesetFile)
    (index image : UInt16) (loaded : List (UInt32 × Tile × Option UInt16)) (q : Project) :
    Prop where
  new : p.tilesets.find? (Text.baseName path) = none
  read : readJson input.source TilesetFile.decode (Text.baseName path) = .ok file
  nonzero : ¬(file.tileWidth = 0 ∨ file.tileHeight = 0)
  steps : ∃ p₁ p₂,
    Yields (onTables (Tables.reserve .tilesets (Text.stem (Text.baseName path)))) p index p₁ ∧
    Yields (file.tiles.mapM fun tile => do
      return (tile.id, ← loadTile file index s!"tileset \"{Text.baseName path}\"" tile)) p₁ loaded
        p₂ ∧
    Yields (loadImage input file.image (layoutOf file)) p₂ image q

variable {loaded : List (UInt32 × Tile × Option UInt16)}

namespace RecordDue

theorem outcome (h : RecordDue input path p file index image loaded q) :
    outcome (loadTileset input path) p =
      GameBundle.outcome (storeTileset file (Text.baseName path) index image loaded) q := by
  obtain ⟨p₁, p₂, hreserve, htiles, himage⟩ := h.steps
  have hread : Yields (liftM (liftM (readJson input.source TilesetFile.decode
      (Text.baseName path)) : Except Failure TilesetFile) : Step Project TilesetFile) p file p :=
    yields_except.2 ⟨liftM_eq_ok.2 h.read, rfl⟩
  unfold loadTileset
  rw [outcome_bind, outcome_get]
  dsimp only
  rw [h.new]
  dsimp only
  rw [hread.outcome_bind, if_neg h.nonzero, hreserve.outcome_bind, htiles.outcome_bind]
  exact himage.outcome_bind

/-- The record was claimed and nothing has been put into it. -/
theorem hole (h : RecordDue input path p file index image loaded q) :
    q.tables.Hole .tilesets index.toNat := by
  obtain ⟨p₁, p₂, hreserve, htiles, himage⟩ := h.steps
  obtain ⟨-, hhole⟩ := reserveTileset_sameImages hreserve
  have hkept : p₁.tables.Kept q.tables :=
    ((loadTiles_adds _ _ _ _).kept_of_yields htiles (.refl _)).trans
      ((loadImage_adds _ _ _).kept_of_yields himage (.refl _))
  exact hkept.hole hhole

theorem within (h : RecordDue input path p file index image loaded q) :
    ∀ entry ∈ loaded, entry.2.2.isSome → entry.1.toNat < file.tileCount.toNat := by
  obtain ⟨p₁, p₂, -, htiles, -⟩ := h.steps
  exact loadTiles_within htiles

end RecordDue

/-- A tileset whose sizes fit is stored. -/
theorem storeTileset_yields {fileName : String} {header : Bytes}
    (hhole : q.tables.Hole .tilesets index.toNat)
    (hwithin : ∀ entry ∈ loaded, entry.2.2.isSome → entry.1.toNat < file.tileCount.toNat)
    (hheader : encodeTilesetHeader file (Text.stem fileName) s!"tileset \"{fileName}\"" image =
      .ok header) :
    ∃ tileset r, Yields (storeTileset file fileName index image loaded) q tileset r := by
  have hshapes : ∀ shape ∈ loaded.filterMap fun (id, _, shape) =>
      shape.map fun word => (id, word), shape.1.toNat < file.tileCount.toNat := by
    intro shape hshape
    obtain ⟨⟨id, tile, word⟩, hentry, hword⟩ := List.mem_filterMap.1 hshape
    obtain ⟨word, rfl, rfl⟩ := Option.map_eq_some_iff.1 hword
    exact hwithin _ hentry rfl
  obtain ⟨shapes, hencoded⟩ := encodeShapes_of_within hshapes
  obtain ⟨name, hrecord⟩ := hhole
  obtain ⟨hlt, -⟩ := Array.getElem?_eq_some_iff.1 hrecord
  simp only [storeTileset, yields_bind, yields_except, yields_onTables, Tables.yields_fill,
    yields_modify, yields_pure]
  exact ⟨_, _, header, q, ⟨hheader, rfl⟩, shapes, q, ⟨hencoded, rfl⟩, (), _,
    ⟨_, ⟨hlt, rfl⟩, rfl⟩, (), _, rfl, rfl, rfl⟩

/-- A header that cannot be made ends the load. -/
theorem storeTileset_fails {fileName : String} {f : Failure}
    (hheader : encodeTilesetHeader file (Text.stem fileName) s!"tileset \"{fileName}\"" image =
      .error f) : Fails (storeTileset file fileName index image loaded) q f q :=
  fails_bind.2 (.inl (fails_except.2 ⟨hheader, rfl⟩))

/-- What the sizes of a file lead to when its record is due. The message of an error names the file
    and the field. -/
inductive SizesDecide (file : TilesetFile) (input : Input) (path : String) (p q : Project) : Prop
  | overrun (broken : file.SizesOverrun) (h : Fails (loadTileset input path) p .overrun q)
  | refused (e : BuildError) (sizes : ¬file.SizesOverrun)
      (large : file.TooLarge s!"tileset \"{Text.baseName path}\"" e)
      (h : Fails (loadTileset input path) p (.error e) q)
  | loaded (tileset : Tileset) (r : Project) (sizes : ¬file.SizesOverrun) (fit : file.SizesFit)
      (h : Yields (loadTileset input path) p tileset r)

theorem RecordDue.sizesDecide (h : RecordDue input path p file index image loaded q) :
    SizesDecide file input path p q := by
  have hnonzero : file.tileHeight ≠ 0 := fun hzero => h.nonzero (.inr hzero)
  have houtcome := h.outcome
  rcases encodeTilesetHeader_cases hnonzero (Text.stem (Text.baseName path))
    s!"tileset \"{Text.baseName path}\"" image with ⟨hbroken, hheader⟩ |
      ⟨hsizes, e, hlarge, hheader⟩ | ⟨hsizes, hfit, header, hheader⟩
  · exact .overrun hbroken (houtcome.trans (storeTileset_fails hheader))
  · exact .refused e hsizes hlarge (houtcome.trans (storeTileset_fails hheader))
  · obtain ⟨tileset, r, hyields⟩ := storeTileset_yields h.hole h.within hheader
    exact .loaded tileset r hsizes hfit (houtcome.trans hyields)

/-- What has to be too large for a load to overrun. -/
inductive LimitBroken (input : Input) (file : TilesetFile) : Prop
  | sizes (broken : file.SizesOverrun)
  | tile (tile : TileDef) (listed : tile ∈ file.tiles) (broken : TileBroken tile)
  | picture (image : Raster) (decoded : input.source.image (imageOf file) = .ok image)
      (broken : PictureBroken image (layoutOf file))

theorem limitBroken_of_overrun (h : Fails (loadTileset input path) p .overrun q) :
    ∃ file, readJson input.source TilesetFile.decode (Text.baseName path) = .ok file ∧
      LimitBroken input file := by
  have hload := h
  unfold loadTileset at h
  obtain ⟨_, _, hget, h⟩ := h.overruns_after get_spares_overrun
  obtain ⟨rfl, rfl⟩ := yields_get.1 hget
  split at h
  · exact (fails_pure.1 h).elim
  next hnew =>
  obtain ⟨file, _, hread, h⟩ := h.overruns_after (.except (liftM_spares_overrun _))
  obtain ⟨hfile, rfl⟩ := yields_except.1 hread
  rw [liftM_eq_ok] at hfile
  refine ⟨file, hfile, ?_⟩
  dsimp only at h
  split at h
  · obtain ⟨_, _, hnone, -⟩ := h.overruns_after (.reject nofun)
    exact (yields_reject.1 hnone).elim
  next hnonzero =>
  obtain ⟨index, p₁, hreserve, h⟩ := h.overruns_after (.onTables Tables.reserve_spares_overrun)
  obtain h | ⟨loaded, p₂, hloaded, h⟩ := fails_bind.1 h
  · obtain ⟨tile, htile, r, h⟩ := exists_of_fails_mapM h
    obtain h | ⟨_, _, -, h⟩ := fails_bind.1 h
    · exact .tile tile htile (loadTile_overruns h)
    · exact (fails_pure.1 h).elim
  obtain h | ⟨image, p₃, himage, -⟩ := fails_bind.1 h
  · obtain ⟨raster, hraster, hbroken⟩ := loadImage_overruns h
    exact .picture raster hraster hbroken
  have hdue : RecordDue input path _ file index image loaded p₃ :=
    ⟨hnew, hfile, hnonzero, p₁, p₂, hreserve, hloaded, himage⟩
  cases hdue.sizesDecide with
  | overrun hbroken => exact .sizes hbroken
  | refused e _ _ hfails => cases hload.symm.trans hfails
  | loaded tileset r _ _ hyields => cases hload.symm.trans hyields

/-- **A load overruns exactly if its sizes do**, once all that comes before its record is there.
    Else it is loaded, or the first size that does not fit its field is reported. Whenever a load
    overruns, one of the limits is broken, those of the tiles and the image included. -/
theorem loadTileset_sizes (input : Input) (path : String) (p : Project) :
    (∀ q, Fails (loadTileset input path) p .overrun q →
      ∃ file, readJson input.source TilesetFile.decode (Text.baseName path) = .ok file ∧
        LimitBroken input file) ∧
    ∀ file index image loaded q, RecordDue input path p file index image loaded q →
      SizesDecide file input path p q :=
  ⟨fun _ h => limitBroken_of_overrun h, fun _ _ _ _ _ h => h.sizesDecide⟩

/-! ## An example -/

/-- A tileset with tiles of one pixel, whose image has a single pixel. -/
def quiltTiles (columns imageHeight : UInt32) : TilesetFile :=
  ⟨1, 1, 1, columns, "dot.png", 1, imageHeight, []⟩

def quiltFile (columns imageHeight : String) : ByteArray :=
  ("\x7b\"tilewidth\": 1, \"tileheight\": 1, \"tilecount\": 1, \"columns\": " ++ columns ++
    ", \"image\": \"dot.png\", \"imagewidth\": 1, \"imageheight\": " ++ imageHeight ++
    "\x7d").toUTF8

/-- The first tileset has one row too many for 16 bits, the second one tile too many for 32. -/
def quilt : Input where
  source := .inMemory .none
    (.ofList [("tall.json", quiltFile "1" "65536"), ("wide.json", quiltFile "65536" "65536")])
    (.ofList [("dot.png", ⟨1, 1, 3, #[0, 0, 0]⟩)])
  definitions := {}

theorem quilt_reads {name : String} {columns imageHeight : UInt32}
    (h : (readJson quilt.source TilesetFile.decode name).toOption.map (fun file => decide
      (file.tileWidth = 1 ∧ file.tileHeight = 1 ∧ file.tileCount = 1 ∧ file.columns = columns ∧
        file.image = "dot.png" ∧ file.imageWidth = 1 ∧ file.imageHeight = imageHeight ∧
        file.tiles.length = 0)) = some true) :
    readJson quilt.source TilesetFile.decode name = .ok (quiltTiles columns imageHeight) := by
  obtain ⟨⟨tileWidth, tileHeight, tileCount, _, _, _, _, tiles⟩, hread, hfields⟩ :=
    Option.map_eq_some_iff.1 h
  simp only [decide_eq_true_eq, List.length_eq_zero_iff] at hfields
  obtain ⟨rfl, rfl, rfl, rfl, rfl, rfl, rfl, rfl⟩ := hfields
  exact eq_ok_of_toOption hread

theorem quilt_due {columns imageHeight : UInt32}
    (hread : readJson quilt.source TilesetFile.decode (Text.baseName path) =
      .ok (quiltTiles columns imageHeight))
    (hreserve : (outcome (onTables (Tables.reserve .tilesets (Text.stem (Text.baseName path))))
      {}).1 = .ok 0)
    (himage : (outcome (loadImage quilt "dot.png" ⟨1, 1, columns.toNat⟩) (outcome (onTables
      (Tables.reserve .tilesets (Text.stem (Text.baseName path)))) {}).2).1 = .ok 0) :
    ∃ q, RecordDue quilt path {} (quiltTiles columns imageHeight) 0 0 [] q :=
  ⟨_, rfl, hread, by simp [quiltTiles], _, _, yields_outcome hreserve, yields_pure.2 ⟨rfl, rfl⟩,
    yields_outcome himage⟩

theorem quilt_tall_due : ∃ q, RecordDue quilt "tall.json" {} (quiltTiles 1 65536) 0 0 [] q :=
  quilt_due (quilt_reads (by decide +kernel)) (eq_ok_of_toOption (by decide +kernel))
    (eq_ok_of_toOption (by decide +kernel))

theorem quilt_wide_due : ∃ q, RecordDue quilt "wide.json" {} (quiltTiles 65536 65536) 0 0 [] q :=
  quilt_due (quilt_reads (by decide +kernel)) (eq_ok_of_toOption (by decide +kernel))
    (eq_ok_of_toOption (by decide +kernel))

theorem quilt_wide_overruns : (outcome (loadTileset quilt "wide.json") {}).1 = .error .overrun := by
  obtain ⟨q, hwide⟩ := quilt_wide_due
  have hbroken : (quiltTiles 65536 65536).SizesOverrun :=
    .inl (show UInt32.size ≤ 65536 / 1 * 65536 by decide)
  cases hwide.sizesDecide with
  | overrun _ h => exact congrArg Prod.fst h
  | refused e hsizes => exact absurd hbroken hsizes
  | loaded tileset r hsizes => exact absurd hbroken hsizes

/-- The rows of the first tileset are reported, and the second one overruns. -/
theorem quilt_sizes :
    (∃ q, RecordDue quilt "tall.json" {} (quiltTiles 1 65536) 0 0 [] q ∧
      SizesDecide (quiltTiles 1 65536) quilt "tall.json" {} q) ∧
    (outcome (loadTileset quilt "tall.json") {}).1.map (fun _ => ()) =
      .error (.error (.fieldOverflow "tileset \"tall.json\" image height" 65536 2)) ∧
    (∃ q, RecordDue quilt "wide.json" {} (quiltTiles 65536 65536) 0 0 [] q ∧
      SizesDecide (quiltTiles 65536 65536) quilt "wide.json" {} q) ∧
    ∃ q file, Fails (loadTileset quilt "wide.json") {} .overrun q ∧
      readJson quilt.source TilesetFile.decode (Text.baseName "wide.json") = .ok file ∧
      LimitBroken quilt file := by
  obtain ⟨q, htall⟩ := quilt_tall_due
  obtain ⟨r, hwide⟩ := quilt_wide_due
  have hoverrun := fails_outcome quilt_wide_overruns
  obtain ⟨file, hfile, hbroken⟩ := (loadTileset_sizes quilt "wide.json" {}).1 _ hoverrun
  exact ⟨⟨q, htall, (loadTileset_sizes quilt "tall.json" {}).2 _ _ _ _ _ htall⟩, by decide +kernel,
    ⟨r, hwide, (loadTileset_sizes quilt "wide.json" {}).2 _ _ _ _ _ hwide⟩,
    _, file, hoverrun, hfile, hbroken⟩

/-- A file and an image that can be read may still overrun. -/
theorem quilt_breaks_limit :
    ¬∀ (input : Input) (path : String) (p : Project) (file : TilesetFile) (image : Raster),
      readJson input.source TilesetFile.decode (Text.baseName path) = .ok file →
      input.source.image (imageOf file) = .ok image →
      (∃ tileset, (outcome (loadTileset input path) p).1 = .ok tileset) ∨
        ∃ e : BuildError, (outcome (loadTileset input path) p).1 = .error (.error e) := by
  intro hall
  obtain ⟨q, hwide⟩ := quilt_wide_due
  have himage : quilt.source.image "dot.png" = .ok ⟨1, 1, 3, #[0, 0, 0]⟩ := rfl
  obtain ⟨tileset, hok⟩ | ⟨e, herror⟩ := hall quilt "wide.json" {} _ _ hwide.read himage
  · cases quilt_wide_overruns.symm.trans hok
  · cases quilt_wide_overruns.symm.trans herror

end GameBundle
