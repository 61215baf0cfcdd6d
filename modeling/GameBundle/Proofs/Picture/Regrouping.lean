import GameBundle.Picture.Quantize
import GameBundle.Proofs.Steps
import Mathlib.Data.Finset.Card
import Mathlib.Data.Finset.Prod
import Mathlib.Data.List.Induction
import Mathlib.Tactic.Ring

set_option autoImplicit false

/-! # Regrouped pixels

A picture is made one pixel after the other, row by row, and every pixel goes to its place in the
strip of tiles. The image may be wider than its columns of tiles. Then the pixels to the right of
the last column go where tiles of a row below belong, and those tiles come later and are written
over them. So of the pixels in the columns none is lost, and `Regrouped` says where each is found.
If the tiles cut the image exactly, nothing but the number of its colours can be refused. -/

namespace GameBundle

variable {image : Raster} {layout : TileLayout} {file : String} {picture : Picture}

/-! ## Places of pixels -/

theorem eq_of_add_mul_eq {n a b c d : Nat} (ha : a < n) (hc : c < n)
    (h : a + b * n = c + d * n) : a = c ∧ b = d := by
  have hrest := congrArg (· % n) h
  have hfactor := congrArg (· / n) h
  simp only [Nat.add_mul_mod_self_right, Nat.mod_eq_of_lt ha, Nat.mod_eq_of_lt hc] at hrest
  simp only [Nat.add_mul_div_right _ _ (Nat.zero_lt_of_lt ha), Nat.div_eq_of_lt ha,
    Nat.div_eq_of_lt hc, Nat.zero_add] at hfactor
  exact ⟨hrest, hfactor⟩

namespace TileLayout

/-- A place within a tile is one of its pixels. -/
theorem within_lt (hwidth : 0 < layout.tileWidth) (hheight : 0 < layout.tileHeight) (x y : Nat) :
    x % layout.tileWidth + y % layout.tileHeight * layout.tileWidth <
      layout.tileWidth * layout.tileHeight := by
  have hx := Nat.mod_lt x hwidth
  have hy : y % layout.tileHeight + 1 ≤ layout.tileHeight := Nat.mod_lt y hheight
  calc x % layout.tileWidth + y % layout.tileHeight * layout.tileWidth
      < (y % layout.tileHeight + 1) * layout.tileWidth := by
        rw [Nat.add_one_mul]
        omega
    _ ≤ layout.tileHeight * layout.tileWidth := Nat.mul_le_mul_right _ hy
    _ = layout.tileWidth * layout.tileHeight := Nat.mul_comm _ _

/-- A place tells the tile and the place within it. -/
theorem target_eq (hwidth : 0 < layout.tileWidth) (hheight : 0 < layout.tileHeight)
    {x y x' y' : Nat} (h : layout.target x y = layout.target x' y') :
    x % layout.tileWidth = x' % layout.tileWidth ∧
      y % layout.tileHeight = y' % layout.tileHeight ∧
      y / layout.tileHeight * layout.columns + x / layout.tileWidth =
        y' / layout.tileHeight * layout.columns + x' / layout.tileWidth := by
  obtain ⟨hwithin, htile⟩ := eq_of_add_mul_eq (within_lt hwidth hheight x y)
    (within_lt hwidth hheight x' y') h
  obtain ⟨hx, hy⟩ := eq_of_add_mul_eq (Nat.mod_lt x hwidth) (Nat.mod_lt x' hwidth) hwithin
  exact ⟨hx, hy, htile⟩

theorem column_lt {x : Nat} (hx : x < layout.columns * layout.tileWidth) :
    x / layout.tileWidth < layout.columns :=
  Nat.div_lt_of_lt_mul (Nat.mul_comm _ _ ▸ hx)

/-- **No later pixel goes where a pixel of the columns has gone.** A pixel of a later row of tiles
    comes behind all tiles of the row, however far to the left it is. -/
theorem target_ne_of_later (hwidth : 0 < layout.tileWidth) (hheight : 0 < layout.tileHeight)
    {x y x' y' : Nat} (hx : x < layout.columns * layout.tileWidth)
    (hlater : y < y' ∨ y = y' ∧ x < x') : layout.target x' y' ≠ layout.target x y := by
  intro h
  obtain ⟨hcolumn, hrow, htile⟩ := target_eq hwidth hheight h
  have hlt := column_lt hx
  rcases hlater with hbelow | ⟨rfl, hright⟩
  · -- in the same row of a tile below
    have hrows : y / layout.tileHeight + 1 ≤ y' / layout.tileHeight := by
      by_contra hnot
      have hle := Nat.mul_le_mul_left layout.tileHeight
        (show y' / layout.tileHeight ≤ y / layout.tileHeight by omega)
      have hy := Nat.div_add_mod y layout.tileHeight
      have hy' := Nat.div_add_mod y' layout.tileHeight
      omega
    refine Nat.lt_irrefl (y' / layout.tileHeight * layout.columns + x' / layout.tileWidth) ?_
    calc y' / layout.tileHeight * layout.columns + x' / layout.tileWidth
        = y / layout.tileHeight * layout.columns + x / layout.tileWidth := htile
      _ < (y / layout.tileHeight + 1) * layout.columns := by
        rw [Nat.add_one_mul]
        exact Nat.add_lt_add_left hlt _
      _ ≤ y' / layout.tileHeight * layout.columns := Nat.mul_le_mul_right _ hrows
      _ ≤ y' / layout.tileHeight * layout.columns + x' / layout.tileWidth := Nat.le_add_right _ _
  · have hsame : x' / layout.tileWidth = x / layout.tileWidth := by omega
    have hx := Nat.div_add_mod x layout.tileWidth
    have hx' := Nat.div_add_mod x' layout.tileWidth
    rw [hsame, hcolumn, hx] at hx'
    omega

section Exact

variable {rows : Nat} (hwidth : 0 < layout.tileWidth) (hheight : 0 < layout.tileHeight)
include hwidth hheight

/-- All pixels in `rows` rows of tiles go into that many. -/
theorem target_lt {x y : Nat} (hx : x < layout.columns * layout.tileWidth)
    (hy : y < layout.tileHeight * rows) :
    layout.target x y < layout.columns * layout.tileWidth * (layout.tileHeight * rows) := by
  have hwithin := within_lt hwidth hheight x y
  have htile : y / layout.tileHeight * layout.columns + x / layout.tileWidth + 1 ≤
      rows * layout.columns := by
    have hrow : y / layout.tileHeight + 1 ≤ rows := Nat.div_lt_of_lt_mul hy
    calc y / layout.tileHeight * layout.columns + x / layout.tileWidth + 1
        ≤ (y / layout.tileHeight + 1) * layout.columns := by
          rw [Nat.add_one_mul]
          exact Nat.add_lt_add_left (column_lt hx) _
      _ ≤ rows * layout.columns := Nat.mul_le_mul_right _ hrow
  calc layout.target x y
      < (y / layout.tileHeight * layout.columns + x / layout.tileWidth + 1) *
          (layout.tileWidth * layout.tileHeight) := by
        rw [Nat.add_one_mul, target]
        omega
    _ ≤ rows * layout.columns * (layout.tileWidth * layout.tileHeight) :=
        Nat.mul_le_mul_right _ htile
    _ = layout.columns * layout.tileWidth * (layout.tileHeight * rows) := by ring

/-- Of two pixels one is the later one. -/
theorem injOn_target : Set.InjOn (fun p : Nat × Nat => layout.target p.1 p.2)
    {p | p.1 < layout.columns * layout.tileWidth ∧ p.2 < layout.tileHeight * rows} := by
  rintro ⟨x, y⟩ ⟨hx, -⟩ ⟨x', y'⟩ ⟨hx', -⟩ h
  rcases Nat.lt_trichotomy y y' with hlt | rfl | hlt
  · exact absurd h.symm (target_ne_of_later hwidth hheight hx (.inl hlt))
  · rcases Nat.lt_trichotomy x x' with hlt | rfl | hlt
    · exact absurd h.symm (target_ne_of_later hwidth hheight hx (.inr ⟨rfl, hlt⟩))
    · rfl
    · exact absurd h (target_ne_of_later hwidth hheight hx' (.inr ⟨rfl, hlt⟩))
  · exact absurd h (target_ne_of_later hwidth hheight hx' (.inl hlt))

/-- **Tiles that cut an image exactly have a place for every pixel**, and a pixel for every place. -/
theorem bijOn_target {width height : Nat} (hcolumns : width = layout.columns * layout.tileWidth)
    (hrows : layout.tileHeight ∣ height) :
    Set.BijOn (fun p : Nat × Nat => layout.target p.1 p.2) {p | p.1 < width ∧ p.2 < height}
      {i | i < width * height} := by
  obtain ⟨rows, rfl⟩ := hrows
  subst hcolumns
  have hmaps : ∀ p : Nat × Nat,
      p.1 < layout.columns * layout.tileWidth ∧ p.2 < layout.tileHeight * rows →
      layout.target p.1 p.2 < layout.columns * layout.tileWidth * (layout.tileHeight * rows) :=
    fun p hp => target_lt hwidth hheight hp.1 hp.2
  have hinj : Set.InjOn (fun p : Nat × Nat => layout.target p.1 p.2)
      {p | p.1 < layout.columns * layout.tileWidth ∧ p.2 < layout.tileHeight * rows} :=
    injOn_target hwidth hheight
  refine ⟨hmaps, hinj, ?_⟩
  -- there are as many places as pixels
  have hsurj := Finset.surjOn_of_injOn_of_card_le
    (s := Finset.range (layout.columns * layout.tileWidth) ×ˢ
      Finset.range (layout.tileHeight * rows))
    (t := Finset.range (layout.columns * layout.tileWidth * (layout.tileHeight * rows)))
    (fun p : Nat × Nat => layout.target p.1 p.2)
    (fun p hp => by simpa using hmaps p (by simpa using hp))
    (hinj.mono fun p hp => by simpa using hp) (by simp)
  intro i hi
  obtain ⟨p, hp, htarget⟩ := hsurj (by simpa using hi)
  exact ⟨p, by simpa using hp, htarget⟩

end Exact

end TileLayout

/-! ## Colours -/

namespace Raster

def pixelCount (image : Raster) : Nat := image.width.toNat * image.height.toNat

/-- The colours of the pixels, row after row. -/
def colors (image : Raster) : List UInt16 := (List.range image.pixelCount).map image.color

/-- The colour of the pixel in column `x` and row `y`. -/
def colorAt (image : Raster) (x y : Nat) : UInt16 := image.color (y * image.width.toNat + x)

/-- Where pixel number `i` goes. -/
def place (image : Raster) (layout : TileLayout) (i : Nat) : Nat :=
  layout.target (i % image.width.toNat) (i / image.width.toNat)

end Raster

theorem nodup_eraseDups {α : Type} [DecidableEq α] (xs : List α) : xs.eraseDups.Nodup := by
  induction xs using List.reverseRecOn with
  | nil => exact List.nodup_nil
  | append_singleton xs x ih =>
    rw [eraseDups_concat]
    split
    · exact ih
    · next hnew =>
      rw [← List.concat_eq_append]
      exact ih.concat (mt List.mem_eraseDups.1 hnew)

section Palettes

variable {palette : Array UInt16} {color : UInt16}

theorem indexColor_cases (palette : Array UInt16) (color : UInt16) :
    (∃ index, indexColor palette color = (index, palette) ∧ palette[index]? = some color) ∨
    color ∉ palette.toList ∧ indexColor palette color = (palette.size, palette.push color) := by
  unfold indexColor
  cases hfind : palette.findIdx? (· == color) with
  | some index =>
    obtain ⟨hlt, hcolor, -⟩ := Array.findIdx?_eq_some_iff_getElem.1 hfind
    refine .inl ⟨index, rfl, ?_⟩
    rw [Array.getElem?_eq_getElem hlt, eq_of_beq hcolor]
  | none =>
    refine .inr ⟨fun hmem => ?_, rfl⟩
    have hnot := Array.findIdx?_eq_none_iff.1 hfind color (Array.mem_toList_iff.1 hmem)
    simp at hnot

theorem toList_indexColor : (indexColor palette color).2.toList =
    if color ∈ palette.toList then palette.toList else palette.toList ++ [color] := by
  obtain ⟨index, hindex, hcolor⟩ | ⟨hnew, hindex⟩ := indexColor_cases palette color
  · rw [hindex, if_pos (Array.mem_toList_iff.2 (Array.mem_of_getElem? hcolor))]
  · rw [hindex, if_neg hnew, Array.toList_push]

theorem getElem?_indexColor :
    (indexColor palette color).2[(indexColor palette color).1]? = some color := by
  obtain ⟨index, hindex, hcolor⟩ | ⟨-, hindex⟩ := indexColor_cases palette color
  · rw [hindex, hcolor]
  · rw [hindex, Array.getElem?_push_size]

/-- Indices in use keep their colours. -/
theorem getElem?_indexColor_of_eq_some {k : Nat} {c : UInt16} (h : palette[k]? = some c) :
    (indexColor palette color).2[k]? = some c := by
  obtain ⟨index, hindex, -⟩ | ⟨-, hindex⟩ := indexColor_cases palette color
  · rw [hindex, h]
  · obtain ⟨hlt, hk⟩ := Array.getElem?_eq_some_iff.1 h
    rw [hindex, Array.getElem?_push_lt hlt, hk]

theorem size_indexColor_le : (indexColor palette color).2.size ≤
    max palette.size ((indexColor palette color).1 + 1) := by
  obtain ⟨index, hindex, -⟩ | ⟨-, hindex⟩ := indexColor_cases palette color
  · rw [hindex]
    exact Nat.le_max_left _ _
  · rw [hindex, Array.size_push]
    exact Nat.le_max_right _ _

end Palettes

/-! ## One pixel -/

theorem storePixel_eq_ok {i : Nat} {next : Picture} :
    storePixel image layout file picture i = .ok next ↔
      (indexColor picture.palette (image.color i)).1 < paletteLimit ∧
        image.place layout i < wordLimit ∧ image.place layout i < picture.pixels.size ∧
        next = ⟨picture.pixels.setIfInBounds (image.place layout i)
            (UInt8.ofNat (indexColor picture.palette (image.color i)).1),
          (indexColor picture.palette (image.color i)).2⟩ := by
  unfold storePixel Raster.place
  dsimp only
  split
  · next hmany => simp [hmany]
  · next hmany =>
    split
    · next hword => simp [hword]
    · next hword =>
      split
      · next hsize => simp [hsize]
      · next hsize =>
        rw [Nat.not_le] at hmany hword hsize
        simp only [Except.ok.injEq, hmany, hword, hsize, true_and]
        exact eq_comm

/-- What is true when the first `n` pixels are stored. A pixel may be written over by a later one
    that goes to the same place. -/
structure StoredUpTo (image : Raster) (layout : TileLayout) (n : Nat) (picture : Picture) :
    Prop where
  size : picture.pixels.size = image.pixelCount
  palette : picture.palette.toList = ((List.range n).map image.color).eraseDups
  small : picture.palette.size ≤ paletteLimit
  fits : ∀ i < n, image.place layout i < image.pixelCount
  stored : ∀ i < n, (∀ j, i < j → j < n → image.place layout j ≠ image.place layout i) →
    ∃ index, picture.pixels[image.place layout i]? = some index ∧
      picture.palette[index.toNat]? = some (image.color i)

namespace StoredUpTo

theorem start (image : Raster) (layout : TileLayout) :
    StoredUpTo image layout 0 ⟨Array.replicate image.pixelCount 0, #[]⟩ where
  size := Array.size_replicate
  palette := by simp
  small := Nat.zero_le _
  fits := by simp
  stored := by simp

variable {n : Nat}

theorem palette_step (h : StoredUpTo image layout n picture) :
    (indexColor picture.palette (image.color n)).2.toList =
      ((List.range (n + 1)).map image.color).eraseDups := by
  rw [List.range_succ, List.map_append, List.map_singleton, eraseDups_concat, toList_indexColor,
    h.palette]
  simp only [List.mem_eraseDups]

/-- **One more pixel.** Its own byte is right, and the bytes elsewhere stay. -/
theorem step {next : Picture} (h : StoredUpTo image layout n picture)
    (hnext : storePixel image layout file picture n = .ok next) :
    StoredUpTo image layout (n + 1) next := by
  obtain ⟨hindex, -, hplace, rfl⟩ := storePixel_eq_ok.1 hnext
  refine ⟨by rw [Array.size_setIfInBounds, h.size], h.palette_step, ?_, ?_, ?_⟩
  · exact size_indexColor_le.trans (Nat.max_le.2 ⟨h.small, hindex⟩)
  · intro i hi
    obtain hlt | rfl := Nat.lt_succ_iff_lt_or_eq.1 hi
    · exact h.fits i hlt
    · exact h.size ▸ hplace
  · intro i hi hlast
    obtain hlt | rfl := Nat.lt_succ_iff_lt_or_eq.1 hi
    · obtain ⟨index, hbyte, hcolor⟩ :=
        h.stored i hlt fun j hij hj => hlast j hij (Nat.lt_succ_of_lt hj)
      refine ⟨index, ?_, getElem?_indexColor_of_eq_some hcolor⟩
      rw [Array.getElem?_setIfInBounds_ne (hlast n hlt (Nat.lt_succ_self n)), hbyte]
    · refine ⟨_, Array.getElem?_setIfInBounds_self_of_lt hplace, ?_⟩
      rw [UInt8.toNat_ofNat_of_lt' hindex]
      exact getElem?_indexColor

end StoredUpTo

/-! ## All pixels -/

/-- The picture after the first `n` pixels. -/
def storeFirst (image : Raster) (layout : TileLayout) (file : String) (n : Nat) :
    Except Failure Picture :=
  (List.range n).foldlM (storePixel image layout file) ⟨Array.replicate image.pixelCount 0, #[]⟩

theorem storeFirst_succ (image : Raster) (layout : TileLayout) (file : String) (n : Nat) :
    storeFirst image layout file (n + 1) =
      storeFirst image layout file n >>= fun picture => storePixel image layout file picture n := by
  unfold storeFirst
  rw [List.range_succ, List.foldlM_append]
  simp

theorem storedUpTo_of_storeFirst {n : Nat} (h : storeFirst image layout file n = .ok picture) :
    StoredUpTo image layout n picture := by
  induction n generalizing picture with
  | zero =>
    cases h
    exact .start image layout
  | succ n ih =>
    rw [storeFirst_succ, bind_eq_ok] at h
    obtain ⟨before, hbefore, hpixel⟩ := h
    exact (ih hbefore).step hpixel

/-- **Where every pixel has a place, only the colours can be too many.** -/
theorem storeFirst_cases {n : Nat} (hplaces : ∀ i < n, image.place layout i < image.pixelCount)
    (hword : image.pixelCount ≤ wordLimit) :
    (∃ picture, storeFirst image layout file n = .ok picture) ∨
      storeFirst image layout file n = .error (.error (.tooManyColors file)) ∧
        paletteLimit < ((List.range n).map image.color).eraseDups.length := by
  induction n with
  | zero => exact .inl ⟨_, rfl⟩
  | succ n ih =>
    rw [storeFirst_succ]
    obtain ⟨picture, hpicture⟩ | ⟨herror, hmany⟩ := ih fun i hi => hplaces i (Nat.lt_succ_of_lt hi)
    · have hstored := storedUpTo_of_storeFirst hpicture
      have hplace := hplaces n (Nat.lt_succ_self n)
      by_cases hindex : (indexColor picture.palette (image.color n)).1 < paletteLimit
      · refine .inl ⟨_, bind_eq_ok.2 ⟨picture, hpicture, storePixel_eq_ok.2
          ⟨hindex, Nat.lt_of_lt_of_le hplace hword, hstored.size ▸ hplace, rfl⟩⟩⟩
      · refine .inr ⟨bind_eq_error.2 (.inr ⟨picture, hpicture, ?_⟩), ?_⟩
        · unfold storePixel
          exact if_pos (Nat.le_of_not_lt hindex)
        · -- the colour is new, for the indices in use are small
          have hused : (indexColor picture.palette (image.color n)).2[
              (indexColor picture.palette (image.color n)).1]? = some (image.color n) :=
            getElem?_indexColor
          obtain ⟨hlt, -⟩ := Array.getElem?_eq_some_iff.1 hused
          rw [← hstored.palette_step, Array.length_toList]
          exact Nat.lt_of_le_of_lt (Nat.le_of_not_lt hindex) hlt
    · refine .inr ⟨bind_eq_error.2 (.inl herror), ?_⟩
      rw [List.range_succ, List.map_append, List.map_singleton, eraseDups_concat]
      split
      · exact hmany
      · rw [List.length_append]
        exact Nat.lt_add_right _ hmany

/-! ## Checks in front -/

/-- What `quantize` asks of an image and its tiles before it stores a pixel. -/
structure Quantizable (image : Raster) (layout : TileLayout) : Prop where
  tileWidth : 0 < layout.tileWidth
  tileHeight : 0 < layout.tileHeight
  channels : 3 ≤ image.channels.toNat
  word : image.pixelCount * image.channels.toNat < wordLimit
  bytes : image.pixelCount * image.channels.toNat ≤ image.pixels.size

theorem quantize_eq (h : Quantizable image layout) :
    quantize image layout file = storeFirst image layout file image.pixelCount := by
  have htiles : ¬(layout.tileWidth = 0 ∨ layout.tileHeight = 0) := by
    have := h.tileWidth
    have := h.tileHeight
    omega
  exact (if_neg htiles).trans <| (if_neg (Nat.not_lt.2 h.channels)).trans <|
    (if_neg (Nat.not_le.2 h.word)).trans <| if_neg (Nat.not_lt.2 h.bytes)

theorem quantizable_of_quantize (h : quantize image layout file = .ok picture) :
    Quantizable image layout := by
  unfold quantize at h
  dsimp only at h
  split at h
  · cases h
  next htiles =>
  split at h
  · cases h
  next hchannels =>
  split at h
  · cases h
  next hword =>
  split at h
  · cases h
  next hbytes =>
  exact ⟨by omega, by omega, Nat.le_of_not_lt hchannels, Nat.lt_of_not_le hword,
    Nat.le_of_not_lt hbytes⟩

/-! ## The whole picture -/

theorem length_eraseDups {α : Type} [DecidableEq α] (xs : List α) :
    xs.eraseDups.length = xs.toFinset.card := by
  rw [← List.toFinset_card_of_nodup (nodup_eraseDups xs)]
  congr 1
  ext x
  simp

/-- **What a picture says of its image.** It has a byte for every pixel, and the palette lists the
    colours of the pixels, each once, as they first occur. For every pixel in the columns of tiles
    the byte at its place is the index of its colour. In front of that place are the pixels to the
    left of it and above it in its tile, and all pixels of the earlier tiles. -/
structure Regrouped (image : Raster) (layout : TileLayout) (picture : Picture) : Prop where
  size : picture.pixels.size = image.width.toNat * image.height.toNat
  nodup : picture.palette.toList.Nodup
  small : picture.palette.size ≤ 256
  colors : picture.palette.toList = image.colors.eraseDups
  mem : ∀ color, color ∈ picture.palette ↔
    ∃ x < image.width.toNat, ∃ y < image.height.toNat, image.colorAt x y = color
  pixel : ∀ x < image.width.toNat, ∀ y < image.height.toNat,
    x < layout.columns * layout.tileWidth → ∀ place,
      place = x % layout.tileWidth + y % layout.tileHeight * layout.tileWidth +
        (y / layout.tileHeight * layout.columns + x / layout.tileWidth) *
          (layout.tileWidth * layout.tileHeight) →
      place < image.width.toNat * image.height.toNat ∧
        ∃ index, picture.pixels[place]? = some index ∧
          picture.palette[index.toNat]? = some (image.colorAt x y)

namespace Raster

variable {x y : Nat}

theorem pixel_lt (hx : x < image.width.toNat) (hy : y < image.height.toNat) :
    y * image.width.toNat + x < image.pixelCount := by
  calc y * image.width.toNat + x
      < (y + 1) * image.width.toNat := by
        rw [Nat.add_one_mul]
        exact Nat.add_lt_add_left hx _
    _ ≤ image.height.toNat * image.width.toNat := Nat.mul_le_mul_right _ hy
    _ = image.pixelCount := Nat.mul_comm _ _

theorem place_pixel (hx : x < image.width.toNat) :
    image.place layout (y * image.width.toNat + x) = layout.target x y := by
  have hwidth := Nat.zero_lt_of_lt hx
  rw [place, Nat.add_comm, Nat.add_mul_mod_self_right, Nat.mod_eq_of_lt hx,
    Nat.add_mul_div_right _ _ hwidth, Nat.div_eq_of_lt hx, Nat.zero_add]

theorem exists_pixel {i : Nat} (hi : i < image.pixelCount) :
    ∃ x < image.width.toNat, ∃ y < image.height.toNat, y * image.width.toNat + x = i := by
  have hwidth : 0 < image.width.toNat :=
    Nat.pos_of_ne_zero fun hzero => by simp [pixelCount, hzero] at hi
  exact ⟨i % image.width.toNat, Nat.mod_lt _ hwidth, i / image.width.toNat,
    Nat.div_lt_of_lt_mul hi, by rw [Nat.mul_comm, Nat.div_add_mod]⟩

theorem mem_colors {color : UInt16} : color ∈ image.colors ↔
    ∃ x < image.width.toNat, ∃ y < image.height.toNat, image.colorAt x y = color := by
  simp only [colors, List.mem_map, List.mem_range]
  constructor
  · rintro ⟨i, hi, rfl⟩
    obtain ⟨x, hx, y, hy, rfl⟩ := exists_pixel hi
    exact ⟨x, hx, y, hy, rfl⟩
  · rintro ⟨x, hx, y, hy, rfl⟩
    exact ⟨_, pixel_lt hx hy, rfl⟩

/-- **A pixel of the columns is not written over.** -/
theorem place_ne_of_later (hwidth : 0 < layout.tileWidth) (hheight : 0 < layout.tileHeight)
    (hx : x < image.width.toNat) (hcolumns : x < layout.columns * layout.tileWidth) {j : Nat}
    (hj : y * image.width.toNat + x < j) :
    image.place layout j ≠ image.place layout (y * image.width.toNat + x) := by
  rw [place_pixel hx]
  refine TileLayout.target_ne_of_later hwidth hheight hcolumns ?_
  have hpos := Nat.zero_lt_of_lt hx
  have hdiv : j / image.width.toNat * image.width.toNat + j % image.width.toNat = j := by
    rw [Nat.mul_comm, Nat.div_add_mod]
  have hrow : y ≤ j / image.width.toNat := by
    rw [Nat.le_div_iff_mul_le hpos]
    omega
  obtain hlt | rfl := Nat.lt_or_eq_of_le hrow
  · exact .inl hlt
  · exact .inr ⟨rfl, by omega⟩

end Raster

theorem regrouped_of_quantize (h : quantize image layout file = .ok picture) :
    Regrouped image layout picture := by
  have haccepted := quantizable_of_quantize h
  have hstored := storedUpTo_of_storeFirst ((quantize_eq haccepted).symm.trans h)
  refine ⟨hstored.size, ?_, hstored.small, hstored.palette, ?_, ?_⟩
  · rw [hstored.palette]
    exact nodup_eraseDups _
  · intro color
    rw [← Array.mem_toList_iff, hstored.palette, List.mem_eraseDups]
    exact Raster.mem_colors
  · rintro x hx y hy hcolumns _ rfl
    have hlt := Raster.pixel_lt hx hy
    have hfits := hstored.fits _ hlt
    have hbyte := hstored.stored _ hlt fun j hj _ =>
      Raster.place_ne_of_later haccepted.tileWidth haccepted.tileHeight hx hcolumns hj
    rw [Raster.place_pixel hx] at hfits hbyte
    exact ⟨hfits, hbyte⟩

/-- **A quantized image loses no pixel of its columns**, and tiles that cut the image exactly use
    every byte of the picture once. Then only the number of colours can be too large. No buffer is
    as long as the address space. -/
theorem quantize_regroups (image : Raster) (layout : TileLayout) (file : String) :
    (∀ picture, quantize image layout file = .ok picture → Regrouped image layout picture) ∧
    (0 < layout.tileWidth → 0 < layout.tileHeight →
      image.width.toNat = layout.columns * layout.tileWidth →
      layout.tileHeight ∣ image.height.toNat →
      Set.BijOn (fun p : Nat × Nat =>
          p.1 % layout.tileWidth + p.2 % layout.tileHeight * layout.tileWidth +
            (p.2 / layout.tileHeight * layout.columns + p.1 / layout.tileWidth) *
              (layout.tileWidth * layout.tileHeight))
        {p | p.1 < image.width.toNat ∧ p.2 < image.height.toNat}
        {i | i < image.width.toNat * image.height.toNat} ∧
      (3 ≤ image.channels.toNat →
        image.width.toNat * image.height.toNat * image.channels.toNat ≤ image.pixels.size →
        image.pixels.size < wordLimit →
        ∀ f, quantize image layout file = .error f ↔
          f = .error (.tooManyColors file) ∧ 256 < image.colors.toFinset.card)) := by
  refine ⟨fun picture h => regrouped_of_quantize h, fun hwidth hheight hcolumns hrows => ?_⟩
  have hbij := TileLayout.bijOn_target hwidth hheight hcolumns hrows
  refine ⟨hbij, fun hchannels hbytes hword f => ?_⟩
  have haccepted : Quantizable image layout :=
    ⟨hwidth, hheight, hchannels, Nat.lt_of_le_of_lt hbytes hword, hbytes⟩
  have hplaces : ∀ i < image.pixelCount, image.place layout i < image.pixelCount := by
    intro i hi
    obtain ⟨x, hx, y, hy, rfl⟩ := Raster.exists_pixel hi
    rw [Raster.place_pixel hx]
    exact hbij.mapsTo (show (x, y) ∈ {p : Nat × Nat | _} from ⟨hx, hy⟩)
  have hcount : image.pixelCount ≤ wordLimit := by
    have hle := Nat.mul_le_mul_left image.pixelCount (Nat.le_trans (by decide : 1 ≤ 3) hchannels)
    rw [Nat.mul_one] at hle
    exact Nat.le_of_lt (Nat.lt_of_le_of_lt hle haccepted.word)
  rw [quantize_eq haccepted, ← length_eraseDups]
  obtain ⟨picture, hok⟩ | ⟨herror, hmany⟩ := storeFirst_cases hplaces hcount
  · have hstored := storedUpTo_of_storeFirst hok
    have hfew : image.colors.eraseDups.length ≤ 256 := by
      rw [Raster.colors, ← hstored.palette, Array.length_toList]
      exact hstored.small
    rw [hok]
    exact ⟨nofun, fun ⟨_, hmany⟩ => absurd hmany (Nat.not_lt.2 hfew)⟩
  · rw [herror]
    exact ⟨fun h => ⟨(Except.error.inj h).symm, hmany⟩, fun h => congrArg Except.error h.1.symm⟩

/-- Two rows of five pixels. -/
def wideImage : Raster :=
  ⟨5, 2, 3, #[8, 0, 0, 16, 0, 0, 24, 0, 0, 32, 0, 0, 40, 0, 0,
    48, 0, 0, 56, 0, 0, 64, 0, 0, 72, 0, 0, 80, 0, 0]⟩

/-- Two rows of four pixels, of two colours. -/
def stripedImage : Raster :=
  ⟨4, 2, 3, #[8, 0, 0, 8, 0, 0, 8, 0, 0, 8, 0, 0, 16, 0, 0, 16, 0, 0, 16, 0, 0, 16, 0, 0]⟩

/-- Six rows of four pixels, each of its own colour. -/
def tallImage : Raster :=
  ⟨4, 6, 3, ((List.range 24).flatMap fun i => [UInt8.ofNat (8 * i), 0, 0]).toArray⟩

/-- Two columns of tiles leave out the last pixel of each row. The one of the upper row goes to the
    first place of the lower row and is written over. Where tiles are three pixels high, the rows of
    a tile stand behind each other. -/
theorem quantize_regroups_wide :
    (quantize wideImage ⟨2, 1, 2⟩ "wide.png").toOption.map (·.pixels) =
        some #[0, 1, 2, 3, 5, 6, 7, 8, 9, 0] ∧
      (∃ picture, quantize wideImage ⟨2, 1, 2⟩ "wide.png" = .ok picture ∧
        Regrouped wideImage ⟨2, 1, 2⟩ picture) ∧
      (∃ picture, quantize tallImage ⟨2, 3, 2⟩ "tall.png" = .ok picture ∧
        picture.pixels = #[0, 1, 4, 5, 8, 9, 2, 3, 6, 7, 10, 11,
          12, 13, 16, 17, 20, 21, 14, 15, 18, 19, 22, 23] ∧
        Regrouped tallImage ⟨2, 3, 2⟩ picture) ∧
      ∀ f, quantize stripedImage ⟨2, 2, 2⟩ "stripes.png" ≠ .error f := by
  have hpixels : (quantize wideImage ⟨2, 1, 2⟩ "wide.png").toOption.map (·.pixels) =
      some #[0, 1, 2, 3, 5, 6, 7, 8, 9, 0] := by decide +kernel
  have htall : (quantize tallImage ⟨2, 3, 2⟩ "tall.png").toOption.map (·.pixels) =
      some #[0, 1, 4, 5, 8, 9, 2, 3, 6, 7, 10, 11,
        12, 13, 16, 17, 20, 21, 14, 15, 18, 19, 22, 23] := by decide +kernel
  refine ⟨hpixels, ?_, ?_, fun f hf => ?_⟩
  · obtain ⟨picture, hpicture, -⟩ := Option.map_eq_some_iff.1 hpixels
    have hok := eq_ok_of_toOption hpicture
    exact ⟨picture, hok, (quantize_regroups wideImage ⟨2, 1, 2⟩ "wide.png").1 picture hok⟩
  · obtain ⟨picture, hpicture, hstrip⟩ := Option.map_eq_some_iff.1 htall
    have hok := eq_ok_of_toOption hpicture
    exact ⟨picture, hok, hstrip, (quantize_regroups tallImage ⟨2, 3, 2⟩ "tall.png").1 picture hok⟩
  · obtain ⟨-, hfails⟩ := (quantize_regroups stripedImage ⟨2, 2, 2⟩ "stripes.png").2
      (by decide) (by decide) (by decide) (by decide)
    obtain ⟨-, hmany⟩ := (hfails (by decide) (by decide) (by decide) f).1 hf
    exact absurd hmany (by decide +kernel)

end GameBundle
