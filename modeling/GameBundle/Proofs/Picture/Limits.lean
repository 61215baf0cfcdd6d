import GameBundle.Picture.CheckedQuantize
import GameBundle.Proofs.Bundle.SafeReading
import GameBundle.Proofs.Picture.Regrouping

set_option autoImplicit false

/-! # Pictures and the limits of the machine

The quantizer stays within 64-bit words but for two numbers: the bytes of all pixels, which are
counted in order to check the buffer, and the place of one pixel, the first one of the second row of
tiles. Every other place is bounded by a pixel that was stored before: a pixel goes at most one tile
behind its left neighbour, one row of a tile behind the pixel above it, and as far behind the tile
above it as that one is from the start. -/

namespace GameBundle

variable {image : Raster} {layout : TileLayout} {file : String} {picture : Picture}

/-- The numbers of a layout are 32-bit words. -/
structure TileLayout.Words (layout : TileLayout) : Prop where
  tileWidth : layout.tileWidth < 2 ^ 32
  tileHeight : layout.tileHeight < 2 ^ 32
  columns : layout.columns < 2 ^ 32

/-! ## One step in machine words -/

/-- Products of 32-bit words, with one such word on top. -/
theorem mul_add_lt_wordLimit {a b c : Nat} (ha : a < 2 ^ 32) (hb : b < 2 ^ 32) (hc : c < 2 ^ 32) :
    a * b + c < wordLimit := by
  have hmul : a * b ≤ (2 ^ 32 - 1) * (2 ^ 32 - 1) := Nat.mul_le_mul (by omega) (by omega)
  rw [wordLimit_eq]
  omega

theorem checkedDivMod_eq {a b : Nat} (h : 0 < b) : checkedDivMod a b = .ok (a / b, a % b) :=
  if_neg h.ne'

theorem Bytes.checkedByte_eq {bytes : Bytes} {i : Nat} (h : i < bytes.size) :
    bytes.checkedByte i = .ok (bytes.getD i 0) := by
  rw [checkedByte, Array.getElem?_eq_getElem h, Array.getD_eq_getD_getElem?,
    Array.getElem?_eq_getElem h, Option.getD_some]

/-- All bytes of a pixel lie in the buffer. -/
theorem Raster.checkedColor_eq (h : Quantizable image layout) {i : Nat}
    (hi : i < image.pixelCount) : image.checkedColor i = .ok (image.color i) := by
  have hchannels := h.channels
  have hword := h.word
  have hbytes := h.bytes
  have hstop : (i + 1) * image.channels.toNat ≤ image.pixelCount * image.channels.toNat :=
    Nat.mul_le_mul_right _ hi
  have hpixel : (i + 1) * image.channels.toNat =
      i * image.channels.toNat + image.channels.toNat := Nat.add_one_mul _ _
  have hnext : i + 1 ≤ (i + 1) * image.channels.toNat := Nat.le_mul_of_pos_right _ (by omega)
  have hbyte : ∀ c < image.channels.toNat,
      Bytes.checkedByte (image.pixels.extract (i * image.channels.toNat)
        ((i + 1) * image.channels.toNat)) c =
      .ok (image.pixels.getD (i * image.channels.toNat + c) 0) := by
    intro c hc
    rw [Bytes.checkedByte_eq (by rw [Array.size_extract]; omega), Array.getD_eq_getD_getElem?,
      Array.getElem?_extract, if_pos (by omega), Array.getD_eq_getD_getElem?]
  have hrange : image.pixels.checkedRange (i * image.channels.toNat)
      ((i + 1) * image.channels.toNat) =
        .ok (image.pixels.extract (i * image.channels.toNat) ((i + 1) * image.channels.toNat)) :=
    Bytes.checkedRange_eq (by omega)
  simp only [checkedColor, checkedMul_eq (show i * image.channels.toNat < wordLimit by omega),
    checkedAdd_eq (show i + 1 < wordLimit by omega),
    checkedMul_eq (show (i + 1) * image.channels.toNat < wordLimit by omega), hrange, ok_bind,
    hbyte 0 (by omega), hbyte 1 (by omega), hbyte 2 (by omega)]
  by_cases hfour : image.channels.toNat = 4
  · rw [if_pos hfour, hbyte 3 (by omega), ok_bind, color]
    simp only [if_pos hfour, pure, Except.pure]
  · rw [if_neg hfour, color]
    simp only [if_neg hfour, pure, Except.pure]

/-- No number on the way to a place is too large if the place itself is not. -/
theorem TileLayout.checkedTarget_eq (h : layout.Words) (hwidth : 0 < layout.tileWidth)
    (hheight : 0 < layout.tileHeight) {x y : Nat} (hx : x < 2 ^ 32) (hy : y < 2 ^ 32) :
    layout.checkedTarget (layout.tileWidth * layout.tileHeight) x y =
      if layout.target x y < wordLimit then .ok (layout.target x y) else .error .overrun := by
  have hwithin := within_lt hwidth hheight x y
  have hpixels := mul_add_lt_wordLimit h.tileWidth h.tileHeight (Nat.two_pow_pos 32)
  have htile : y / layout.tileHeight * layout.columns + x / layout.tileWidth < wordLimit :=
    mul_add_lt_wordLimit (Nat.lt_of_le_of_lt (Nat.div_le_self _ _) hy) h.columns
      (Nat.lt_of_le_of_lt (Nat.div_le_self _ _) hx)
  simp only [checkedTarget, checkedDivMod_eq hwidth, checkedDivMod_eq hheight, ok_bind,
    checkedMul_eq (show y % layout.tileHeight * layout.tileWidth < wordLimit by omega),
    checkedAdd_eq (show x % layout.tileWidth + y % layout.tileHeight * layout.tileWidth <
      wordLimit by omega),
    checkedMul_eq (Nat.lt_of_le_of_lt (Nat.le_add_right _ _) htile), checkedAdd_eq htile]
  unfold target
  split
  · next hplace =>
    rw [checkedMul_eq (Nat.lt_of_le_of_lt (Nat.le_add_left _ _) hplace), ok_bind,
      checkedAdd_eq hplace]
  · next hplace =>
    unfold checkedMul
    split
    · rw [ok_bind, checkedAdd, if_neg hplace]
    · rfl

theorem checkedStore_eq (h : Quantizable image layout) (hwords : layout.Words) {i : Nat}
    (hi : i < image.pixelCount) :
    checkedStore image layout file (layout.tileWidth * layout.tileHeight) picture i =
      storePixel image layout file picture i := by
  have hwidth : 0 < image.width.toNat :=
    Nat.pos_of_ne_zero fun hzero => by simp [Raster.pixelCount, hzero] at hi
  have hx : i % image.width.toNat < 2 ^ 32 :=
    Nat.lt_trans (Nat.mod_lt _ hwidth) image.width.toNat_lt
  have hy : i / image.width.toNat < 2 ^ 32 :=
    Nat.lt_trans (Nat.div_lt_of_lt_mul hi) image.height.toNat_lt
  have htarget := TileLayout.checkedTarget_eq hwords h.tileWidth h.tileHeight hx hy
  unfold checkedStore storePixel
  rw [Raster.checkedColor_eq h hi, ok_bind]
  dsimp only
  refine if_congr Iff.rfl rfl ?_
  rw [checkedDivMod_eq hwidth, ok_bind]
  dsimp only
  rw [htarget]
  split
  · next hplace => rw [ok_bind, if_neg (Nat.not_le.2 hplace)]
  · next hplace =>
    rw [if_pos (Nat.not_lt.1 hplace)]
    rfl

/-! ## All pixels in machine words -/

theorem foldlM_checkedStore_eq (h : Quantizable image layout) (hwords : layout.Words)
    {pixels : List Nat} (hpixels : ∀ i ∈ pixels, i < image.pixelCount) :
    pixels.foldlM (checkedStore image layout file (layout.tileWidth * layout.tileHeight)) picture =
      pixels.foldlM (storePixel image layout file) picture := by
  induction pixels generalizing picture with
  | nil => rfl
  | cons i rest ih =>
    rw [List.forall_mem_cons] at hpixels
    rw [List.foldlM_cons, List.foldlM_cons, checkedStore_eq h hwords hpixels.1]
    exact congrArg _ (funext fun next => ih hpixels.2)

/-- **The quantizer meets no limit but the two that it checks.** -/
theorem checkedQuantize_eq (image : Raster) (hwords : layout.Words) (file : String) :
    checkedQuantize image layout file = quantize image layout file := by
  unfold checkedQuantize quantize
  by_cases htiles : layout.tileWidth = 0 ∨ layout.tileHeight = 0
  · rw [if_pos htiles, if_pos htiles]
    rfl
  rw [if_neg htiles, if_neg htiles]
  dsimp only
  by_cases hchannels : image.channels.toNat < 3
  · rw [if_pos hchannels, if_pos hchannels]
    rfl
  rw [if_neg hchannels, if_neg hchannels]
  have hcount : image.width.toNat * image.height.toNat < wordLimit :=
    mul_add_lt_wordLimit image.width.toNat_lt image.height.toNat_lt (Nat.two_pow_pos 32)
  have hpixels : layout.tileWidth * layout.tileHeight < wordLimit :=
    mul_add_lt_wordLimit hwords.tileWidth hwords.tileHeight (Nat.two_pow_pos 32)
  rw [checkedMul_eq hcount, ok_bind]
  by_cases hword : wordLimit ≤ image.width.toNat * image.height.toNat * image.channels.toNat
  · rw [checkedMul, if_neg (Nat.not_lt.2 hword), if_pos hword]
    rfl
  rw [checkedMul_eq (Nat.lt_of_not_le hword), ok_bind, if_neg hword]
  by_cases hbytes : image.pixels.size <
      image.width.toNat * image.height.toNat * image.channels.toNat
  · rw [if_pos hbytes, if_pos hbytes]
    rfl
  rw [if_neg hbytes, if_neg hbytes, checkedMul_eq hpixels, ok_bind]
  have haccepted : Quantizable image layout :=
    ⟨by omega, by omega, Nat.not_lt.1 hchannels, Nat.lt_of_not_le hword, Nat.not_lt.1 hbytes⟩
  exact foldlM_checkedStore_eq haccepted hwords fun i hi => List.mem_range.1 hi

/-! ## Distances between places -/

namespace TileLayout

variable {x y : Nat}

/-- Below a pixel of the same tile. -/
theorem target_succ_row (hrow : (y + 1) % layout.tileHeight ≠ 0) :
    layout.target x (y + 1) = layout.target x y + layout.tileWidth := by
  have hdiv : (y + 1) / layout.tileHeight = y / layout.tileHeight := by
    rw [Nat.succ_div, if_neg fun hdvd => hrow (Nat.mod_eq_zero_of_dvd hdvd), Nat.add_zero]
  have hmod : (y + 1) % layout.tileHeight = y % layout.tileHeight + 1 := by
    have hsucc := Nat.div_add_mod (y + 1) layout.tileHeight
    have hy := Nat.div_add_mod y layout.tileHeight
    rw [hdiv] at hsucc
    omega
  rw [target, target, hdiv, hmod, Nat.add_one_mul]
  omega

/-- To the right of a pixel of the same tile. -/
theorem target_succ_column (hcolumn : (x + 1) % layout.tileWidth ≠ 0) :
    layout.target (x + 1) y = layout.target x y + 1 := by
  have hdiv : (x + 1) / layout.tileWidth = x / layout.tileWidth := by
    rw [Nat.succ_div, if_neg fun hdvd => hcolumn (Nat.mod_eq_zero_of_dvd hdvd), Nat.add_zero]
  have hmod : (x + 1) % layout.tileWidth = x % layout.tileWidth + 1 := by
    have hsucc := Nat.div_add_mod (x + 1) layout.tileWidth
    have hx := Nat.div_add_mod x layout.tileWidth
    rw [hdiv] at hsucc
    omega
  rw [target, target, hdiv, hmod]
  omega

/-- To the right of a tile, in its first row. -/
theorem target_next_tile (hcolumn : (x + 1) % layout.tileWidth = 0)
    (hrow : y % layout.tileHeight = 0) :
    layout.target (x + 1) y ≤ layout.target x y + layout.tileWidth * layout.tileHeight := by
  have hdiv : (x + 1) / layout.tileWidth = x / layout.tileWidth + 1 := by
    rw [Nat.succ_div, if_pos (Nat.dvd_of_mod_eq_zero hcolumn)]
  rw [target, target, hcolumn, hrow, hdiv, ← Nat.add_assoc, Nat.add_one_mul]
  omega

/-- The first pixel of a tile at the left. -/
theorem target_left (hrow : y % layout.tileHeight = 0) : layout.target 0 y =
    y / layout.tileHeight * (layout.columns * (layout.tileWidth * layout.tileHeight)) := by
  rw [target, hrow, Nat.zero_mod, Nat.zero_mul, Nat.zero_div, Nat.add_zero, Nat.zero_add,
    Nat.add_zero, Nat.mul_assoc]

/-- The first pixel of a tile at the top. -/
theorem target_top (hcolumn : x % layout.tileWidth = 0) :
    layout.target x 0 = x * layout.tileHeight := by
  have hx : x / layout.tileWidth * layout.tileWidth = x :=
    Nat.div_mul_cancel (Nat.dvd_of_mod_eq_zero hcolumn)
  rw [target, hcolumn, Nat.zero_mod, Nat.zero_mul, Nat.zero_div, Nat.zero_mul, Nat.zero_add,
    Nat.zero_add, ← Nat.mul_assoc, hx]

end TileLayout

/-- **Only one place can be too large: that of the first pixel of the second row of tiles.** -/
theorem far_place_eq (h : Quantizable image layout) (hwords : layout.Words) {x y : Nat}
    (hx : x < image.width.toNat) (hy : y < image.height.toNat)
    (hstored : ∀ x' y', x' < image.width.toNat → (y' < y ∨ y' = y ∧ x' < x) →
      layout.target x' y' < image.pixelCount)
    (hfar : wordLimit ≤ layout.target x y) : x = 0 ∧ y = layout.tileHeight := by
  have hlimit := wordLimit_eq
  have hcount : 3 * image.pixelCount < wordLimit := by
    refine Nat.lt_of_le_of_lt ?_ h.word
    rw [Nat.mul_comm]
    exact Nat.mul_le_mul_left _ h.channels
  have htw := hwords.tileWidth
  by_cases hrow : y % layout.tileHeight = 0
  · have hrows : layout.tileHeight * (y / layout.tileHeight) = y :=
      Nat.mul_div_cancel' (Nat.dvd_of_mod_eq_zero hrow)
    rcases x with _ | x
    · rw [TileLayout.target_left hrow] at hfar
      rcases htile : y / layout.tileHeight with _ | _ | row <;> rw [htile] at hfar hrows
      · rw [Nat.zero_mul, hlimit] at hfar
        exact absurd hfar (by decide)
      · exact ⟨rfl, by rw [← hrows, Nat.zero_add, Nat.mul_one]⟩
      · -- the tile above is at least half as far from the start
        have habove := hstored 0 (layout.tileHeight * (row + 1)) hx (.inl (by
          rw [← hrows]
          exact Nat.mul_lt_mul_of_pos_left (Nat.lt_succ_self _) h.tileHeight))
        rw [TileLayout.target_left (Nat.mul_mod_right _ _), Nat.mul_div_cancel_left _ h.tileHeight]
          at habove
        rw [Nat.add_one_mul] at habove hfar
        rw [Nat.add_one_mul] at hfar
        omega
    · have hleft := hstored x y (Nat.lt_of_succ_lt hx) (.inr ⟨rfl, Nat.lt_succ_self x⟩)
      by_cases hcolumn : (x + 1) % layout.tileWidth = 0
      · have hwidth : layout.tileWidth ≤ x + 1 :=
          Nat.le_of_dvd (Nat.succ_pos x) (Nat.dvd_of_mod_eq_zero hcolumn)
        rcases Nat.eq_zero_or_pos y with rfl | hpos
        · rw [TileLayout.target_top hcolumn] at hfar
          have hplace := mul_add_lt_wordLimit (Nat.lt_trans hx image.width.toNat_lt)
            hwords.tileHeight (Nat.two_pow_pos 32)
          omega
        · have hheight : layout.tileHeight ≤ y :=
            Nat.le_of_dvd hpos (Nat.dvd_of_mod_eq_zero hrow)
          have hpixels : layout.tileWidth * layout.tileHeight ≤ image.pixelCount :=
            Nat.mul_le_mul (by omega) (by omega)
          have hnext := TileLayout.target_next_tile hcolumn hrow
          omega
      · rw [TileLayout.target_succ_column hcolumn] at hfar
        omega
  · -- the pixel above is in the same tile
    obtain ⟨y, rfl⟩ : ∃ k, y = k + 1 :=
      Nat.exists_eq_succ_of_ne_zero fun hzero => hrow (by rw [hzero, Nat.zero_mod])
    have habove := hstored x y hx (.inl (Nat.lt_succ_self y))
    rw [TileLayout.target_succ_row hrow] at hfar
    omega

/-! ## Overruns -/

theorem storePixel_eq_overrun {i : Nat} :
    storePixel image layout file picture i = .error .overrun ↔
      (indexColor picture.palette (image.color i)).1 < paletteLimit ∧
        wordLimit ≤ image.place layout i := by
  unfold storePixel Raster.place
  dsimp only
  split
  · next hmany => simp [hmany]
  · next hmany =>
    split
    · next hword => simp [hword, Nat.lt_of_not_le hmany]
    · next hword => split <;> simp [hword]

/-- Where an overrun stops, everything before it was stored. -/
theorem exists_of_storeFirst_overrun {n : Nat}
    (h : storeFirst image layout file n = .error .overrun) :
    ∃ i < n, ∃ picture, storeFirst image layout file i = .ok picture ∧
      storePixel image layout file picture i = .error .overrun := by
  induction n with
  | zero => cases h
  | succ n ih =>
    rw [storeFirst_succ, bind_eq_error] at h
    obtain h | ⟨picture, hok, hpixel⟩ := h
    · obtain ⟨i, hi, hpixel⟩ := ih h
      exact ⟨i, Nat.lt_succ_of_lt hi, hpixel⟩
    · exact ⟨n, Nat.lt_succ_self n, picture, hok, hpixel⟩

theorem storeFirst_error_of_le {n m : Nat} {f : Failure} (hle : n ≤ m)
    (h : storeFirst image layout file n = .error f) :
    storeFirst image layout file m = .error f := by
  induction hle with
  | refl => exact h
  | step _ ih => rw [storeFirst_succ, bind_eq_error]; exact .inl ih

/-- **The image is cut so wide that its second row of tiles would begin outside of memory.** It
must be long enough to have such a row, and nothing may be wrong with the pixels before it: all of
them have a place, and their colours and the colour of the next one fit the palette. -/
structure SecondRowTooFar (image : Raster) (layout : TileLayout) : Prop where
  bytes : image.pixelCount * image.channels.toNat ≤ image.pixels.size
  column : 0 < image.width.toNat
  row : layout.tileHeight < image.height.toNat
  far : wordLimit ≤ layout.columns * (layout.tileWidth * layout.tileHeight)
  stored : ∀ x < image.width.toNat, ∀ y < layout.tileHeight,
    layout.target x y < image.pixelCount
  colors : ((List.range (layout.tileHeight * image.width.toNat + 1)).map
    image.color).toFinset.card ≤ 256

/-- The pixels in front of the second row of tiles need at least half as many bytes as a tile has
pixels, and a tile has more than 32 bits of them. -/
theorem SecondRowTooFar.large (h : SecondRowTooFar image layout) (hwords : layout.Words) :
    2 ^ 31 < image.pixelCount := by
  have hfar := h.far
  have hcolumns := hwords.columns
  have htileWidth := hwords.tileWidth
  have hpixels : 2 ^ 32 < layout.tileWidth * layout.tileHeight := by
    by_contra hle
    have hmul : layout.columns * (layout.tileWidth * layout.tileHeight) ≤
        (2 ^ 32 - 1) * 2 ^ 32 := Nat.mul_le_mul (by omega) (by omega)
    rw [wordLimit_eq] at hfar
    omega
  rcases hheight : layout.tileHeight with _ | _ | k <;> rw [hheight] at hpixels
  · omega
  · omega
  · have hlast := h.stored 0 h.column (k + 1) (by omega)
    have hrow : (k + 1) % layout.tileHeight = k + 1 := Nat.mod_eq_of_lt (by omega)
    have hfirst : (k + 1) * layout.tileWidth ≤ layout.target 0 (k + 1) := by
      rw [TileLayout.target, hrow]
      omega
    rw [Nat.add_one_mul, Nat.mul_comm] at hfirst
    rw [Nat.mul_add_one, Nat.mul_add_one] at hpixels
    omega

/-- The index of the next colour is small as long as the colours so far fit the palette. -/
theorem StoredUpTo.index_lt_iff {n : Nat} (h : StoredUpTo image layout n picture) :
    (indexColor picture.palette (image.color n)).1 < paletteLimit ↔
      ((List.range (n + 1)).map image.color).toFinset.card ≤ 256 := by
  have hsize : (indexColor picture.palette (image.color n)).2.size =
      ((List.range (n + 1)).map image.color).toFinset.card := by
    rw [← length_eraseDups, ← h.palette_step, Array.length_toList]
  rw [← hsize]
  constructor
  · exact fun hindex => size_indexColor_le.trans (Nat.max_le.2 ⟨h.small, hindex⟩)
  · intro hfew
    have hused : (indexColor picture.palette (image.color n)).2[
        (indexColor picture.palette (image.color n)).1]? = some (image.color n) :=
      getElem?_indexColor
    obtain ⟨hlt, -⟩ := Array.getElem?_eq_some_iff.1 hused
    exact Nat.lt_of_lt_of_le hlt hfew

/-- Where a run of the quantizer stops with an overrun. -/
theorem secondRowTooFar_of_overrun (h : Quantizable image layout) (hwords : layout.Words)
    (hoverrun : storeFirst image layout file image.pixelCount = .error .overrun) :
    SecondRowTooFar image layout := by
  obtain ⟨i, hi, picture, hok, hpixel⟩ := exists_of_storeFirst_overrun hoverrun
  obtain ⟨hindex, hfar⟩ := storePixel_eq_overrun.1 hpixel
  have hstored := storedUpTo_of_storeFirst hok
  obtain ⟨x, hx, y, hy, rfl⟩ := Raster.exists_pixel hi
  rw [Raster.place_pixel hx] at hfar
  have hbefore : ∀ x' y', x' < image.width.toNat → (y' < y ∨ y' = y ∧ x' < x) →
      layout.target x' y' < image.pixelCount := by
    intro x' y' hx' hearlier
    rw [← Raster.place_pixel hx']
    refine hstored.fits _ ?_
    obtain hrow | ⟨rfl, hcolumn⟩ := hearlier
    · calc y' * image.width.toNat + x' < (y' + 1) * image.width.toNat := by
            rw [Nat.add_one_mul]
            exact Nat.add_lt_add_left hx' _
        _ ≤ y * image.width.toNat := Nat.mul_le_mul_right _ hrow
        _ ≤ y * image.width.toNat + x := Nat.le_add_right _ _
    · exact Nat.add_lt_add_left hcolumn _
  obtain ⟨rfl, rfl⟩ := far_place_eq h hwords hx hy hbefore hfar
  rw [TileLayout.target_left (Nat.mod_self _), Nat.div_self h.tileHeight, Nat.one_mul] at hfar
  exact ⟨h.bytes, hx, hy, hfar, fun x' hx' y' hy' => hbefore x' y' hx' (.inl hy'),
    hstored.index_lt_iff.1 hindex⟩

theorem SecondRowTooFar.overrun (h : SecondRowTooFar image layout)
    (haccepted : Quantizable image layout) (file : String) :
    storeFirst image layout file image.pixelCount = .error .overrun := by
  have hheight := haccepted.tileHeight
  have hplaces : ∀ i < layout.tileHeight * image.width.toNat,
      image.place layout i < image.pixelCount := fun i hi =>
    h.stored _ (Nat.mod_lt _ h.column) _ (Nat.div_lt_of_lt_mul (by rwa [Nat.mul_comm]))
  have hcount : image.pixelCount ≤ wordLimit := by
    refine Nat.le_of_lt (Nat.lt_of_le_of_lt ?_ haccepted.word)
    exact Nat.le_mul_of_pos_right _ (Nat.lt_of_lt_of_le (by decide) haccepted.channels)
  have hinside : layout.tileHeight * image.width.toNat + 0 < image.pixelCount :=
    Raster.pixel_lt h.column h.row
  have hcases : (∃ picture, storeFirst image layout file _ = .ok picture) ∨ _ :=
    storeFirst_cases hplaces hcount
  obtain ⟨picture, hok⟩ | ⟨-, hmany⟩ := hcases
  · have hfar : wordLimit ≤ image.place layout (layout.tileHeight * image.width.toNat + 0) := by
      rw [Raster.place_pixel h.column, TileLayout.target_left (Nat.mod_self _),
        Nat.div_self hheight, Nat.one_mul]
      exact h.far
    have hindex := (storedUpTo_of_storeFirst hok).index_lt_iff.2 h.colors
    refine storeFirst_error_of_le hinside ?_
    rw [storeFirst_succ, bind_eq_error]
    exact .inr ⟨picture, hok, storePixel_eq_overrun.2 ⟨hindex, hfar⟩⟩
  · -- one more colour does not make them fewer
    refine absurd hmany (Nat.not_lt.2 ?_)
    rw [length_eraseDups]
    refine Nat.le_trans (Finset.card_le_card ?_) h.colors
    rw [List.range_succ, List.map_append, List.toFinset_append]
    exact Finset.subset_union_left

/-- When a picture overruns. -/
theorem quantize_overrun_iff (hwords : layout.Words) :
    quantize image layout file = .error .overrun ↔
      0 < layout.tileWidth ∧ 0 < layout.tileHeight ∧ 3 ≤ image.channels.toNat ∧
        (wordLimit ≤ image.pixelCount * image.channels.toNat ∨ SecondRowTooFar image layout) := by
  constructor
  · intro h
    unfold quantize at h
    dsimp only at h
    split at h
    · cases h
    next htiles =>
    split at h
    · cases h
    next hchannels =>
    refine ⟨by omega, by omega, Nat.not_lt.1 hchannels, ?_⟩
    split at h
    · next hword => exact .inl hword
    next hword =>
    split at h
    · cases h
    next hbytes =>
    exact .inr (secondRowTooFar_of_overrun ⟨by omega, by omega, Nat.not_lt.1 hchannels,
      Nat.lt_of_not_le hword, Nat.not_lt.1 hbytes⟩ hwords h)
  · rintro ⟨hwidth, hheight, hchannels, htoo⟩
    by_cases hword : wordLimit ≤ image.pixelCount * image.channels.toNat
    · have htiles : ¬(layout.tileWidth = 0 ∨ layout.tileHeight = 0) := by omega
      exact (if_neg htiles).trans <| (if_neg (Nat.not_lt.2 hchannels)).trans <| if_pos hword
    · have hsecond := htoo.resolve_left hword
      have haccepted : Quantizable image layout :=
        ⟨hwidth, hheight, hchannels, Nat.lt_of_not_le hword, hsecond.bytes⟩
      rw [quantize_eq haccepted]
      exact hsecond.overrun haccepted file

/-- **What the quantizer does with a malformed image.** In machine words it computes what it
computes without them: no product or sum on the way leaves 64 bits and no pixel is cut out of the
buffer beyond its end, except where an overrun is reported. There are two such places. One is the
check of the buffer, where the number of bytes of all pixels is formed. The other is the place of
the first pixel of the second row of tiles; an image that comes so far has more than `2 ^ 31`
pixels. -/
theorem quantize_limits (image : Raster) (tileWidth tileHeight columns : UInt32) (file : String) :
    let layout : TileLayout := ⟨tileWidth.toNat, tileHeight.toNat, columns.toNat⟩
    checkedQuantize image layout file = quantize image layout file ∧
    (quantize image layout file = .error .overrun ↔
      0 < layout.tileWidth ∧ 0 < layout.tileHeight ∧ 3 ≤ image.channels.toNat ∧
        (wordLimit ≤ image.pixelCount * image.channels.toNat ∨ SecondRowTooFar image layout)) ∧
    (SecondRowTooFar image layout → 2 ^ 31 < image.pixelCount) := by
  intro layout
  have hwords : layout.Words := ⟨tileWidth.toNat_lt, tileHeight.toNat_lt, columns.toNat_lt⟩
  exact ⟨checkedQuantize_eq image hwords file, quantize_overrun_iff hwords,
    fun h => h.large hwords⟩

/-- An image without a single byte that claims to be as large as can be written. -/
def hollowImage : Raster := ⟨4294967295, 4294967295, 3, #[]⟩

/-- Too many pixels overrun, and one row of them is merely not there. -/
theorem hollow_limits :
    quantize hollowImage ⟨1, 1, 1⟩ "hollow.png" = .error .overrun ∧
      quantize { hollowImage with height := 1 } ⟨1, 1, 1⟩ "hollow.png" ≠ .error .overrun ∧
      ¬SecondRowTooFar { hollowImage with height := 1 } ⟨1, 1, 1⟩ := by
  have hlarge : wordLimit ≤ hollowImage.pixelCount * hollowImage.channels.toNat := by decide
  have hsmall : ¬wordLimit ≤ Raster.pixelCount { hollowImage with height := 1 } *
    ({ hollowImage with height := 1 } : Raster).channels.toNat := by decide
  have hnot : ¬SecondRowTooFar { hollowImage with height := 1 } ⟨1, 1, 1⟩ := fun h =>
    absurd h.row (by decide)
  refine ⟨((quantize_limits hollowImage 1 1 1 "hollow.png").2.1).2
    ⟨by decide, by decide, by decide, .inl hlarge⟩, fun h => ?_, hnot⟩
  obtain ⟨-, -, -, htoo⟩ :=
    (quantize_limits { hollowImage with height := 1 } 1 1 1 "hollow.png").2.1.1 h
  exact htoo.elim hsmall hnot

/-- The check of the buffer does not reject every image that is too short for it. -/
theorem hollow_not_rejected :
    ¬∀ (image : Raster) (layout : TileLayout) (file : String),
      (∃ picture, quantize image layout file = .ok picture) ∨
        ∃ e : BuildError, quantize image layout file = .error (.error e) := by
  intro h
  have hoverrun : quantize hollowImage ⟨1, 1, 1⟩ "hollow.png" = .error .overrun := rfl
  obtain ⟨picture, hok⟩ | ⟨e, herror⟩ := h hollowImage ⟨1, 1, 1⟩ "hollow.png"
  · cases hoverrun.symm.trans hok
  · cases hoverrun.symm.trans herror

end GameBundle
