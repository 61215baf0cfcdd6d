import GameBundle.Proofs.Picture.Regrouping

set_option autoImplicit false

/-! # Transparent pixels

One value of the sixteen bits of a colour is set aside for pixels that let the background through.
No colour is kept off that value: packing the darkest greens, of which only the lowest bit of green
is left, gives it as well. So a picture is transparent where its image is translucent, and where it
is of such a green. -/

namespace GameBundle

/-! ## Packed colours -/

namespace Color

variable {r g b a : UInt8}

/-- The colours that keep the lowest bit of green and nothing else. -/
def DarkestGreen (r g b : UInt8) : Prop := r < 8 ∧ 4 ≤ g ∧ g < 8 ∧ b < 8

/-- The upper bits of a channel that are kept are a quotient of it. -/
theorem toNat_bits (c : UInt8) :
    ((c.toUInt16 &&& 0xf8) <<< 8).toNat = 2048 * (c.toNat / 8) ∧
      ((c.toUInt16 &&& 0xfc) <<< 3).toNat = 32 * (c.toNat / 4) ∧
      (c.toUInt16 >>> 3).toNat = c.toNat / 8 := by
  have hall : ∀ n : Fin 256,
      (((UInt8.ofFin n).toUInt16 &&& 0xf8) <<< 8).toNat = 2048 * (n.val / 8) ∧
        (((UInt8.ofFin n).toUInt16 &&& 0xfc) <<< 3).toNat = 32 * (n.val / 4) ∧
        ((UInt8.ofFin n).toUInt16 >>> 3).toNat = n.val / 8 := by decide +kernel
  exact hall c.toFin

/-- A colour that is not translucent has its channels one above the other. -/
theorem toNat_pack (h : ¬a < alphaThreshold) :
    (pack r g b a).toNat = 2048 * (r.toNat / 8) + (32 * (g.toNat / 4) + b.toNat / 8) := by
  -- the bits of a channel lie below those of the channel before
  have hblue : b.toNat / 8 < 2 ^ 5 := Nat.div_lt_of_lt_mul b.toNat_lt
  have hlow : 32 * (g.toNat / 4) ||| b.toNat / 8 = 32 * (g.toNat / 4) + b.toNat / 8 :=
    (Nat.two_pow_add_eq_or_of_lt hblue _).symm
  have hgreen : 32 * (g.toNat / 4) + b.toNat / 8 < 2 ^ 11 := by
    have := g.toNat_lt
    omega
  rw [pack, if_neg h, UInt16.toNat_or, UInt16.toNat_or, (toNat_bits r).1, (toNat_bits g).2.1,
    (toNat_bits b).2.2, Nat.or_assoc, hlow]
  exact (Nat.two_pow_add_eq_or_of_lt hgreen _).symm

/-- **What packs to the transparent value**: all that is translucent, and the darkest greens. -/
theorem pack_eq_transparent_iff :
    pack r g b a = transparent ↔ a < alphaThreshold ∨ DarkestGreen r g b := by
  by_cases ha : a < alphaThreshold
  · exact iff_of_true (if_pos ha) (.inl ha)
  · have hgreen : DarkestGreen r g b ↔
        r.toNat < 8 ∧ 4 ≤ g.toNat ∧ g.toNat < 8 ∧ b.toNat < 8 := by
      simp only [DarkestGreen, UInt8.lt_iff_toNat_lt, UInt8.le_iff_toNat_le, UInt8.reduceToNat]
    rw [or_iff_right ha, hgreen, ← UInt16.toNat_inj, toNat_pack ha,
      show transparent.toNat = 32 from rfl]
    have hblue := b.toNat_lt
    omega

end Color

/-! ## Pixels -/

namespace Raster

variable {image : Raster} {layout : TileLayout} {x y : Nat}

/-- A channel of the pixel in column `x` and row `y`. -/
def channelAt (image : Raster) (x y c : Nat) : UInt8 :=
  image.pixels.getD ((y * image.width.toNat + x) * image.channels.toNat + c) 0

/-- A pixel lets the background through. Only images with four channels have such pixels. -/
def TranslucentAt (image : Raster) (x y : Nat) : Prop :=
  image.channels = 4 ∧ image.channelAt x y 3 < 100

/-- A pixel is of one of the colours that keep the lowest bit of green and nothing else. -/
def DarkestGreenAt (image : Raster) (x y : Nat) : Prop :=
  Color.DarkestGreen (image.channelAt x y 0) (image.channelAt x y 1) (image.channelAt x y 2)

theorem getElem?_channelAt (h : Quantizable image layout) (hx : x < image.width.toNat)
    (hy : y < image.height.toNat) {c : Nat} (hc : c < image.channels.toNat) :
    image.pixels[(y * image.width.toNat + x) * image.channels.toNat + c]? =
      some (image.channelAt x y c) := by
  have hlt : (y * image.width.toNat + x) * image.channels.toNat + c < image.pixels.size :=
    calc (y * image.width.toNat + x) * image.channels.toNat + c
        < (y * image.width.toNat + x + 1) * image.channels.toNat := by
          rw [Nat.add_one_mul]
          exact Nat.add_lt_add_left hc _
      _ ≤ image.pixelCount * image.channels.toNat := Nat.mul_le_mul_right _ (pixel_lt hx hy)
      _ ≤ image.pixels.size := h.bytes
  rw [channelAt, Array.getElem?_eq_getElem hlt, Array.getElem_eq_getD 0]

theorem colorAt_eq_transparent_iff (image : Raster) (x y : Nat) :
    image.colorAt x y = Color.transparent ↔
      image.TranslucentAt x y ∨ image.DarkestGreenAt x y := by
  have hchannels : image.channels.toNat = 4 ↔ image.channels = 4 :=
    UInt8.toNat_inj (b := 4)
  have halpha : (if image.channels.toNat = 4 then image.channelAt x y 3 else 255) <
      Color.alphaThreshold ↔ image.TranslucentAt x y := by
    split
    · next hfour => exact (and_iff_right (hchannels.1 hfour)).symm
    · next hother => exact iff_of_false (by decide) fun h => hother (hchannels.2 h.1)
  rw [← halpha]
  exact Color.pack_eq_transparent_iff

end Raster

/-! ## Pictures -/

variable {image : Raster} {layout : TileLayout} {file : String} {picture : Picture}

/-- **What transparency in a picture says of its image.** The channels are read within the image.
    Where a pixel of the columns of tiles is stored, its colour is the transparent value exactly if
    the pixel is translucent or of one of the darkest greens, and the palette has that value exactly
    if some pixel of the image is of either sort. -/
structure ShowsTransparency (image : Raster) (layout : TileLayout) (picture : Picture) : Prop where
  channel : ∀ x < image.width.toNat, ∀ y < image.height.toNat, ∀ c < image.channels.toNat,
    image.pixels[(y * image.width.toNat + x) * image.channels.toNat + c]? =
      some (image.channelAt x y c)
  pixel : ∀ x < image.width.toNat, ∀ y < image.height.toNat,
    x < layout.columns * layout.tileWidth →
      ∃ index color, picture.pixels[layout.target x y]? = some index ∧
        picture.palette[index.toNat]? = some color ∧
        (color = 32 ↔ image.TranslucentAt x y ∨ image.DarkestGreenAt x y)
  palette : 32 ∈ picture.palette ↔ ∃ x < image.width.toNat, ∃ y < image.height.toNat,
    image.TranslucentAt x y ∨ image.DarkestGreenAt x y

/-- **A picture is transparent exactly where its image is translucent or of one of the darkest
greens.** -/
theorem quantize_transparent_iff (h : quantize image layout file = .ok picture) :
    ShowsTransparency image layout picture := by
  have hregrouped := regrouped_of_quantize h
  refine ⟨fun x hx y hy c hc => ?_, fun x hx y hy hcolumns => ?_, ?_⟩
  · exact Raster.getElem?_channelAt (quantizable_of_quantize h) hx hy hc
  · obtain ⟨-, index, hbyte, hcolor⟩ := hregrouped.pixel x hx y hy hcolumns _ rfl
    exact ⟨index, _, hbyte, hcolor, image.colorAt_eq_transparent_iff x y⟩
  · simp only [← Raster.colorAt_eq_transparent_iff]
    exact hregrouped.mem 32

/-- A pixel of a darkest green, a translucent red one and a black one. -/
def duskImage : Raster := ⟨3, 1, 4, #[7, 4, 0, 255, 255, 0, 0, 99, 0, 0, 0, 100]⟩

/-- The green and the translucent pixel share the transparent entry of the palette. -/
theorem dusk_transparent :
    quantize duskImage ⟨1, 1, 3⟩ "dusk.png" = .ok ⟨#[0, 0, 1], #[32, 0]⟩ ∧
      ShowsTransparency duskImage ⟨1, 1, 3⟩ ⟨#[0, 0, 1], #[32, 0]⟩ := by
  have hok : quantize duskImage ⟨1, 1, 3⟩ "dusk.png" = .ok ⟨#[0, 0, 1], #[32, 0]⟩ :=
    eq_ok_of_toOption (by decide +kernel)
  exact ⟨hok, quantize_transparent_iff hok⟩

/-- One pixel of a darkest green, without alpha. -/
def mossImage : Raster := ⟨1, 1, 3, #[0, 4, 0]⟩

/-- An opaque pixel can be stored as a transparent one. -/
theorem moss_transparent :
    ¬∀ (image : Raster) (layout : TileLayout) (file : String) (picture : Picture),
      quantize image layout file = .ok picture →
      ∀ x < image.width.toNat, ∀ y < image.height.toNat, x < layout.columns * layout.tileWidth →
        ∃ index color, picture.pixels[layout.target x y]? = some index ∧
          picture.palette[index.toNat]? = some color ∧
          (color = 32 ↔ image.TranslucentAt x y) := by
  intro hall
  have hok : quantize mossImage ⟨1, 1, 1⟩ "moss.png" = .ok ⟨#[0], #[32]⟩ :=
    eq_ok_of_toOption (by decide +kernel)
  obtain ⟨index, color, hbyte, hcolor, hiff⟩ := hall mossImage ⟨1, 1, 1⟩ "moss.png" _ hok 0
    (by decide) 0 (by decide) (by decide)
  obtain rfl : 0 = index := Option.some.inj hbyte
  obtain rfl : 32 = color := Option.some.inj hcolor
  exact absurd (hiff.1 rfl).1 (by decide)

end GameBundle
