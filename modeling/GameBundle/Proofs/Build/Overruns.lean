import GameBundle.Proofs.Build.EntityFields
import GameBundle.Proofs.Build.Pictures
import GameBundle.Proofs.Build.Refusals
import GameBundle.Proofs.Picture.Regrouping
import GameBundle.Proofs.Shape.Records

set_option autoImplicit false

/-! # What overruns while a tileset is loaded

An overrun is a size limit that no message describes. There is a lemma for each part of a load that
says what has to be too large for it to overrun: an ellipse with more points than memory has room
for, an animation or an image that is larger than memory, or a place in the picture that is. Records
and tables do not overrun by themselves. -/

namespace GameBundle

open Tiled (TilesetFile TileDef)

/-- The failure that no message describes. -/
def Failure.IsOverrun (f : Failure) : Prop := f = .overrun

section Steps

variable {σ α β : Type} {s t : σ}

theorem liftM_spares_overrun (x : Except BuildError α) :
    Avoids Failure.IsOverrun (liftM x : Except Failure α) :=
  .lift fun _ _ => nofun

/-- If the first part of a step does not overrun, the rest of it does. -/
theorem Fails.overruns_after {x : Step σ α} {f : α → Step σ β}
    (h : Fails (x >>= f) s .overrun t) (hx : NeverFails Failure.IsOverrun x) :
    ∃ a u, Yields x s a u ∧ Fails (f a) u .overrun t := by
  obtain h | hrest := fails_bind.1 h
  · exact absurd rfl (hx.spares h)
  · exact hrest

theorem get_spares_overrun : NeverFails Failure.IsOverrun (get : Step σ σ) :=
  fun _ _ _ h => (fails_get.1 h).elim

theorem modify_spares_overrun (f : σ → σ) :
    NeverFails Failure.IsOverrun (modify f : Step σ Unit) :=
  fun _ _ _ h => (fails_modify.1 h).elim

end Steps

/-! ## Tables -/

namespace Tables

variable {kind : Kind} {name : String} {bytes : Bytes}

theorem nextIndex_spares_overrun : NeverFails Failure.IsOverrun (nextIndex kind) := by
  refine .get_bind fun tables => ?_
  dsimp only
  split
  · exact .pure _
  · exact .reject nofun

theorem push_spares_overrun : NeverFails Failure.IsOverrun (push kind name bytes) :=
  .bind nextIndex_spares_overrun fun index => .modify_bind (.pure index)

theorem reserve_spares_overrun : NeverFails Failure.IsOverrun (reserve kind name) :=
  .bind nextIndex_spares_overrun fun index => .modify_bind (.pure index)

theorem fill_spares_overrun (index : UInt16) :
    NeverFails Failure.IsOverrun (fill kind index bytes) := by
  refine .get_bind fun tables => ?_
  split
  · exact modify_spares_overrun _
  · exact .reject nofun

end Tables

/-! ## Records -/

/-- A record with room for its fields does not overrun. -/
theorem Record.encode_spares_overrun {declared : Nat} {fields : List Field}
    (hroom : widthOf fields ≤ declared) (hword : widthOf fields < wordLimit) :
    Avoids Failure.IsOverrun (Record.encode declared fields) := by
  rintro e h rfl
  by_cases hfits : ∀ field ∈ fields, field.Fits
  · cases (Record.encode_eq hroom hword hfits).symm.trans h
  · obtain ⟨value, width, context, -, herror⟩ : ∃ value width context, maxForWidth width < value ∧
        Record.encode declared (fields ++ []) =
          .error (.error (.fieldOverflow context value width)) :=
      Record.encode_eq_error hroom hword hfits
    rw [List.append_nil] at herror
    cases herror.symm.trans h

namespace Outline

/-- The three ways in which a record of an outline comes out are no overruns. -/
theorem encode_spares_overrun (name : String) (o : Outline) :
    Avoids Failure.IsOverrun (o.encode name) := by
  rintro e h rfl
  obtain ⟨-, herror⟩ | ⟨-, -, c, -, herror⟩ | ⟨-, -, bytes, hok, -⟩ := encode_cases name o
  · cases herror.symm.trans h
  · cases herror.symm.trans h
  · cases hok.symm.trans h

/-- An outline overruns if memory has no room for its points. -/
theorem encodeObject_overruns {object : Tiled.Object}
    (h : encodeObject object = .error .overrun) :
    ∃ props, Outline.properties object = .ok props ∧ pointCapacity ≤ pointCount object props := by
  unfold encodeObject at h
  obtain h | ⟨props, hprops, h⟩ := bind_eq_error.1 h
  · exact absurd rfl (liftM_spares_overrun _ _ h)
  refine ⟨props, liftM_eq_ok.1 hprops, ?_⟩
  by_contra hroom
  dsimp only at h
  rw [if_neg hroom] at h
  split at h
  · obtain h | ⟨_, hnone, -⟩ := bind_eq_error.1 h
    · cases h
    · cases hnone
  · exact encode_spares_overrun _ _ _ h rfl

end Outline

/-! ## Tiles -/

/-- A record of an animation overruns if it would be as large as memory. -/
theorem encodeAnimation_overruns {tileset : UInt16} {frames : List Tiled.Frame} {context : String}
    (h : encodeAnimation tileset frames context = .error .overrun) :
    wordLimit ≤ 4 + 4 * frames.length := by
  by_contra hroom
  have hwidth : ∀ head : List Field, widthOf head = 4 →
      widthOf (head ++ frames.flatMap fun frame =>
        [.number frame.tileId.toNat 2 s!"{context} frame tile",
          .number frame.duration.toNat 2 s!"{context} frame duration"]) =
      4 + 4 * frames.length := by
    intro head hhead
    rw [widthOf_append, hhead, widthOf_flatMap 4 (fun _ _ => rfl)]
  exact Record.encode_spares_overrun (Nat.le_of_eq (hwidth _ rfl))
    ((hwidth _ rfl).trans_lt (Nat.lt_of_not_le hroom)) _ h rfl

section Tiles

variable {file : TilesetFile} {tile : TileDef} {tileset : UInt16} {context : String} {p q : Project}

theorem loadShape_overruns (h : Fails (loadShape file tile context) p .overrun q) :
    ∃ object props, tile.shapes = some [object] ∧ Outline.properties object = .ok props ∧
      Outline.pointCapacity ≤ Outline.pointCount object props := by
  unfold loadShape at h
  split at h
  · exact (fails_pure.1 h).elim
  · exact (fails_pure.1 h).elim
  next object hshapes =>
    have hadd : Fails (addOutline object >>= fun index => do
        let word ← (outlineWord context index : Except Failure UInt16)
        return some word) p .overrun q := by
      split at h
      · obtain h | ⟨_, _, hnone, -⟩ := fails_bind.1 h
        · cases (fails_reject.1 h).1
        · exact (yields_reject.1 hnone).elim
      · exact h
    obtain h | ⟨index, u, -, h⟩ := fails_bind.1 hadd
    · obtain h | ⟨bytes, v, -, h⟩ := fails_bind.1 h
      · obtain ⟨props, hprops, hlarge⟩ := Outline.encodeObject_overruns (fails_except.1 h).1
        exact ⟨object, props, hshapes, hprops, hlarge⟩
      · exact absurd rfl ((NeverFails.onTables Tables.push_spares_overrun).spares h)
    · obtain ⟨word, v, -, h⟩ := h.overruns_after (.except (liftM_spares_overrun _))
      exact (fails_pure.1 h).elim
  · cases (fails_reject.1 h).1

theorem loadAnimation_overruns (h : Fails (loadAnimation tileset tile context) p .overrun q) :
    ∃ frames, tile.animation = some frames ∧ wordLimit ≤ 4 + 4 * frames.length := by
  unfold loadAnimation at h
  split at h
  · exact (fails_pure.1 h).elim
  · exact (fails_pure.1 h).elim
  next frames _ hframes =>
  obtain h | ⟨bytes, u, -, h⟩ := fails_bind.1 h
  · exact ⟨frames, hframes, encodeAnimation_overruns (fails_except.1 h).1⟩
  · obtain ⟨index, v, -, h⟩ := h.overruns_after (.onTables Tables.push_spares_overrun)
    exact (fails_pure.1 h).elim

/-- What has to be too large for a tile to overrun. -/
inductive TileBroken (tile : TileDef) : Prop
  /-- The tile is outlined by an ellipse with too many points. -/
  | points (object : Tiled.Object) (props : Properties) (shapes : tile.shapes = some [object])
      (read : Outline.properties object = .ok props)
      (large : Outline.pointCapacity ≤ Outline.pointCount object props)
  /-- The animation is as large as memory. -/
  | frames (frames : List Tiled.Frame) (animation : tile.animation = some frames)
      (large : wordLimit ≤ 4 + 4 * frames.length)

theorem loadTile_overruns (h : Fails (loadTile file tileset context tile) p .overrun q) :
    TileBroken tile := by
  unfold loadTile at h
  obtain ⟨_, _, -, h⟩ := h.overruns_after get_spares_overrun
  obtain ⟨_, _, -, h⟩ := h.overruns_after (.except (liftM_spares_overrun _))
  obtain h | ⟨_, _, -, h⟩ := fails_bind.1 h
  · obtain ⟨object, props, hshapes, hprops, hlarge⟩ := loadShape_overruns h
    exact .points object props hshapes hprops hlarge
  obtain h | ⟨_, _, -, h⟩ := fails_bind.1 h
  · obtain ⟨frames, hframes, hlarge⟩ := loadAnimation_overruns h
    exact .frames frames hframes hlarge
  · exact (fails_pure.1 h).elim

end Tiles

/-! ## Images -/

variable {image : Raster} {layout : TileLayout} {file : String}

/-- What has to be too large for a picture to overrun. -/
inductive PictureBroken (image : Raster) (layout : TileLayout) : Prop
  /-- The image is as large as memory. -/
  | pixels (large : wordLimit ≤ image.pixelCount * image.channels.toNat)
  /-- The place of a pixel is outside of it. -/
  | place (x y : Nat) (column : x < image.width.toNat) (row : y < image.height.toNat)
      (large : wordLimit ≤ layout.target x y)

theorem storePixel_overruns {picture : Picture} {i : Nat}
    (h : storePixel image layout file picture i = .error .overrun) :
    wordLimit ≤ image.place layout i := by
  unfold storePixel at h
  dsimp only at h
  split at h
  · cases h
  split at h
  · next hlarge => exact hlarge
  split at h <;> cases h

theorem storeFirst_overruns {n : Nat} (h : storeFirst image layout file n = .error .overrun) :
    ∃ i < n, wordLimit ≤ image.place layout i := by
  induction n with
  | zero => cases h
  | succ n ih =>
    rw [storeFirst_succ] at h
    obtain h | ⟨picture, -, h⟩ := bind_eq_error.1 h
    · obtain ⟨i, hi, hlarge⟩ := ih h
      exact ⟨i, Nat.lt_succ_of_lt hi, hlarge⟩
    · exact ⟨n, Nat.lt_succ_self n, storePixel_overruns h⟩

theorem quantize_overruns (h : quantize image layout file = .error .overrun) :
    PictureBroken image layout := by
  unfold quantize at h
  dsimp only at h
  split at h
  · cases h
  split at h
  · cases h
  split at h
  · next hlarge => exact .pixels hlarge
  split at h
  · cases h
  · obtain ⟨i, hi, hlarge⟩ := storeFirst_overruns (n := image.pixelCount) h
    obtain ⟨x, hx, y, hy, rfl⟩ := Raster.exists_pixel hi
    exact .place x y hx hy (Raster.place_pixel hx ▸ hlarge)

/-- A palette has at most 256 colours. -/
theorem encodePalette_spares_overrun {name : String} {colors : List UInt16}
    (hfew : colors.length ≤ 256) : Avoids Failure.IsOverrun (encodePalette name colors) := by
  have hwidth : ∀ head : List Field, widthOf head = 34 →
      widthOf (head ++ colors.map fun color => .word color .screen) = 34 + 2 * colors.length := by
    intro head hhead
    rw [widthOf_append, hhead, widthOf_map 2 (fun _ => rfl)]
  refine Record.encode_spares_overrun (Nat.le_of_eq (hwidth _ rfl)) ?_
  rw [hwidth _ rfl, wordLimit, UInt64.size]
  omega

theorem loadImage_overruns {input : Input} {path : String} {p q : Project}
    (h : Fails (loadImage input path layout) p .overrun q) :
    ∃ image, input.source.image (Text.baseName path) = .ok image ∧ PictureBroken image layout := by
  unfold loadImage at h
  obtain ⟨_, _, -, h⟩ := h.overruns_after get_spares_overrun
  split at h
  · exact (fails_pure.1 h).elim
  obtain ⟨index, _, -, h⟩ := h.overruns_after (.onTables Tables.reserve_spares_overrun)
  obtain ⟨palette, _, -, h⟩ := h.overruns_after (.onTables Tables.reserve_spares_overrun)
  obtain ⟨_, _, -, h⟩ := h.overruns_after (modify_spares_overrun _)
  obtain ⟨image, _, himage, h⟩ := h.overruns_after (.except (liftM_spares_overrun _))
  refine ⟨image, liftM_eq_ok.1 (yields_except.1 himage).1, ?_⟩
  obtain h | ⟨picture, _, hpicture, h⟩ := fails_bind.1 h
  · exact quantize_overruns (fails_except.1 h).1
  have hfew := (regrouped_of_quantize (yields_except.1 hpicture).1).small
  obtain ⟨colors, _, -, h⟩ := h.overruns_after (.except (encodePalette_spares_overrun hfew))
  obtain ⟨_, _, -, h⟩ := h.overruns_after (.onTables (Tables.fill_spares_overrun palette))
  obtain ⟨_, _, -, h⟩ := h.overruns_after (.onTables (Tables.fill_spares_overrun index))
  exact (fails_pure.1 h).elim

end GameBundle
