import GameBundle.Proofs.Build.Encoding
import GameBundle.Proofs.Build.EntityFields

set_option autoImplicit false

/-! # The records of outlines

Two lists lie one behind the other in the record of an outline: the points, and the lengths of the
segments between them. Each is as long as a byte in front of both says, and where the second one
starts depends on the length of the first. `OutlineTold` says what is read where. An outline gets
such a record unless it has too many points, or a coordinate that is no pixel. -/

namespace GameBundle

open Binary64 (round distance toSingleBits)

/-- The number of segments between some points. One point alone has none. -/
def OutlineKind.segmentsAmong (kind : OutlineKind) (points : Nat) : Nat :=
  if points < 2 then 0
  else match kind with
    | .point => 0
    | .polyline => points - 1
    | .polygon => points

namespace OutlineKind

theorem segmentsAmong_of_lt (kind : OutlineKind) {points : Nat} (h : points < 2) :
    kind.segmentsAmong points = 0 := by
  unfold segmentsAmong
  exact if_pos h

theorem segmentsAmong_le (kind : OutlineKind) (points : Nat) :
    kind.segmentsAmong points ≤ points := by
  unfold segmentsAmong
  split
  · exact Nat.zero_le _
  · cases kind with
    | point => exact Nat.zero_le _
    | polyline => exact Nat.sub_le _ _
    | polygon => exact Nat.le_refl _

end OutlineKind

namespace Outline

variable {o : Outline} {name : String}

/-! ## Segments -/

/-- What follows each of some things that stand in a circle. -/
theorem getElem?_rotated {α : Type} (first : α) (rest : List α) {i : Nat}
    (hi : i < (first :: rest).length) :
    (rest ++ [first])[i]? = (first :: rest)[(i + 1) % (first :: rest).length]? := by
  rw [List.length_cons] at hi ⊢
  by_cases hlast : i = rest.length
  · subst hlast
    rw [Nat.mod_self, List.getElem?_concat_length, List.getElem?_cons_zero]
  · have hlt : i < rest.length := by omega
    rw [Nat.mod_eq_of_lt (by omega), List.getElem?_append_left hlt, List.getElem?_cons_succ]

/-- With two points or more, the segments join each point to the next one, as many of them as the
    kind calls for. -/
theorem segments_eq (h : 2 ≤ o.points.length) :
    ∃ first rest, o.points = first :: rest ∧
      o.segments = (o.points.zip (rest ++ [first])).take (o.kind.segmentsAmong o.points.length) := by
  have hcount : o.segmentCount = o.kind.segmentsAmong o.points.length := by
    unfold OutlineKind.segmentsAmong
    exact (if_neg (Nat.not_lt.2 h)).symm
  obtain ⟨kind, points⟩ := o
  rcases points with _ | ⟨first, _ | ⟨second, rest⟩⟩
  · cases h
  · exact absurd h (Nat.not_succ_le_self 1)
  · exact ⟨first, second :: rest, rfl, congrArg (List.take · _) hcount⟩

theorem segments_of_few (h : o.points.length < 2) : o.segments = [] := by
  obtain ⟨kind, points⟩ := o
  rcases points with _ | ⟨first, _ | ⟨second, rest⟩⟩
  · rfl
  · rfl
  · exact absurd h (by simp)

theorem length_segments (o : Outline) :
    o.segments.length = o.kind.segmentsAmong o.points.length := by
  by_cases h : 2 ≤ o.points.length
  · obtain ⟨first, rest, hpoints, hsegments⟩ := segments_eq h
    have hle := o.kind.segmentsAmong_le o.points.length
    rw [hsegments, List.length_take, List.length_zip, List.length_append, List.length_singleton]
    rw [hpoints, List.length_cons] at hle ⊢
    omega
  · have hfew : o.points.length < 2 := Nat.not_le.1 h
    rw [segments_of_few hfew, o.kind.segmentsAmong_of_lt hfew, List.length_nil]

/-- **A segment joins a point to the next one, and the last point to the first.** -/
theorem exists_segment {i : Nat} (hi : i < o.kind.segmentsAmong o.points.length) :
    ∃ a b, o.points[i]? = some a ∧ o.points[(i + 1) % o.points.length]? = some b ∧
      o.segments[i]? = some (a, b) := by
  have hpoints : i < o.points.length := Nat.lt_of_lt_of_le hi (o.kind.segmentsAmong_le _)
  have htwo : 2 ≤ o.points.length := by
    refine Nat.not_lt.1 fun hfew => ?_
    rw [o.kind.segmentsAmong_of_lt hfew] at hi
    exact Nat.not_lt_zero _ hi
  obtain ⟨first, rest, hfirst, hsegments⟩ := segments_eq htwo
  have hnext : (i + 1) % o.points.length < o.points.length := Nat.mod_lt _ (by omega)
  refine ⟨o.points[i], o.points[(i + 1) % o.points.length], List.getElem?_eq_getElem hpoints,
    List.getElem?_eq_getElem hnext, ?_⟩
  have hrotated : (rest ++ [first])[i]? = some (o.points[(i + 1) % o.points.length]) := by
    rw [getElem?_rotated first rest (hfirst ▸ hpoints), ← List.getElem?_eq_getElem hnext]
    simp only [hfirst]
  rw [hsegments, List.getElem?_take_of_lt hi, List.getElem?_zip_eq_some]
  exact ⟨List.getElem?_eq_getElem hpoints, hrotated⟩

theorem length_segmentLengths (o : Outline) :
    o.segmentLengths.length = o.kind.segmentsAmong o.points.length := by
  rw [segmentLengths, List.length_map, length_segments]

/-! ## Coordinates -/

/-- Both coordinates of a point are whole pixels that fit 16 bits. -/
def OnMap (point : Float × Float) : Prop :=
  (round point.1).FitsIn 0xffff ∧ (round point.2).FitsIn 0xffff

/-- The words of a point are its coordinates. -/
def IsPixel (point : Float × Float) (pixel : UInt16 × UInt16) : Prop :=
  round point.1 = .integer pixel.1.toNat ∧ round point.2 = .integer pixel.2.toNat

/-- The coordinates in the order in which they are stored, each with its place in a message. -/
def coordinates (name : String) (points : List (Float × Float)) : List (String × Float) :=
  points.flatMap fun point =>
    [(s!"geometry \"{name}\" x", point.1), (s!"geometry \"{name}\" y", point.2)]

theorem coordinates_cons (name : String) (point : Float × Float) (rest : List (Float × Float)) :
    coordinates name (point :: rest) =
      [(s!"geometry \"{name}\" x", point.1), (s!"geometry \"{name}\" y", point.2)] ++
        coordinates name rest :=
  List.flatMap_cons

/-- The failure that a coordinate gives which is no pixel. -/
def misfit (c : String × Float) : Failure :=
  .error (.fieldOverflow c.1 (round c.2).toSigned64 2)

/-- `c` is the first of the coordinates that is no pixel. -/
def FirstMisfit (c : String × Float) (all : List (String × Float)) : Prop :=
  ∃ before after, all = before ++ c :: after ∧
    (∀ other ∈ before, (round other.2).FitsIn 0xffff) ∧ ¬(round c.2).FitsIn 0xffff

theorem coordinate_cases (context : String) (value : Float) :
    ((round value).FitsIn 0xffff ∧
        ∃ v : UInt16, coordinate context value = .ok v ∧ round value = .integer v.toNat) ∨
      (¬(round value).FitsIn 0xffff ∧
        coordinate context value = .error (misfit (context, value))) := by
  obtain hok | ⟨hover, -⟩ := coordinate_checked context value
  · exact .inl hok
  · refine .inr ⟨hover, ?_⟩
    unfold coordinate
    dsimp only
    rw [Binary64.Whole.within_eq_none.2 hover]
    rfl

theorem FirstMisfit.cons {c : String × Float} {all : List (String × Float)}
    (h : FirstMisfit c all) (other : String × Float) (hother : (round other.2).FitsIn 0xffff) :
    FirstMisfit c (other :: all) := by
  obtain ⟨before, after, rfl, hbefore, hc⟩ := h
  exact ⟨other :: before, after, rfl, List.forall_mem_cons.2 ⟨hother, hbefore⟩, hc⟩

theorem FirstMisfit.append {c : String × Float} {all : List (String × Float)}
    (h : FirstMisfit c all) (more : List (String × Float)) : FirstMisfit c (all ++ more) := by
  obtain ⟨before, after, rfl, hbefore, hc⟩ := h
  exact ⟨before, after ++ more, List.append_assoc _ _ _, hbefore, hc⟩

theorem firstMisfit_head {c : String × Float} (all : List (String × Float))
    (h : ¬(round c.2).FitsIn 0xffff) : FirstMisfit c (c :: all) :=
  ⟨[], all, rfl, List.forall_mem_nil _, h⟩

/-- The two coordinates of a point are read one after the other. -/
theorem pixel_cases (contextX contextY : String) (point : Float × Float) :
    let pixel : Except Failure (UInt16 × UInt16) := do
      let x ← coordinate contextX point.1
      let y ← coordinate contextY point.2
      return (x, y)
    (OnMap point ∧ ∃ p, pixel = .ok p ∧ IsPixel point p) ∨
      (¬OnMap point ∧ ∃ c, FirstMisfit c [(contextX, point.1), (contextY, point.2)] ∧
        pixel = .error (misfit c)) := by
  obtain ⟨hx, x, hxOk, hxRound⟩ | ⟨hx, hxError⟩ := coordinate_cases contextX point.1
  · obtain ⟨hy, y, hyOk, hyRound⟩ | ⟨hy, hyError⟩ := coordinate_cases contextY point.2
    · rw [hxOk, hyOk]
      exact .inl ⟨⟨hx, hy⟩, (x, y), rfl, hxRound, hyRound⟩
    · rw [hxOk, hyError]
      have hmisfit : FirstMisfit (contextY, point.2) [(contextY, point.2)] := firstMisfit_head [] hy
      exact .inr ⟨fun h => hy h.2, _, hmisfit.cons (_, point.1) hx, rfl⟩
  · rw [hxError]
    exact .inr ⟨fun h => hx h.1, (contextX, point.1), firstMisfit_head _ hx, rfl⟩

/-- Either all points are on the map, or the first coordinate that is not is refused. -/
theorem pixels_cases (name : String) (points : List (Float × Float)) :
    ((∀ point ∈ points, OnMap point) ∧
        ∃ pixels, points.mapM (pixel name) = .ok pixels ∧ List.Forall₂ IsPixel points pixels) ∨
      ((¬∀ point ∈ points, OnMap point) ∧ ∃ c, FirstMisfit c (coordinates name points) ∧
        points.mapM (pixel name) = .error (misfit c)) := by
  induction points with
  | nil => exact .inl ⟨List.forall_mem_nil _, [], rfl, .nil⟩
  | cons point rest ih =>
    rw [List.forall_mem_cons, List.mapM_cons, coordinates_cons]
    obtain ⟨hpoint, p, hp, hpixel⟩ | ⟨hpoint, c, hc, herror⟩ := pixel_cases _ _ point
    · rw [pixel, hp]
      obtain ⟨hrest, pixels, hpixels, hall⟩ | ⟨hrest, c, hc, herror⟩ := ih
      · refine .inl ⟨⟨hpoint, hrest⟩, p :: pixels, ?_, .cons hpixel hall⟩
        rw [hpixels]
        rfl
      · refine .inr ⟨fun h => hrest h.2, c,
          (hc.cons (_, point.2) hpoint.2).cons (_, point.1) hpoint.1, ?_⟩
        rw [herror]
        rfl
    · rw [pixel, herror]
      exact .inr ⟨fun h => hpoint h.1, c, hc.append (coordinates name rest), rfl⟩

/-! ## Fields -/

/-- The fields in front of the points. -/
def headerFields (o : Outline) (name : String) : List Field :=
  [.chars name 32, .byte o.kind.code, .byte (UInt8.ofNat o.points.length),
    .byte (UInt8.ofNat o.segmentLengths.length), .gap 1, .long (toSingleBits o.totalLength)]

def pixelFields (pixel : UInt16 × UInt16) : List Field := [.word pixel.1, .word pixel.2]

def lengthFields (length : Float) : List Field := [.long (toSingleBits length)]

/-- The fields of an outline whose points are stored as `pixels`. -/
def fields (o : Outline) (name : String) (pixels : List (UInt16 × UInt16)) : List Field :=
  o.headerFields name ++ pixels.flatMap pixelFields ++ o.segmentLengths.flatMap lengthFields

theorem widthOf_fields {pixels : List (UInt16 × UInt16)} (h : pixels.length = o.points.length) :
    widthOf (o.fields name pixels) =
      40 + 4 * o.points.length + 4 * o.segmentLengths.length := by
  have hheader : widthOf (o.headerFields name) = 40 := rfl
  rw [fields, widthOf_append, widthOf_append, hheader, widthOf_flatMap 4 (fun _ _ => rfl),
    widthOf_flatMap 4 (fun _ _ => rfl), h]

theorem fields_fit (pixels : List (UInt16 × UInt16)) :
    ∀ field ∈ o.fields name pixels, field.Fits := by
  have hheader : ∀ field ∈ o.headerFields name, field.Fits := by simp [headerFields, Field.Fits]
  have hpixel : ∀ pixel, ∀ field ∈ pixelFields pixel, field.Fits := by
    simp [pixelFields, Field.Fits]
  have hlength : ∀ length, ∀ field ∈ lengthFields length, field.Fits := by
    simp [lengthFields, Field.Fits]
  intro field hfield
  rw [fields, List.mem_append, List.mem_append, List.mem_flatMap, List.mem_flatMap] at hfield
  obtain (hfield | ⟨pixel, -, hfield⟩) | ⟨length, -, hfield⟩ := hfield
  · exact hheader field hfield
  · exact hpixel pixel field hfield
  · exact hlength length field hfield

theorem encode_eq (hpoints : o.points.length ≤ 255) :
    o.encode name = o.points.mapM (pixel name) >>= fun pixels =>
      Record.encode (40 + 4 * o.points.length + 4 * o.segmentLengths.length)
        (o.fields name pixels) := by
  have hlimit : ¬pointLimit < o.points.length := Nat.not_lt.2 hpoints
  unfold encode
  simp only [hlimit, if_false, fields, List.map_eq_flatMap]
  rfl

theorem encode_of_many (hpoints : 255 < o.points.length) :
    o.encode name = .error (.error (.tooManyPoints name o.points.length)) := by
  have hlimit : pointLimit < o.points.length := hpoints
  unfold encode
  simp only [hlimit, if_true]
  rfl

/-- The fields always fill their record. -/
theorem encode_fields (name : String) {pixels : List (UInt16 × UInt16)}
    (hpoints : o.points.length ≤ 255) (h : pixels.length = o.points.length) :
    ∃ bytes, Record.encode (40 + 4 * o.points.length + 4 * o.segmentLengths.length)
      (o.fields name pixels) = .ok bytes := by
  have hsegments := o.kind.segmentsAmong_le o.points.length
  rw [← o.length_segmentLengths] at hsegments
  refine ⟨_, Record.encode_full (widthOf_fields h) ?_ ?_ (fields_fit pixels)⟩
  · omega
  · rw [wordLimit, UInt64.size]
    omega

end Outline

/-! ## What a record says -/

/-- What is read in the record of an outline. -/
structure OutlineTold (o : Outline) (bytes : Bytes) : Prop where
  size : bytes.size = 40 + 4 * o.points.length + 4 * o.kind.segmentsAmong o.points.length
  kind : bytes[32]? = some o.kind.code
  pointCount : bytes.slot? 33 1 = some o.points.length
  segmentCount : bytes.slot? 34 1 = some (o.kind.segmentsAmong o.points.length)
  totalLength : bytes.long? 36 = some (toSingleBits o.totalLength)
  points : ∀ (k : Nat) (point : Float × Float), o.points[k]? = some point → ∃ x y : Nat,
    round point.1 = .integer x ∧ round point.2 = .integer y ∧
      bytes.slot? (40 + 4 * k) 2 = some x ∧ bytes.slot? (42 + 4 * k) 2 = some y
  /-- Each segment starts at its point and ends at the next one, the last point being followed by
      the first. -/
  segments : ∀ i < o.kind.segmentsAmong o.points.length, ∃ a b,
    o.points[i]? = some a ∧ o.points[(i + 1) % o.points.length]? = some b ∧
      bytes.long? (40 + 4 * o.points.length + 4 * i) =
        some (toSingleBits (distance (b.1 - a.1) (b.2 - a.2)))

namespace OutlineTold

variable {o : Outline} {bytes : Bytes}

end OutlineTold

namespace Outline

variable {o : Outline} {name : String} {bytes : Bytes}

/-- A count fits its byte. -/
theorem slot?_count {offset count : Nat} (hcount : count ≤ 255)
    (h : bytes.HasAt offset (Field.byte (UInt8.ofNat count)).written) :
    bytes.slot? offset 1 = some count := by
  have hbyte : bytes[offset]? = some (UInt8.ofNat count) := Bytes.HasAt.byte? h
  rw [Bytes.slot?, hbyte, Option.map_some, UInt8.toNat_ofNat_of_lt' (Nat.lt_succ_of_le hcount)]

/-- The place of the points does not depend on how many there are, and that of the lengths does. -/
theorem told_of_encode {pixels : List (UInt16 × UInt16)} (hpoints : o.points.length ≤ 255)
    (hpixels : List.Forall₂ IsPixel o.points pixels)
    (h : Record.encode (40 + 4 * o.points.length + 4 * o.segmentLengths.length)
      (o.fields name pixels) = .ok bytes) : OutlineTold o bytes := by
  have hlengths := o.length_segmentLengths
  have hle := o.kind.segmentsAmong_le o.points.length
  have hsize := Record.size_of_encode h
  have hfields := Record.hasFields_of_encode h
  rw [fields, Bytes.hasFields_append, Bytes.hasFields_append, widthOf_append,
    widthOf_flatMap 4 (fun _ _ => rfl), ← hpixels.length_eq] at hfields
  obtain ⟨⟨hheader, hpixelFields⟩, hlengthFields⟩ := hfields
  obtain ⟨-, -, hkind, -, hpointCount, -, hsegmentCount, -, -, -, htotal, -⟩ := hheader
  exact {
    size := by rw [hsize, paddedLength_of_dvd (by omega), hlengths]
    kind := Bytes.HasAt.byte? hkind
    pointCount := slot?_count hpoints hpointCount
    segmentCount := by
      rw [← hlengths]
      exact slot?_count (by omega) hsegmentCount
    totalLength := Bytes.HasAt.long? htotal
    points := fun k point hpoint => by
      obtain ⟨pixel, hpixel, hx, hy⟩ := forall₂_getElem? hpixels hpoint
      obtain ⟨hatX, -, hatY, -⟩ := hpixelFields.item 4 (fun _ _ => rfl) hpixel
      have hwordX : bytes.word? (40 + 4 * k) = some pixel.1 := Bytes.HasAt.word? hatX
      have hwordY : bytes.word? (40 + 4 * k + 2) = some pixel.2 := Bytes.HasAt.word? hatY
      rw [Nat.add_right_comm] at hwordY
      exact ⟨pixel.1.toNat, pixel.2.toNat, hx, hy, congrArg (Option.map UInt16.toNat) hwordX,
        congrArg (Option.map UInt16.toNat) hwordY⟩
    segments := fun i hi => by
      obtain ⟨a, b, ha, hb, hab⟩ := exists_segment hi
      have hlength : o.segmentLengths[i]? = some (segmentLength (a, b)) := by
        rw [segmentLengths, List.getElem?_map, hab, Option.map_some]
      obtain ⟨hat, -⟩ := hlengthFields.item 4 (fun _ _ => rfl) hlength
      have hlong := Bytes.HasAt.long? hat
      rw [Nat.zero_add] at hlong
      exact ⟨a, b, ha, hb, hlong⟩ }

/-- The three ways in which the record of an outline comes out. -/
theorem encode_cases (name : String) (o : Outline) :
    (255 < o.points.length ∧
        o.encode name = .error (.error (.tooManyPoints name o.points.length))) ∨
      (o.points.length ≤ 255 ∧ (¬∀ point ∈ o.points, OnMap point) ∧
        ∃ c, FirstMisfit c (coordinates name o.points) ∧ o.encode name = .error (misfit c)) ∨
      (o.points.length ≤ 255 ∧ (∀ point ∈ o.points, OnMap point) ∧
        ∃ bytes, o.encode name = .ok bytes ∧ OutlineTold o bytes) := by
  by_cases hpoints : o.points.length ≤ 255
  · right
    rw [encode_eq hpoints]
    obtain ⟨hall, pixels, hpixels, hforall⟩ | ⟨hsome, c, hc, herror⟩ := pixels_cases name o.points
    · obtain ⟨bytes, hbytes⟩ := encode_fields name hpoints hforall.length_eq.symm
      refine .inr ⟨hpoints, hall, bytes, ?_, told_of_encode hpoints hforall hbytes⟩
      rw [hpixels]
      exact hbytes
    · refine .inl ⟨hpoints, hsome, c, hc, ?_⟩
      rw [herror]
      rfl
  · exact .inl ⟨Nat.not_le.1 hpoints, encode_of_many (Nat.not_le.1 hpoints)⟩

end Outline

/-! ## The main result -/

end GameBundle
