import GameBundle.Proofs.Build.Looks

set_option autoImplicit false

/-! # References to tiles in records

An entity type has a tile for each direction of each of its animations, and a portrait has one for
each emote. A record refers to a tile in four bytes: a word, a source, and how the tile is turned.
The source says what the word is, an animation if it is zero, and else a tile of the tileset that is
one less. How many animations or emotes there are is all that is stored besides, so a reader comes
to a tile by counting those before it. What `Bytes.shown?` reads there is the tile that was meant,
and nothing is stored whose tile does not fit. -/

namespace GameBundle

variable {input : Input} {bytes : Bytes} {tileset : Tileset} {view : TileView} {context : String}

/-! ## What a reference says -/

/-- An animation, or a tile of a tileset. -/
inductive TileReference
  | animation (index : Nat)
  | tile (tileset id : Nat)
  deriving DecidableEq, Repr

/-- What is shown, and how it is turned. -/
structure ShownTile where
  reference : TileReference
  flipX : Bool
  flipY : Bool
  flipDiagonal : Bool
  deriving DecidableEq, Repr

/-- The reference at a place. -/
def Bytes.shown? (bytes : Bytes) (start : Nat) : Option ShownTile := do
  let id ← bytes.word? start
  let source ← bytes[start + 2]?
  let flips ← bytes[start + 3]?
  if flips.toNat < 8 then
    some {
      reference := if source = 0 then .animation id.toNat else .tile (source.toNat - 1) id.toNat
      flipX := flips.toNat.testBit 2
      flipY := flips.toNat.testBit 1
      flipDiagonal := flips.toNat.testBit 0 }
  else none

/-- What a view of a tileset shows: the animation of its tile, or the tile itself if it has none. -/
def Tileset.shows (tileset : Tileset) (view : TileView) : ShownTile where
  reference := match tileset.animation? view.tileId with
    | some animation => .animation animation.toNat
    | none => .tile tileset.index.toNat view.tileId.toNat
  flipX := view.flipX
  flipY := view.flipY
  flipDiagonal := view.flipDiagonal

/-- There is room for the tile of a view and for its tileset, unless the tile is animated. -/
def Tileset.CanShow (tileset : Tileset) (view : TileView) : Prop :=
  tileset.animation? view.tileId = none →
    view.tileId.toNat ≤ 65535 ∧ tileset.index.toNat ≤ 254

theorem renderFlags_bits : ∀ x y d : Bool, (renderFlags x y d).toNat < 8 ∧
    (renderFlags x y d).toNat.testBit 2 = x ∧ (renderFlags x y d).toNat.testBit 1 = y ∧
      (renderFlags x y d).toNat.testBit 0 = d := by decide

/-- **A reference is read back.** -/
theorem shown?_of_fields {start : Nat}
    (h : bytes.HasFields start (directionFields tileset view context)) :
    bytes.shown? start = some (tileset.shows view) := by
  obtain ⟨id, source, hid, hsource, hflips, href⟩ := directionFields_spec h
  obtain ⟨hlt, hx, hy, hdiagonal⟩ := renderFlags_bits view.flipX view.flipY view.flipDiagonal
  have hreference : (if source = 0 then TileReference.animation id.toNat
      else .tile (source.toNat - 1) id.toNat) = (tileset.shows view).reference := by
    unfold RefersTo at href
    unfold Tileset.shows
    cases hanimation : tileset.animation? view.tileId with
    | some animation =>
      rw [hanimation] at href
      obtain ⟨rfl, rfl⟩ := href
      exact if_pos rfl
    | none =>
      rw [hanimation] at href
      obtain ⟨htile, hindex⟩ := href
      have hne : source ≠ 0 := by
        rintro rfl
        cases hindex
      rw [if_neg hne, hindex, htile]
      rfl
  unfold Bytes.shown?
  rw [hid, hsource, hflips]
  simp only [Option.bind_eq_bind, Option.bind_some, TileView.renderFlags, hreference, hx, hy,
    hdiagonal]
  exact if_pos hlt

theorem fits_directionFields :
    (∀ field ∈ directionFields tileset view context, field.Fits) ↔ tileset.CanShow view := by
  unfold directionFields Tileset.CanShow
  cases tileset.animation? view.tileId with
  | some animation =>
    have hword : animation.toNat ≤ maxForWidth 2 := Nat.le_of_lt_succ animation.toNat_lt
    refine iff_of_true ?_ fun hnone => by cases hnone
    simp only [List.forall_mem_cons, Field.Fits, hword, true_and]
    exact ⟨Nat.zero_le _, fun _ h => by cases h⟩
  | none =>
    simp only [List.forall_mem_cons, Field.Fits, true_and, forall_const]
    constructor
    · exact fun h => ⟨h.1, Nat.le_of_succ_le_succ h.2.1⟩
    · exact fun h => ⟨h.1, Nat.succ_le_succ h.2, fun _ hmem => by cases hmem⟩

theorem exists_byteOf_iff {value : Nat} :
    (∃ byte, byteOf context value = .ok byte) ↔ value ≤ 255 := by
  constructor
  · rintro ⟨byte, hbyte⟩
    rw [← byteOf_eq_ok hbyte]
    exact Nat.le_of_lt_succ byte.toNat_lt
  · exact fun hle => ⟨UInt8.ofNat value, if_pos (Nat.lt_succ_of_le hle)⟩

/-! ## Entity types -/

/-- Animations can be counted, and each has a tile that can be shown for every direction. -/
structure EntityTypeDef.Showable (looks : EntityTypeDef) (tileset : Tileset) : Prop where
  few : looks.animations.size ≤ 255
  directions : ∀ animation ∈ looks.animations.entries, animation.2.length = directionCount
  views : ∀ animation ∈ looks.animations.entries, ∀ view ∈ animation.2, tileset.CanShow view

/-- What the record of an entity type says about its animations. -/
structure TypeTold (tileset : Tileset) (looks : EntityTypeDef) (bytes : Bytes) : Prop where
  size : bytes.size = 36 + 16 * looks.animations.size
  count : bytes.slot? 35 1 = some looks.animations.size
  /-- The view of a direction is behind those of the earlier animations, which are four each. -/
  views : ∀ (k d : Nat) name views view, looks.animations.entries[k]? = some (name, views) →
    views[d]? = some view → bytes.shown? (36 + 16 * k + 4 * d) = some (tileset.shows view)

section Types

variable {portraits : Ordered UInt16} {name : String} {looks : EntityTypeDef}

theorem fits_viewFields {animations : List (String × List TileView)} :
    (∀ field ∈ animations.flatMap (viewFields tileset context), field.Fits) ↔
      ∀ animation ∈ animations, ∀ view ∈ animation.2, tileset.CanShow view := by
  rw [List.forall_mem_flatMap]
  refine forall₂_congr fun animation _ => ?_
  have hviews : animation.2.zipIdx.map Prod.fst = animation.2 := List.zipIdx_map_fst _ _
  rw [viewFields, List.forall_mem_flatMap, ← hviews, List.forall_mem_map]
  simp only [fits_directionFields, hviews]

/-- **An entity type is encoded exactly if its portrait can be named and its animations can be
    shown.** -/
theorem encodeEntityType_accepts :
    (∃ bytes, encodeEntityType portraits name looks tileset = .ok bytes) ↔
      (∃ byte, portraitByte portraits name looks s!"entity type \"{name}\"" = .ok byte) ∧
        looks.Showable tileset := by
  constructor
  · rintro ⟨bytes, h⟩
    obtain ⟨portrait, count, hportrait, hcount, hviews, hencode⟩ := encodeEntityType_eq_ok.1 h
    have hfits := fits_viewFields.1 (Record.hasFields_of_encode hencode).right.fits
    exact ⟨⟨portrait, hportrait⟩, exists_byteOf_iff.1 ⟨count, hcount⟩, hviews, hfits⟩
  · rintro ⟨⟨portrait, hportrait⟩, hfew, hviews, hall⟩
    obtain ⟨count, hcount⟩ := exists_byteOf_iff.2 hfew
    have hwidth : widthOf ([.chars name 32, .gap 2, .byte portrait, .byte count] ++
        looks.animations.entries.flatMap (viewFields tileset s!"entity type \"{name}\"")) =
          36 + looks.animations.size * directionCount * 4 := by
      rw [widthOf_append, widthOf_flatMap 16 fun animation hanimation => by
        rw [widthOf_viewFields, hviews animation hanimation]
        rfl]
      change 36 + 16 * looks.animations.size = _
      rw [directionCount]
      omega
    refine ⟨_, encodeEntityType_eq_ok.2 ⟨portrait, count, hportrait, hcount, hviews,
      Record.encode_full hwidth (by omega) ?_ ?_⟩⟩
    · have hword : 36 + 16 * 255 < wordLimit := by decide
      rw [directionCount]
      omega
    · rw [List.forall_mem_append]
      exact ⟨by simp [Field.Fits], fits_viewFields.2 hall⟩

theorem encodeEntityType_told (h : encodeEntityType portraits name looks tileset = .ok bytes) :
    TypeTold tileset looks bytes := by
  obtain ⟨portrait, count, -, hcount, hviews, hencode⟩ := encodeEntityType_eq_ok.1 h
  obtain ⟨⟨-, -, -, -, -, -, hbyte, -⟩, hfields⟩ :=
    Bytes.hasFields_append.1 (Record.hasFields_of_encode hencode)
  exact {
    size := by
      rw [Record.size_of_encode hencode, paddedLength_of_dvd (by omega), directionCount]
      omega
    count := by
      have hread : bytes[35]? = some count := hbyte.byte?
      rw [Bytes.slot?, hread, Option.map_some, byteOf_eq_ok hcount]
    views := fun k d animation views view hk hd =>
      shown?_of_fields (hasFields_view hviews hfields hk hd) }

end Types

/-! ## Portraits -/

/-- Emotes can be counted, and each has a tile that can be shown. -/
structure PortraitDef.Showable (portrait : PortraitDef) (tileset : Tileset) : Prop where
  few : portrait.emotes.size ≤ 255
  views : ∀ emote ∈ portrait.emotes.entries, tileset.CanShow emote.2

/-- What the record of a portrait says about its emotes. -/
structure PortraitTold (tileset : Tileset) (portrait : PortraitDef) (bytes : Bytes) : Prop where
  size : bytes.size = 36 + 4 * portrait.emotes.size
  count : bytes.slot? 35 1 = some portrait.emotes.size
  emotes : ∀ (i : Nat) emote view, portrait.emotes.entries[i]? = some (emote, view) →
    bytes.shown? (36 + 4 * i) = some (tileset.shows view)

section Portraits

variable {name : String} {portrait : PortraitDef}

/-- **A portrait is encoded exactly if its emotes can be shown.** -/
theorem encodePortrait_accepts :
    (∃ bytes, encodePortrait name portrait tileset = .ok bytes) ↔ portrait.Showable tileset := by
  constructor
  · rintro ⟨bytes, h⟩
    obtain ⟨count, hcount, hencode⟩ := encodePortrait_eq_ok.1 h
    have hfits := (Record.hasFields_of_encode hencode).right.fits
    rw [List.forall_mem_flatMap] at hfits
    exact ⟨exists_byteOf_iff.1 ⟨count, hcount⟩, fun emote hemote =>
      fits_directionFields.1 (hfits emote hemote)⟩
  · rintro ⟨hfew, hall⟩
    obtain ⟨count, hcount⟩ := exists_byteOf_iff.2 hfew
    have hwidth : widthOf ([.chars name 32, .gap 3, .byte count] ++
        portrait.emotes.entries.flatMap (emoteFields tileset s!"portrait \"{name}\"")) =
          36 + 4 * portrait.emotes.size := by
      rw [widthOf_append, widthOf_flatMap 4 fun _ _ => widthOf_emoteFields _]
      rfl
    refine ⟨_, encodePortrait_eq_ok.2 ⟨count, hcount,
      Record.encode_full hwidth (by omega) ?_ ?_⟩⟩
    · have hword : 36 + 4 * 255 < wordLimit := by decide
      omega
    · rw [List.forall_mem_append, List.forall_mem_flatMap]
      exact ⟨by simp [Field.Fits], fun emote hemote => fits_directionFields.2 (hall emote hemote)⟩

theorem encodePortrait_told (h : encodePortrait name portrait tileset = .ok bytes) :
    PortraitTold tileset portrait bytes := by
  obtain ⟨count, hcount, hencode⟩ := encodePortrait_eq_ok.1 h
  obtain ⟨⟨-, -, -, -, hbyte, -⟩, hfields⟩ :=
    Bytes.hasFields_append.1 (Record.hasFields_of_encode hencode)
  exact {
    size := by rw [Record.size_of_encode hencode, paddedLength_of_dvd (by omega)]
    count := by
      have hread : bytes[35]? = some count := hbyte.byte?
      rw [Bytes.slot?, hread, Option.map_some, byteOf_eq_ok hcount]
    emotes := fun i emote view hi => by
      have hview := hfields.item 4 (fun _ _ => widthOf_emoteFields _) hi
      exact shown?_of_fields hview }

end Portraits

/-! ## The main result -/

/-- Which entity types are encoded with a tileset, and what their records say. -/
structure TypeEncodes (portraits : Ordered UInt16) (name : String) (looks : EntityTypeDef)
    (tileset : Tileset) : Prop where
  accepts : (∃ bytes, encodeEntityType portraits name looks tileset = .ok bytes) ↔
    (∃ byte, portraitByte portraits name looks s!"entity type \"{name}\"" = .ok byte) ∧
      looks.Showable tileset
  told : ∀ bytes, encodeEntityType portraits name looks tileset = .ok bytes →
    TypeTold tileset looks bytes

/-- The same for portraits. -/
structure PortraitEncodes (name : String) (portrait : PortraitDef) (tileset : Tileset) : Prop where
  accepts : (∃ bytes, encodePortrait name portrait tileset = .ok bytes) ↔ portrait.Showable tileset
  told : ∀ bytes, encodePortrait name portrait tileset = .ok bytes →
    PortraitTold tileset portrait bytes

/-- What the records of a build say about tiles. The tileset of a definition is the one that a load
    of its path finds. -/
structure TilesTold (input : Input) (p : Project) (tables : Tables) : Prop where
  types : ∀ (i : Nat) name looks, input.definitions.entityTypes.entries[i]? = some (name, looks) →
    ∃ tileset bytes, Yields (loadTileset input looks.tileset) p tileset p ∧
      (tables.records .entityTypes)[i]? = some ⟨name, some bytes⟩ ∧
      looks.Showable tileset ∧ TypeTold tileset looks bytes
  portraits : ∀ (i : Nat) name portrait,
    input.definitions.portraits.entries[i]? = some (name, portrait) →
      ∃ tileset bytes, Yields (loadTileset input portrait.tileset) p tileset p ∧
        (tables.records .portraits)[i]? = some ⟨name, some bytes⟩ ∧
        portrait.Showable tileset ∧ PortraitTold tileset portrait bytes

theorem LooksEncoded.tilesTold {p : Project} {tables : Tables} (h : LooksEncoded input p)
    (hrecords : ∀ kind ∈ lookKinds, tables.records kind = p.tables.records kind) :
    TilesTold input p tables where
  types i name looks hi := by
    obtain ⟨tileset, bytes, hfound, hencode, hrecord⟩ := h.types i name looks hi
    rw [← hrecords _ (by decide)] at hrecord
    exact ⟨tileset, bytes, loadTileset_known hfound, hrecord,
      (encodeEntityType_accepts.1 ⟨bytes, hencode⟩).2, encodeEntityType_told hencode⟩
  portraits i name portrait hi := by
    obtain ⟨tileset, bytes, hfound, hencode, hrecord⟩ := h.portraits i name portrait hi
    rw [← hrecords _ (by decide)] at hrecord
    exact ⟨tileset, bytes, loadTileset_known hfound, hrecord,
      encodePortrait_accepts.1 ⟨bytes, hencode⟩, encodePortrait_told hencode⟩

/-- **Tiles are read back from the records of entity types and portraits**, and nothing is stored
    whose tiles cannot be shown. -/
theorem tiles_read_back (input : Input) :
    (∀ portraits name looks tileset, TypeEncodes portraits name looks tileset) ∧
      (∀ name portrait tileset, PortraitEncodes name portrait tileset) ∧
      (∀ p, Yields (buildShared input) {} () p → TilesTold input p p.tables) ∧
      ∀ tables, build input = .ok tables →
        ∃ p, Yields (buildShared input) {} () p ∧ TilesTold input p tables := by
  refine ⟨fun portraits name looks tileset => ?_, fun name portrait tileset => ?_,
    fun p hshared => ?_, fun tables hbuild => ?_⟩
  · exact ⟨encodeEntityType_accepts, fun bytes hencode => encodeEntityType_told hencode⟩
  · exact ⟨encodePortrait_accepts, fun bytes hencode => encodePortrait_told hencode⟩
  · exact (buildShared_encoded hshared).tilesTold fun _ _ => rfl
  · obtain ⟨p, hshared, hrecords⟩ := lookRecords_of_build hbuild
    exact ⟨p, hshared, (buildShared_encoded hshared).tilesTold hrecords⟩

/-! ## An example -/

/-- Four tiles in a row. The third one is animated. -/
def actorFile : String :=
  "\x7b\"tilewidth\":1,\"tileheight\":1,\"tilecount\":4,\"columns\":4,\"image\":\"actor.png\"," ++
    "\"imagewidth\":4,\"imageheight\":1,\"tiles\":[\x7b\"id\":2,\"animation\":[" ++
    "\x7b\"tileid\":2,\"duration\":9\x7d,\x7b\"tileid\":3,\"duration\":9\x7d]\x7d]\x7d"

/-- An actor who stands still, turned around for the second direction. -/
def actor (idle : List TileView) : EntityTypeDef := ⟨"actor.json", .ofList [("idle", idle)], none⟩

def actorViews : List TileView :=
  [⟨0, false, false, false⟩, ⟨1, true, false, false⟩, ⟨2, false, false, false⟩,
    ⟨1, false, false, false⟩]

/-- The actor has a portrait with a smile. -/
def stage : Input where
  source := .inMemory .none (.ofList [("actor.json", actorFile.toUTF8)])
    (.ofList [("actor.png", ⟨4, 1, 3, Array.replicate 12 0⟩)])
  definitions := {
    entityTypes := .ofList [("actor", actor actorViews)]
    portraits := .ofList
      [("actor", ⟨"actor.json", .ofList [("smile", ⟨3, false, false, false⟩)]⟩)] }

/-- What is read of the stage. -/
def stageShown (tables : Tables) : Option (List (Option ShownTile)) := do
  let type ← (tables.records .entityTypes)[0]?
  let portrait ← (tables.records .portraits)[0]?
  let views ← type.bytes
  let emotes ← portrait.bytes
  return [views.shown? 36, views.shown? 40, views.shown? 44, views.shown? 48, emotes.shown? 36]

/-- The actor is told by the records, and would not be stored with three directions. -/
theorem stage_reads_back : ∃ tables p, build stage = .ok tables ∧ TilesTold stage p tables ∧
    stageShown tables = some [
      some ⟨.tile 0 0, false, false, false⟩, some ⟨.tile 0 1, true, false, false⟩,
      some ⟨.animation 0, false, false, false⟩, some ⟨.tile 0 1, false, false, false⟩,
      some ⟨.tile 0 3, false, false, false⟩] ∧
    ¬∃ bytes, encodeEntityType ∅ "actor" (actor (actorViews.take 3)) default = .ok bytes := by
  have hshown : (build stage).toOption.bind stageShown = some [
      some ⟨.tile 0 0, false, false, false⟩, some ⟨.tile 0 1, true, false, false⟩,
      some ⟨.animation 0, false, false, false⟩, some ⟨.tile 0 1, false, false, false⟩,
      some ⟨.tile 0 3, false, false, false⟩] := by decide +kernel
  obtain ⟨tables, htables, hread⟩ := Option.bind_eq_some_iff.1 hshown
  have hbuild := eq_ok_of_toOption htables
  obtain ⟨hencodes, -, -, hbuilds⟩ := tiles_read_back stage
  obtain ⟨p, -, htold⟩ := hbuilds tables hbuild
  refine ⟨tables, p, hbuild, htold, hread, fun hthree => ?_⟩
  have hshowable := ((hencodes _ _ _ _).accepts.1 hthree).2
  have hidle : ("idle", actorViews.take 3) ∈ (actor (actorViews.take 3)).animations.entries :=
    List.mem_of_getElem? (i := 0) rfl
  exact absurd (hshowable.directions _ hidle) (by decide)

end GameBundle
