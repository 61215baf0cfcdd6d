import GameBundle.Proofs.Build.Additions
import GameBundle.Proofs.Build.Encoding
import GameBundle.Proofs.Build.Run
import GameBundle.Proofs.Build.Shared
import Mathlib.Data.List.Induction

set_option autoImplicit false

/-! # The pictures of tilesets

However many tilesets use an image, it is stored once, and the pixels of its record are put in the
order of a single tileset: of the first one that gets so far as to ask for the image. The others
find the record under the name of the image and take it as it is.

`LoadOutcome` lists the ways in which a tileset can be loaded or fail. From it follows what a
sequence of loads leaves: `Pictured` says of every image which load has claimed its record. -/

namespace GameBundle

open Tiled (TilesetFile)

variable {input : Input} {p q r : Project}

/-! ## Pictures -/

/-- How a tileset cuts its image. -/
def layoutOf (file : TilesetFile) : TileLayout :=
  ⟨file.tileWidth.toNat, file.tileHeight.toNat, file.columns.toNat⟩

/-- The name of the image of a tileset, which is what its record is known by. -/
def imageOf (file : TilesetFile) : String := Text.baseName file.image

/-- The record of an image cut by a layout, and the record of its palette. -/
def makePicture (input : Input) (image : String) (layout : TileLayout) :
    Except Failure (Bytes × Bytes) := do
  let raster ← input.source.image image
  let picture ← quantize raster layout image
  let colors ← encodePalette image picture.palette.toList
  return (Bytes.pad picture.pixels, colors)

/-- A picture is made one step after the other, and only then stored. -/
theorem makePicture_bind {α : Type} (image : String) (layout : TileLayout)
    (f : Bytes → Bytes → Step Project α) :
    (do
      let raster ← (input.source.image image : Except Failure Raster)
      let picture ← quantize raster layout image
      let colors ← encodePalette image picture.palette.toList
      f (Bytes.pad picture.pixels) colors : Step Project α) =
    (do
      let (pixels, colors) ← makePicture input image layout
      f pixels colors : Step Project α) := by
  rw [makePicture, except_bind_bind]
  refine congrArg _ (funext fun raster => ?_)
  rw [except_bind_bind]
  refine congrArg _ (funext fun picture => ?_)
  rw [except_bind_bind]
  rfl

/-- The records of an image and its palette, which have the same index, are those of the image cut
    by the layout. They have no bytes if it cannot be cut that way. -/
def PictureStored (input : Input) (tables : Tables) (image : String) (index : UInt16)
    (layout : TileLayout) : Prop :=
  let made := (makePicture input image layout).toOption
  (tables.records .images)[index.toNat]? = some ⟨image, made.map Prod.fst⟩ ∧
    (tables.records .palettes)[index.toNat]? = some ⟨image, made.map Prod.snd⟩

theorem PictureStored.mono {tables later : Tables} {image : String} {index : UInt16}
    {layout : TileLayout} (hkept : tables.Kept later)
    (h : PictureStored input tables image index layout) :
    PictureStored input later image index layout :=
  ⟨hkept _ _ _ h.1, hkept _ _ _ h.2⟩

/-! ## Asking for an image -/

/-- The kinds of the records of an image. -/
def pictureKinds : List Kind := [.images, .palettes]

/-- Nothing that has to do with images is different. -/
structure SameImages (p q : Project) : Prop where
  images : q.images = p.images
  tilesets : q.tilesets = p.tilesets
  records : ∀ kind ∈ pictureKinds, q.tables.records kind = p.tables.records kind

/-- As many images as palettes: so their next records have the same index. -/
def Paired (p : Project) : Prop := p.tables.count .palettes = p.tables.count .images

theorem change_sameImages : Change (fun _ => True) SameImages where
  refl _ := ⟨rfl, rfl, fun _ _ => rfl⟩
  trans _ _ _ hst htu := ⟨htu.images.trans hst.images, htu.tilesets.trans hst.tilesets,
    fun kind hkind => (htu.records kind hkind).trans (hst.records kind hkind)⟩
  keeps _ _ _ _ := trivial

namespace SameImages

theorem refl (p : Project) : SameImages p p := change_sameImages.refl p

theorem trans (hpq : SameImages p q) (hqr : SameImages q r) : SameImages p r :=
  change_sameImages.trans _ _ _ hpq hqr

theorem add {kind : Kind} (h : kind ∉ pictureKinds) (p : Project) (record : Record) :
    SameImages p (p.add kind record) :=
  ⟨rfl, rfl, fun _ hother => Tables.records_add_of_ne record fun heq => h (heq ▸ hother)⟩

theorem fill {kind : Kind} (h : kind ∉ pictureKinds) (p : Project) (i : Nat) (bytes : Bytes) :
    SameImages p (p.fill kind i bytes) :=
  ⟨rfl, rfl, fun _ hother => Tables.records_set_of_ne fun heq => h (heq ▸ hother)⟩

theorem count (h : SameImages p q) {kind : Kind} (hkind : kind ∈ pictureKinds) :
    q.tables.count kind = p.tables.count kind := by
  rw [Tables.count, h.records kind hkind, Tables.count]

theorem next (h : SameImages p q) : q.next .images = p.next .images := by
  rw [Project.next, h.count (by decide), Project.next]

theorem paired (h : SameImages p q) (hp : Paired p) : Paired q := by
  rw [Paired, h.count (by decide), h.count (by decide), hp]

theorem stored (h : SameImages p q) {image : String} {index : UInt16} {layout : TileLayout}
    (hstored : PictureStored input p.tables image index layout) :
    PictureStored input q.tables image index layout := by
  rw [PictureStored, h.records .images (by decide), h.records .palettes (by decide)]
  exact hstored

end SameImages

theorem push_sameImages {kind : Kind} {name : String} {bytes : Bytes} (h : kind ∉ pictureKinds) :
    Alike (fun _ => True) SameImages (onTables (Tables.push kind name bytes))
      (onTables (Tables.push kind name bytes)) := by
  intro p _
  refine ⟨rfl, Tables.atomic_push.onTables.moves (.refl p) ?_⟩
  intro index q hq
  obtain ⟨_, htables, rfl⟩ := yields_onTables.1 hq
  obtain ⟨-, -, rfl⟩ := Tables.yields_push.1 htables
  exact .add h p _

theorem loadTiles_sameImages (file : TilesetFile) (tileset : UInt16) (context : String) :
    Moves SameImages (file.tiles.mapM fun tile => do
      return (tile.id, ← loadTile file tileset context tile)) p := by
  have hpush : ∀ kind ∈ [Kind.geometry, .animations], ∀ name bytes, Alike (fun _ => True) SameImages
      (onTables (Tables.push kind name bytes)) (onTables (Tables.push kind name bytes)) :=
    fun kind hkind _ _ => push_sameImages (by revert kind; decide)
  exact (loadTiles_alike change_sameImages hpush file tileset context p trivial).2

/-- The image is new, and its record and that of its palette are claimed for a layout. -/
structure ClaimsImage (input : Input) (image : String) (layout : TileLayout) (p q : Project) :
    Prop where
  new : p.images.find? image = none
  images : q.images = p.images.put image (p.next .images)
  tilesets : q.tilesets = p.tilesets
  counts : ∀ kind ∈ pictureKinds, q.tables.count kind = p.tables.count kind + 1
  stored : PictureStored input q.tables image (p.next .images) layout

namespace ClaimsImage

variable {image : String} {layout : TileLayout}

theorem after (hpq : SameImages p q) (h : ClaimsImage input image layout q r) :
    ClaimsImage input image layout p r where
  new := by rw [← hpq.images, h.new]
  images := by rw [h.images, hpq.images, hpq.next]
  tilesets := h.tilesets.trans hpq.tilesets
  counts kind hkind := by rw [h.counts kind hkind, hpq.count hkind]
  stored := hpq.next ▸ h.stored

theorem before (h : ClaimsImage input image layout p q) (hqr : SameImages q r) :
    ClaimsImage input image layout p r where
  new := h.new
  images := hqr.images.trans h.images
  tilesets := hqr.tilesets.trans h.tilesets
  counts kind hkind := by rw [hqr.count hkind, h.counts kind hkind]
  stored := hqr.stored h.stored

end ClaimsImage

/-- The ways in which a request for an image can end. -/
inductive ImageOutcome (input : Input) (image : String) (layout : TileLayout) (p : Project) :
    Except Failure UInt16 × Project → Prop
  | found (index : UInt16) (h : p.images.find? image = some index) :
      ImageOutcome input image layout p (.ok index, p)
  | full (e : Failure) : ImageOutcome input image layout p (.error e, p)
  | claimed (q : Project) (h : ClaimsImage input image layout p q)
      (made : (makePicture input image layout).isOk) :
      ImageOutcome input image layout p (.ok (p.next .images), q)
  | failed (e : Failure) (q : Project) (h : ClaimsImage input image layout p q) :
      ImageOutcome input image layout p (.error e, q)

/-- The project when the records of an image have been claimed. -/
def Project.claimImage (p : Project) (image : String) : Project :=
  { (p.add .images ⟨image, none⟩).add .palettes ⟨image, none⟩ with
    images := p.images.put image (p.next .images) }

/-- The project when they have been filled. -/
def Project.storeImage (p : Project) (image : String) (pixels colors : Bytes) : Project :=
  ((p.claimImage image).fill .palettes (p.tables.count .images) colors).fill .images
    (p.tables.count .images) pixels

section Claimed

variable {image : String} {layout : TileLayout}

theorem Project.toNat_next {kind : Kind} (hroom : p.tables.count kind < UInt16.size) :
    (p.next kind).toNat = p.tables.count kind := UInt16.toNat_ofNat_of_lt' hroom

theorem count_palettes_claimed (hp : Paired p) (image : String) :
    (p.tables.add .images ⟨image, none⟩).count .palettes = p.tables.count .images := by
  rw [Tables.count_add, if_neg (by decide), hp, Nat.add_zero]

/-- Neither record has bytes so far. -/
theorem claimImage_records (hp : Paired p) (image : String) :
    ((p.claimImage image).tables.records .images)[p.tables.count .images]? = some ⟨image, none⟩ ∧
      ((p.claimImage image).tables.records .palettes)[p.tables.count .images]? =
        some ⟨image, none⟩ := by
  change (((p.tables.add _ _).add _ _).records _)[_]? = _ ∧
    (((p.tables.add _ _).add _ _).records _)[_]? = _
  constructor
  · rw [Tables.getElem?_records_add, if_neg (by simp), Tables.getElem?_records_add,
      if_pos ⟨rfl, rfl⟩]
  · rw [Tables.getElem?_records_add, if_pos ⟨rfl, (count_palettes_claimed hp image).symm⟩]

theorem Project.count_claimImage (image : String) {kind : Kind} (hkind : kind ∈ pictureKinds) :
    (p.claimImage image).tables.count kind = p.tables.count kind + 1 := by
  change ((p.tables.add .images ⟨image, none⟩).add .palettes ⟨image, none⟩).count kind = _
  rw [Tables.count_add, Tables.count_add]
  revert kind
  simp [pictureKinds]

theorem claims_claimImage (hp : Paired p) (hroom : p.tables.count .images < UInt16.size)
    (hnew : p.images.find? image = none) {e : Failure}
    (hfail : makePicture input image layout = .error e) :
    ClaimsImage input image layout p (p.claimImage image) where
  new := hnew
  images := rfl
  tilesets := rfl
  counts _ hkind := Project.count_claimImage image hkind
  stored := by
    rw [PictureStored, hfail, Project.toNat_next hroom]
    exact claimImage_records hp image

theorem claims_storeImage (hp : Paired p) (hroom : p.tables.count .images < UInt16.size)
    (hnew : p.images.find? image = none) {pixels colors : Bytes}
    (hmade : makePicture input image layout = .ok (pixels, colors)) :
    ClaimsImage input image layout p (p.storeImage image pixels colors) where
  new := hnew
  images := rfl
  tilesets := rfl
  counts kind hkind := by
    rw [← Project.count_claimImage image hkind]
    change (((p.claimImage image).tables.set _ _ _).set _ _ _).count kind = _
    rw [Tables.count_set, Tables.count_set]
  stored := by
    obtain ⟨himage, hpalette⟩ := claimImage_records hp image
    rw [PictureStored, hmade, Project.toNat_next hroom]
    constructor
    · change (((p.claimImage image).tables.set _ _ _).set _ _ _ |>.records _)[_]? = _
      rw [Tables.getElem?_records_set, if_pos rfl, Tables.getElem?_records_set_ne (by simp), himage]
      rfl
    · change (((p.claimImage image).tables.set _ _ _).set _ _ _ |>.records _)[_]? = _
      rw [Tables.getElem?_records_set_ne (by simp), Tables.getElem?_records_set, if_pos rfl,
        hpalette]
      rfl

/-- If there is room for the image, both records are claimed under one index, and the image is
    remembered. -/
theorem yields_claimImage (hp : Paired p) (hroom : p.tables.count .images < UInt16.size)
    (image : String) :
    Yields (onTables (Tables.reserve .images image)) p (p.next .images)
        (p.add .images ⟨image, none⟩) ∧
      Yields (onTables (Tables.reserve .palettes image)) (p.add .images ⟨image, none⟩)
        (p.next .images) ((p.add .images ⟨image, none⟩).add .palettes ⟨image, none⟩) ∧
      Yields (modify fun project =>
          { project with images := project.images.put image (p.next .images) })
        ((p.add .images ⟨image, none⟩).add .palettes ⟨image, none⟩) () (p.claimImage image) := by
  have hcount := count_palettes_claimed hp image
  refine ⟨?_, ?_, yields_modify.2 rfl⟩
  · exact yields_onTables.2 ⟨_, Tables.yields_reserve.2 ⟨hroom, rfl, rfl⟩, rfl⟩
  · refine yields_onTables.2 ⟨_, Tables.yields_reserve.2 ⟨?_, ?_, rfl⟩, rfl⟩
    · exact hcount.trans_lt hroom
    · exact congrArg UInt16.ofNat hcount.symm

/-- Then both are filled, the palette first. -/
theorem yields_storeImage (hp : Paired p) (hroom : p.tables.count .images < UInt16.size)
    (image : String) (pixels colors : Bytes) :
    Yields (onTables (Tables.fill .palettes (p.next .images) colors)) (p.claimImage image) ()
        ((p.claimImage image).fill .palettes (p.tables.count .images) colors) ∧
      Yields (onTables (Tables.fill .images (p.next .images) pixels))
        ((p.claimImage image).fill .palettes (p.tables.count .images) colors) ()
        (p.storeImage image pixels colors) := by
  rw [Project.storeImage, ← Project.toNat_next hroom]
  constructor
  · refine yields_onTables.2 ⟨_, Tables.yields_fill.2 ⟨?_, rfl⟩, rfl⟩
    rw [p.count_claimImage image (by decide), Project.toNat_next hroom, hp]
    exact Nat.lt_succ_self _
  · refine yields_onTables.2 ⟨_, Tables.yields_fill.2 ⟨?_, rfl⟩, rfl⟩
    rw [Project.fill, Tables.count_set, p.count_claimImage image (by decide),
      Project.toNat_next hroom]
    exact Nat.lt_succ_self _

end Claimed

theorem loadImage_outcome (input : Input) (hp : Paired p) (path : String) (layout : TileLayout) :
    ImageOutcome input (Text.baseName path) layout p (outcome (loadImage input path layout) p) := by
  unfold loadImage
  rw [outcome_bind, outcome_get]
  dsimp only
  cases hfind : p.images.find? (Text.baseName path) with
  | some index => exact .found index hfind
  | none =>
    dsimp only
    by_cases hroom : p.tables.count .images < UInt16.size
    · obtain ⟨himage, hpalette, hremember⟩ := yields_claimImage hp hroom (Text.baseName path)
      rw [himage.outcome_bind, hpalette.outcome_bind, hremember.outcome_bind,
        makePicture_bind _ _ fun pixels colors => do
          onTables (Tables.fill .palettes (p.next .images) colors)
          onTables (Tables.fill .images (p.next .images) pixels)
          return p.next .images]
      apply outcome_except_cases
      · intro e herror
        exact .failed e _ (claims_claimImage hp hroom hfind herror)
      · intro ⟨pixels, colors⟩ hmade
        obtain ⟨hfirst, hsecond⟩ := yields_storeImage hp hroom (Text.baseName path) pixels colors
        dsimp only
        rw [hfirst.outcome_bind, hsecond.outcome_bind]
        exact .claimed _ (claims_storeImage hp hroom hfind hmade) (by rw [hmade]; rfl)
    · apply outcome_bind_cases
      · intro e t h
        rw [Tables.atomic_reserve.onTables _ _ _ h]
        exact .full e
      · intro index t h
        obtain ⟨_, htables, -⟩ := yields_onTables.1 h
        exact absurd (Tables.yields_reserve.1 htables).1 hroom

/-- The image of a tileset was there, or it has been claimed, and the tileset can cut it. -/
def Asked (input : Input) (file : TilesetFile) (p q : Project) : Prop :=
  SameImages p q ∨ ClaimsImage input (imageOf file) (layoutOf file) p q ∧
    (makePicture input (imageOf file) (layoutOf file)).isOk

namespace Asked

variable {file : TilesetFile}

theorem after (hpq : SameImages p q) (h : Asked input file q r) : Asked input file p r := by
  rcases h with hsame | ⟨hclaims, hmade⟩
  · exact Or.inl (hpq.trans hsame)
  · exact Or.inr ⟨hclaims.after hpq, hmade⟩

theorem before (h : Asked input file p q) (hqr : SameImages q r) : Asked input file p r := by
  rcases h with hsame | ⟨hclaims, hmade⟩
  · exact Or.inl (hsame.trans hqr)
  · exact Or.inr ⟨hclaims.before hqr, hmade⟩

end Asked

theorem loadImage_asked (hp : Paired p) (file : TilesetFile) {index : UInt16}
    (h : Yields (loadImage input file.image (layoutOf file)) p index q) :
    Asked input file p q ∧ q.images.find? (imageOf file) = some index := by
  have houtcome := loadImage_outcome input hp file.image (layoutOf file)
  rw [show outcome (loadImage input file.image (layoutOf file)) p = (.ok index, q) from h]
    at houtcome
  cases houtcome with
  | found _ hfound => exact ⟨Or.inl (.refl p), hfound⟩
  | claimed _ hclaims hmade =>
    refine ⟨Or.inr ⟨hclaims, hmade⟩, ?_⟩
    rw [hclaims.images, Ordered.find?_put]
    exact if_pos rfl

theorem loadImage_failed (hp : Paired p) (file : TilesetFile) {e : Failure}
    (h : outcome (loadImage input file.image (layoutOf file)) p = (.error e, q)) :
    SameImages p q ∨ ClaimsImage input (imageOf file) (layoutOf file) p q := by
  have houtcome := loadImage_outcome input hp file.image (layoutOf file)
  rw [h] at houtcome
  cases houtcome with
  | full => exact Or.inl (.refl p)
  | failed _ _ hclaims => exact Or.inr hclaims

/-! ## Loading a tileset -/

/-- The image that the record of a tileset names. -/
def ImageWord (tables : Tables) (tileset index : UInt16) : Prop :=
  ∃ name bytes, (tables.records .tilesets)[tileset.toNat]? = some ⟨name, some bytes⟩ ∧
    bytes.word? 16 = some index

theorem ImageWord.mono {tables later : Tables} {tileset index : UInt16}
    (hkept : tables.Kept later) (h : ImageWord tables tileset index) :
    ImageWord later tileset index := by
  obtain ⟨name, bytes, hrecord, hword⟩ := h
  exact ⟨name, bytes, hkept _ _ _ hrecord, hword⟩

/-- The word is in the header, so the outlines of the tiles do not matter. -/
theorem imageWord_set {tables : Tables} {file : TilesetFile} {name context : String}
    {tileset image : UInt16} {header : Bytes} (shapes : Bytes)
    (hhole : tables.Hole .tilesets tileset.toNat)
    (hheader : encodeTilesetHeader file name context image = .ok header) :
    ImageWord (tables.set .tilesets tileset.toNat (header ++ shapes)) tileset image := by
  obtain ⟨old, hrecord⟩ := hhole
  refine ⟨old, header ++ shapes, ?_, ?_⟩
  · rw [Tables.getElem?_records_set, if_pos rfl, hrecord]
    rfl
  · have hfirst : Bytes.HasAt (header ++ shapes) 0 header.toList :=
      Bytes.hasAt_concat_header header [shapes]
    have hword := Bytes.word?_within (encodeTilesetHeader_spec hheader).2 hfirst
    rwa [Nat.zero_add] at hword

/-- The ways in which a tileset can be loaded or fail. -/
inductive LoadOutcome (input : Input) (path : String) (p : Project) :
    Except Failure Tileset × Project → Prop
  /-- It has been loaded before. -/
  | known (tileset : Tileset) (h : p.tilesets.find? (Text.baseName path) = some tileset) :
      LoadOutcome input path p (.ok tileset, p)
  /-- It fails, and has claimed no image. -/
  | refused (e : Failure) (q : Project) (h : SameImages p q) :
      LoadOutcome input path p (.error e, q)
  /-- It has claimed its image, and then it fails. -/
  | failed (e : Failure) (file : TilesetFile) (q : Project)
      (hfile : readJson input.source TilesetFile.decode (Text.baseName path) = .ok file)
      (h : ClaimsImage input (imageOf file) (layoutOf file) p q) :
      LoadOutcome input path p (.error e, q)
  /-- It is loaded and remembered. -/
  | loaded (tileset : Tileset) (file : TilesetFile) (index : UInt16) (q : Project)
      (hfile : readJson input.source TilesetFile.decode (Text.baseName path) = .ok file)
      (h : Asked input file p q) (hindex : q.images.find? (imageOf file) = some index)
      (hword : ImageWord q.tables tileset.index index) :
      LoadOutcome input path p
        (.ok tileset, { q with tilesets := q.tilesets.put (Text.baseName path) tileset })

theorem LoadOutcome.found {path : String} {result : Except Failure Tileset × Project}
    {tileset : Tileset} (h : LoadOutcome input path p result) (hok : result.1 = .ok tileset) :
    result.2.tilesets.find? (Text.baseName path) = some tileset := by
  cases h with
  | known found hfound =>
    cases hok
    exact hfound
  | refused => cases hok
  | failed => cases hok
  | loaded found file index q =>
    cases hok
    rw [Ordered.find?_put, if_pos rfl]

theorem reserveTileset_sameImages {name : String} {number : UInt16}
    (h : Yields (onTables (Tables.reserve .tilesets name)) p number q) :
    SameImages p q ∧ q.tables.Hole .tilesets number.toNat := by
  simp only [yields_onTables, Tables.yields_reserve] at h
  obtain ⟨_, ⟨hroom, rfl, rfl⟩, rfl⟩ := h
  refine ⟨.add (by decide) p ⟨name, none⟩, ?_⟩
  rw [UInt16.toNat_ofNat_of_lt' hroom]
  exact Tables.hole_add _ _ _

theorem fillTileset_sameImages {number : UInt16} {bytes : Bytes}
    (h : Yields (onTables (Tables.fill .tilesets number bytes)) p () q) :
    SameImages p q ∧ q.tables = p.tables.set .tilesets number.toNat bytes := by
  simp only [yields_onTables, Tables.yields_fill] at h
  obtain ⟨_, ⟨-, rfl⟩, rfl⟩ := h
  exact ⟨.fill (by decide) p _ _, rfl⟩

/-- Each way out of the function is one of the four. -/
theorem loadTileset_outcome (input : Input) (hp : Paired p) (path : String) :
    LoadOutcome input path p (outcome (loadTileset input path) p) := by
  unfold loadTileset
  rw [outcome_bind, outcome_get]
  dsimp only
  cases hfind : p.tilesets.find? (Text.baseName path) with
  | some tileset => exact .known tileset hfind
  | none =>
    dsimp only
    apply outcome_except_cases
    · intro e _
      exact .refused e p (.refl p)
    intro file hfile
    rw [liftM_eq_ok] at hfile
    split
    · exact .refused _ p (.refl p)
    -- the record is claimed, and stays so until everything else is there
    apply outcome_bind_cases
    · intro e t h
      rw [Tables.atomic_reserve.onTables _ _ _ h]
      exact .refused e p (.refl p)
    intro number p₁ hreserve
    obtain ⟨hreserved, hhole⟩ := reserveTileset_sameImages hreserve
    apply outcome_bind_cases
    · intro e t h
      exact .refused e t (hreserved.trans ((loadTiles_sameImages _ _ _).of_outcome h))
    intro loaded p₂ hloaded
    have hbefore := hreserved.trans ((loadTiles_sameImages _ _ _).of_yields hloaded)
    apply outcome_bind_cases
    · intro e t h
      rcases loadImage_failed (hbefore.paired hp) file h with hsame | hclaims
      · exact .refused e t (hbefore.trans hsame)
      · exact .failed e file t hfile (hclaims.after hbefore)
    intro image p₃ himage
    obtain ⟨hasked, hindex⟩ := loadImage_asked (hbefore.paired hp) file himage
    have hfails : ∀ e, LoadOutcome input path p (.error e, p₃) := by
      intro e
      rcases hasked.after hbefore with hsame | ⟨hclaims, -⟩
      · exact .refused e p₃ hsame
      · exact .failed e file p₃ hfile hclaims
    apply outcome_except_cases
    · intro e _
      exact hfails e
    intro header hheader
    apply outcome_except_cases
    · intro e _
      exact hfails e
    intro shapes _
    apply outcome_bind_cases
    · intro e t h
      rw [Tables.atomic_fill.onTables _ _ _ h]
      exact hfails e
    intro _ p₄ hfill
    obtain ⟨hfilled, htables⟩ := fillTileset_sameImages hfill
    have hkept : p₁.tables.Kept p₃.tables :=
      ((loadTiles_adds _ _ _ _).kept_of_yields hloaded (.refl _)).trans
        ((loadImage_adds _ _ _).kept_of_yields himage (.refl _))
    have hword := imageWord_set shapes (hkept.hole hhole) hheader
    rw [← htables] at hword
    refine .loaded _ file image p₄ hfile ((hasked.after hbefore).before hfilled) ?_ hword
    rw [hfilled.images, hindex]

/-! ## Loading one tileset after the other -/

/-- The project after some tilesets have been loaded, or could not be loaded, one after the
    other. -/
def afterLoads (input : Input) (p : Project) (paths : List String) : Project :=
  paths.foldl (fun q path => (outcome (loadTileset input path) q).2) p

variable {paths : List String} {path image : String} {index : UInt16} {file first : TilesetFile}

theorem afterLoads_snoc (input : Input) (p : Project) (paths : List String) (path : String) :
    afterLoads input p (paths ++ [path]) =
      (outcome (loadTileset input path) (afterLoads input p paths)).2 := by
  rw [afterLoads, List.foldl_append, List.foldl_cons, List.foldl_nil, afterLoads]

/-- No tileset has been loaded so far. -/
structure NoImages (p : Project) : Prop where
  images : p.images = ∅
  tilesets : p.tilesets = ∅
  paired : Paired p

theorem noImages_empty : NoImages {} := ⟨rfl, rfl, rfl⟩

/-- The load of the tileset `first` has claimed the record of the image: before it the image was not
    known. If the load succeeded, the image can be cut as that tileset says. -/
def FirstAsked (input : Input) (p : Project) (paths : List String) (image : String) (index : UInt16)
    (first : TilesetFile) : Prop :=
  ∃ before path after, paths = before ++ path :: after ∧
    readJson input.source TilesetFile.decode (Text.baseName path) = .ok first ∧
    imageOf first = image ∧ (afterLoads input p before).images.find? image = none ∧
    (afterLoads input p (before ++ [path])).images.find? image = some index ∧
    ((outcome (loadTileset input path) (afterLoads input p before)).1.isOk →
      (makePicture input image (layoutOf first)).isOk)

theorem FirstAsked.snoc (h : FirstAsked input p paths image index first) (path : String) :
    FirstAsked input p (paths ++ [path]) image index first := by
  obtain ⟨before, path', after, rfl, hfirst⟩ := h
  exact ⟨before, path', after ++ [path], by simp, hfirst⟩

/-- What is true of a project after loads from `p` on. -/
structure Pictured (input : Input) (p : Project) (paths : List String) (q : Project) : Prop where
  paired : Paired q
  /-- One of the loads has claimed the image, and it is cut as that one says. -/
  images : ∀ image index, q.images.find? image = some index → ∃ first,
    FirstAsked input p paths image index first ∧
      PictureStored input q.tables image index (layoutOf first)
  /-- A tileset names the record of its image. -/
  tilesets : ∀ name tileset, q.tilesets.find? name = some tileset → ∃ file index,
    readJson input.source TilesetFile.decode name = .ok file ∧
      ImageWord q.tables tileset.index index ∧ q.images.find? (imageOf file) = some index

namespace Pictured

theorem start (hp : NoImages p) : Pictured input p [] p where
  paired := hp.paired
  images image index hfind := by
    rw [hp.images] at hfind
    cases hfind
  tilesets name tileset hfind := by
    rw [hp.tilesets] at hfind
    cases hfind

theorem same (hkept : q.tables.Kept r.tables) (hsame : SameImages q r) (path : String)
    (h : Pictured input p paths q) : Pictured input p (paths ++ [path]) r where
  paired := hsame.paired h.paired
  images image index hfind := by
    rw [hsame.images] at hfind
    obtain ⟨first, hfirst, hstored⟩ := h.images image index hfind
    exact ⟨first, hfirst.snoc path, hstored.mono hkept⟩
  tilesets name tileset hfind := by
    rw [hsame.tilesets] at hfind
    obtain ⟨file, index, hfile, hword, hindex⟩ := h.tilesets name tileset hfind
    exact ⟨file, index, hfile, hword.mono hkept, by rw [hsame.images, hindex]⟩

/-- A new image comes with the load that has claimed it; the others stay what they are. -/
theorem claim (hkept : q.tables.Kept r.tables)
    (hclaims : ClaimsImage input image (layoutOf file) q r)
    (hfirst : FirstAsked input p (paths ++ [path]) image (q.next .images) file)
    (h : Pictured input p paths q) : Pictured input p (paths ++ [path]) r where
  paired := by
    rw [Paired, hclaims.counts .palettes (by decide), hclaims.counts .images (by decide), h.paired]
  images other index hfind := by
    rw [hclaims.images, Ordered.find?_put] at hfind
    split at hfind
    · next heq =>
      subst heq
      obtain rfl := Option.some.inj hfind
      exact ⟨file, hfirst, hclaims.stored⟩
    · obtain ⟨first, hfirst, hstored⟩ := h.images other index hfind
      exact ⟨first, hfirst.snoc path, hstored.mono hkept⟩
  tilesets name tileset hfind := by
    rw [hclaims.tilesets] at hfind
    obtain ⟨other, index, hother, hword, hindex⟩ := h.tilesets name tileset hfind
    refine ⟨other, index, hother, hword.mono hkept, ?_⟩
    rw [hclaims.images, Ordered.find?_put, if_neg, hindex]
    intro heq
    rw [heq, hclaims.new] at hindex
    cases hindex

theorem remember {name : String} {tileset : Tileset}
    (hfile : readJson input.source TilesetFile.decode name = .ok file)
    (hindex : q.images.find? (imageOf file) = some index)
    (hword : ImageWord q.tables tileset.index index) (h : Pictured input p paths q) :
    Pictured input p paths { q with tilesets := q.tilesets.put name tileset } where
  paired := h.paired
  images := h.images
  tilesets other found hfind := by
    rw [Ordered.find?_put] at hfind
    split at hfind
    · next heq =>
      subst heq
      obtain rfl := Option.some.inj hfind
      exact ⟨file, index, hfile, hword, hindex⟩
    · exact h.tilesets other found hfind

end Pictured

/-- The load that claims an image is the first to ask for it. -/
theorem firstAsked_snoc
    (hfile : readJson input.source TilesetFile.decode (Text.baseName path) = .ok file)
    (hclaims : ClaimsImage input (imageOf file) (layoutOf file) (afterLoads input p paths) q)
    (himages : (afterLoads input p (paths ++ [path])).images = q.images)
    (hmade : (outcome (loadTileset input path) (afterLoads input p paths)).1.isOk →
      (makePicture input (imageOf file) (layoutOf file)).isOk) :
    FirstAsked input p (paths ++ [path]) (imageOf file)
      ((afterLoads input p paths).next .images) file := by
  refine ⟨paths, path, [], rfl, hfile, rfl, hclaims.new, ?_, hmade⟩
  rw [himages, hclaims.images, Ordered.find?_put, if_pos rfl]

/-- Every load keeps this up, whether it succeeds or not. -/
theorem pictured_afterLoads (input : Input) (hp : NoImages p) (paths : List String) :
    Pictured input p paths (afterLoads input p paths) := by
  induction paths using List.reverseRecOn with
  | nil => exact .start hp
  | append_singleton paths path ih =>
    have hkept : (afterLoads input p paths).tables.Kept
        (afterLoads input p (paths ++ [path])).tables := by
      rw [afterLoads_snoc]
      exact (loadTileset_adds path _).kept (.refl _)
    have houtcome := loadTileset_outcome input ih.paired path
    have hafter := afterLoads_snoc input p paths path
    generalize hresult : outcome (loadTileset input path) (afterLoads input p paths) = result
      at houtcome hafter
    cases houtcome with
    | known tileset hfound =>
      rw [hafter] at hkept ⊢
      exact ih.same hkept (.refl _) path
    | refused e q hsame =>
      rw [hafter] at hkept ⊢
      exact ih.same hkept hsame path
    | failed e file q hfile hclaims =>
      have hfirst := firstAsked_snoc hfile hclaims (congrArg Project.images hafter)
        fun hok => by simp [hresult, Except.isOk, Except.toBool] at hok
      rw [hafter] at hkept ⊢
      exact ih.claim hkept hclaims hfirst
    | loaded tileset file index q hfile hasked hindex hword =>
      have himages : (afterLoads input p (paths ++ [path])).images = q.images := by rw [hafter]
      have hkept : (afterLoads input p paths).tables.Kept q.tables := by rwa [hafter] at hkept
      have hbefore : Pictured input p (paths ++ [path]) q := by
        rcases hasked with hsame | ⟨hclaims, hmade⟩
        · exact ih.same hkept hsame path
        · exact ih.claim hkept hclaims (firstAsked_snoc hfile hclaims himages fun _ => hmade)
      rw [hafter]
      exact hbefore.remember hfile hindex hword

/-! ## What a tileset sees -/

/-- Every record there is stays as it is when more tilesets are loaded. -/
theorem afterLoads_kept (input : Input) (p : Project) (before after : List String) :
    (afterLoads input p before).tables.Kept (afterLoads input p (before ++ after)).tables := by
  induction after using List.reverseRecOn with
  | nil =>
    rw [List.append_nil]
    exact .refl _
  | append_singleton after path ih =>
    rw [← List.append_assoc, afterLoads_snoc]
    exact ih.trans ((loadTileset_adds path _).kept (.refl _))

/-- **A tileset sees its image as the first tileset cuts it that asked for the image.** That is how
    it cuts the image itself if all tilesets that use it so far have one layout. -/
theorem images_cut_for_first (hp : NoImages p) (before : List String) (path : String)
    (after : List String) {tileset : Tileset}
    (h : (outcome (loadTileset input path) (afterLoads input p before)).1 = .ok tileset) :
    ∃ file index first,
      readJson input.source TilesetFile.decode (Text.baseName path) = .ok file ∧
      ImageWord (afterLoads input p (before ++ path :: after)).tables tileset.index index ∧
      FirstAsked input p (before ++ [path]) (imageOf file) index first ∧
      PictureStored input (afterLoads input p (before ++ path :: after)).tables (imageOf file) index
        (layoutOf first) ∧
      ((∀ other ∈ before ++ [path], ∀ shared : TilesetFile,
          readJson input.source TilesetFile.decode (Text.baseName other) = .ok shared →
          imageOf shared = imageOf file → layoutOf shared = layoutOf file) →
        PictureStored input (afterLoads input p (before ++ path :: after)).tables (imageOf file)
          index (layoutOf file)) := by
  have hpictured := pictured_afterLoads input hp (before ++ [path])
  have hfound : (afterLoads input p (before ++ [path])).tilesets.find? (Text.baseName path) =
      some tileset := by
    have houtcome := loadTileset_outcome input
      (pictured_afterLoads input hp before).paired path
    rw [afterLoads_snoc]
    exact houtcome.found h
  obtain ⟨file, index, hfile, hword, hindex⟩ := hpictured.tilesets _ _ hfound
  obtain ⟨first, hfirst, hstored⟩ := hpictured.images _ _ hindex
  have hkept := afterLoads_kept input p (before ++ [path]) after
  rw [List.append_assoc, List.singleton_append] at hkept
  refine ⟨file, index, first, hfile, hword.mono hkept, hfirst, hstored.mono hkept, ?_⟩
  intro hshared
  obtain ⟨earlier, other, later, hpaths, hother, himage, -⟩ := hfirst
  have hlayout := hshared other (by rw [hpaths]; simp) first hother himage
  rw [← hlayout]
  exact hstored.mono hkept

/-! ## An example -/

/-- The file of a tileset of trees, whose tiles are one pixel wide. -/
def treesFile (tileHeight tileCount : String) : String :=
  "\x7b\"tilewidth\": 1, \"tileheight\": " ++ tileHeight ++ ", \"tilecount\": " ++ tileCount ++
    ", \"columns\": 2, \"image\": \"trees.png\", \"imagewidth\": 2, \"imageheight\": 2\x7d"

/-- Two tilesets with one image, which has a black row and a green one. The tiles of the second are
    two pixels high. -/
def orchard : Input where
  source := .inMemory .none
    (.ofList [("small.json", (treesFile "1" "4").toUTF8),
      ("tall.json", (treesFile "2" "2").toUTF8)])
    (.ofList [("trees.png", ⟨2, 2, 3, #[0, 0, 0, 0, 0, 0, 0, 255, 0, 0, 255, 0]⟩)])
  definitions := {}

/-- The tall trees are loaded second: their number, their image as they cut it, the number of the
    image in their record, and the image that is stored. -/
def tallTrees : Except Failure (UInt16 × Bytes × Option UInt16 × Option Bytes) := do
  let tileset ← (outcome (loadTileset orchard "tall.json") (afterLoads orchard {} ["small.json"])).1
  let file ← readJson orchard.source TilesetFile.decode "tall.json"
  let made ← makePicture orchard (imageOf file) (layoutOf file)
  let tables := (afterLoads orchard {} ["small.json", "tall.json"]).tables
  return (tileset.index, made.1,
    (tables.records .tilesets)[1]?.bind fun record => record.bytes.bind fun bytes => bytes.word? 16,
    (tables.records .images)[0]?.bind Record.bytes)

theorem tallTrees_eq : tallTrees = .ok (1, #[0, 1, 0, 1], some 0, some #[0, 0, 1, 1]) :=
  eq_ok_of_toOption (by decide +kernel)

/-- The tall trees are stored as the small ones cut them: row after row. -/
theorem tallTrees_cut_small : ∃ tileset file index made,
    (outcome (loadTileset orchard "tall.json") (afterLoads orchard {} ["small.json"])).1 =
      .ok tileset ∧
    readJson orchard.source TilesetFile.decode "tall.json" = .ok file ∧
    ImageWord (afterLoads orchard {} ["small.json", "tall.json"]).tables tileset.index index ∧
    makePicture orchard (imageOf file) (layoutOf file) = .ok made ∧
    ¬PictureStored orchard (afterLoads orchard {} ["small.json", "tall.json"]).tables (imageOf file)
      index (layoutOf file) := by
  have htrees := tallTrees_eq
  simp only [tallTrees, bind_eq_ok, liftM_eq_ok, pure_eq_ok, Prod.mk.injEq] at htrees
  obtain ⟨tileset, htileset, file, hfile, made, hmade, hindex, hown, hword, hbytes⟩ := htrees
  obtain ⟨⟨name, bytes⟩, hrecord, hword⟩ := Option.bind_eq_some_iff.1 hword
  obtain ⟨bytes, rfl, hword⟩ := Option.bind_eq_some_iff.1 hword
  refine ⟨tileset, file, 0, made, htileset, hfile, ⟨name, bytes, ?_, hword⟩, hmade, ?_⟩
  · rw [hindex, show (1 : UInt16).toNat = 1 from rfl, hrecord]
  · rintro ⟨hstored, -⟩
    rw [show (0 : UInt16).toNat = 0 from rfl] at hstored
    rw [hstored, hmade] at hbytes
    simp [Except.toOption, hown] at hbytes

theorem orchard_cut_for_first : ∃ tileset file index first,
    (outcome (loadTileset orchard "tall.json") (afterLoads orchard {} ["small.json"])).1 =
      .ok tileset ∧
    readJson orchard.source TilesetFile.decode (Text.baseName "tall.json") = .ok file ∧
    ImageWord (afterLoads orchard {} ["small.json", "tall.json"]).tables tileset.index index ∧
    FirstAsked orchard {} ["small.json", "tall.json"] (imageOf file) index first ∧
    PictureStored orchard (afterLoads orchard {} ["small.json", "tall.json"]).tables (imageOf file)
      index (layoutOf first) := by
  have htrees := tallTrees_eq
  simp only [tallTrees, bind_eq_ok, liftM_eq_ok, pure_eq_ok] at htrees
  obtain ⟨tileset, htileset, -⟩ := htrees
  obtain ⟨file, index, first, hfile, hword, hfirst, hstored, -⟩ :=
    images_cut_for_first noImages_empty ["small.json"] "tall.json" [] htileset
  exact ⟨tileset, file, index, first, htileset, hfile, hword, hfirst, hstored⟩

end GameBundle
