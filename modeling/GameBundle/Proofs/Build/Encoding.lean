import GameBundle.Build.Maps
import GameBundle.Proofs.Build.References

set_option autoImplicit false

/-! # Indices in encoded records

Whatever is encoded from indices that are in range is a record whose indices are in range, and a
record is always as long as the bundle wants it to be. There is one lemma for each encoder whose
records refer to others; scripts and dialogs are encoded while a map is built and come later. -/

namespace GameBundle

/-- A record as it is stored: padded, and with all its indices in range. -/
structure Whole (count : Counts) (kind : Kind) (bytes : Bytes) : Prop where
  padded : 4 ∣ bytes.size
  intact : Intact count kind bytes

theorem Whole.mono {count more : Counts} {kind : Kind} {bytes : Bytes}
    (h : Whole count kind bytes) (hmore : ∀ kind, count kind ≤ more kind) :
    Whole more kind bytes := ⟨h.padded, h.intact.mono hmore⟩

theorem Record.four_dvd_of_encode {declared : Nat} {fields : List Field} {bytes : Bytes}
    (h : Record.encode declared fields = .ok bytes) : 4 ∣ bytes.size := by
  rw [Record.size_of_encode h]
  exact four_dvd_paddedLength declared

variable {count : Counts} {bytes : Bytes}

/-! ## Fields that are indices -/

theorem Bytes.HasAt.byte? {start : Nat} {value : UInt8} (h : bytes.HasAt start [value]) :
    bytes[start]? = some value := h 0 (Nat.lt_succ_self 0)

theorem Bytes.HasAt.refersAt {start : Nat} {index : UInt16} {kind : Kind}
    (h : bytes.HasAt start (ByteOrder.data.word index)) (hlt : index.toNat < count kind) :
    bytes.RefersAt count kind start := ⟨index, h.word?, hlt⟩

theorem byteOf_eq_ok {context : String} {value : Nat} {byte : UInt8}
    (h : byteOf context value = .ok byte) : byte.toNat = value := by
  unfold byteOf at h
  split at h
  · next hlt =>
    cases h
    exact UInt8.toNat_ofNat_of_lt' hlt
  · cases h

theorem byteOf_eq_ok_iff {context : String} {value : Nat} {byte : UInt8} :
    byteOf context value = .ok byte ↔ byte.toNat = value := by
  refine ⟨byteOf_eq_ok, ?_⟩
  rintro rfl
  rw [byteOf, if_pos byte.toNat_lt, UInt8.ofNat_toNat]

/-- What a tileset is known by is in range: its own index and those of its animations. -/
structure Tileset.Known (count : Counts) (t : Tileset) : Prop where
  index : t.index.toNat < count .tilesets
  animations : ∀ id animation, t.animation? id = some animation →
    animation.toNat < count .animations

theorem Tileset.Known.mono {t : Tileset} {more : Counts} (h : t.Known count)
    (hmore : ∀ kind, count kind ≤ more kind) : t.Known more where
  index := Nat.lt_of_lt_of_le h.index (hmore _)
  animations id animation hid := Nat.lt_of_lt_of_le (h.animations id animation hid) (hmore _)

/-! ## Tilesets -/

theorem encodeAnimation_whole {tileset : UInt16} {frames : List Tiled.Frame} {context : String}
    (h : encodeAnimation tileset frames context = .ok bytes)
    (htileset : tileset.toNat < count .tilesets) : Whole count .animations bytes :=
  ⟨Record.four_dvd_of_encode h, (Record.hasFields_of_encode h).1.refersAt htileset⟩

theorem encodeTilesetHeader_spec {file : Tiled.TilesetFile} {name context : String}
    {image : UInt16} (h : encodeTilesetHeader file name context image = .ok bytes) :
    bytes.size = 32 ∧ bytes.word? 16 = some image := by
  simp only [encodeTilesetHeader, bind_eq_ok, pure_eq_ok] at h
  obtain ⟨tiles, -, w, hw, height, -, w', hw', rfl⟩ := h
  obtain ⟨hoffset, hfields, -⟩ := Writer.writeAll_spec hw
  obtain ⟨-, -, hbefore⟩ := Writer.writeAll_spec hw'
  have hend : w.offset = 20 := hoffset
  refine ⟨?_, ?_⟩
  · rw [Writer.size_buffer_writeAll hw', Writer.size_buffer_writeAll hw]
    rfl
  · have himage : w.buffer.word? 16 = some image := hfields.2.2.1.word?
    rw [← himage]
    exact Bytes.word?_congr (hbefore 16 (by omega)) (hbefore 17 (by omega))

theorem Bytes.word?_replicate {n start : Nat} (h : start + 2 ≤ n) :
    Bytes.word? (Array.replicate n 0) start = some 0 := by
  have hzero : ∀ i < n, (Array.replicate n (0 : UInt8))[i]? = some 0 := fun i hi => by
    rw [Array.getElem?_replicate, if_pos hi]
  rw [Bytes.word?, hzero start (by omega), hzero (start + 1) (by omega)]
  rfl

/-- What stands under the number of a tile once all words are in: a word that was put there, or
what was there before if no word was. -/
theorem patchWords_spec {shapes : List (UInt32 × UInt16)} {start bytes : Bytes}
    (h : shapes.foldlM (fun (bytes : Bytes) (shape : UInt32 × UInt16) =>
      bytes.patchWord (2 * shape.1.toNat) shape.2) start = Except.ok bytes) :
    bytes.size = start.size ∧ ∀ t,
      (∃ shape ∈ shapes, shape.1.toNat = t ∧ bytes.word? (2 * t) = some shape.2) ∨
      ((∀ shape ∈ shapes, shape.1.toNat ≠ t) ∧ bytes.word? (2 * t) = start.word? (2 * t)) := by
  induction shapes generalizing start with
  | nil =>
    cases h
    exact ⟨rfl, fun _ => .inr ⟨fun _ hshape => absurd hshape List.not_mem_nil, rfl⟩⟩
  | cons first rest ih =>
    simp only [List.foldlM_cons, bind_eq_ok] at h
    obtain ⟨next, hnext, hrest⟩ := h
    obtain ⟨hsize, hwords⟩ := ih hrest
    refine ⟨?_, fun t => ?_⟩
    · obtain ⟨-, rfl⟩ := patchWord_eq_ok.1 hnext
      rw [hsize, Bytes.size_overwrite]
    · rcases hwords t with ⟨shape, hshape, hid, hword⟩ | ⟨hnone, hkept⟩
      · exact .inl ⟨shape, List.mem_cons_of_mem _ hshape, hid, hword⟩
      by_cases hid : first.1.toNat = t
      · subst hid
        exact .inl ⟨first, List.mem_cons_self, rfl, hkept.trans (word?_patchWord hnext)⟩
      · exact .inr ⟨List.forall_mem_cons.2 ⟨hid, hnone⟩,
          hkept.trans (word?_patchWord_of_disjoint hnext (by omega))⟩

/-- The words of all tiles: each is zero, or one of those that were loaded. -/
theorem encodeShapes_spec {tileCount : Nat} {shapes : List (UInt32 × UInt16)}
    (h : encodeShapes tileCount shapes = .ok bytes)
    (hshapes : ∀ shape ∈ shapes, shape.2.toNat - 1 < count .geometry) :
    4 ∣ bytes.size ∧ ∀ j, 2 * j < bytes.size → bytes.ShapeAt count (2 * j) := by
  obtain ⟨hsize, hwords⟩ := patchWords_spec h
  have hpadded := four_dvd_paddedLength (2 * tileCount)
  rw [Array.size_replicate] at hsize
  refine ⟨hsize ▸ hpadded, fun j hj => ?_⟩
  rcases hwords j with ⟨shape, hshape, -, hword⟩ | ⟨-, hkept⟩
  · exact ⟨shape.2, hword, fun _ => hshapes shape hshape⟩
  · exact ⟨0, hkept.trans (Bytes.word?_replicate (by omega)), fun hne => absurd rfl hne⟩

theorem tileset_whole {file : Tiled.TilesetFile} {name context : String} {image : UInt16}
    {tileCount : Nat} {shapes : List (UInt32 × UInt16)} {header words : Bytes}
    (hheader : encodeTilesetHeader file name context image = .ok header)
    (hwords : encodeShapes tileCount shapes = .ok words) (himage : image.toNat < count .images)
    (hshapes : ∀ shape ∈ shapes, shape.2.toNat - 1 < count .geometry) :
    Whole count .tilesets (header ++ words) := by
  obtain ⟨hsize, hword⟩ := encodeTilesetHeader_spec hheader
  obtain ⟨hpadded, hall⟩ := encodeShapes_spec hwords hshapes
  have hfirst : Bytes.HasAt (header ++ words) 0 header.toList :=
    Bytes.hasAt_concat_header header [words]
  have hrest : Bytes.HasAt (header ++ words) 32 words.toList := by
    rw [← hsize]
    exact Bytes.hasAt_append_last header words
  refine ⟨by rw [Array.size_append]; omega, ⟨image, ?_, himage⟩, fun j hj => ?_⟩
  · have himage := Bytes.word?_within hword hfirst
    rwa [Nat.zero_add] at himage
  · rw [Array.size_append, hsize] at hj
    obtain ⟨shape, hshape, hlt⟩ := hall j (by omega)
    exact ⟨shape, Bytes.word?_within hshape hrest, hlt⟩

/-! ## Tiles seen from a side -/

theorem widthOf_directionFields (tileset : Tileset) (view : TileView) (context : String) :
    widthOf (directionFields tileset view context) = 4 := by
  unfold directionFields
  split
  rfl

/-- A reference has the animation of the tile, or the tile itself and its tileset plus one. -/
def RefersTo (tileset : Tileset) (view : TileView) (id : UInt16) (source : UInt8) : Prop :=
  match tileset.animation? view.tileId with
  | some animation => id = animation ∧ source = 0
  | none => id.toNat = view.tileId.toNat ∧ source.toNat = tileset.index.toNat + 1

theorem directionFields_spec {tileset : Tileset} {view : TileView} {context : String} {start : Nat}
    (h : bytes.HasFields start (directionFields tileset view context)) :
    ∃ id source, bytes.word? start = some id ∧ bytes[start + 2]? = some source ∧
      bytes[start + 3]? = some view.renderFlags ∧ RefersTo tileset view id source := by
  unfold directionFields at h
  unfold RefersTo
  cases hanimation : tileset.animation? view.tileId with
  | some animation =>
    simp only [hanimation] at h
    obtain ⟨hid, hfits, hsource, -, hflags, -⟩ := h
    obtain ⟨id, hword, hvalue⟩ := hid.number? hfits
    exact ⟨id, 0, hword, hsource.byte?, hflags.byte?, UInt16.toNat_inj.1 hvalue, rfl⟩
  | none =>
    simp only [hanimation] at h
    obtain ⟨hid, hfits, hsource, hfits', hflags, -⟩ := h
    obtain ⟨id, hword, hvalue⟩ := hid.number? hfits
    exact ⟨id, _, hword, hsource.byte?, hflags.byte?, hvalue,
      UInt8.toNat_ofNat_of_lt' (Nat.lt_succ_of_le hfits')⟩

theorem viewAt_of_fields {tileset : Tileset} {view : TileView} {context : String} {start : Nat}
    (hknown : tileset.Known count)
    (h : bytes.HasFields start (directionFields tileset view context)) :
    bytes.ViewAt count start := by
  obtain ⟨id, source, hword, hbyte, -, href⟩ := directionFields_spec h
  refine ⟨id, source, hword, hbyte, ?_⟩
  unfold RefersTo at href
  split at href
  · next animation hanimation =>
    obtain ⟨rfl, rfl⟩ := href
    exact hknown.animations _ _ hanimation
  · obtain ⟨-, hsource⟩ := href
    have hne : source ≠ 0 := by
      rintro rfl
      cases hsource
    rw [if_neg hne, hsource]
    exact hknown.index

/-- The fields of the view of an emote. -/
def emoteFields (tileset : Tileset) (context : String) (emote : String × TileView) : List Field :=
  directionFields tileset emote.2 s!"{context} emote \"{emote.1}\""

theorem widthOf_emoteFields {tileset : Tileset} {context : String} (emote : String × TileView) :
    widthOf (emoteFields tileset context emote) = 4 := widthOf_directionFields _ _ _

theorem encodePortrait_eq_ok {name : String} {portrait : PortraitDef} {tileset : Tileset} :
    encodePortrait name portrait tileset = .ok bytes ↔ ∃ count,
      byteOf (s!"portrait \"{name}\"" ++ " emote count") portrait.emotes.size = .ok count ∧
      Record.encode (36 + 4 * portrait.emotes.size) ([.chars name 32, .gap 3, .byte count] ++
        portrait.emotes.entries.flatMap (emoteFields tileset s!"portrait \"{name}\"")) =
          .ok bytes := by
  simp only [encodePortrait, bind_eq_ok, liftM_eq_ok]
  rfl

theorem encodePortrait_whole {name : String} {portrait : PortraitDef} {tileset : Tileset}
    (hknown : tileset.Known count) (h : encodePortrait name portrait tileset = .ok bytes) :
    Whole count .portraits bytes := by
  obtain ⟨emotes, hemotes, hencode⟩ := encodePortrait_eq_ok.1 h
  have hfields := Record.hasFields_of_encode hencode
  obtain ⟨-, -, -, -, hcount, -⟩ := hfields.left
  refine ⟨Record.four_dvd_of_encode hencode, emotes, hcount.byte?, fun j hj => ?_⟩
  rw [byteOf_eq_ok hemotes] at hj
  have hview := hfields.right.item 4 (fun _ _ => widthOf_emoteFields _)
    (List.getElem?_eq_getElem hj)
  exact viewAt_of_fields hknown hview

theorem portraitByte_spec {portraits : Ordered UInt16} {name context : String}
    {looks : EntityTypeDef} {byte : UInt8}
    (hportraits : ∀ name index, portraits.find? name = some index →
      index.toNat < count .portraits)
    (h : portraitByte portraits name looks context = .ok byte) (hne : byte ≠ noPortrait) :
    byte.toNat < count .portraits := by
  unfold portraitByte at h
  split at h
  · next index hindex =>
    rw [byteOf_eq_ok h]
    exact hportraits _ _ hindex
  · cases h
  · cases h
    exact absurd rfl hne

section Animations

variable {tileset : Tileset} {context : String} {animations : List (String × List TileView)}

/-- The fields of the views of an animation. -/
def viewFields (tileset : Tileset) (context : String) (animation : String × List TileView) :
    List Field :=
  animation.2.zipIdx.flatMap fun v =>
    directionFields tileset v.1 s!"{context} animation \"{animation.1}\" direction {v.2}"

theorem widthOf_viewFields (animation : String × List TileView) :
    widthOf (viewFields tileset context animation) = 4 * animation.2.length := by
  rw [viewFields, widthOf_flatMap 4 fun _ _ => widthOf_directionFields _ _ _, List.length_zipIdx]

theorem animationFields_eq_ok {name : String} {views : List TileView} {fields : List Field} :
    animationFields tileset context name views = .ok fields ↔
      views.length = directionCount ∧ viewFields tileset context (name, views) = fields := by
  unfold animationFields
  split
  · next h => simp [h]
  · next h => exact ⟨fun heq => ⟨Decidable.not_not.1 h, Except.ok.inj heq⟩, fun heq =>
      congrArg Except.ok heq.2⟩

/-- Animations are written one after the other, each with a view for every direction. -/
theorem writeAnimations_eq_ok {w w' : Writer} :
    writeAnimations tileset context w animations = .ok w' ↔
      (∀ animation ∈ animations, animation.2.length = directionCount) ∧
        w.writeAll (animations.flatMap (viewFields tileset context)) = .ok w' := by
  induction animations generalizing w with
  | nil => simp [writeAnimations, Writer.writeAll, pure, Except.pure]
  | cons animation rest ih =>
    simp only [writeAnimations, bind_eq_ok, liftM_eq_ok, animationFields_eq_ok, ih,
      List.forall_mem_cons, List.flatMap_cons, Writer.writeAll_append_eq_ok]
    constructor
    · rintro ⟨_, ⟨hfirst, rfl⟩, w₁, hw₁, hrest, hw'⟩
      exact ⟨⟨hfirst, hrest⟩, w₁, hw₁, hw'⟩
    · rintro ⟨⟨hfirst, hrest⟩, w₁, hw₁, hw'⟩
      exact ⟨_, ⟨hfirst, rfl⟩, w₁, hw₁, hrest, hw'⟩

/-- Where the view of a direction stands among those of all animations. -/
theorem hasFields_view {start k d : Nat} {animation : String × List TileView} {view : TileView}
    (hviews : ∀ animation ∈ animations, animation.2.length = directionCount)
    (h : bytes.HasFields start (animations.flatMap (viewFields tileset context)))
    (hk : animations[k]? = some animation) (hd : animation.2[d]? = some view) :
    bytes.HasFields (start + 16 * k + 4 * d) (directionFields tileset view
      s!"{context} animation \"{animation.1}\" direction {d}") := by
  have hanimation := h.item 16 (fun other hother => by
    rw [widthOf_viewFields, hviews other hother]
    rfl) hk
  have hplace : animation.2.zipIdx[d]? = some (view, d) := by
    rw [List.getElem?_zipIdx, hd, Option.map_some, Nat.zero_add]
  rw [viewFields] at hanimation
  have hview := hanimation.item 4 (fun _ _ => widthOf_directionFields _ _ _) hplace
  exact hview

theorem encodeEntityType_eq_ok {portraits : Ordered UInt16} {name : String}
    {looks : EntityTypeDef} :
    encodeEntityType portraits name looks tileset = .ok bytes ↔ ∃ portrait animations,
      portraitByte portraits name looks s!"entity type \"{name}\"" = .ok portrait ∧
      byteOf (s!"entity type \"{name}\"" ++ " animation count") looks.animations.size =
        .ok animations ∧
      (∀ animation ∈ looks.animations.entries, animation.2.length = directionCount) ∧
      Record.encode (36 + looks.animations.size * directionCount * 4)
        ([.chars name 32, .gap 2, .byte portrait, .byte animations] ++
          looks.animations.entries.flatMap (viewFields tileset s!"entity type \"{name}\"")) =
        .ok bytes := by
  simp only [encodeEntityType, Record.encode, bind_eq_ok, liftM_eq_ok, pure_eq_ok,
    writeAnimations_eq_ok, Writer.writeAll_append_eq_ok]
  constructor
  · rintro ⟨portrait, hportrait, animations, hanimations, w, hw, w', ⟨hviews, hw'⟩, rfl⟩
    exact ⟨portrait, animations, hportrait, hanimations, hviews, w', ⟨w, hw, hw'⟩, rfl⟩
  · rintro ⟨portrait, animations, hportrait, hanimations, hviews, w', ⟨w, hw, hw'⟩, rfl⟩
    exact ⟨portrait, hportrait, animations, hanimations, w, hw, w', ⟨hviews, hw'⟩, rfl⟩

end Animations

theorem encodeEntityType_whole {portraits : Ordered UInt16} {name : String}
    {looks : EntityTypeDef} {tileset : Tileset} (hknown : tileset.Known count)
    (hportraits : ∀ name index, portraits.find? name = some index →
      index.toNat < count .portraits)
    (h : encodeEntityType portraits name looks tileset = .ok bytes) :
    Whole count .entityTypes bytes := by
  obtain ⟨portrait, animations, hportrait, hanimations, hviews, hencode⟩ :=
    encodeEntityType_eq_ok.1 h
  have hfields := Record.hasFields_of_encode hencode
  obtain ⟨-, -, -, -, hbyte, -, hcount, -⟩ := hfields.left
  refine ⟨Record.four_dvd_of_encode hencode,
    ⟨portrait, hbyte.byte?, portraitByte_spec hportraits hportrait⟩,
    animations, hcount.byte?, fun j hj => ?_⟩
  rw [byteOf_eq_ok hanimations] at hj
  -- the views are counted through, four for each animation
  have hk : j / 4 < looks.animations.entries.length :=
    Nat.div_lt_of_lt_mul (by rwa [directionCount] at hj)
  have hd : j % 4 < looks.animations.entries[j / 4].2.length := by
    rw [hviews _ (List.getElem_mem hk)]
    exact Nat.mod_lt _ (by decide)
  have hview := hasFields_view hviews hfields.right (List.getElem?_eq_getElem hk)
    (List.getElem?_eq_getElem hd)
  have hplace : 36 + 16 * (j / 4) + 4 * (j % 4) = 36 + 4 * j := by omega
  have hat := viewAt_of_fields hknown hview
  rwa [show 0 + widthOf [Field.chars name 32, .gap 2, .byte portrait, .byte animations] = 36
    from rfl, hplace] at hat

/-! ## Entities -/

/-- Where an entity says what it is drawn with. -/
theorem Entity.look_spec {e : Entity} {types : Ordered EntityType} {look : Look}
    (htypes : ∀ name type, types.find? name = some type → type.index.toNat < count .entityTypes)
    (htile : e.tile.tileset.Known count) (h : e.look types = .ok look) :
    ∃ kind, lookKind? look.code.1 = some kind ∧ look.code.2.1.toNat < count kind := by
  unfold Entity.look at h
  split at h
  · next type htype =>
    cases h
    obtain ⟨name, -, hfind⟩ := Option.bind_eq_some_iff.1 htype
    exact ⟨.entityTypes, rfl, htypes name type hfind⟩
  · next animation hnone hanimation =>
    cases h
    exact ⟨.animations, rfl, htile.animations _ _ hanimation⟩
  · split at h
    · cases h
      exact ⟨.tilesets, rfl, htile.index⟩
    · cases h

/-- Scripts and paths are stored apart from that. -/
theorem Whole.patch_entity {new : Bytes} {offset : Nat} {value : UInt16}
    (h : Whole count .entities bytes) (hpatch : bytes.patchWord offset value = .ok new)
    (hoffset : offset + 2 ≤ 20 ∨ 25 ≤ offset) : Whole count .entities new := by
  obtain ⟨hpadded, code, kind, hcode, hkind, primary, hprimary, hlt⟩ := h
  have hsame : new.size = bytes.size ∧ new[24]? = bytes[24]? := by
    obtain ⟨-, rfl⟩ := patchWord_eq_ok.1 hpatch
    refine ⟨Bytes.size_overwrite _ _ _, ?_⟩
    rw [Bytes.getElem?_overwrite, if_neg]
    rw [ByteOrder.length_word]
    omega
  refine ⟨hsame.1 ▸ hpadded, code, kind, hsame.2.trans hcode, hkind, primary, ?_, hlt⟩
  rw [word?_patchWord_of_disjoint hpatch (by omega), hprimary]

theorem Entity.encode_whole {e : Entity} {types : Ordered EntityType} {path : Option UInt16}
    (htypes : ∀ name type, types.find? name = some type → type.index.toNat < count .entityTypes)
    (htile : e.tile.tileset.Known count) (h : e.encode types path = .ok bytes) :
    Whole count .entities bytes := by
  simp only [encode, bind_eq_ok, liftM_eq_ok] at h
  obtain ⟨x, -, y, -, look, hlook, _, -, _, -, _, -, _, -, _, -, _, -, record, hrecord, h⟩ := h
  obtain ⟨kind, hkind, hlt⟩ := look_spec htypes htile hlook
  have hwhole : Whole count .entities record := by
    obtain ⟨-, -, -, -, -, -, -, -, -, -, hprimary, -, -, -, hcode, -⟩ :=
      Record.hasFields_of_encode hrecord
    exact ⟨Record.four_dvd_of_encode hrecord, _, kind, hcode.byte?, hkind,
      hprimary.refersAt hlt⟩
  cases path with
  | none =>
    cases h
    exact hwhole
  | some path => exact hwhole.patch_entity h (by decide)

/-! ## Tile layers -/

/-- Nothing but cells. -/
def CellsOf (count : Counts) (bytes : Bytes) : Prop :=
  4 ∣ bytes.size ∧ ∀ j, 4 * j < bytes.size → bytes.CellAt count (4 * j)

theorem CellsOf.append {other : Bytes} (h : CellsOf count bytes) (hother : CellsOf count other) :
    CellsOf count (bytes ++ other) := by
  have hsize := h.1
  have hfirst : Bytes.HasAt (bytes ++ other) 0 bytes.toList :=
    Bytes.hasAt_concat_header bytes [other]
  have hlast : Bytes.HasAt (bytes ++ other) bytes.size other.toList :=
    Bytes.hasAt_append_last bytes other
  refine ⟨by rw [Array.size_append]; exact Nat.dvd_add h.1 hother.1, fun j hj => ?_⟩
  rw [Array.size_append] at hj
  by_cases hlt : 4 * j < bytes.size
  · have hcell := (h.2 j hlt).within hfirst
    rwa [Nat.zero_add] at hcell
  · have hcell := (hother.2 (j - bytes.size / 4) (by omega)).within hlast
    rwa [show bytes.size + 4 * (j - bytes.size / 4) = 4 * j by omega] at hcell

theorem resolveTile_mem {tilesets : List (UInt32 × Tileset)} {gid : UInt32} {context : String}
    {tile : PlacedTile} (h : resolveTile tilesets gid context = .ok tile) :
    ∃ first, (first, tile.tileset) ∈ tilesets := by
  simp only [resolveTile] at h
  split at h
  · next first tileset hlast =>
    cases h
    have hmem := List.mem_of_getLast? hlast
    exact ⟨first, (List.takeWhile_sublist _).subset hmem⟩
  · cases h

theorem encodeCell_spec {tilesets : List (UInt32 × Tileset)} {context : String} {gid : UInt32}
    {cell : List UInt8} (hknown : ∀ t ∈ tilesets, t.2.Known count)
    (h : encodeCell tilesets context gid = .ok cell) :
    cell.length = 4 ∧ ∀ {bytes : Bytes} {start : Nat}, bytes.HasAt start cell →
      bytes.CellAt count start := by
  unfold encodeCell at h
  split at h
  · cases h
    refine ⟨rfl, fun {bytes start} hat => ⟨0, 0, ?_, hat 2 (by decide), fun hne => absurd rfl hne⟩⟩
    exact (hat.left (a := [0, 0]) (b := [0, 0])).word?
  · simp only [bind_eq_ok] at h
    obtain ⟨tile, htile, h⟩ := h
    split at h
    · cases h
    · simp only [bind_eq_ok, pure_eq_ok] at h
      obtain ⟨tileset, htileset, rfl⟩ := h
      obtain ⟨first, hmem⟩ := resolveTile_mem htile
      refine ⟨rfl, fun {bytes start} hat => ⟨_, tileset, hat.left.word?, ?_, fun _ => ?_⟩⟩
      · exact hat 2 (by simp)
      · rw [byteOf_eq_ok htileset]
        exact (hknown _ hmem).index

theorem length_of_encodeCell {tilesets : List (UInt32 × Tileset)} {context : String} {gid : UInt32}
    {cell : List UInt8} (h : encodeCell tilesets context gid = .ok cell) : cell.length = 4 := by
  unfold encodeCell at h
  split at h
  · cases h
    rfl
  · simp only [bind_eq_ok] at h
    obtain ⟨tile, -, h⟩ := h
    split at h
    · cases h
    · obtain ⟨_, -, h⟩ := bind_eq_ok.1 h
      obtain rfl := pure_eq_ok.1 h
      rfl

theorem length_flatten_of_forall {pieces : List (List UInt8)} {length : Nat}
    (hlength : ∀ p ∈ pieces, p.length = length) :
    pieces.flatten.length = length * pieces.length := by
  induction pieces with
  | nil => rfl
  | cons p rest ih =>
    obtain ⟨hp, hrest⟩ := List.forall_mem_cons.1 hlength
    rw [List.flatten_cons, List.length_append, hp, ih hrest, List.length_cons, Nat.mul_succ,
      Nat.add_comm]

/-- A layer has four bytes for each place of the map. -/
theorem size_of_encodeLayer {map : Tiled.Map} {tilesets : List (UInt32 × Tileset)}
    {context name : String} {cells : List UInt32}
    (h : encodeLayer map tilesets context name cells = .ok bytes) :
    bytes.size = 4 * (map.width.toNat * map.height.toNat) := by
  simp only [encodeLayer] at h
  split at h
  · cases h
  · next hcount =>
    rw [Decidable.not_not] at hcount
    simp only [bind_eq_ok, pure_eq_ok, mapM_eq_ok] at h
    obtain ⟨encoded, hencoded, rfl⟩ := h
    have hlength : ∀ cell ∈ encoded, cell.length = 4 := by
      intro cell hcell
      obtain ⟨gid, -, hencode⟩ := exists_of_mem_forall₂ hencoded hcell
      exact length_of_encodeCell hencode
    rw [List.size_toArray, length_flatten_of_forall hlength, ← hencoded.length_eq, hcount]

/-- A layer is as long as its cells. -/
theorem encodeLayer_spec {map : Tiled.Map} {tilesets : List (UInt32 × Tileset)}
    {context name : String} {cells : List UInt32} (hknown : ∀ t ∈ tilesets, t.2.Known count)
    (h : encodeLayer map tilesets context name cells = .ok bytes) : CellsOf count bytes := by
  simp only [encodeLayer] at h
  split at h
  · cases h
  · next hcount =>
    clear hcount
    simp only [bind_eq_ok, pure_eq_ok, mapM_eq_ok] at h
    obtain ⟨encoded, hencoded, rfl⟩ := h
    induction hencoded with
    | nil => exact ⟨by simp, fun j hj => absurd hj (Nat.not_lt_zero _)⟩
    | @cons gid cell gids cells hcell _ ih =>
      obtain ⟨hlength, hat⟩ := encodeCell_spec hknown hcell
      rw [List.flatten_cons, ← List.append_toArray]
      refine CellsOf.append ⟨by simp [hlength], fun j hj => ?_⟩ ih
      rw [List.size_toArray, hlength] at hj
      obtain rfl : j = 0 := by omega
      refine hat fun i hi => ?_
      rw [Nat.zero_add, List.getElem?_toArray]

theorem encodeLayers_spec {map : Tiled.Map} {tilesets : List (UInt32 × Tileset)} {context : String}
    {layers : List Bytes} (hknown : ∀ t ∈ tilesets, t.2.Known count)
    (h : encodeLayers map tilesets context = .ok layers) :
    ∀ layer ∈ layers, CellsOf count layer := by
  intro layer hlayer
  obtain ⟨⟨name, cells⟩, -, hencode⟩ := exists_of_mem_forall₂ (mapM_eq_ok.1 h) hlayer
  exact encodeLayer_spec hknown hencode

/-! ## Maps -/

/-- The lists of a map are in range. -/
structure MapContext.Lists (count : Counts) (map : MapContext) : Prop where
  entities : ∀ index ∈ map.entities.toList, index.toNat < count .entities
  geometry : ∀ index ∈ map.geometry.toList, index.toNat < count .geometry
  scripts : ∀ index ∈ map.scripts.toList, index.toNat < count .scripts

/-- The tile layers begin where the header ends. -/
theorem length_of_encode {tiled : Tiled.Map} {map : MapContext} {layers : Nat}
    {events : Ordered UInt16} {directions : List (String × UInt16)} {header : MapHeader}
    (h : encodeMapHeader tiled map layers events directions = .ok bytes)
    (hentities : header.entities = map.entities.toList)
    (hgeometry : header.geometry = map.geometry.toList)
    (hscripts : header.scripts = map.scripts.toList)
    (hdirections : header.directions.toNat = directions.length) : bytes.size = header.length := by
  rw [Record.size_of_encode h, MapHeader.length, MapHeader.listsOffset, hentities, hgeometry,
    hscripts, hdirections, List.length_append, List.length_append]

/-- All layers together are nothing but cells. -/
theorem cellsOf_concat (header : Bytes) {layers : List Bytes}
    (hlayers : ∀ layer ∈ layers, CellsOf count layer) :
    ∃ cells : Bytes, CellsOf count cells ∧ layers.foldl (· ++ ·) header = header ++ cells := by
  induction layers generalizing header with
  | nil => exact ⟨#[], ⟨by simp, fun j hj => absurd hj (Nat.not_lt_zero _)⟩, by simp⟩
  | cons layer rest ih =>
    obtain ⟨cells, hcells, heq⟩ := ih (header ++ layer)
      fun other hother => hlayers other (List.mem_cons_of_mem _ hother)
    refine ⟨layer ++ cells, (hlayers layer List.mem_cons_self).append hcells, ?_⟩
    rw [List.foldl_cons, heq, Array.append_assoc]

theorem map_whole {tiled : Tiled.Map} {map : MapContext} {layers : List Bytes}
    {events : Ordered UInt16} {directions : List (String × UInt16)} {header : Bytes}
    (hlists : map.Lists count) (hlayers : ∀ layer ∈ layers, CellsOf count layer)
    (h : encodeMapHeader tiled map layers.length events directions = .ok header) :
    Whole count .maps (layers.foldl (· ++ ·) header) := by
  obtain ⟨fields, hread, hentities, hgeometry, hscripts, hdirections, -, -⟩ :=
    read?_of_encode h (Bytes.hasAt_concat_header header layers)
  have hlength := length_of_encode h hentities hgeometry hscripts hdirections
  obtain ⟨cells, ⟨hpadded, hcells⟩, heq⟩ := cellsOf_concat header hlayers
  have hat : Bytes.HasAt (header ++ cells) header.size cells.toList :=
    Bytes.hasAt_append_last header cells
  have hheader := Record.four_dvd_of_encode h
  refine ⟨?_, fields, hread, ?_⟩
  · rw [heq, Array.size_append]
    exact Nat.dvd_add hheader hpadded
  · exact {
      entities := hentities ▸ hlists.entities
      geometry := hgeometry ▸ hlists.geometry
      scripts := hscripts ▸ hlists.scripts
      cells := by
        intro j hj
        rw [heq, ← hlength] at hj ⊢
        rw [Array.size_append] at hj
        exact (hcells j (by omega)).within hat }

end GameBundle
