import GameBundle.Proofs.Build.EntityFields

set_option autoImplicit false

/-! # Facing

An entity of a known type faces in the direction whose view shows its tile. One byte of its record
has the direction in the low bits, and the two highest bits say whether the entity is glitched and
whether it is there for debugging. The byte has a third flag, which turns the tiles of other
entities around their diagonal. Its bit is the lowest one of the direction: it turns an entity of a
known type from the first direction to the second and from the third to the fourth. -/

namespace GameBundle

/-! ## Views of a tile -/

/-- A view shows a tile with its horizontal and its vertical flip. -/
def TileView.Shows (v : TileView) (tile : PlacedTile) : Prop :=
  v.tileId = tile.tileIndex ∧ v.flipX = tile.flipX ∧ v.flipY = tile.flipY

/-- The first view of an animation that shows a tile is the one of the direction. -/
def FacesFirst (views : List TileView) (tile : PlacedTile) (direction : Nat) : Prop :=
  (∃ v, views[direction]? = some v ∧ v.Shows tile) ∧
    ∀ j < direction, ∀ v, views[j]? = some v → ¬v.Shows tile

/-- The direction is the first one of the first animation in which some view shows the tile. If
    there is none it is zero. -/
def Facing (animations : List (List TileView)) (tile : PlacedTile) (direction : Nat) : Prop :=
  (∃ before views after, animations = before ++ views :: after ∧
    (∀ others ∈ before, ∀ v ∈ others, ¬v.Shows tile) ∧ FacesFirst views tile direction) ∨
  ((∀ views ∈ animations, ∀ v ∈ views, ¬v.Shows tile) ∧ direction = 0)

/-- Where there are four directions it is one of them. -/
theorem Facing.lt {animations : List (List TileView)} {tile : PlacedTile} {direction : Nat}
    (h : Facing animations tile direction)
    (hfour : ∀ views ∈ animations, views.length = directionCount) : direction < 4 := by
  obtain ⟨before, views, after, rfl, -, ⟨v, hv, -⟩, -⟩ | ⟨-, rfl⟩ := h
  · obtain ⟨hlt, -⟩ := List.getElem?_eq_some_iff.1 hv
    rwa [hfour views (List.mem_append_right _ List.mem_cons_self)] at hlt
  · exact Nat.zero_lt_succ _

/-- A tile that the very first view shows is seen from the first direction. -/
theorem Facing.eq_zero {v : TileView} {views : List TileView} {rest : List (List TileView)}
    {tile : PlacedTile} {direction : Nat} (h : Facing ((v :: views) :: rest) tile direction)
    (hshows : v.Shows tile) : direction = 0 := by
  obtain ⟨before, found, after, heq, hbefore, -, hfirst⟩ | ⟨-, hzero⟩ := h
  · cases before with
    | nil =>
      obtain ⟨rfl, -⟩ := List.cons.inj heq
      exact Nat.eq_zero_of_not_pos fun hpos => hfirst 0 hpos v rfl hshows
    | cons others before =>
      obtain ⟨rfl, -⟩ := List.cons.inj heq
      exact absurd hshows (hbefore _ List.mem_cons_self v List.mem_cons_self)
  · exact hzero

namespace Entity

variable {e : Entity} {views : List TileView}

theorem shows_iff {v : TileView} : (v.tileId == e.tile.tileIndex && v.flipX == e.tile.flipX &&
    v.flipY == e.tile.flipY) = true ↔ v.Shows e.tile := by
  simp only [TileView.Shows, Bool.and_eq_true, beq_iff_eq, and_assoc]

theorem facing?_eq_none : e.facing? views = none ↔ ∀ v ∈ views, ¬v.Shows e.tile := by
  simp only [facing?, List.findIdx?_eq_none_iff, ← shows_iff, Bool.not_eq_true]

theorem facesFirst_of_facing? {direction : Nat} (h : e.facing? views = some direction) :
    FacesFirst views e.tile direction := by
  obtain ⟨hlt, hshows, hbefore⟩ := List.findIdx?_eq_some_iff_getElem.1 h
  refine ⟨⟨_, List.getElem?_eq_getElem hlt, shows_iff.1 hshows⟩, fun j hj v hv hshown => ?_⟩
  obtain ⟨hj', rfl⟩ := List.getElem?_eq_some_iff.1 hv
  exact hbefore j hj (shows_iff.2 hshown)

/-- The direction that is looked up. -/
theorem facing_findSome? (e : Entity) (animations : List (List TileView)) :
    Facing animations e.tile ((animations.findSome? e.facing?).getD 0) := by
  cases hfind : animations.findSome? e.facing? with
  | some direction =>
    obtain ⟨before, views, after, rfl, hviews, hnone⟩ := List.findSome?_eq_some_iff.1 hfind
    exact .inl ⟨before, views, after, rfl,
      fun others hothers => facing?_eq_none.1 (hnone _ hothers), facesFirst_of_facing? hviews⟩
  | none =>
    exact .inr ⟨fun views hviews => facing?_eq_none.1 (List.findSome?_eq_none_iff.1 hfind _ hviews),
      rfl⟩

/-! ## The byte of the flags -/

/-- What the byte says: the direction, to which the third flag adds its lowest bit, and the two
    flags that have bits of their own. -/
structure FacingTold (e : Entity) (animations : List (List TileView)) (flags : UInt8) : Prop where
  direction : ∃ direction < 4, Facing animations e.tile direction ∧ flags.toNat % 64 =
    if e.properties.flag "is_flipped_diagonal" then direction ||| 1 else direction
  glitched : flags.toNat.testBit 7 = e.properties.flag "is_glitched"
  debug : flags.toNat.testBit 6 = e.properties.flag "is_debug"

/-- The flags of an entity of a type, bit by bit. -/
theorem flags_type (e : Entity) (index : UInt16) (direction : Fin 4) :
    let flags := (e.flags (.type index (UInt8.ofNat direction))).toNat
    (flags % 64 = if e.properties.flag "is_flipped_diagonal" then direction.val ||| 1
      else direction) ∧
    flags.testBit 7 = e.properties.flag "is_glitched" ∧
    flags.testBit 6 = e.properties.flag "is_debug" := by
  unfold flags isDebug
  dsimp only
  generalize e.properties.flag "is_flipped_diagonal" = diagonal
  generalize e.properties.flag "is_debug" = debug
  generalize e.properties.flag "is_glitched" = glitched
  revert direction diagonal debug glitched
  decide

theorem facingTold_flags (e : Entity) (type : EntityType)
    (hfour : ∀ views ∈ type.looks.animations.values, views.length = directionCount) :
    FacingTold e type.looks.animations.values (e.flags (.type type.index
      (UInt8.ofNat ((type.looks.animations.values.findSome? e.facing?).getD 0)))) := by
  have hfacing := e.facing_findSome? type.looks.animations.values
  have hlt := hfacing.lt hfour
  obtain ⟨hdirection, hglitched, hdebug⟩ := e.flags_type type.index ⟨_, hlt⟩
  exact ⟨⟨_, hlt, hfacing, hdirection⟩, hglitched, hdebug⟩

/-- Where a record has its flags. -/
def flagsOffset : Nat := 27

/-- The flags are in the record, with or without a path. -/
theorem flags_of_encode {types : Ordered EntityType} {path : Option UInt16} {bytes : Bytes}
    (h : e.encode types path = .ok bytes) :
    ∃ l, e.look types = .ok l ∧ bytes[flagsOffset]? = some (e.flags l) := by
  simp only [encode, bind_eq_ok, liftM_eq_ok] at h
  obtain ⟨x, -, y, -, l, hlook, _, -, _, -, _, -, _, -, _, -, _, -, record, hrecord, h⟩ := h
  obtain ⟨-, -, -, -, -, -, -, -, -, -, -, -, -, -, -, -, -, -, -, -, hflags, -⟩ :=
    Record.hasFields_of_encode hrecord
  have hbyte : record[flagsOffset]? = some (e.flags l) := hflags 0 Nat.zero_lt_one
  refine ⟨l, hlook, ?_⟩
  cases path with
  | none =>
    obtain rfl := pure_eq_ok.1 h
    exact hbyte
  | some path =>
    have hagree : Bytes.AgreeOutside 28 29 record bytes :=
      agreeOutside_patchWord (Nat.le_refl _) (Nat.le_refl _) h
    exact (hagree.2 _ (.inl (by decide))).trans hbyte

theorem look_of_kind? {types : Ordered EntityType} {type : EntityType} {l : Look}
    (htype : (e.kind? >>= types.find?) = some type) (h : e.look types = .ok l) :
    l = .type type.index
      (UInt8.ofNat ((type.looks.animations.values.findSome? e.facing?).getD 0)) := by
  rw [look, htype] at h
  exact (Except.ok.inj h).symm

end Entity

/-! ## Adding an entity -/

variable {e : Entity} {path : Option UInt16} {p q : Project} {index : UInt16} {type : EntityType}

theorem yields_addEntity : Yields (addEntity e path) p index q ↔
    ∃ bytes, e.encode p.entityTypes path = .ok bytes ∧ p.tables.count .entities < UInt16.size ∧
      index = UInt16.ofNat (p.tables.count .entities) ∧
      q = { p with tables := p.tables.add .entities ⟨e.label, some bytes⟩ } := by
  simp only [addEntity, yields_bind, yields_get, yields_except, yields_onTables,
    Tables.yields_push]
  constructor
  · rintro ⟨_, _, ⟨rfl, rfl⟩, bytes, _, ⟨hbytes, rfl⟩, _, ⟨hroom, rfl, rfl⟩, rfl⟩
    exact ⟨bytes, hbytes, hroom, rfl, rfl⟩
  · rintro ⟨bytes, hbytes, hroom, rfl, rfl⟩
    exact ⟨_, _, ⟨rfl, rfl⟩, bytes, _, ⟨hbytes, rfl⟩, _, ⟨hroom, rfl, rfl⟩, rfl⟩

/-- **The direction of an entity of a known type is in its record.** Its flags leave it alone,
    except for the third one. -/
theorem addEntity_faces
    (hfour : ∀ known ∈ p.entityTypes.values, ∀ views ∈ known.looks.animations.values,
      views.length = 4)
    (htype : (e.kind? >>= p.entityTypes.find?) = some type)
    (h : Yields (addEntity e path) p index q) :
    ∃ bytes flags, (q.tables.records .entities)[index.toNat]? = some ⟨e.label, some bytes⟩ ∧
      bytes[27]? = some flags ∧ e.FacingTold type.looks.animations.values flags := by
  obtain ⟨bytes, hbytes, hroom, rfl, rfl⟩ := yields_addEntity.1 h
  obtain ⟨l, hlook, hflags⟩ := Entity.flags_of_encode hbytes
  obtain rfl := Entity.look_of_kind? htype hlook
  obtain ⟨kind, -, hfind⟩ := Option.bind_eq_some_iff.1 htype
  have hmem : type ∈ p.entityTypes.values := List.mem_map_of_mem (Ordered.mem_entries hfind)
  refine ⟨bytes, _, ?_, hflags, e.facingTold_flags type (hfour type hmem)⟩
  rw [Tables.getElem?_records_add, if_pos ⟨rfl, UInt16.toNat_ofNat_of_lt' hroom⟩]

/-- A view of a tile that is not flipped. -/
def plainView (tileId : UInt32) : TileView := ⟨tileId, false, false, false⟩

/-- A hen looks in four directions. -/
def henViews : List TileView := [plainView 0, plainView 1, plainView 2, plainView 3]

def henType : EntityType := ⟨0, ∅, "birds", .ofList [("idle", henViews)], none⟩

def henHouse : Project := { entityTypes := .ofList [("hen", henType)] }

theorem henHouse_four : ∀ known ∈ henHouse.entityTypes.values,
    ∀ views ∈ known.looks.animations.values, views.length = 4 := by decide +kernel

/-- A hen on one of the four tiles, with some properties that are set. -/
def hen (tileIndex : UInt32) (set : List String) : Entity where
  properties := .ofList (("type", .string "hen") :: set.map fun key => (key, .bool true))
  tile := ⟨⟨"birds", 0, 4, []⟩, tileIndex, false, false, false⟩

/-- The flags of a hen in its record. -/
def henFlags (tileIndex : UInt32) (set : List String) : Option UInt8 :=
  let q := (outcome (addEntity (hen tileIndex set) none) henHouse).2
  (q.tables.records .entities)[0]? >>= Record.bytes >>= (·[27]?)

/-- A glitched hen for debugging looks in the third direction. -/
theorem hen_faces : ∃ q bytes flags,
    Yields (addEntity (hen 2 ["is_glitched", "is_debug"]) none) henHouse 0 q ∧
    (q.tables.records .entities)[0]? =
      some ⟨(hen 2 ["is_glitched", "is_debug"]).label, some bytes⟩ ∧
    bytes[27]? = some flags ∧
    (hen 2 ["is_glitched", "is_debug"]).FacingTold henType.looks.animations.values flags ∧
    henFlags 2 ["is_glitched", "is_debug"] = some 0xc2 := by
  have hadded := yields_outcome (x := addEntity (hen 2 ["is_glitched", "is_debug"]) none)
    (s := henHouse) (a := 0) (eq_ok_of_toOption (by decide +kernel))
  obtain ⟨bytes, flags, hrecord, hflags, htold⟩ := addEntity_faces henHouse_four rfl hadded
  exact ⟨_, bytes, flags, hadded, hrecord, hflags, htold, by decide +kernel⟩

/-- A hen that looks in the first direction is turned to the second by a flag. -/
theorem hen_turns :
    ¬∀ (e : Entity) (path : Option UInt16) (p q : Project) (index : UInt16) (type : EntityType),
      (∀ known ∈ p.entityTypes.values, ∀ views ∈ known.looks.animations.values,
        views.length = 4) →
      (e.kind? >>= p.entityTypes.find?) = some type → Yields (addEntity e path) p index q →
      ∃ bytes flags direction,
        (q.tables.records .entities)[index.toNat]? = some ⟨e.label, some bytes⟩ ∧
        bytes[27]? = some flags ∧ Facing type.looks.animations.values e.tile direction ∧
        flags.toNat % 64 = direction := by
  intro hall
  have hadded := yields_outcome (x := addEntity (hen 0 ["is_flipped_diagonal"]) none)
    (s := henHouse) (a := 0) (eq_ok_of_toOption (by decide +kernel))
  obtain ⟨bytes, flags, direction, hrecord, hflags, hfacing, hlow⟩ :=
    hall _ _ _ _ _ henType henHouse_four rfl hadded
  have hbyte : henFlags 0 ["is_flipped_diagonal"] = some flags :=
    Option.bind_eq_some_iff.2 ⟨bytes, Option.bind_eq_some_iff.2 ⟨_, hrecord, rfl⟩, hflags⟩
  obtain rfl : flags = 1 := Option.some.inj (hbyte.symm.trans (by decide +kernel))
  have hfirst : direction = 0 := hfacing.eq_zero ⟨rfl, rfl, rfl⟩
  rw [hfirst] at hlow
  exact absurd hlow (by decide)

end GameBundle
