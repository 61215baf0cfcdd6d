import GameBundle.Proofs.Build.SharedSound
import GameBundle.Proofs.Build.TilesetSizes

set_option autoImplicit false

/-! # Tilesets in records

The record of a tileset points at data of its tiles that is stored elsewhere: a word for each tile
says which outline is drawn on it, and animations are records of their own that name the tileset.
Tiles are listed in any order and need not be listed at all, and outlines and animations are stored
while the tiles are gone through. `TilesetTold` says that each tile is nevertheless told as it was
drawn. A file is read once: later loads under the same name find what was loaded. -/

namespace GameBundle

open Tiled (TilesetFile TileDef)

/-- The objects drawn on a tile. -/
def Tiled.TileDef.objects (tile : TileDef) : List Tiled.Object := tile.shapes.getD []

/-- The frames that a tile goes through. -/
def Tiled.TileDef.frames (tile : TileDef) : List Tiled.Frame := tile.animation.getD []

variable {input : Input} {p q r : Project}

/-! ## Loading again -/

/-- No tileset was remembered or forgotten. -/
def SameTilesets (p q : Project) : Prop := q.tilesets = p.tilesets

theorem change_sameTilesets : Change (fun _ => True) SameTilesets where
  refl _ := rfl
  trans _ _ _ hst htu := Eq.trans htu hst
  keeps _ _ _ _ := trivial

/-- Tables have nothing to do with what is remembered. -/
theorem onTables_sameTilesets {α : Type} (x : Step Tables α) :
    Alike (fun _ => True) SameTilesets (onTables x) (onTables x) := fun _ _ => ⟨rfl, rfl⟩

theorem loadImage_sameTilesets (path : String) (layout : TileLayout) (p : Project) :
    Moves SameTilesets (loadImage input path layout) p := by
  have hchange := change_sameTilesets
  suffices h : Alike (fun _ => True) SameTilesets (loadImage input path layout)
      (loadImage input path layout) from (h p trivial).2
  refine hchange.bind hchange.get fun p => ?_
  split
  · exact hchange.pure _
  · refine hchange.bind (onTables_sameTilesets _) fun index => ?_
    refine hchange.bind (onTables_sameTilesets _) fun palette => ?_
    refine hchange.bind (fun _ _ => ⟨rfl, rfl⟩) fun _ => ?_
    refine hchange.bind (hchange.except _) fun image => ?_
    refine hchange.bind (hchange.except _) fun picture => ?_
    refine hchange.bind (hchange.except _) fun colors => ?_
    refine hchange.bind (onTables_sameTilesets _) fun _ => ?_
    exact hchange.bind (onTables_sameTilesets _) fun _ => hchange.pure _

/-- The words of the tiles with outlines. -/
def wordsOf (loaded : List (UInt32 × Tile × Option UInt16)) : List (UInt32 × UInt16) :=
  loaded.filterMap fun entry => entry.2.2.map fun word => (entry.1, word)

/-- What is remembered of the tiles. -/
def tilesOf (loaded : List (UInt32 × Tile × Option UInt16)) : List (UInt32 × Tile) :=
  loaded.foldl (fun tiles entry => putEntry entry.1 entry.2.1 tiles) []

variable {path fileName : String} {file : TilesetFile} {index image : UInt16} {tileset : Tileset}
  {loaded : List (UInt32 × Tile × Option UInt16)}

theorem storeTileset_sameTilesets {e : Failure}
    (h : Fails (storeTileset file fileName index image loaded) q e r) : SameTilesets q r := by
  obtain h | ⟨header, _, hheader, h⟩ := fails_bind.1 h
  · exact congrArg Project.tilesets (fails_except.1 h).2.symm
  obtain ⟨-, rfl⟩ := yields_except.1 hheader
  obtain h | ⟨shapes, _, hshapes, h⟩ := fails_bind.1 h
  · exact congrArg Project.tilesets (fails_except.1 h).2.symm
  obtain ⟨-, rfl⟩ := yields_except.1 hshapes
  obtain h | ⟨_, _, -, h⟩ := fails_bind.1 h
  · exact Moves.of_outcome (onTables_sameTilesets _ _ trivial).2 h
  obtain h | ⟨_, _, -, h⟩ := fails_bind.1 h
  · exact (fails_modify.1 h).elim
  · exact (fails_pure.1 h).elim

theorem yields_storeTileset
    (h : Yields (storeTileset file fileName index image loaded) q tileset r) :
    ∃ header shapes,
      encodeTilesetHeader file (Text.stem fileName) s!"tileset \"{fileName}\"" image = .ok header ∧
      encodeShapes file.tileCount.toNat (wordsOf loaded) = .ok shapes ∧
      tileset = ⟨Text.stem fileName, index, file.tileCount, tilesOf loaded⟩ ∧
      r = { q.fill .tilesets index.toNat (header ++ shapes) with
        tilesets := q.tilesets.put fileName tileset } := by
  simp only [storeTileset, yields_bind, yields_except, yields_onTables, Tables.yields_fill,
    yields_modify, yields_pure] at h
  obtain ⟨header, _, ⟨hheader, rfl⟩, shapes, _, ⟨hshapes, rfl⟩, _, _, ⟨_, ⟨-, rfl⟩, rfl⟩, _, _, rfl,
    rfl, rfl⟩ := h
  exact ⟨header, shapes, hheader, hshapes, rfl, rfl⟩

/-- The ways in which a load can go. -/
inductive LoadCases (input : Input) (path : String) (p : Project) :
    Except Failure Tileset × Project → Prop
  /-- The tileset has been loaded. -/
  | known (tileset : Tileset) (h : p.tilesets.find? (Text.baseName path) = some tileset) :
      LoadCases input path p (.ok tileset, p)
  /-- The load fails, and no tileset is remembered. -/
  | failed (e : Failure) (q : Project) (new : p.tilesets.find? (Text.baseName path) = none)
      (h : SameTilesets p q) : LoadCases input path p (.error e, q)
  /-- The tileset is loaded, and is the only one that is remembered. -/
  | loaded (file : TilesetFile) (index image : UInt16)
      (loaded : List (UInt32 × Tile × Option UInt16)) (q : Project) (tileset : Tileset)
      (r : Project) (due : RecordDue input path p file index image loaded q)
      (h : SameTilesets p q)
      (stored : Yields (storeTileset file (Text.baseName path) index image loaded) q tileset r) :
      LoadCases input path p (.ok tileset, r)

theorem loadTileset_cases (input : Input) (path : String) (p : Project) :
    LoadCases input path p (outcome (loadTileset input path) p) := by
  unfold loadTileset
  rw [outcome_bind, outcome_get]
  dsimp only
  cases hnew : p.tilesets.find? (Text.baseName path) with
  | some tileset => exact .known tileset hnew
  | none =>
    dsimp only
    apply outcome_except_cases
    · exact fun e _ => .failed e p hnew rfl
    intro file hread
    split
    · exact .failed _ p hnew rfl
    next hnonzero =>
    apply outcome_bind_cases
    · exact fun e q h => .failed e q hnew (Moves.of_outcome (onTables_sameTilesets _ p trivial).2 h)
    intro index p₁ hreserve
    have hsame₁ : SameTilesets p p₁ :=
      Moves.of_yields (onTables_sameTilesets _ p trivial).2 hreserve
    have htiles : Moves SameTilesets (file.tiles.mapM fun tile => do
        return (tile.id, ← loadTile file index s!"tileset \"{Text.baseName path}\"" tile)) p₁ :=
      (loadTiles_alike change_sameTilesets (fun _ _ _ _ => onTables_sameTilesets _) file index _ p₁
        trivial).2
    apply outcome_bind_cases
    · exact fun e q h => .failed e q hnew ((htiles.of_outcome h).trans hsame₁)
    intro loaded p₂ hloaded
    have hsame₂ : SameTilesets p p₂ := (htiles.of_yields hloaded).trans hsame₁
    have himage : Moves SameTilesets (loadImage input file.image (layoutOf file)) p₂ :=
      loadImage_sameTilesets _ _ _
    apply outcome_bind_cases
    · exact fun e q h => .failed e q hnew ((himage.of_outcome h).trans hsame₂)
    intro image p₃ hpicture
    have hsame₃ : SameTilesets p p₃ := (himage.of_yields hpicture).trans hsame₂
    change LoadCases input path p
      (outcome (storeTileset file (Text.baseName path) index image loaded) p₃)
    rcases hstored : outcome (storeTileset file (Text.baseName path) index image loaded) p₃ with
      ⟨e | tileset, r⟩
    · exact .failed e r hnew ((storeTileset_sameTilesets hstored).trans hsame₃)
    · exact .loaded file index image loaded p₃ tileset r ⟨hnew, liftM_eq_ok.1 hread, hnonzero, p₁,
        p₂, hreserve, hloaded, hpicture⟩ hsame₃ hstored

namespace LoadCases

variable {result : Except Failure Tileset × Project} {name : String}

/-- What is remembered stays. -/
theorem kept (h : LoadCases input path p result) (hname : p.tilesets.find? name = some tileset) :
    result.2.tilesets.find? name = some tileset := by
  cases h with
  | known other hother => exact hname
  | failed e q hnew hsame => rw [hsame, hname]
  | loaded file index image loaded q other r hdue hsame hstored =>
    obtain ⟨_, _, -, -, -, rfl⟩ := yields_storeTileset hstored
    have hne : name ≠ Text.baseName path := by
      rintro rfl
      cases hdue.new.symm.trans hname
    rw [Ordered.find?_put, if_neg hne, hsame, hname]

/-- Nothing is remembered under other names. -/
theorem others (h : LoadCases input path p result) (hname : name ≠ Text.baseName path) :
    result.2.tilesets.find? name = p.tilesets.find? name := by
  cases h with
  | known other hother => rfl
  | failed e q hnew hsame => rw [hsame]
  | loaded file index image loaded q other r hdue hsame hstored =>
    obtain ⟨_, _, -, -, -, rfl⟩ := yields_storeTileset hstored
    rw [Ordered.find?_put, if_neg hname, hsame]

theorem found (h : LoadCases input path p result) (hok : result.1 = .ok tileset) :
    result.2.tilesets.find? (Text.baseName path) = some tileset := by
  cases h with
  | known other hother =>
    cases hok
    exact hother
  | failed e q hnew hsame => cases hok
  | loaded file index image loaded q other r hdue hsame hstored =>
    cases hok
    obtain ⟨_, _, -, -, -, rfl⟩ := yields_storeTileset hstored
    rw [Ordered.find?_put, if_pos rfl]

end LoadCases

theorem loadTileset_known (h : p.tilesets.find? (Text.baseName path) = some tileset) :
    outcome (loadTileset input path) p = (.ok tileset, p) := by
  have hcases := loadTileset_cases input path p
  generalize outcome (loadTileset input path) p = result at hcases
  cases hcases with
  | known other hother => rw [← Option.some.inj (h.symm.trans hother)]
  | failed e q hnew => cases hnew.symm.trans h
  | loaded file index image loaded q other r hdue => cases hdue.new.symm.trans h

/-- All tilesets that were remembered still are. -/
def KeepsTilesets (p q : Project) : Prop := ∀ name tileset,
  p.tilesets.find? name = some tileset → q.tilesets.find? name = some tileset

theorem SameTilesets.keeps (h : SameTilesets p q) : KeepsTilesets p q := by
  intro name tileset hname
  rwa [h]

theorem KeepsTilesets.trans (hpq : KeepsTilesets p q) (hqr : KeepsTilesets q r) :
    KeepsTilesets p r := fun name tileset h => hqr name tileset (hpq name tileset h)

theorem loadTileset_remembers (h : Yields (loadTileset input path) p tileset q) :
    KeepsTilesets p q ∧ q.tilesets.find? (Text.baseName path) = some tileset := by
  have hcases := loadTileset_cases input path p
  rw [show outcome (loadTileset input path) p = (.ok tileset, q) from h] at hcases
  exact ⟨fun _ _ => hcases.kept, hcases.found rfl⟩

theorem afterLoads_remembers (paths : List String) :
    KeepsTilesets p (afterLoads input p paths) := by
  intro name tileset h
  induction paths using List.reverseRecOn with
  | nil => exact h
  | append_singleton paths path ih =>
    rw [afterLoads_snoc]
    exact (loadTileset_cases input path _).kept ih

/-! ## Outlines and animations of tiles -/

section Tiles

variable {tile : TileDef} {context : String} {before after : Tables}

/-- All records stay but those of tilesets. -/
def PartsKept (s t : Tables) : Prop := ∀ kind, kind ≠ .tilesets → ∀ (i : Nat) (record : Record),
  (s.records kind)[i]? = some record → (t.records kind)[i]? = some record

theorem Tables.Kept.parts (h : before.Kept after) : PartsKept before after := fun kind _ => h kind

/-- One less than the word is the number of the outline of the object. -/
def OutlineAt (tables : Tables) (word : UInt16) (object : Tiled.Object) : Prop :=
  ∃ g bytes, word.toNat = g + 1 ∧ Outline.encodeObject object = .ok bytes ∧
    (tables.records .geometry)[g]? = some ⟨object.name, some bytes⟩

/-- The record of an animation names its tileset, and has its frames one behind the other. -/
structure AnimationTold (tileset : UInt16) (frames : List Tiled.Frame) (bytes : Bytes) : Prop where
  size : bytes.size = 4 + 4 * frames.length
  tileset : bytes.word? 0 = some tileset
  count : bytes.slot? 2 2 = some frames.length
  frames : ∀ i frame, frames[i]? = some frame →
    bytes.slot? (4 + 4 * i) 2 = some frame.tileId.toNat ∧
      bytes.slot? (6 + 4 * i) 2 = some frame.duration.toNat

theorem encodeAnimation_told {tileset : UInt16} {frames : List Tiled.Frame} {bytes : Bytes}
    (h : encodeAnimation tileset frames context = .ok bytes) (hfew : frames.length < UInt32.size) :
    AnimationTold tileset frames bytes := by
  obtain ⟨⟨htileset, -, hcount, hcountFits, -⟩, hframes⟩ :=
    Bytes.hasFields_append.1 (Record.hasFields_of_encode h)
  rw [Nat.mod_eq_of_lt hfew] at hcount hcountFits
  exact {
    size := by
      rw [Record.size_of_encode h, paddedLength_of_dvd (by omega)]
    tileset := Bytes.HasAt.word? htileset
    count := Bytes.HasAt.slot? (by decide) hcount hcountFits
    frames := fun i frame hi => by
      obtain ⟨hid, hidFits, hduration, hdurationFits, -⟩ := hframes.item 4 (fun _ _ => rfl) hi
      have hslot : bytes.slot? (4 + 4 * i + 2) 2 = some frame.duration.toNat :=
        Bytes.HasAt.slot? (by decide) hduration hdurationFits
      rw [Nat.add_right_comm] at hslot
      exact ⟨Bytes.HasAt.slot? (by decide) hid hidFits, hslot⟩ }

/-- The animation is a record that was not there before, and has these frames. -/
def AnimationAt (tileset : UInt16) (before tables : Tables) (index : UInt16)
    (frames : List Tiled.Frame) : Prop :=
  before.count .animations ≤ index.toNat ∧
    ∃ name bytes, (tables.records .animations)[index.toNat]? = some ⟨name, some bytes⟩ ∧
      (frames.length < UInt32.size → AnimationTold tileset frames bytes)

/-- A tile has no outline and no word, or the word of its only outline. -/
def ShapeLoaded (file : TilesetFile) (tables : Tables) (tile : TileDef) (shape : Option UInt16) :
    Prop :=
  (tile.objects = [] ∧ shape = none) ∨ ∃ object word, tile.objects = [object] ∧
    shape = some word ∧ tile.id.toNat < file.tileCount.toNat ∧ OutlineAt tables word object

/-- A tile has no frames and no animation, or the animation of its frames. -/
def AnimationLoaded (tileset : UInt16) (before tables : Tables) (tile : TileDef)
    (animation : Option UInt16) : Prop :=
  (tile.frames = [] ∧ animation = none) ∨ ∃ index, tile.frames ≠ [] ∧ animation = some index ∧
    AnimationAt tileset before tables index tile.frames

/-- What was loaded for a tile. -/
structure TileLoaded (file : TilesetFile) (tileset : UInt16) (before tables : Tables)
    (tile : TileDef) (entry : UInt32 × Tile × Option UInt16) : Prop where
  id : entry.1 = tile.id
  shape : ShapeLoaded file tables tile entry.2.2
  animation : AnimationLoaded tileset before tables tile entry.2.1.animation

theorem OutlineAt.mono {word : UInt16} {object : Tiled.Object} (h : OutlineAt before word object)
    (hkept : PartsKept before after) : OutlineAt after word object := by
  obtain ⟨g, bytes, hword, hbytes, hrecord⟩ := h
  exact ⟨g, bytes, hword, hbytes, hkept _ (by decide) _ _ hrecord⟩

theorem ShapeLoaded.mono {shape : Option UInt16} (h : ShapeLoaded file before tile shape)
    (hkept : PartsKept before after) : ShapeLoaded file after tile shape := by
  obtain hnone | ⟨object, word, hobject, hword, hlt, hat⟩ := h
  · exact .inl hnone
  · exact .inr ⟨object, word, hobject, hword, hlt, hat.mono hkept⟩

theorem AnimationAt.mono {first tables : Tables} {tileset index : UInt16}
    {frames : List Tiled.Frame} (h : AnimationAt tileset before tables index frames)
    (hbefore : first.Kept before) (hafter : PartsKept tables after) :
    AnimationAt tileset first after index frames := by
  obtain ⟨hnew, name, bytes, hrecord, htold⟩ := h
  exact ⟨Nat.le_trans (hbefore.count_le _) hnew, name, bytes, hafter _ (by decide) _ _ hrecord,
    htold⟩

theorem AnimationLoaded.mono {first tables : Tables} {tileset : UInt16} {animation : Option UInt16}
    (h : AnimationLoaded tileset before tables tile animation) (hbefore : first.Kept before)
    (hafter : PartsKept tables after) : AnimationLoaded tileset first after tile animation := by
  obtain hnone | ⟨index, hframes, hindex, hat⟩ := h
  · exact .inl hnone
  · exact .inr ⟨index, hframes, hindex, hat.mono hbefore hafter⟩

theorem AnimationAt.lt {tileset index : UInt16} {frames : List Tiled.Frame}
    (h : AnimationAt tileset before after index frames) :
    index.toNat < after.count .animations := by
  obtain ⟨-, name, bytes, hrecord, -⟩ := h
  exact (Array.getElem?_eq_some_iff.1 hrecord).1

theorem TileLoaded.mono {first tables : Tables} {tileset : UInt16}
    {entry : UInt32 × Tile × Option UInt16} (h : TileLoaded file tileset before tables tile entry)
    (hbefore : first.Kept before) (hafter : PartsKept tables after) :
    TileLoaded file tileset first after tile entry where
  id := h.id
  shape := h.shape.mono hafter
  animation := h.animation.mono hbefore hafter

theorem yields_addOutline {object : Tiled.Object} {g : UInt16}
    (h : Yields (addOutline object) p g q) :
    ∃ bytes, Outline.encodeObject object = .ok bytes ∧ g.toNat = p.tables.count .geometry ∧
      q = p.add .geometry ⟨object.name, some bytes⟩ := by
  simp only [addOutline, yields_bind, yields_except, yields_onTables, Tables.yields_push] at h
  obtain ⟨bytes, _, ⟨hbytes, rfl⟩, _, ⟨hroom, rfl, rfl⟩, rfl⟩ := h
  exact ⟨bytes, hbytes, UInt16.toNat_ofNat_of_lt' hroom, rfl⟩

theorem loadShape_told {shape : Option UInt16}
    (h : Yields (loadShape file tile context) p shape q) :
    ShapeLoaded file q.tables tile shape := by
  unfold ShapeLoaded Tiled.TileDef.objects
  unfold loadShape at h
  split at h
  · next hnone =>
    rw [hnone]
    exact .inl ⟨rfl, (yields_pure.1 h).1.symm⟩
  · next hempty =>
    rw [hempty]
    exact .inl ⟨rfl, (yields_pure.1 h).1.symm⟩
  · next object hobject =>
    split at h
    · obtain ⟨_, _, hnone, -⟩ := yields_bind.1 h
      exact (yields_reject.1 hnone).elim
    next hwithin =>
    simp only [yields_bind, yields_except, liftM_eq_ok, yields_pure] at h
    obtain ⟨g, _, houtline, word, _, ⟨hword, rfl⟩, rfl, rfl⟩ := h
    obtain ⟨bytes, hbytes, hg, rfl⟩ := yields_addOutline houtline
    rw [hobject]
    refine .inr ⟨object, word, rfl, rfl, UInt32.lt_iff_toNat_lt.1 (UInt32.not_le.1 hwithin),
      p.tables.count .geometry, bytes, by rw [outlineWord_eq_ok hword, hg], hbytes, ?_⟩
    rw [Project.add, Tables.getElem?_records_add, if_pos ⟨rfl, rfl⟩]
  · exact (yields_reject.1 h).elim

theorem loadAnimation_told {tileset : UInt16} {animation : Option UInt16}
    (h : Yields (loadAnimation tileset tile context) p animation q) :
    AnimationLoaded tileset p.tables q.tables tile animation := by
  unfold AnimationLoaded Tiled.TileDef.frames
  unfold loadAnimation at h
  split at h
  · next hnone =>
    rw [hnone]
    exact .inl ⟨rfl, (yields_pure.1 h).1.symm⟩
  · next hempty =>
    rw [hempty]
    exact .inl ⟨rfl, (yields_pure.1 h).1.symm⟩
  · next frames hnonempty hframes =>
    simp only [yields_bind, yields_except, yields_onTables, Tables.yields_push, yields_pure] at h
    obtain ⟨bytes, _, ⟨hbytes, rfl⟩, index, _, ⟨_, ⟨hroom, rfl, rfl⟩, rfl⟩, rfl, rfl⟩ := h
    rw [hframes]
    have hindex : (UInt16.ofNat (p.tables.count .animations)).toNat =
      p.tables.count .animations := UInt16.toNat_ofNat_of_lt' hroom
    refine .inr ⟨_, hnonempty, rfl, hindex.ge,
      context, bytes, ?_, encodeAnimation_told hbytes⟩
    rw [hindex, Tables.getElem?_records_add, if_pos ⟨rfl, rfl⟩]

theorem loadTile_told {tileset : UInt16} {loaded : Tile × Option UInt16}
    (h : Yields (loadTile file tileset context tile) p loaded q) :
    p.tables.Kept q.tables ∧
      TileLoaded file tileset p.tables q.tables tile (tile.id, loaded.1, loaded.2) := by
  simp only [loadTile, yields_bind, yields_get, yields_except, liftM_eq_ok, yields_pure] at h
  obtain ⟨_, _, ⟨rfl, rfl⟩, properties, _, ⟨-, rfl⟩, shape, u, hshape, animation, _, hanimation,
    rfl, rfl⟩ := h
  have hkept := (loadShape_adds _ _ _ _).kept_of_yields hshape (.refl _)
  have hkept' := (loadAnimation_adds _ _ _ _).kept_of_yields hanimation (.refl _)
  exact ⟨hkept.trans hkept', rfl, (loadShape_told hshape).mono hkept'.parts,
    (loadAnimation_told hanimation).mono hkept (Tables.Kept.refl _).parts⟩

/-- The two have no animation in common. -/
def AnimationsApart (a b : UInt32 × Tile × Option UInt16) : Prop :=
  ∀ index, a.2.1.animation = some index → b.2.1.animation ≠ some index

instance : Std.Symm AnimationsApart := ⟨fun _ _ h index hb ha => h index ha hb⟩

/-- The induction is on the tiles that are still to be loaded. What is stored for the first of them
    is there before the others are begun. -/
theorem loadTiles_told {tileset : UInt16} {tiles : List TileDef}
    (h : Yields (tiles.mapM fun tile => do
      return (tile.id, ← loadTile file tileset context tile)) p loaded q) :
    p.tables.Kept q.tables ∧
      List.Forall₂ (TileLoaded file tileset p.tables q.tables) tiles loaded ∧
      loaded.Pairwise AnimationsApart := by
  induction tiles generalizing p loaded with
  | nil =>
    obtain ⟨rfl, rfl⟩ := yields_pure.1 h
    exact ⟨.refl _, .nil, .nil⟩
  | cons tile rest ih =>
    simp only [List.mapM_cons, yields_bind, yields_pure] at h
    obtain ⟨_, r, ⟨result, _, hfirst, rfl, rfl⟩, others, _, hrest, rfl, rfl⟩ := h
    obtain ⟨hkept, hloaded⟩ := loadTile_told hfirst
    obtain ⟨hkept', hall, hapart⟩ := ih hrest
    refine ⟨hkept.trans hkept', .cons (hloaded.mono (.refl _) hkept'.parts)
      (hall.imp fun _ _ hother => hother.mono hkept (Tables.Kept.refl _).parts), .cons ?_ hapart⟩
    intro other hother m hm hn
    obtain ⟨_, -, hotherLoaded⟩ := exists_of_mem_forall₂ hall hother
    obtain ⟨-, hnone⟩ | ⟨index, -, hindex, hat⟩ := hloaded.animation
    · cases hnone.symm.trans hm
    obtain ⟨-, hnone⟩ | ⟨index', -, hindex', hat'⟩ := hotherLoaded.animation
    · cases hnone.symm.trans hn
    obtain rfl := Option.some.inj (hindex.symm.trans hm)
    obtain rfl := Option.some.inj (hindex'.symm.trans hn)
    exact absurd hat.lt (Nat.not_lt.2 hat'.1)


end Tiles

/-! ## Words and tiles by number -/

theorem encodeShapes_words {tileCount : Nat} {shapes : List (UInt32 × UInt16)} {bytes : Bytes}
    (h : encodeShapes tileCount shapes = .ok bytes) (hdifferent : (shapes.map Prod.fst).Nodup) :
    bytes.size = paddedLength (2 * tileCount) ∧
      (∀ shape ∈ shapes, bytes.word? (2 * shape.1.toNat) = some shape.2) ∧
      ∀ t, 2 * t < paddedLength (2 * tileCount) → (∀ shape ∈ shapes, shape.1.toNat ≠ t) →
        bytes.word? (2 * t) = some 0 := by
  obtain ⟨hsize, hwords⟩ := patchWords_spec h
  rw [Array.size_replicate] at hsize
  refine ⟨hsize, fun shape hshape => ?_, fun t ht hfree => ?_⟩
  · rcases hwords shape.1.toNat with ⟨other, hother, hid, hword⟩ | ⟨hnone, -⟩
    · -- of two words for one tile the second would stand; there is only one
      obtain rfl := List.inj_on_of_nodup_map hdifferent hother hshape (UInt32.toNat_inj.1 hid)
      exact hword
    · exact absurd rfl (hnone shape hshape)
  · have hpadded := four_dvd_paddedLength (2 * tileCount)
    rcases hwords t with ⟨shape, hshape, hid, -⟩ | ⟨-, hkept⟩
    · exact absurd hid (hfree shape hshape)
    · exact hkept.trans (Bytes.word?_replicate (by omega))

theorem mem_wordsOf {shape : UInt32 × UInt16} :
    shape ∈ wordsOf loaded ↔ ∃ entry ∈ loaded, entry.1 = shape.1 ∧ entry.2.2 = some shape.2 := by
  obtain ⟨id, word⟩ := shape
  simp [wordsOf, and_comm]

/-- There is one word for a tile if it is listed once. -/
theorem nodup_wordsOf (h : (loaded.map Prod.fst).Nodup) :
    ((wordsOf loaded).map Prod.fst).Nodup := by
  have hsublist : ((wordsOf loaded).map Prod.fst).Sublist (loaded.map Prod.fst) := by
    induction loaded with
    | nil => exact .slnil
    | cons entry rest ih =>
      rw [List.map_cons, List.nodup_cons] at h
      rw [wordsOf, List.filterMap_cons]
      cases entry.2.2 with
      | none => exact (ih h.2).cons _
      | some word => exact (ih h.2).cons_cons _
  exact h.sublist hsublist

/-- Tiles that are not listed do not change. -/
theorem lookup_foldl_of_notMem {id : UInt32} (h : id ∉ loaded.map Prod.fst)
    (tiles : List (UInt32 × Tile)) :
    (loaded.foldl (fun tiles entry => putEntry entry.1 entry.2.1 tiles) tiles).lookup id =
      tiles.lookup id := by
  induction loaded generalizing tiles with
  | nil => rfl
  | cons first rest ih =>
    rw [List.map_cons, List.mem_cons, not_or] at h
    rw [List.foldl_cons, ih h.2, lookup_putEntry, if_neg h.1]

theorem lookup_tilesOf (hdifferent : (loaded.map Prod.fst).Nodup)
    {entry : UInt32 × Tile × Option UInt16} (h : entry ∈ loaded) :
    (tilesOf loaded).lookup entry.1 = some entry.2.1 := by
  obtain ⟨earlier, later, rfl⟩ := List.append_of_mem h
  rw [List.map_append, List.map_cons, List.nodup_append, List.nodup_cons] at hdifferent
  rw [tilesOf, List.foldl_append, List.foldl_cons, lookup_foldl_of_notMem hdifferent.2.1.1,
    lookup_putEntry, if_pos rfl]

/-! ## What a record says about its tiles -/

/-- What the record of a tileset says about the outlines of its tiles. -/
structure ShapesTold (file : TilesetFile) (tables : Tables) (bytes : Bytes) : Prop where
  /-- A header of 32 bytes, and a word for each tile behind it. -/
  size : bytes.size = 32 + paddedLength (2 * file.tileCount.toNat)
  /-- The word of a tile with an object leads to the outline of this object. -/
  drawn : ∀ tile ∈ file.tiles, ∀ object, tile.objects = [object] →
    ∃ word, bytes.word? (32 + 2 * tile.id.toNat) = some word ∧ OutlineAt tables word object
  /-- The word of any other tile is zero. -/
  bare : ∀ t, 2 * t < paddedLength (2 * file.tileCount.toNat) →
    (∀ tile ∈ file.tiles, tile.id.toNat = t → tile.objects = []) →
      bytes.word? (32 + 2 * t) = some 0

/-- A tile may have one object, and only if the tileset has the tile. -/
def Tiled.TilesetFile.Drawn (file : TilesetFile) : Prop :=
  ∀ tile ∈ file.tiles, tile.objects = [] ∨
    (∃ object, tile.objects = [object]) ∧ tile.id.toNat < file.tileCount.toNat

/-- What is stored and remembered of a tileset that was loaded from a file. -/
structure TilesetTold (file : TilesetFile) (before : Tables) (tileset : Tileset) (tables : Tables) :
    Prop where
  new : tileset.index.toNat = before.count .tilesets
  record : ∃ bytes, (tables.records .tilesets)[tileset.index.toNat]? =
    some ⟨tileset.name, some bytes⟩ ∧ ShapesTold file tables bytes
  /-- An animated tile is known with the record of its animation. -/
  animated : ∀ tile ∈ file.tiles, tile.frames ≠ [] → ∃ known index,
    tileset.tile? tile.id = some known ∧ known.animation = some index ∧
      AnimationAt tileset.index before tables index tile.frames
  still : ∀ id, (∀ tile ∈ file.tiles, tile.id = id → tile.frames = []) →
    tileset.animation? id = none
  /-- No two tiles have one animation. -/
  own : ∀ a b index, tileset.animation? a = some index → tileset.animation? b = some index → a = b

section Records

variable {before tables : Tables}

theorem ShapesTold.mono {after : Tables} {bytes : Bytes} (h : ShapesTold file tables bytes)
    (hkept : tables.Kept after) : ShapesTold file after bytes where
  size := h.size
  drawn tile htile object hobject := by
    obtain ⟨word, hword, hat⟩ := h.drawn tile htile object hobject
    exact ⟨word, hword, hat.mono hkept.parts⟩
  bare := h.bare

theorem TilesetTold.mono {after : Tables} (h : TilesetTold file before tileset tables)
    (hkept : tables.Kept after) : TilesetTold file before tileset after where
  new := h.new
  record := by
    obtain ⟨bytes, hrecord, hshapes⟩ := h.record
    exact ⟨bytes, hkept _ _ _ hrecord, hshapes.mono hkept⟩
  animated tile htile hframes := by
    obtain ⟨known, index, hknown, hindex, hat⟩ := h.animated tile htile hframes
    exact ⟨known, index, hknown, hindex, hat.mono (.refl _) hkept.parts⟩
  still := h.still
  own := h.own

theorem drawn_of_loaded
    (hall : List.Forall₂ (TileLoaded file index before tables) file.tiles loaded) :
    file.Drawn := by
  intro tile htile
  obtain ⟨entry, -, hentry⟩ := exists_of_mem_forall₂ hall.flip htile
  obtain ⟨hnone, -⟩ | ⟨object, word, hobject, -, hlt, -⟩ := hentry.shape
  · exact .inl hnone
  · exact .inr ⟨⟨object, hobject⟩, hlt⟩

/-- The words lie behind the header. -/
theorem shapesTold_of_loaded {header shapes : Bytes}
    (hall : List.Forall₂ (TileLoaded file index before tables) file.tiles loaded)
    (hdifferent : (loaded.map Prod.fst).Nodup) (hheader : header.size = 32)
    (hshapes : encodeShapes file.tileCount.toNat (wordsOf loaded) = .ok shapes) :
    ShapesTold file tables (header ++ shapes) := by
  obtain ⟨hsize, hwords, hzero⟩ := encodeShapes_words hshapes (nodup_wordsOf hdifferent)
  have hat : Bytes.HasAt (header ++ shapes) 32 shapes.toList := by
    rw [← hheader]
    exact Bytes.hasAt_append_last header shapes
  refine ⟨by rw [Array.size_append, hheader, hsize], fun tile htile object hobject => ?_,
    fun t ht hbare => Bytes.word?_within (hzero t ht fun shape hshape hid => ?_) hat⟩
  · obtain ⟨entry, hmem, hentry⟩ := exists_of_mem_forall₂ hall.flip htile
    obtain ⟨hnone, -⟩ | ⟨other, word, hother, hword, -, houtline⟩ := hentry.shape
    · cases hnone.symm.trans hobject
    obtain rfl : other = object := List.head_eq_of_cons_eq (hother.symm.trans hobject)
    have hin : (tile.id, word) ∈ wordsOf loaded := mem_wordsOf.2 ⟨entry, hmem, hentry.id, hword⟩
    exact ⟨word, Bytes.word?_within (hwords _ hin) hat, houtline⟩
  · obtain ⟨entry, hmem, hentryId, hword⟩ := mem_wordsOf.1 hshape
    obtain ⟨tile, htile, hentry⟩ := exists_of_mem_forall₂ hall hmem
    obtain ⟨-, hnone⟩ | ⟨object, word, hobject, -⟩ := hentry.shape
    · cases hnone.symm.trans hword
    · have hnone := hbare tile htile (by rw [← hentry.id, hentryId, hid])
      cases hnone.symm.trans hobject

/-- What is known about a tile is what was loaded for it. -/
theorem tile?_of_loaded (name : String) (index : UInt16) (count : UInt32)
    (hdifferent : (loaded.map Prod.fst).Nodup) {entry : UInt32 × Tile × Option UInt16}
    (h : entry ∈ loaded) :
    (⟨name, index, count, tilesOf loaded⟩ : Tileset).tile? entry.1 = some entry.2.1 :=
  lookup_tilesOf hdifferent h

/-- And nothing else is known. -/
theorem entry_of_animation? {name : String} {count id : UInt32} {animation : UInt16}
    (h : (⟨name, index, count, tilesOf loaded⟩ : Tileset).animation? id = some animation) :
    ∃ entry ∈ loaded, entry.1 = id ∧ entry.2.1.animation = some animation := by
  obtain ⟨known, hknown, hanimation⟩ := Option.bind_eq_some_iff.1 h
  obtain ⟨shape, hmem⟩ := lookup_tiles hknown
  exact ⟨_, hmem, rfl, hanimation⟩

theorem tilesetTold_of_due (hdue : RecordDue input path p file index image loaded q)
    (hstored : Yields (storeTileset file (Text.baseName path) index image loaded) q tileset r) :
    file.Drawn ∧
      ((file.tiles.map TileDef.id).Nodup → TilesetTold file p.tables tileset r.tables) := by
  obtain ⟨p₁, p₂, hreserve, htiles, himage⟩ := hdue.steps
  simp only [yields_onTables, Tables.yields_reserve] at hreserve
  obtain ⟨_, ⟨hroom, rfl, rfl⟩, rfl⟩ := hreserve
  obtain ⟨hkept, hall, hapart⟩ := loadTiles_told htiles
  have hkept' : p₂.tables.Kept q.tables :=
    (loadImage_adds _ _ _).kept_of_yields himage (.refl _)
  obtain ⟨header, shapes, hheader, hshapes, rfl, rfl⟩ := yields_storeTileset hstored
  refine ⟨drawn_of_loaded hall, fun hdifferent => ?_⟩
  -- only the record of the tileset itself is filled after its tiles
  have hparts : PartsKept p₂.tables
      (q.fill .tilesets (UInt16.ofNat (p.tables.count .tilesets)).toNat
        (header ++ shapes)).tables := by
    intro kind hkind i record hrecord
    rw [Project.fill, Tables.records_set_of_ne hkind]
    exact hkept' _ _ _ hrecord
  have hafter := hall.imp fun _ _ h => h.mono ((Tables.Kept.refl _).add _ _) hparts
  have hids : loaded.map Prod.fst = file.tiles.map TileDef.id :=
    map_eq_of_forall₂ (hall.imp fun _ _ h => h.id)
  rw [← hids] at hdifferent
  have hindex : (UInt16.ofNat (p.tables.count .tilesets)).toNat = p.tables.count .tilesets :=
    UInt16.toNat_ofNat_of_lt' hroom
  exact {
    new := hindex
    record := by
      have hclaimed : ((p.tables.add .tilesets ⟨Text.stem (Text.baseName path), none⟩).records
          .tilesets)[p.tables.count .tilesets]? = some ⟨Text.stem (Text.baseName path), none⟩ := by
        rw [Tables.getElem?_records_add, if_pos ⟨rfl, rfl⟩]
      refine ⟨header ++ shapes, ?_, shapesTold_of_loaded hafter hdifferent
        (encodeTilesetHeader_spec hheader).1 hshapes⟩
      rw [Project.fill, hindex, Tables.getElem?_records_set, if_pos rfl,
        hkept' _ _ _ (hkept _ _ _ hclaimed), Option.map_some]
    animated := by
      intro tile htile hframes
      obtain ⟨entry, hmem, hentry⟩ := exists_of_mem_forall₂ hafter.flip htile
      obtain ⟨hnone, -⟩ | ⟨animation, -, hanimation, hat⟩ := hentry.animation
      · exact absurd hnone hframes
      · have hknown := tile?_of_loaded (Text.stem (Text.baseName path))
          (UInt16.ofNat (p.tables.count .tilesets)) file.tileCount hdifferent hmem
        rw [hentry.id] at hknown
        exact ⟨entry.2.1, animation, hknown, hanimation, hat⟩
    still := by
      intro id hstill
      refine Option.eq_none_iff_forall_ne_some.2 fun animation hanimation => ?_
      obtain ⟨entry, hmem, rfl, hindex⟩ := entry_of_animation? hanimation
      obtain ⟨tile, htile, hentry⟩ := exists_of_mem_forall₂ hall hmem
      obtain ⟨-, hnone⟩ | ⟨_, hframes, -⟩ := hentry.animation
      · cases hnone.symm.trans hindex
      · exact hframes (hstill tile htile hentry.id.symm)
    own := by
      intro a b animation ha hb
      obtain ⟨first, hfirst, rfl, hfirstIndex⟩ := entry_of_animation? ha
      obtain ⟨second, hsecond, rfl, hsecondIndex⟩ := entry_of_animation? hb
      by_contra hne
      exact hapart.forall hfirst hsecond (fun heq => hne (congrArg Prod.fst heq)) animation
        hfirstIndex hsecondIndex }

end Records

/-! ## The main result -/

/-- What becomes of the loads of a file that has not been loaded yet. -/
structure LoadsTold (input : Input) (path : String) (p : Project) : Prop where
  /-- What is stored then stays there, whatever else is loaded. -/
  loaded : ∀ tileset q, Yields (loadTileset input path) p tileset q → ∃ file,
    readJson input.source TilesetFile.decode (Text.baseName path) = .ok file ∧
      ((file.tiles.map TileDef.id).Nodup → ∀ more,
        TilesetTold file p.tables tileset (afterLoads input q more).tables)
  /-- A load under the same name finds the tileset and changes nothing. -/
  again : ∀ tileset q, Yields (loadTileset input path) p tileset q → ∀ more path',
    Text.baseName path' = Text.baseName path →
      outcome (loadTileset input path') (afterLoads input q more) =
        (.ok tileset, afterLoads input q more)
  /-- A file in which a tile has two objects, or one that the tileset has not has an object, is
      refused, however often it is asked for. -/
  refused : ∀ file, readJson input.source TilesetFile.decode (Text.baseName path) = .ok file →
    (∃ tile ∈ file.tiles, 2 ≤ tile.objects.length ∨
      tile.objects ≠ [] ∧ file.tileCount ≤ tile.id) → ∀ more path',
    Text.baseName path' = Text.baseName path →
      ∃ e, (outcome (loadTileset input path') (afterLoads input p more)).1 = .error e

theorem not_drawn (h : ∃ tile ∈ file.tiles, 2 ≤ tile.objects.length ∨
    tile.objects ≠ [] ∧ file.tileCount ≤ tile.id) : ¬file.Drawn := by
  obtain ⟨tile, htile, hwrong⟩ := h
  intro hdrawn
  obtain hnone | ⟨⟨object, hobject⟩, hlt⟩ := hdrawn tile htile
  · rw [hnone] at hwrong
    obtain hmany | ⟨hsome, -⟩ := hwrong
    · exact Nat.not_succ_le_zero _ hmany
    · exact hsome rfl
  · obtain hmany | ⟨-, houtside⟩ := hwrong
    · rw [hobject] at hmany
      exact Nat.not_succ_le_self 1 hmany
    · exact Nat.not_lt.2 (UInt32.le_iff_toNat_le.1 houtside) hlt

section Refused

variable (hread : readJson input.source TilesetFile.decode (Text.baseName path) = .ok file)
  (hdrawn : ¬file.Drawn)
include hread hdrawn

/-- Such a file is not loaded. -/
theorem fails_of_not_drawn (hnew : p.tilesets.find? (Text.baseName path) = none) :
    ∃ e q, SameTilesets p q ∧ outcome (loadTileset input path) p = (.error e, q) := by
  have hcases := loadTileset_cases input path p
  generalize outcome (loadTileset input path) p = result at hcases
  cases hcases with
  | known tileset hknown => cases hnew.symm.trans hknown
  | failed e q hnew hsame => exact ⟨e, q, hsame, rfl⟩
  | loaded other index image loaded q tileset r hdue hsame hstored =>
    obtain rfl := Except.ok.inj (hdue.read.symm.trans hread)
    exact absurd (tilesetTold_of_due hdue hstored).1 hdrawn

/-- The induction is on the loads, some of which may have been of this very file. -/
theorem afterLoads_refuses (hnew : p.tilesets.find? (Text.baseName path) = none)
    (paths : List String) :
    (afterLoads input p paths).tilesets.find? (Text.baseName path) = none := by
  induction paths using List.reverseRecOn with
  | nil => exact hnew
  | append_singleton paths other ih =>
    rw [afterLoads_snoc]
    by_cases hother : Text.baseName path = Text.baseName other
    · rw [hother] at hread ih ⊢
      obtain ⟨e, q, hsame, houtcome⟩ := fails_of_not_drawn hread hdrawn ih
      rw [houtcome, hsame, ih]
    · rw [(loadTileset_cases input other _).others hother, ih]

end Refused

/-- **The record of a tileset points at the data of its own tiles**, in whatever order they are
    listed, and a file is loaded at most once. -/
theorem tilesets_point_home (input : Input) (path : String) (p : Project)
    (hnew : p.tilesets.find? (Text.baseName path) = none) : LoadsTold input path p := by
  refine ⟨fun tileset q h => ?_, fun tileset q h more path' hpath => ?_,
    fun file hread hwrong more path' hpath => ?_⟩
  · have hcases := loadTileset_cases input path p
    rw [show outcome (loadTileset input path) p = (.ok tileset, q) from h] at hcases
    cases hcases with
    | known _ hknown => cases hnew.symm.trans hknown
    | loaded file index image loaded u _ _ hdue hsame hstored =>
      refine ⟨file, hdue.read, fun hdifferent more => ?_⟩
      have hkept : q.tables.Kept (afterLoads input q more).tables := afterLoads_kept input q [] more
      exact ((tilesetTold_of_due hdue hstored).2 hdifferent).mono hkept
  · have hfound : (afterLoads input q more).tilesets.find? (Text.baseName path) = some tileset :=
      afterLoads_remembers more _ _ (loadTileset_remembers h).2
    rw [← hpath] at hfound
    exact loadTileset_known hfound
  · rw [← hpath] at hread hnew
    obtain ⟨e, q, -, houtcome⟩ := fails_of_not_drawn hread (not_drawn hwrong)
      (afterLoads_refuses hread (not_drawn hwrong) hnew more)
    exact ⟨e, congrArg Prod.fst houtcome⟩

/-! ## An example -/

/-- A tileset of four tiles with one pixel each. -/
def groveFile (tiles : String) : ByteArray :=
  ("\x7b\"tilewidth\":1,\"tileheight\":1,\"tilecount\":4,\"columns\":1,\"image\":\"dot.png\"," ++
    "\"imagewidth\":1,\"imageheight\":1,\"tiles\":[" ++ tiles ++ "]\x7d").toUTF8

/-- A pond is drawn on tile 3, which is listed before the waves of tile 1. In the other tileset
    there are two ponds on one tile. -/
def grove : Input where
  source := .inMemory .none
    (.ofList [("grass.json", groveFile (
      "\x7b\"id\":3,\"objectgroup\":\x7b\"objects\":[\x7b\"point\":true\x7d]\x7d\x7d," ++
      "\x7b\"id\":1,\"animation\":[\x7b\"tileid\":1,\"duration\":9\x7d]\x7d")),
      ("twice.json", groveFile
        "\x7b\"id\":0,\"objectgroup\":\x7b\"objects\":[\x7b\x7d,\x7b\x7d]\x7d\x7d")])
    (.ofList [("dot.png", ⟨1, 1, 3, #[0, 0, 0]⟩)])
  definitions := {}

/-- The tiles that the grass lists, and the animation of its waves. -/
def groveTiles : Except Failure (List UInt32 × Option UInt16) := do
  let file ← readJson grove.source TilesetFile.decode "grass.json"
  let tileset ← (outcome (loadTileset grove "tilesets/grass.json") {}).1
  return (file.tiles.map TileDef.id, tileset.animation? 1)

theorem groveTiles_eq : groveTiles = .ok ([3, 1], some 0) := eq_ok_of_toOption (by decide +kernel)

/-- The tile of the other tileset has two objects. -/
theorem grove_twice : ∃ file, readJson grove.source TilesetFile.decode "twice.json" = .ok file ∧
    ∃ tile ∈ file.tiles, 2 ≤ tile.objects.length := by
  have htwice : (readJson grove.source TilesetFile.decode "twice.json").toOption.map
      (fun file => decide (∃ tile ∈ file.tiles, 2 ≤ tile.objects.length)) = some true := by
    decide +kernel
  obtain ⟨file, hfile, hmany⟩ := Option.map_eq_some_iff.1 htwice
  exact ⟨file, eq_ok_of_toOption hfile, of_decide_eq_true hmany⟩

/-- The grass is loaded, and found again from another folder. The other tileset is refused. -/
theorem grove_points_home : ∃ tileset q file,
    Yields (loadTileset grove "tilesets/grass.json") {} tileset q ∧
      TilesetTold file ({} : Project).tables tileset q.tables ∧
      tileset.animation? 1 = some 0 ∧ file.tiles.map TileDef.id = [3, 1] ∧
      outcome (loadTileset grove "maps/grass.json") q = (.ok tileset, q) ∧
      ∃ e, (outcome (loadTileset grove "twice.json") {}).1 = .error e := by
  have htiles := groveTiles_eq
  simp only [groveTiles, bind_eq_ok, liftM_eq_ok, pure_eq_ok, Prod.mk.injEq] at htiles
  obtain ⟨file, hread, tileset, htileset, hids, hwaves⟩ := htiles
  obtain ⟨q, hyields⟩ : ∃ q, Yields (loadTileset grove "tilesets/grass.json") {} tileset q :=
    ⟨_, yields_outcome htileset⟩
  have hgrass := tilesets_point_home grove "tilesets/grass.json" {} rfl
  obtain ⟨other, hother, htold⟩ := hgrass.loaded tileset q hyields
  have hname : Text.baseName "tilesets/grass.json" = "grass.json" := by decide +kernel
  rw [hname, hread] at hother
  obtain rfl := Except.ok.inj hother
  have hdifferent : (file.tiles.map TileDef.id).Nodup := by rw [hids]; decide
  obtain ⟨twice, htwice, tile, htile, hmany⟩ := grove_twice
  have hsame : Text.baseName "twice.json" = "twice.json" := by decide +kernel
  refine ⟨tileset, q, file, hyields, htold hdifferent [], hwaves, hids,
    hgrass.again tileset q hyields [] "maps/grass.json" (by decide +kernel), ?_⟩
  exact (tilesets_point_home grove "twice.json" {} rfl).refused twice (by rw [hsame, htwice])
    ⟨tile, htile, .inl hmany⟩ [] "twice.json" rfl

end GameBundle
