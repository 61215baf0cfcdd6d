import GameBundle.Proofs.Build.Compiling
import GameBundle.Proofs.Build.Shared
import GameBundle.Proofs.Build.Sound

set_option autoImplicit false

/-! # What maps share is sound

One lemma for each pass says that it keeps a project sound and finishes what it begins. Maps and
entity types are the exception: their records are claimed by one pass and filled by another, the
maps one at a time and the entity types all together. -/

namespace GameBundle

variable {input : Input} {p q : Project}

/-! ## Outlines and images -/

theorem Outline.four_dvd_of_encodeObject {object : Tiled.Object} {bytes : Bytes}
    (h : Outline.encodeObject object = .ok bytes) : 4 ∣ bytes.size := by
  have hencode : ∀ {name : String} {outline : Outline}, outline.encode name = .ok bytes →
      4 ∣ bytes.size := by
    intro name outline h
    unfold Outline.encode at h
    split at h
    · cases h
    · simp only [bind_eq_ok] at h
      obtain ⟨pixels, -, hrecord⟩ := h
      exact Record.four_dvd_of_encode hrecord
  simp only [Outline.encodeObject, bind_eq_ok] at h
  obtain ⟨properties, -, h⟩ := h
  split at h
  · cases h
  · split at h
    · cases h
    · exact hencode h

theorem addOutline_enlarges {object : Tiled.Object} {index : UInt16} (hp : p.Sound)
    (h : Yields (addOutline object) p index q) :
    Enlarges p q ∧ index.toNat < q.tables.count .geometry := by
  simp only [addOutline, yields_bind, yields_except, yields_onTables, Tables.yields_push] at h
  obtain ⟨bytes, _, ⟨hbytes, rfl⟩, _, ⟨hroom, rfl, rfl⟩, rfl⟩ := h
  exact ⟨hp.addWhole _ ⟨Outline.four_dvd_of_encodeObject hbytes, trivial⟩,
    Project.next_lt_add _ hroom⟩

/-- An image and its palette are claimed together, and filled one after the other. -/
theorem loadImage_enlarges {path : String} {layout : TileLayout} {index : UInt16} (hp : p.Sound)
    (h : Yields (loadImage input path layout) p index q) :
    Enlarges p q ∧ index.toNat < q.tables.count .images := by
  simp only [loadImage, yields_bind, yields_get] at h
  obtain ⟨_, _, ⟨rfl, rfl⟩, h⟩ := h
  split at h
  · next found hfound =>
    obtain ⟨rfl, rfl⟩ := yields_pure.1 h
    exact ⟨.refl hp, hp.memos.images _ _ hfound⟩
  · simp only [yields_bind, yields_onTables, Tables.yields_reserve, yields_modify, yields_except,
      Tables.yields_fill, yields_pure] at h
    obtain ⟨_, _, ⟨_, ⟨hroom, rfl, rfl⟩, rfl⟩, palette, _, ⟨_, ⟨hroom', rfl, rfl⟩, rfl⟩, _, _, rfl,
      image, _, ⟨-, rfl⟩, picture, _, ⟨-, rfl⟩, colors, _, ⟨hcolors, rfl⟩, _, _, ⟨_, ⟨-, rfl⟩, rfl⟩,
      _, _, ⟨_, ⟨-, rfl⟩, rfl⟩, rfl, rfl⟩ := h
    -- the palette is claimed and filled between claiming and filling the image
    have hclaimed := hp.claim .images (Text.baseName path)
    have hboth := hclaimed.claim .palettes (Text.baseName path)
    have hindex := Project.next_lt_add ⟨Text.baseName path, none⟩ hroom
    have hknown : Enlarges ((p.add .images ⟨Text.baseName path, none⟩).add .palettes
        ⟨Text.baseName path, none⟩)
        { (p.add .images ⟨Text.baseName path, none⟩).add .palettes ⟨Text.baseName path, none⟩ with
          images := p.images.put (Text.baseName path) (p.next .images) } :=
      (Enlarges.refl hboth).remember rfl { hboth.memos with
        images := hboth.memos.images.put
          (Nat.lt_of_lt_of_le hindex (Project.count_le_add _ _)) } rfl
    have hpalette := hknown.claimed hroom' ⟨Record.four_dvd_of_encode hcolors, trivial⟩
    refine ⟨hpalette.claimed hroom ⟨?_, trivial⟩, ?_⟩
    · rw [Bytes.size_pad]
      exact four_dvd_paddedLength _
    · have hcount := hpalette.counts .images
      rw [Tables.count_set]
      exact Nat.lt_of_lt_of_le hindex hcount

/-! ## Tiles -/

theorem outlineWord_eq_ok {context : String} {g word : UInt16}
    (h : outlineWord context g = .ok word) : word.toNat = g.toNat + 1 := by
  unfold outlineWord at h
  split at h
  · next hlt =>
    cases h
    rw [UInt16.toNat_add, UInt16.toNat_one, Nat.mod_eq_of_lt hlt]
  · cases h

theorem loadShape_enlarges {file : Tiled.TilesetFile} {tile : Tiled.TileDef} {context : String}
    {shape : Option UInt16} (hp : p.Sound) (h : Yields (loadShape file tile context) p shape q) :
    Enlarges p q ∧ ∀ word, shape = some word → word.toNat - 1 < q.tables.count .geometry := by
  unfold loadShape at h
  split at h
  · obtain ⟨rfl, rfl⟩ := yields_pure.1 h
    exact ⟨.refl hp, fun _ hword => nomatch hword⟩
  · obtain ⟨rfl, rfl⟩ := yields_pure.1 h
    exact ⟨.refl hp, fun _ hword => nomatch hword⟩
  · split at h
    · simp at h
    · simp only [yields_bind, yields_except, liftM_eq_ok, yields_pure] at h
      obtain ⟨index, _, houtline, word, _, ⟨hword, rfl⟩, rfl, rfl⟩ := h
      obtain ⟨henlarges, hindex⟩ := addOutline_enlarges hp houtline
      refine ⟨henlarges, fun other heq => ?_⟩
      rwa [← Option.some.inj heq, outlineWord_eq_ok hword, Nat.add_sub_cancel]
  · simp at h

theorem loadAnimation_enlarges {tileset : UInt16} {tile : Tiled.TileDef} {context : String}
    {animation : Option UInt16} (hp : p.Sound) (htileset : tileset.toNat < p.tables.count .tilesets)
    (h : Yields (loadAnimation tileset tile context) p animation q) :
    Enlarges p q ∧ ∀ index, animation = some index → index.toNat < q.tables.count .animations := by
  unfold loadAnimation at h
  split at h
  · obtain ⟨rfl, rfl⟩ := yields_pure.1 h
    exact ⟨.refl hp, fun _ hindex => nomatch hindex⟩
  · obtain ⟨rfl, rfl⟩ := yields_pure.1 h
    exact ⟨.refl hp, fun _ hindex => nomatch hindex⟩
  · simp only [yields_bind, yields_except, yields_onTables, Tables.yields_push, yields_pure] at h
    obtain ⟨bytes, _, ⟨hbytes, rfl⟩, index, _, ⟨_, ⟨hroom, rfl, rfl⟩, rfl⟩, rfl, rfl⟩ := h
    refine ⟨hp.addWhole _ (encodeAnimation_whole hbytes htileset), fun index heq => ?_⟩
    rw [← Option.some.inj heq]
    exact Project.next_lt_add _ hroom

/-- A tile whose outline and animation are in range. -/
structure LoadedTile (loaded : Tile × Option UInt16) (count : Counts) : Prop where
  shape : ∀ word, loaded.2 = some word → word.toNat - 1 < count .geometry
  animation : ∀ index, loaded.1.animation = some index → index.toNat < count .animations

theorem LoadedTile.mono {loaded : Tile × Option UInt16} {count more : Counts}
    (hmore : ∀ kind, count kind ≤ more kind) (h : LoadedTile loaded count) :
    LoadedTile loaded more where
  shape word hword := Nat.lt_of_lt_of_le (h.shape word hword) (hmore _)
  animation index hindex := Nat.lt_of_lt_of_le (h.animation index hindex) (hmore _)

theorem loadTile_enlarges {file : Tiled.TilesetFile} {tileset : UInt16} {context : String}
    {tile : Tiled.TileDef} {loaded : Tile × Option UInt16} (hp : p.Sound)
    (htileset : tileset.toNat < p.tables.count .tilesets)
    (h : Yields (loadTile file tileset context tile) p loaded q) :
    Enlarges p q ∧ LoadedTile loaded q.tables.count := by
  simp only [loadTile, yields_bind, yields_get, yields_except, liftM_eq_ok, yields_pure] at h
  obtain ⟨_, _, ⟨rfl, rfl⟩, properties, _, ⟨-, rfl⟩, shape, p', hshape, animation, _, hanimation,
    rfl, rfl⟩ := h
  obtain ⟨hfirst, hshape⟩ := loadShape_enlarges hp hshape
  obtain ⟨hsecond, hanimation⟩ := loadAnimation_enlarges hfirst.sound
    (Nat.lt_of_lt_of_le htileset (hfirst.counts _)) hanimation
  exact ⟨hfirst.trans hsecond, fun word hword =>
    Nat.lt_of_lt_of_le (hshape word hword) (hsecond.counts _), hanimation⟩

/-! ## Tilesets -/

/-- What is known about a tile is what was loaded for it. -/
theorem lookup_tiles {loaded : List (UInt32 × Tile × Option UInt16)} {id : UInt32} {tile : Tile}
    (h : (loaded.foldl (fun tiles (p : UInt32 × Tile × Option UInt16) =>
      putEntry p.1 p.2.1 tiles) []).lookup id = some tile) :
    ∃ shape, (id, tile, shape) ∈ loaded := by
  have hfold : ∀ {tiles : List (UInt32 × Tile)},
      (loaded.foldl (fun tiles (p : UInt32 × Tile × Option UInt16) =>
        putEntry p.1 p.2.1 tiles) tiles).lookup id = some tile →
      tiles.lookup id = some tile ∨ ∃ shape, (id, tile, shape) ∈ loaded := by
    clear h
    induction loaded with
    | nil => exact fun h => Or.inl h
    | cons first rest ih =>
      intro tiles h
      obtain hold | ⟨shape, hmem⟩ := ih h
      · rw [lookup_putEntry] at hold
        split at hold
        · next heq =>
          subst heq
          obtain rfl := Option.some.inj hold
          exact Or.inr ⟨first.2.2, List.mem_cons_self⟩
        · exact Or.inl hold
      · exact Or.inr ⟨shape, List.mem_cons_of_mem _ hmem⟩
  exact (hfold h).resolve_left fun hnone => nomatch hnone

theorem loadTiles_enlarges {file : Tiled.TilesetFile} {tileset : UInt16} {context : String}
    {tiles : List Tiled.TileDef} {loaded : List (UInt32 × Tile × Option UInt16)} (hp : p.Sound)
    (htileset : tileset.toNat < p.tables.count .tilesets)
    (h : Yields (tiles.mapM fun tile => do
      return (tile.id, ← loadTile file tileset context tile)) p loaded q) :
    Enlarges p q ∧ ∀ b ∈ loaded, LoadedTile b.2 q.tables.count := by
  obtain ⟨henlarges, hall⟩ := enlarges_mapM
    (fun _ (b : UInt32 × Tile × Option UInt16) count => LoadedTile b.2 count) hp
    (fun _ _ _ _ hmore hloaded => hloaded.mono hmore) (by
      intro tile _ r b u hr hb
      simp only [yields_bind, yields_pure] at hb
      obtain ⟨result, _, hresult, rfl, rfl⟩ := hb
      exact loadTile_enlarges hr.sound (Nat.lt_of_lt_of_le htileset (hr.counts _)) hresult) h
  refine ⟨henlarges, fun b hb => ?_⟩
  obtain ⟨tile, -, hloaded⟩ := exists_of_mem_forall₂ hall hb
  exact hloaded

/-- A tileset has the animations of the tiles that were loaded for it. -/
theorem known_of_loaded {count : Counts} (name : String) {index : UInt16} (tileCount : UInt32)
    {loaded : List (UInt32 × Tile × Option UInt16)} (hindex : index.toNat < count .tilesets)
    (hloaded : ∀ b ∈ loaded, LoadedTile b.2 count) :
    Tileset.Known count ⟨name, index, tileCount,
      loaded.foldl (fun tiles (p : UInt32 × Tile × Option UInt16) =>
        putEntry p.1 p.2.1 tiles) []⟩ where
  index := hindex
  animations := by
    intro id animation hanimation
    obtain ⟨tile, htile, hanimation⟩ := Option.bind_eq_some_iff.1 hanimation
    obtain ⟨shape, hmem⟩ := lookup_tiles htile
    exact (hloaded _ hmem).animation animation hanimation

/-- A tileset is claimed before its tiles, and filled when their outlines have their numbers. -/
theorem loadTileset_enlarges {path : String} {tileset : Tileset} (hp : p.Sound)
    (h : Yields (loadTileset input path) p tileset q) :
    Enlarges p q ∧ tileset.Known q.tables.count := by
  simp only [loadTileset, yields_bind, yields_get] at h
  obtain ⟨_, _, ⟨rfl, rfl⟩, h⟩ := h
  split at h
  · next found hfound =>
    obtain ⟨rfl, rfl⟩ := yields_pure.1 h
    exact ⟨.refl hp, hp.memos.tilesets _ _ hfound⟩
  simp only [yields_bind, yields_except] at h
  obtain ⟨file, _, ⟨-, rfl⟩, h⟩ := h
  split at h
  · simp at h
  simp only [yields_bind, yields_onTables, Tables.yields_reserve, yields_modify, yields_except,
    Tables.yields_fill, yields_pure] at h
  obtain ⟨_, _, ⟨_, ⟨hroom, rfl, rfl⟩, rfl⟩, loaded, p₁, hloaded, image, p₂, himage, header, _,
    ⟨hheader, rfl⟩, shapes, _, ⟨hshapes, rfl⟩, _, _, ⟨_, ⟨-, rfl⟩, rfl⟩, _, _, rfl, rfl, rfl⟩ := h
  have hclaimed := hp.claim .tilesets (Text.stem (Text.baseName path))
  have hindex := Project.next_lt_add ⟨Text.stem (Text.baseName path), none⟩ hroom
  obtain ⟨htiles, hall⟩ := loadTiles_enlarges hclaimed hindex hloaded
  obtain ⟨himage, himageIndex⟩ := loadImage_enlarges htiles.sound himage
  have hloaded : ∀ b ∈ loaded, LoadedTile b.2 p₂.tables.count := fun b hb =>
    (hall b hb).mono himage.counts
  have hwhole : Whole p₂.tables.count .tilesets (header ++ shapes) := by
    refine tileset_whole hheader hshapes himageIndex fun shape hshape => ?_
    obtain ⟨⟨id, tile, word⟩, hmem, heq⟩ := List.mem_filterMap.1 hshape
    obtain ⟨word', rfl, rfl⟩ := Option.map_eq_some_iff.1 heq
    exact (hloaded _ hmem).shape word' rfl
  have hfilled := (htiles.trans himage).claimed hroom hwhole
  have hknown := known_of_loaded (Text.stem (Text.baseName path)) file.tileCount
    (Nat.lt_of_lt_of_le hindex ((htiles.trans himage).counts _)) hloaded
  have hcounts : (p₂.fill .tilesets (p.next .tilesets).toNat (header ++ shapes)).tables.count =
      p₂.tables.count := funext fun _ => Tables.count_set
  rw [← hcounts] at hknown
  exact ⟨hfilled.remember rfl { hfilled.sound.memos with
    tilesets := hfilled.sound.memos.tilesets.put hknown } rfl, hknown⟩

theorem loadTilesets_enlarges {tiled : Tiled.Map} {tilesets : List (UInt32 × Tileset)}
    (hp : p.Sound) (h : Yields (loadTilesets input tiled) p tilesets q) :
    Enlarges p q ∧ ∀ t ∈ tilesets, t.2.Known q.tables.count := by
  obtain ⟨henlarges, hall⟩ := enlarges_mapM
    (fun _ (t : UInt32 × Tileset) count => t.2.Known count) hp
    (fun _ _ _ _ hmore hknown => hknown.mono hmore) (by
      intro r _ s t u hs ht
      simp only [yields_bind, yields_pure] at ht
      obtain ⟨tileset, _, htileset, rfl, rfl⟩ := ht
      exact loadTileset_enlarges hs.sound htileset) h
  refine ⟨henlarges, fun t ht => ?_⟩
  obtain ⟨_, -, hknown⟩ := exists_of_mem_forall₂ hall ht
  exact hknown

/-! ## Texts, frames and portraits -/

theorem encodeText_whole (count : Counts) (pool : Pool) (text : String) :
    Whole count pool.kind (encodeText text) := by
  refine ⟨?_, by cases pool <;> trivial⟩
  rw [encodeText, Bytes.size_pad]
  exact four_dvd_paddedLength _

/-- A text is stored and remembered. -/
theorem Project.Sound.putText {pool : Pool} (value : String) (hp : p.Sound)
    (hroom : p.tables.count pool.kind < UInt16.size) :
    Enlarges p { p.add pool.kind ⟨value, some (encodeText value)⟩ with
      pools := p.pools.put pool value (p.next pool.kind) } := by
  have hadded := hp.addWhole value (encodeText_whole _ pool value)
  refine hadded.remember rfl { hadded.sound.memos with texts := fun other => ?_ } rfl
  rw [Pools.get_put]
  split
  · next heq =>
    subst heq
    exact (hadded.sound.memos.texts other).put (Project.next_lt_add _ hroom)
  · exact hadded.sound.memos.texts other

theorem intern_enlarges {pool : Pool} {map : Option MapContext} {text : String} {index : UInt16}
    (hp : p.Sound) (h : Yields (intern pool map text) p index q) : Enlarges p q := by
  simp only [intern, yields_bind, yields_get, yields_buildError] at h
  obtain ⟨_, _, ⟨rfl, rfl⟩, value, _, ⟨-, rfl⟩, h⟩ := h
  split at h
  · obtain ⟨rfl, rfl⟩ := yields_pure.1 h
    exact .refl hp
  · split at h
    · simp at h
    · simp only [yields_bind, yields_onTables, Tables.yields_push, yields_modify, yields_pure] at h
      obtain ⟨_, _, ⟨_, ⟨hroom, rfl, rfl⟩, rfl⟩, _, _, rfl, rfl, rfl⟩ := h
      exact hp.putText _ hroom

theorem storeVariables_enlarges (hp : p.Sound) (h : Yields (storeVariables input) p () q) :
    Enlarges p q := by
  refine enlarges_forM hp (fun name _ s t hs ht => ?_) h
  simp only [yields_bind, yields_pure] at ht
  obtain ⟨index, _, hindex, -, rfl⟩ := ht
  exact intern_enlarges hs hindex

theorem loadDialogSkins_enlarges (hp : p.Sound) (h : Yields (loadDialogSkins input) p () q) :
    Enlarges p q := by
  refine enlarges_forM hp (fun skin _ s t hs ht => ?_) h
  simp only [yields_bind, yields_modify] at ht
  obtain ⟨tileset, u, htileset, rfl⟩ := ht
  obtain ⟨henlarges, hknown⟩ := loadTileset_enlarges hs htileset
  exact henlarges.remember rfl { henlarges.sound.memos with
    dialogSkins := henlarges.sound.memos.dialogSkins.put hknown.index } rfl

/-- A portrait is claimed and remembered, then its tileset is loaded, then its record is filled. -/
theorem yields_buildPortrait {name : String} {portrait : PortraitDef}
    (h : Yields (buildPortrait input name portrait) p () q) :
    ∃ tileset r bytes, p.tables.count .portraits < UInt16.size ∧
      Yields (loadTileset input portrait.tileset) { p.add .portraits ⟨name, none⟩ with
        portraits := p.portraits.put name (p.next .portraits) } tileset r ∧
      encodePortrait name portrait tileset = .ok bytes ∧
      q = r.fill .portraits (p.next .portraits).toNat bytes := by
  simp only [buildPortrait, yields_bind, yields_onTables, Tables.yields_reserve, yields_modify,
    yields_except, Tables.yields_fill] at h
  obtain ⟨_, _, ⟨_, ⟨hroom, rfl, rfl⟩, rfl⟩, _, _, rfl, tileset, r, htileset, bytes, _,
    ⟨hbytes, rfl⟩, _, ⟨-, rfl⟩, rfl⟩ := h
  exact ⟨tileset, r, bytes, hroom, htileset, hbytes, rfl⟩

theorem buildPortraits_enlarges (hp : p.Sound) (h : Yields (buildPortraits input) p () q) :
    Enlarges p q := by
  refine enlarges_forM hp (fun portrait _ s t hs ht => ?_) h
  obtain ⟨tileset, u, bytes, hroom, htileset, hbytes, rfl⟩ := yields_buildPortrait ht
  have hclaimed := hs.claim .portraits portrait.1
  have hremembered : Enlarges (s.add .portraits ⟨portrait.1, none⟩)
      { s.add .portraits ⟨portrait.1, none⟩ with
        portraits := s.portraits.put portrait.1 (s.next .portraits) } :=
    (Enlarges.refl hclaimed).remember rfl { hclaimed.memos with
      portraits := hclaimed.memos.portraits.put (Project.next_lt_add _ hroom) } rfl
  obtain ⟨henlarges, hknown⟩ := loadTileset_enlarges hremembered.sound htileset
  exact (hremembered.trans henlarges).claimed hroom (encodePortrait_whole hknown hbytes)

/-! ## Entity types -/

/-- Records of a kind were claimed on top of a sound project. -/
structure Claims (kind : Kind) (p q : Project) : Prop where
  sound : q.Sound
  counts : ∀ kind, p.tables.count kind ≤ q.tables.count kind
  holes : ∀ k i, q.tables.Hole k i → p.tables.Hole k i ∨ k = kind

theorem Claims.refl {kind : Kind} (hp : p.Sound) : Claims kind p p :=
  ⟨hp, fun _ => Nat.le_refl _, fun _ _ h => Or.inl h⟩

theorem Claims.trans {kind : Kind} {r : Project} (hpq : Claims kind p q) (hqr : Claims kind q r) :
    Claims kind p r where
  sound := hqr.sound
  counts kind := Nat.le_trans (hpq.counts kind) (hqr.counts kind)
  holes k i h := (hqr.holes k i h).elim (hpq.holes k i) Or.inr

/-- One record is claimed, and its index is remembered. -/
theorem Claims.single {kind : Kind} {name : String} (hp : p.Sound)
    (htables : q.tables = p.tables.add kind ⟨name, none⟩)
    (hmemos : q.Memos q.tables.count) : Claims kind p q where
  sound := by
    rw [htables] at hmemos
    exact (hp.claim kind name).remember htables hmemos
  counts other := by
    rw [htables]
    exact Project.count_le_add _ _
  holes k i h := by
    rw [htables] at h
    exact h.of_add.imp_right And.left

/-- Every entity type that has no record yet is known by name. -/
def ClaimedTypes (p : Project) : Prop :=
  ∀ i, p.tables.Hole .entityTypes i → ∃ e ∈ p.entityTypes.entries, e.2.index.toNat = i

/-- A type is claimed and remembered. -/
theorem yields_buildPrototype {types : List ObjectTypeDef} {name : String} {looks : EntityTypeDef}
    (h : Yields (buildPrototype types name looks) p () q) :
    ∃ prototype, p.tables.count .entityTypes < UInt16.size ∧
      q = { p.add .entityTypes ⟨name, none⟩ with
        entityTypes := p.entityTypes.put name ⟨p.next .entityTypes, prototype, looks⟩ } := by
  simp only [buildPrototype, yields_bind, yields_except, yields_onTables, Tables.yields_reserve,
    yields_modify] at h
  obtain ⟨prototype, _, ⟨-, rfl⟩, _, _, ⟨_, ⟨hroom, rfl, rfl⟩, rfl⟩, rfl⟩ := h
  exact ⟨prototype, hroom, rfl⟩

/-- Putting one of several new names leaves the others new. -/
theorem find?_put_rest {α β : Type} {m : Ordered α} {e : String × β} {rest : List (String × β)}
    {value : α} (hdifferent : e.1 ∉ rest.map Prod.fst)
    (hnew : ∀ other ∈ e :: rest, m.find? other.1 = none) :
    ∀ other ∈ rest, (m.put e.1 value).find? other.1 = none := by
  intro other hother
  rw [Ordered.find?_put, if_neg]
  · exact hnew other (List.mem_cons_of_mem _ hother)
  · intro heq
    exact hdifferent (heq ▸ List.mem_map_of_mem hother)

/-- Entity types have different names, so each claimed record is remembered to the end. The
    induction is on the types that are still to be claimed. -/
theorem buildPrototypes_claims {types : List ObjectTypeDef} {entries : List (String × EntityTypeDef)}
    (hdifferent : (entries.map Prod.fst).Nodup)
    (hnew : ∀ e ∈ entries, p.entityTypes.find? e.1 = none) (hp : p.Sound) (hclaimed : ClaimedTypes p)
    (h : Yields (entries.forM fun e => buildPrototype types e.1 e.2) p () q) :
    Claims .entityTypes p q ∧ ClaimedTypes q := by
  induction entries generalizing p with
  | nil =>
    obtain rfl := yields_forM_nil.1 h
    exact ⟨.refl hp, hclaimed⟩
  | cons e rest ih =>
    obtain ⟨r, hfirst, hrest⟩ := yields_forM_cons.1 h
    rw [List.map_cons, List.nodup_cons] at hdifferent
    obtain ⟨prototype, hroom, rfl⟩ := yields_buildPrototype hfirst
    have hsound := hp.claim .entityTypes e.1
    have hindex := Project.next_lt_add ⟨e.1, none⟩ hroom
    have hentries := Ordered.entries_put (m := p.entityTypes)
      (⟨p.next .entityTypes, prototype, e.2⟩ : EntityType) (hnew e List.mem_cons_self)
    have hone : Claims .entityTypes p { p.add .entityTypes ⟨e.1, none⟩ with
        entityTypes := p.entityTypes.put e.1 ⟨p.next .entityTypes, prototype, e.2⟩ } :=
      .single hp rfl { hsound.memos with
        entityTypes := hsound.memos.entityTypes.put hindex }
    obtain ⟨hothers, hall⟩ := ih hdifferent.2 (find?_put_rest hdifferent.1 hnew) hone.sound (by
      intro i hi
      rw [hentries]
      obtain hold | ⟨-, rfl⟩ := hi.of_add
      · obtain ⟨other, hother, heq⟩ := hclaimed i hold
        exact ⟨other, List.mem_append_left _ hother, heq⟩
      · exact ⟨_, List.mem_append_right _ List.mem_cons_self, UInt16.toNat_ofNat_of_lt' hroom⟩) hrest
    exact ⟨hone.trans hothers, hall⟩

/-- The record of an entity type gets its bytes. -/
structure Completed (type : EntityType) (p q : Project) : Prop where
  sound : q.Sound
  holes : ∀ k i, q.tables.Hole k i → p.tables.Hole k i ∧ ¬(k = .entityTypes ∧ i = type.index.toNat)

/-- The tileset of a type is loaded, then its record is filled. -/
theorem yields_buildEntityType {name : String} {type : EntityType}
    (h : Yields (buildEntityType input name type) p () q) :
    ∃ tileset r bytes, Yields (loadTileset input type.looks.tileset) p tileset r ∧
      encodeEntityType r.portraits name type.looks tileset = .ok bytes ∧
      type.index.toNat < r.tables.count .entityTypes ∧
      q = r.fill .entityTypes type.index.toNat bytes := by
  simp only [buildEntityType, yields_bind, yields_get, yields_except, yields_onTables,
    Tables.yields_fill] at h
  obtain ⟨tileset, r, htileset, _, _, ⟨rfl, rfl⟩, bytes, _, ⟨hbytes, rfl⟩, _, ⟨hlt, rfl⟩, rfl⟩ := h
  exact ⟨tileset, r, bytes, htileset, hbytes, hlt, rfl⟩

theorem buildEntityType_completed {name : String} {type : EntityType} (hp : p.Sound)
    (h : Yields (buildEntityType input name type) p () q) : Completed type p q := by
  obtain ⟨tileset, r, bytes, htileset, hbytes, -, rfl⟩ := yields_buildEntityType h
  obtain ⟨henlarges, hknown⟩ := loadTileset_enlarges hp htileset
  have hwhole := encodeEntityType_whole hknown henlarges.sound.memos.portraits hbytes
  refine ⟨henlarges.sound.fill hwhole, fun k i hhole => ?_⟩
  obtain ⟨hbefore, hother⟩ := hhole.of_set
  exact ⟨henlarges.completes k i hbefore, hother⟩

theorem buildEntityTypes_completed (hp : p.Sound) (h : Yields (buildEntityTypes input) p () q) :
    q.Sound ∧ ∀ k i, q.tables.Hole k i → p.tables.Hole k i ∧
      ∀ e ∈ p.entityTypes.entries, ¬(k = .entityTypes ∧ i = e.2.index.toNat) := by
  simp only [buildEntityTypes, yields_bind, yields_get] at h
  obtain ⟨_, _, ⟨rfl, rfl⟩, h⟩ := h
  generalize p.entityTypes.entries = entries at h ⊢
  induction entries generalizing p with
  | nil =>
    obtain rfl := yields_forM_nil.1 h
    exact ⟨hp, fun k i hhole => ⟨hhole, by simp⟩⟩
  | cons e rest ih =>
    obtain ⟨r, hfirst, hrest⟩ := yields_forM_cons.1 h
    have hone := buildEntityType_completed hp hfirst
    obtain ⟨hsound, hholes⟩ := ih hone.sound hrest
    refine ⟨hsound, fun k i hhole => ?_⟩
    obtain ⟨hbefore, hothers⟩ := hholes k i hhole
    obtain ⟨hstart, hfilled⟩ := hone.holes k i hbefore
    refine ⟨hstart, fun other hother => ?_⟩
    rcases List.mem_cons.1 hother with rfl | hother
    · exact hfilled
    · exact hothers other hother

/-! ## All of it -/

theorem reserveMaps_claims (hp : p.Sound) (h : Yields (reserveMaps input) p () q) :
    Claims .maps p q ∧ q.entityTypes = p.entityTypes := by
  refine yields_forM Project.Sound (fun p q => Claims .maps p q ∧ q.entityTypes = p.entityTypes)
    (fun _ hs => ⟨.refl hs, rfl⟩)
    (fun _ _ _ hst htu => ⟨hst.1.trans htu.1, htu.2.trans hst.2⟩)
    (fun _ _ hst => hst.1.sound) (fun name _ s t hs ht => ?_) hp h
  simp only [yields_bind, yields_onTables, Tables.yields_reserve, yields_modify] at ht
  obtain ⟨_, _, ⟨_, ⟨hroom, rfl, rfl⟩, rfl⟩, rfl⟩ := ht
  have hmemos := (hs.claim .maps name).memos
  exact ⟨.single hs rfl { hmemos with maps := hmemos.maps.put (Project.next_lt_add _ hroom) }, rfl⟩

theorem nullRecord_whole (count : Counts) {bytes : Bytes} (h : nullRecord.bytes = some bytes) :
    Whole count .scripts bytes := by
  obtain rfl := Option.some.inj h
  have hsize : (nullScript.toUTF8.data ++ Array.replicate 25 0).size = 36 := by decide +kernel
  exact ⟨hsize ▸ by decide, fun j hj => by omega⟩

/-- **Before the first map is built, all that is unfinished are the maps.** -/
theorem buildShared_sound (h : Yields (buildShared input) {} () p) :
    p.Sound ∧ ∀ kind i, p.tables.Hole kind i → kind = .maps := by
  simp only [buildShared, yields_bind, yields_pure] at h
  obtain ⟨_, p₁, hvariables, _, p₂, hmaps, _, p₃, hprototypes, _, p₄, hskins, _, p₅, hportraits, _,
    p₆, htypes, _, p₇, hnull, -, rfl⟩ := h
  have hone := storeVariables_enlarges .empty hvariables
  obtain ⟨htwo, hsameTypes⟩ := reserveMaps_claims hone.sound hmaps
  have hnone : p₂.entityTypes = ∅ := hsameTypes.trans hone.entityTypes
  have hempty : ∀ kind i, ¬Tables.Hole ({} : Project).tables kind i := by
    rintro kind i ⟨name, hname⟩
    change ((Tables.empty).records kind)[i]? = _ at hname
    rw [Tables.records_empty] at hname
    cases hname
  have hholes : ∀ kind i, p₂.tables.Hole kind i → kind = .maps := fun kind i hhole =>
    (htwo.holes kind i hhole).resolve_left fun hbefore =>
      hempty kind i (hone.completes kind i hbefore)
  obtain ⟨hthree, hclaimed⟩ := buildPrototypes_claims input.definitions.entityTypes.nodup_keys
    (fun e _ => by rw [hnone]; rfl) htwo.sound (fun i hi => absurd (hholes _ i hi) (by decide)) hprototypes
  have hfour := loadDialogSkins_enlarges hthree.sound hskins
  have hfive := hfour.trans (buildPortraits_enlarges hfour.sound hportraits)
  obtain ⟨hsix, hfilled⟩ := buildEntityTypes_completed hfive.sound htypes
  obtain rfl := addNullScript_spec hnull
  refine ⟨hsix.add fun bytes hbytes => nullRecord_whole _ hbytes, fun kind i hhole => ?_⟩
  obtain ⟨hbefore, hothers⟩ := hfilled kind i (Tables.completes_add _ _ _ _ kind i hhole)
  have hthird := hfive.completes kind i hbefore
  obtain hsecond | rfl := hthree.holes kind i hthird
  · exact hholes kind i hsecond
  · -- the entity types that were claimed are those that were filled
    obtain ⟨e, he, heq⟩ := hclaimed i hthird
    exact absurd ⟨rfl, heq.symm⟩ (hothers e (hfive.entityTypes ▸ he))

end GameBundle
