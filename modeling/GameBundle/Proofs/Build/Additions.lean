import GameBundle.Proofs.Build.Operations

set_option autoImplicit false

/-! # What a build only adds to

Tilesets, types, texts, outlines and entities, dialogs and scripts: each of the functions that build
them only adds to the project. A tileset, an image, a portrait and a script claim a record first and
fill it at the end, so something else is added in between; that leaves the claimed record as it
is. -/

namespace GameBundle

variable {input : Input}

/-! ## Claims -/

section Claims

variable {before : Tables} {kind : Kind} {β : Type} {p : Project}

/-- A record that was claimed meanwhile is filled. -/
theorem Performs.fill {index : UInt16} (hkind : kind ∉ textKinds)
    (hindex : before.count kind ≤ index.toNat) (hhole : p.tables.Hole kind index.toNat)
    (bytes : Bytes) :
    Performs (Additive before) id (onTables (Tables.fill kind index bytes)) p :=
  .operation (.fill kind hkind index bytes) ⟨hindex, hhole⟩

theorem Performs.remember {f : Project → Project} {g : Unit → Step Project β}
    (hkeeps : ∀ p, (f p).tables = p.tables ∧ (f p).pools = p.pools)
    (h : Performs (Additive before) id (g ()) (f p)) :
    Performs (Additive before) id (modify f >>= g) p := by
  refine .operation_bind (.remember f hkeeps) trivial fun _ q hq => ?_
  obtain rfl := yields_modify.1 hq
  exact h

/-- A record is claimed behind all others, and no other step fills it by accident. -/
theorem Performs.claim {name : String} {f : UInt16 → Step Project β} (hkind : kind ∉ textKinds)
    (hbefore : before.Kept p.tables)
    (hf : ∀ index, before.count kind ≤ index.toNat →
      (p.add kind ⟨name, none⟩).tables.Hole kind index.toNat →
      before.Kept (p.add kind ⟨name, none⟩).tables →
      Performs (Additive before) id (f index) (p.add kind ⟨name, none⟩)) :
    Performs (Additive before) id (onTables (Tables.reserve kind name) >>= f) p := by
  have hclaim : Performs (Additive before) id (onTables (Tables.reserve kind name)) p :=
    .operation (.reserve kind hkind name) trivial
  refine .bind hclaim fun index q h => ?_
  simp only [yields_onTables, Tables.yields_reserve] at h
  obtain ⟨_, ⟨hroom, rfl, rfl⟩, rfl⟩ := h
  have hindex : (UInt16.ofNat (p.tables.count kind)).toNat = p.tables.count kind :=
    UInt16.toNat_ofNat_of_lt' hroom
  refine hf _ ?_ ?_ (hbefore.add _ _)
  · rw [hindex]
    exact hbefore.count_le kind
  · rw [hindex]
    exact Tables.hole_add _ _ _

/-- The same for the project of a map. -/
theorem Performs.claimOnMap {name : String} {f : UInt16 → Step MapState β} {s : MapState}
    (hkind : kind ∉ textKinds) (hbefore : before.Kept s.project.tables)
    (hf : ∀ index, before.count kind ≤ index.toNat →
      (s.project.add kind ⟨name, none⟩).tables.Hole kind index.toNat →
      before.Kept (s.project.add kind ⟨name, none⟩).tables →
      Performs (Additive before) MapState.project (f index)
        ⟨s.map, s.project.add kind ⟨name, none⟩⟩) :
    Performs (Additive before) MapState.project
      (GameBundle.onProject (onTables (Tables.reserve kind name)) >>= f) s := by
  have hclaim : Performs (Additive before) id (onTables (Tables.reserve kind name)) s.project :=
    .operation (.reserve kind hkind name) trivial
  refine .bind (.onProject hclaim) fun index t h => ?_
  simp only [yields_onProject, yields_onTables, Tables.yields_reserve] at h
  obtain ⟨_, ⟨_, ⟨hroom, rfl, rfl⟩, rfl⟩, rfl⟩ := h
  have hindex : (UInt16.ofNat (s.project.tables.count kind)).toNat = s.project.tables.count kind :=
    UInt16.toNat_ofNat_of_lt' hroom
  refine hf _ ?_ ?_ (hbefore.add _ _)
  · rw [hindex]
    exact hbefore.count_le kind
  · rw [hindex]
    exact Tables.hole_add _ _ _

end Claims

/-! ## Tilesets -/

theorem loadImage_adds (path : String) (layout : TileLayout) :
    Adds id (loadImage input path layout) := by
  refine .get_bind fun p => ?_
  cases p.images.find? (Text.baseName path) with
  | some index => exact .pure index
  | none =>
    intro q
    refine .claim (by decide) (.refl _) fun index himages hhole hkept => ?_
    refine .claim (by decide) hkept fun palette hpalettes hhole' hkept' => ?_
    refine .remember (fun _ => ⟨rfl, rfl⟩) ?_
    refine .except_bind fun image _ => .except_bind fun picture _ => .except_bind fun colors _ => ?_
    refine .bind (.fill (by decide) hpalettes (by exact hhole') _) fun _ q'' hfill => ?_
    simp only [yields_onTables, Tables.yields_fill] at hfill
    obtain ⟨_, ⟨-, rfl⟩, rfl⟩ := hfill
    refine .bind (.fill (by decide) himages ?_ _) fun _ _ _ => .pure _ _
    -- the image is still claimed, since only its palette was filled
    obtain ⟨name, hname⟩ := hhole
    refine ⟨name, ?_⟩
    rw [Tables.getElem?_records_set_ne (by simp)]
    exact (Tables.Kept.refl _).add _ _ _ _ _ hname

theorem addOutline_adds (object : Tiled.Object) : Adds id (addOutline object) :=
  .bind (.except _) fun _ => .push (by decide) _ _

theorem loadShape_adds (file : Tiled.TilesetFile) (tile : Tiled.TileDef) (context : String) :
    Adds id (loadShape file tile context) := by
  unfold loadShape
  split
  · exact .pure _
  · exact .pure _
  · refine .rejectIf _ (.bind (addOutline_adds _) fun index => ?_)
    exact .bind (.except _) fun word => .pure _
  · exact .reject _

theorem loadAnimation_adds (tileset : UInt16) (tile : Tiled.TileDef) (context : String) :
    Adds id (loadAnimation tileset tile context) := by
  unfold loadAnimation
  split
  · exact .pure _
  · exact .pure _
  · refine .bind (.except _) fun bytes => ?_
    exact .bind (.push (by decide) _ _) fun index => .pure _

theorem loadTile_adds (file : Tiled.TilesetFile) (tileset : UInt16) (context : String)
    (tile : Tiled.TileDef) : Adds id (loadTile file tileset context tile) := by
  refine .get_bind fun p => .bind (.except _) fun properties => ?_
  refine .bind (loadShape_adds _ _ _) fun shape => ?_
  exact .bind (loadAnimation_adds _ _ _) fun animation => .pure _

theorem loadTiles_adds (file : Tiled.TilesetFile) (tileset : UInt16) (context : String) :
    Adds id (file.tiles.mapM fun tile => do
      return (tile.id, ← loadTile file tileset context tile)) :=
  .mapM fun _ _ => .bind (loadTile_adds _ _ _ _) fun _ => .pure _

theorem loadTileset_adds (path : String) : Adds id (loadTileset input path) := by
  refine .get_bind fun p => ?_
  cases p.tilesets.find? (Text.baseName path) with
  | some tileset => exact .pure tileset
  | none =>
    refine .bind (.except _) fun file => .rejectIf _ ?_
    intro q
    refine .claim (by decide) (.refl _) fun index hindex hhole hkept => ?_
    refine .bind ((loadTiles_adds _ _ _).performs hkept) fun loaded q₁ hloaded => ?_
    have hkept₁ := (loadTiles_adds _ _ _ _).kept_of_yields hloaded (.refl _)
    refine .bind ((loadImage_adds _ _).performs (hkept.trans hkept₁)) fun image q₂ himage => ?_
    have hkept₂ := (loadImage_adds _ _ _).kept_of_yields himage (.refl _)
    refine .except_bind fun header _ => .except_bind fun shapes _ => ?_
    refine .bind (.fill (by decide) hindex ((hkept₁.trans hkept₂).hole hhole) _) fun _ q₃ _ => ?_
    exact .remember (fun _ => ⟨rfl, rfl⟩) (.pure _ _)

theorem loadTilesets_adds (tiled : Tiled.Map) : Adds id (loadTilesets input tiled) :=
  .mapM fun _ _ => .bind (loadTileset_adds _) fun _ => .pure _

/-! ## What maps share -/

theorem storeVariables_adds : Adds id (storeVariables input) :=
  .forM fun _ _ => .bind (.text _ _ _) fun _ => .pure _

theorem reserveMaps_adds : Adds id (reserveMaps input) :=
  .forM fun _ _ => .bind (.reserve (by decide) _) fun _ => .remember fun _ => ⟨rfl, rfl⟩

theorem buildPrototypes_adds : Adds id (buildPrototypes input) := by
  refine .forM fun type _ => .bind (.except _) fun prototype => ?_
  exact .bind (.reserve (by decide) _) fun index => .remember fun _ => ⟨rfl, rfl⟩

theorem loadDialogSkins_adds : Adds id (loadDialogSkins input) :=
  .forM fun _ _ => .bind (loadTileset_adds _) fun _ => .remember fun _ => ⟨rfl, rfl⟩

theorem buildPortraits_adds : Adds id (buildPortraits input) := by
  refine .forM fun portrait _ => ?_
  intro p
  refine .claim (by decide) (.refl _) fun index hindex hhole hkept => ?_
  refine .remember (fun _ => ⟨rfl, rfl⟩) ?_
  refine .bind ((loadTileset_adds _).performs hkept) fun tileset q₁ htileset => ?_
  have hkept₁ := (loadTileset_adds _ _).kept_of_yields htileset (.refl _)
  exact .except_bind fun bytes _ => .fill (by decide) hindex (hkept₁.hole hhole) _

theorem addNullScript_adds : Adds id addNullScript :=
  .bind (.except _) fun _ => .push (by decide) _ _

/-! ## Objects of a map -/

theorem placeOutlines_adds (objects : List Tiled.Object) :
    Adds MapState.project (placeOutlines objects) := by
  refine .mapM fun object _ => ?_
  dsimp only
  split
  · exact .pure _
  · refine .bind (.onProject (addOutline_adds _)) fun index => .get_bind fun s => ?_
    exact .bind (.changeMap _) fun _ => .pure _

theorem addEntity_adds (e : Entity) (path : Option UInt16) : Adds id (addEntity e path) :=
  .get_bind fun _ => .bind (.except _) fun _ => .push (by decide) _ _

theorem placeEntity_adds (earlier : List (UInt16 × Entity)) (e : Entity) :
    Adds MapState.project (placeEntity earlier e) := by
  refine .get_bind fun s => .bind (.except _) fun path => ?_
  refine .bind (.onProject (addEntity_adds _ _)) fun global => .bind (.changeMap _) fun _ => ?_
  split
  · split
    · exact .rejected _ _
    · exact .bind (.changeMap _) fun _ => .pure _
  · exact .pure _

theorem placeObjects_adds (tiled : Tiled.Map) (tilesets : List (UInt32 × Tileset)) :
    Adds MapState.project (placeObjects tiled tilesets) := by
  refine .get_bind fun s => .bind (.except _) fun _ => ?_
  refine .bind (placeOutlines_adds _) fun outlines => .bind (.changeMap _) fun _ => ?_
  refine .get_bind fun s' => .bind (.except _) fun composed => ?_
  refine .bind (.foldlM (fun placed e _ => ?_) []) fun placed => ?_
  · exact .bind (placeEntity_adds _ _) fun global => .pure _
  · exact .bind (.changeMap _) fun _ => .pure _

/-! ## Dialogs -/

variable {compile : String → Step MapState UInt16}

theorem internOnMap_adds (pool : Pool) (raw : String) :
    Adds MapState.project (internOnMap pool raw) :=
  .get_bind fun _ => .onProject (.text _ _ _)

theorem buildResponse_adds (hcompile : ∀ name, Adds MapState.project (compile name))
    (r : Response) : Adds MapState.project (buildResponse compile r) :=
  .bind (internOnMap_adds _ _) fun _ => .bind (hcompile _) fun _ => .pure _

theorem buildScreen_adds (hcompile : ∀ name, Adds MapState.project (compile name))
    (screen : Screen) (context : String) :
    Adds MapState.project (buildScreen compile screen context) := by
  refine .get_bind fun s => .bind (.except _) fun fixed => ?_
  refine .bind (internOnMap_adds _ _) fun title => ?_
  refine .bind (.mapM fun text _ => internOnMap_adds _ _) fun messages => ?_
  refine .bind (.mapM fun r _ => buildResponse_adds hcompile r) fun responses => ?_
  exact .except _

theorem addOnce_adds {kind : Kind} (hkind : kind ∉ textKinds) {find? : Project → Option UInt16}
    {record : String} {bytes : Bytes} {remember : UInt16 → Project → Project}
    (hremember : ∀ index p, (remember index p).tables = p.tables ∧
      (remember index p).pools = p.pools) :
    Adds id (addOnce kind find? record bytes remember) := by
  refine .get_bind fun p => ?_
  cases find? p with
  | some index => exact .pure index
  | none =>
    refine .bind (.push hkind _ _) fun index => ?_
    exact .bind (.remember (hremember index)) fun _ => .pure index

theorem buildDialog_adds (hcompile : ∀ name, Adds MapState.project (compile name))
    (name context : String) : Adds MapState.project (buildDialog input compile name context) := by
  refine .get_bind fun s => .get_bind fun s' => ?_
  cases s'.project.dialogs.find? (dialogKey s.map.name name) with
  | some index => exact .pure index
  | none =>
    refine .bind (.orReject _ _) fun screens => .rejectIf _ ?_
    cases screens.findIdx? fun s => s.messages.isEmpty with
    | some screen => exact .rejected _ _
    | none =>
      refine .bind (.except _) fun header => ?_
      refine .bind (.mapM fun q _ => buildScreen_adds hcompile q.1 _) fun bodies => ?_
      exact .onProject (addOnce_adds (by decide) fun _ _ => ⟨rfl, rfl⟩)

theorem buildSerialDialog_adds (hcompile : ∀ name, Adds MapState.project (compile name))
    (name context : String) :
    Adds MapState.project (buildSerialDialog input compile name context) := by
  refine .get_bind fun s => ?_
  cases s.project.serialDialogs.find? name with
  | some index => exact .pure index
  | none =>
    refine .bind (.orReject _ _) fun dialog => .rejectIf _ (.rejectIf _ (.rejectIf _ ?_))
    refine .bind (internOnMap_adds _ _) fun message => ?_
    refine .bind (.mapM fun r _ => buildResponse_adds hcompile r) fun responses => ?_
    refine .bind (.except _) fun bytes => ?_
    exact .onProject (addOnce_adds (by decide) fun _ _ => ⟨rfl, rfl⟩)

/-! ## Scripts -/

theorem resolve_adds (hcompile : ∀ name, Adds MapState.project (compile name)) (a : Action)
    (operand : Operand) : Adds MapState.project (resolve input compile a operand) := by
  unfold resolve
  cases operand.kind with
  | entity | geometry | map =>
    refine .bind (.except _) fun name => .get_bind fun s => ?_
    exact .bind (.except _) fun number => .pure _
  | entityType =>
    refine .bind (.except _) fun name => .get_bind fun s => ?_
    cases s.project.entityTypes.find? name with
    | some type => exact .pure _
    | none => exact .reject _
  | script => exact .bind (.except _) fun name => .bind (hcompile name) fun number => .pure _
  | text pool =>
    exact .bind (.except _) fun text => .bind (internOnMap_adds _ _) fun number => .pure _
  | dialog =>
    refine .bind (.except _) fun name => ?_
    exact .bind (buildDialog_adds hcompile _ _) fun number => .pure _
  | serialDialog =>
    refine .bind (.except _) fun name => ?_
    exact .bind (buildSerialDialog_adds hcompile _ _) fun number => .pure _
  | key | turn | color | number | byte | twoBytes | bool => exact .except _
  | unsupported => exact .reject _

theorem encodeAction_adds (hcompile : ∀ name, Adds MapState.project (compile name)) (a : Action) :
    Adds MapState.project (encodeAction input compile a) := by
  refine .bind (.orReject _ _) fun opcode => .bind (.except _) fun w => ?_
  refine .bind (.foldlM (fun w operand _ => ?_) w) fun w => .pure _
  exact .bind (resolve_adds hcompile a operand) fun value => .except _

theorem listScript_adds (name : String) (global : UInt16) :
    Adds MapState.project (listScript name global) :=
  .get_bind fun _ => .bind (.except _) fun _ => .bind (.changeMap _) fun _ => .pure _

theorem compileActions_adds (hcompile : ∀ name, Adds MapState.project (compile name))
    (name : String) (actions : Script) :
    Adds MapState.project (compileActions input compile name actions) := by
  intro s
  refine .except_bind fun header _ => ?_
  refine .claimOnMap (by decide) (.refl _) fun global hglobal hhole hkept => ?_
  refine .bind ((listScript_adds _ _).performs hkept) fun number t hlist => ?_
  have hkept₁ := (listScript_adds _ _ _).kept_of_yields hlist (.refl _)
  have hactions : Adds MapState.project (actions.mapM (encodeAction input compile)) :=
    .mapM fun a _ => encodeAction_adds hcompile a
  refine .bind (hactions.performs (hkept.trans hkept₁)) fun instructions u hyields => ?_
  have hkept₂ := (hactions _).kept_of_yields hyields (.refl _)
  refine .bind (.onProject ?_) fun _ v _ => .pure _ _
  exact .fill (by decide) hglobal ((hkept₁.trans hkept₂).hole hhole) _

theorem scriptNumber_adds {start : String → Script → Step MapState UInt16}
    (hstart : ∀ name actions, Adds MapState.project (start name actions)) (name : String) :
    Adds MapState.project (scriptNumber input start name) := by
  refine .get_bind fun s => ?_
  cases s.map.scriptNumber? name with
  | some number => exact .pure number
  | none =>
    dsimp only
    split
    · exact listScript_adds _ _
    · refine .get_bind fun s' => .bind (.orReject _ _) fun script => ?_
      exact .bind (.except _) fun actions => hstart name actions

/-- Compiling a script only adds, too. The induction is on how many compilations may be in
    progress. -/
theorem compileScript_adds (input : Input) (name : String) :
    Adds MapState.project (compileScript input name) := by
  have hwithin : ∀ depth name, Adds MapState.project
      (compileWithin input (fun _ _ => throw .overrun) depth name) := by
    intro depth
    induction depth with
    | zero =>
      intro name
      exact scriptNumber_adds (fun _ _ => .throw _) name
    | succ depth ih =>
      intro name
      exact scriptNumber_adds (compileActions_adds ih) name
  exact hwithin _ name

theorem compileAll_adds (scripts : List (String × String)) :
    Adds MapState.project (compileAll input scripts) :=
  .mapM fun _ _ => .bind (compileScript_adds _ _) fun _ => .pure _

theorem compileEvents_adds (tiled : Tiled.Map) (settings : MapSettings) :
    Adds MapState.project (compileEvents input tiled settings) := by
  refine .bind (compileScript_adds _ _) fun _ => .get_bind fun s => ?_
  exact .bind (.except _) fun scripts => .bind (compileAll_adds _) fun numbers => .pure _

end GameBundle
