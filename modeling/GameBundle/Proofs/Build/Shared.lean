import GameBundle.Build.Run
import GameBundle.Proofs.Content.Tables

set_option autoImplicit false

/-! # What maps share

Tilesets, images, types and portraits are built once for all maps. None of the steps that build them
touches a record that belongs to a map, whether it succeeds or not. So when the first map is built
there is a claimed record for every map and the script that does nothing, and no other script and
no dialog. -/

namespace GameBundle

/-! ## Steps apart from maps -/

/-- The kinds of records that are built with a map. -/
def mapKinds : List Kind := [.maps, .entities, .scripts, .dialogs, .serialDialogs]

/-- The records of maps are the same in both tables. -/
def SameMaps (t t' : Tables) : Prop := ∀ kind ∈ mapKinds, t'.records kind = t.records kind

/-- Both projects are the same as far as maps are concerned. -/
structure Apart (p q : Project) : Prop where
  maps : q.maps = p.maps
  tables : SameMaps p.tables q.tables

theorem change_sameMaps : Change (fun _ => True) SameMaps where
  refl _ _ _ := rfl
  trans _ _ _ hst htu kind hkind := (htu kind hkind).trans (hst kind hkind)
  keeps _ _ _ _ := trivial

theorem change_apart : Change (fun _ => True) Apart where
  refl p := ⟨rfl, change_sameMaps.refl p.tables⟩
  trans _ _ _ hst htu :=
    ⟨htu.maps.trans hst.maps, change_sameMaps.trans _ _ _ hst.tables htu.tables⟩
  keeps _ _ _ _ := trivial

/-- A step that has nothing to do with maps. -/
abbrev StaysApart {α : Type} (x : Step Project α) : Prop := Alike (fun _ => True) Apart x x

theorem StaysApart.apart {α : Type} {x : Step Project α} (hx : StaysApart x) {p q : Project} {a : α}
    (h : Yields x p a q) : Apart p q := by
  have hchange := (hx p trivial).2
  rwa [show outcome x p = (.ok a, q) from h] at hchange

section Tables

variable {kind : Kind} {name : String} {bytes : Bytes} {index : UInt16}

theorem sameMaps_add (h : kind ∉ mapKinds) (t : Tables) (record : Record) :
    SameMaps t (t.add kind record) := fun _ hother =>
  Tables.records_add_of_ne record fun heq => h (heq ▸ hother)

theorem sameMaps_set (h : kind ∉ mapKinds) (t : Tables) (i : Nat) (bytes : Bytes) :
    SameMaps t (t.set kind i bytes) := fun _ hother =>
  Tables.records_set_of_ne fun heq => h (heq ▸ hother)

theorem staysApart_onTables {α : Type} {x : Step Tables α}
    (hx : Alike (fun _ => True) SameMaps x x) : StaysApart (onTables x) := fun p _ =>
  ⟨rfl, rfl, (hx p.tables trivial).2⟩

theorem nextIndex_alike : Alike (fun _ => True) SameMaps (Tables.nextIndex kind)
    (Tables.nextIndex kind) := by
  refine change_sameMaps.bind change_sameMaps.get fun t => ?_
  dsimp only
  split
  · exact change_sameMaps.pure _
  · exact change_sameMaps.reject _

theorem staysApart_push (h : kind ∉ mapKinds) :
    StaysApart (onTables (Tables.push kind name bytes)) := by
  refine staysApart_onTables (change_sameMaps.bind nextIndex_alike fun index => ?_)
  exact change_sameMaps.bind (fun t _ => ⟨rfl, sameMaps_add h t _⟩) fun _ => change_sameMaps.pure _

theorem staysApart_reserve (h : kind ∉ mapKinds) :
    StaysApart (onTables (Tables.reserve kind name)) := by
  refine staysApart_onTables (change_sameMaps.bind nextIndex_alike fun index => ?_)
  exact change_sameMaps.bind (fun t _ => ⟨rfl, sameMaps_add h t _⟩) fun _ => change_sameMaps.pure _

theorem staysApart_fill (h : kind ∉ mapKinds) :
    StaysApart (onTables (Tables.fill kind index bytes)) := by
  refine staysApart_onTables (change_sameMaps.bind change_sameMaps.get fun t => ?_)
  split
  · exact fun t _ => ⟨rfl, sameMaps_set h t _ _⟩
  · exact change_sameMaps.reject _

end Tables

/-- Remembering something by name. -/
theorem staysApart_modify {f : Project → Project}
    (hf : ∀ p, (f p).maps = p.maps ∧ (f p).tables = p.tables) : StaysApart (modify f) := fun p _ =>
  ⟨rfl, (hf p).1, fun kind _ => congrArg (·.records kind) (hf p).2⟩

/-! ## Tilesets -/

variable {input : Input}

theorem loadImage_apart (path : String) (layout : TileLayout) :
    StaysApart (loadImage input path layout) := by
  refine change_apart.bind change_apart.get fun p => ?_
  split
  · exact change_apart.pure _
  · refine change_apart.bind (staysApart_reserve (by decide)) fun index => ?_
    refine change_apart.bind (staysApart_reserve (by decide)) fun palette => ?_
    refine change_apart.bind (staysApart_modify fun _ => ⟨rfl, rfl⟩) fun _ => ?_
    refine change_apart.bind (change_apart.except _) fun image => ?_
    refine change_apart.bind (change_apart.except _) fun picture => ?_
    refine change_apart.bind (change_apart.except _) fun colors => ?_
    refine change_apart.bind (staysApart_fill (by decide)) fun _ => ?_
    exact change_apart.bind (staysApart_fill (by decide)) fun _ => change_apart.pure _

section Tiles

variable {P : Project → Prop} {R : Project → Project → Prop} (hR : Change P R)
  (hpush : ∀ kind ∈ [Kind.geometry, .animations], ∀ name bytes,
    Alike P R (onTables (Tables.push kind name bytes)) (onTables (Tables.push kind name bytes)))

include hR hpush

theorem addOutline_alike (object : Tiled.Object) :
    Alike P R (addOutline object) (addOutline object) :=
  hR.bind (hR.except _) fun _ => hpush _ (by decide) _ _

theorem loadShape_alike (file : Tiled.TilesetFile) (tile : Tiled.TileDef) (context : String) :
    Alike P R (loadShape file tile context) (loadShape file tile context) := by
  unfold loadShape
  split
  · exact hR.pure _
  · exact hR.pure _
  · refine hR.rejectIf _ (hR.bind (addOutline_alike hR hpush _) fun index => ?_)
    exact hR.bind (hR.except _) fun word => hR.pure _
  · exact hR.reject _

theorem loadAnimation_alike (tileset : UInt16) (tile : Tiled.TileDef) (context : String) :
    Alike P R (loadAnimation tileset tile context) (loadAnimation tileset tile context) := by
  unfold loadAnimation
  split
  · exact hR.pure _
  · exact hR.pure _
  · refine hR.bind (hR.except _) fun bytes => ?_
    exact hR.bind (hpush _ (by decide) _ _) fun index => hR.pure _

/-- Tiles only add outlines and animations, so a change that both of these make is made by all
    tiles. -/
theorem loadTiles_alike (file : Tiled.TilesetFile) (tileset : UInt16) (context : String) :
    Alike P R (file.tiles.mapM fun tile => do
        return (tile.id, ← loadTile file tileset context tile))
      (file.tiles.mapM fun tile => do
        return (tile.id, ← loadTile file tileset context tile)) := by
  refine hR.mapM fun tile _ => hR.bind ?_ fun _ => hR.pure _
  refine hR.bind hR.get fun p => hR.bind (hR.except _) fun properties => ?_
  refine hR.bind (loadShape_alike hR hpush _ _ _) fun shape => ?_
  exact hR.bind (loadAnimation_alike hR hpush _ _ _) fun animation => hR.pure _

end Tiles

theorem loadTileset_apart (path : String) : StaysApart (loadTileset input path) := by
  refine change_apart.bind change_apart.get fun p => ?_
  split
  · exact change_apart.pure _
  · refine change_apart.bind (change_apart.except _) fun file => change_apart.rejectIf _ ?_
    refine change_apart.bind (staysApart_reserve (by decide)) fun index => ?_
    have hpush : ∀ kind ∈ [Kind.geometry, .animations], ∀ name bytes,
        StaysApart (onTables (Tables.push kind name bytes)) := fun kind hkind _ _ =>
      staysApart_push (by revert kind; decide)
    refine change_apart.bind (loadTiles_alike change_apart hpush _ _ _) fun loaded => ?_
    refine change_apart.bind (loadImage_apart _ _) fun image => ?_
    refine change_apart.bind (change_apart.except _) fun header => ?_
    refine change_apart.bind (change_apart.except _) fun shapes => ?_
    refine change_apart.bind (staysApart_fill (by decide)) fun _ => ?_
    exact change_apart.bind (staysApart_modify fun _ => ⟨rfl, rfl⟩) fun _ => change_apart.pure _

theorem loadTilesets_apart (tiled : Tiled.Map) : StaysApart (loadTilesets input tiled) :=
  change_apart.mapM fun _ _ =>
    change_apart.bind (loadTileset_apart _) fun _ => change_apart.pure _

/-! ## Types, portraits and texts -/

theorem intern_apart (pool : Pool) (map : Option MapContext) (text : String) :
    StaysApart (intern pool map text) := by
  have hpool : pool.kind ∉ mapKinds := by cases pool <;> decide
  refine change_apart.bind change_apart.get fun p => ?_
  refine change_apart.bind (change_apart.except _) fun value => ?_
  split
  · exact change_apart.pure _
  · refine change_apart.rejectIf _ (change_apart.bind (staysApart_push hpool) fun index => ?_)
    exact change_apart.bind (staysApart_modify fun _ => ⟨rfl, rfl⟩) fun _ => change_apart.pure _

theorem storeVariables_apart : StaysApart (storeVariables input) :=
  change_apart.forM fun _ _ =>
    change_apart.bind (intern_apart _ _ _) fun _ => change_apart.pure _

theorem buildPrototypes_apart : StaysApart (buildPrototypes input) := by
  refine change_apart.forM fun type _ => ?_
  refine change_apart.bind (change_apart.except _) fun prototype => ?_
  refine change_apart.bind (staysApart_reserve (by decide)) fun index => ?_
  exact staysApart_modify fun _ => ⟨rfl, rfl⟩

theorem loadDialogSkins_apart : StaysApart (loadDialogSkins input) := by
  refine change_apart.forM fun skin _ => ?_
  refine change_apart.bind (loadTileset_apart _) fun tileset => ?_
  exact staysApart_modify fun _ => ⟨rfl, rfl⟩

theorem buildPortraits_apart : StaysApart (buildPortraits input) := by
  refine change_apart.forM fun portrait _ => ?_
  refine change_apart.bind (staysApart_reserve (by decide)) fun index => ?_
  refine change_apart.bind (staysApart_modify fun _ => ⟨rfl, rfl⟩) fun _ => ?_
  refine change_apart.bind (loadTileset_apart _) fun tileset => ?_
  exact change_apart.bind (change_apart.except _) fun bytes => staysApart_fill (by decide)

theorem buildEntityTypes_apart : StaysApart (buildEntityTypes input) := by
  refine change_apart.bind change_apart.get fun p => ?_
  refine change_apart.forM fun type _ => ?_
  refine change_apart.bind (loadTileset_apart _) fun tileset => ?_
  refine change_apart.bind change_apart.get fun p => ?_
  exact change_apart.bind (change_apart.except _) fun bytes => staysApart_fill (by decide)

/-! ## The state before the first map -/

/-- The record of the script that does nothing: its name, and no instructions. -/
def nullRecord : Record := ⟨nullScript, some (nullScript.toUTF8.data ++ Array.replicate 25 0)⟩

theorem addNullScript_spec {p q : Project} {index : UInt16} (h : Yields addNullScript p index q) :
    q = { p with tables := p.tables.add .scripts nullRecord } := by
  simp only [addNullScript, yields_bind, yields_except, yields_onTables, Tables.yields_push] at h
  obtain ⟨bytes, _, ⟨hbytes, rfl⟩, _, ⟨-, -, rfl⟩, rfl⟩ := h
  have hnull : (scriptHeader nullScript 0).toOption =
      some (nullScript.toUTF8.data ++ Array.replicate 25 0) := by decide +kernel
  rw [hbytes] at hnull
  obtain rfl := Option.some.inj hnull
  rfl

/-- The maps are claimed one behind the other, and each name leads to its own record. -/
theorem reserveAll_spec {names : List String} {p q : Project} (hdifferent : names.Nodup)
    (h : Yields (names.forM fun name => do
      let index ← onTables (Tables.reserve .maps name)
      modify fun project => { project with maps := project.maps.put name index }) p () q) :
    (q.tables.records .maps).toList =
        (p.tables.records .maps).toList ++ names.map (fun name => ⟨name, none⟩) ∧
      (∀ kind, kind ≠ .maps → q.tables.records kind = p.tables.records kind) ∧
      (∀ name ∉ names, q.maps.find? name = p.maps.find? name) ∧
      (∀ i name, names[i]? = some name → ∃ index, q.maps.find? name = some index ∧
        index.toNat = p.tables.count .maps + i) ∧
      q = { p with tables := q.tables, maps := q.maps } := by
  induction names generalizing p with
  | nil =>
    obtain rfl := yields_forM_nil.1 h
    simp
  | cons name rest ih =>
    obtain ⟨hfresh, hrest⟩ := List.nodup_cons.1 hdifferent
    obtain ⟨p', hname, hnames⟩ := yields_forM_cons.1 h
    simp only [yields_bind, yields_onTables, Tables.yields_reserve, yields_modify] at hname
    obtain ⟨index, _, ⟨_, ⟨hlt, rfl, rfl⟩, rfl⟩, rfl⟩ := hname
    obtain ⟨htotal, hframe, hothers, hindices, hsame⟩ := ih hrest hnames
    have hcount : (p.tables.add .maps ⟨name, none⟩).count .maps = p.tables.count .maps + 1 := by
      rw [Tables.count_eq_length, Tables.toList_records_add, List.length_append,
        Tables.count_eq_length]
      rfl
    refine ⟨?_, fun kind hkind => ?_, fun other hother => ?_, fun i other hi => ?_, hsame⟩
    · rw [htotal, Tables.toList_records_add, List.append_assoc]
      rfl
    · rw [hframe kind hkind, Tables.records_add_of_ne _ hkind]
    · rw [List.mem_cons, not_or] at hother
      rw [hothers other hother.2, Ordered.find?_put, if_neg hother.1]
    · cases i with
      | zero =>
        rw [List.getElem?_cons_zero, Option.some.injEq] at hi
        subst hi
        -- the other names are different, so they leave this one alone
        refine ⟨_, by rw [hothers _ hfresh, Ordered.find?_put, if_pos rfl], ?_⟩
        exact UInt16.toNat_ofNat_of_lt' hlt
      | succ i =>
        obtain ⟨index, hfind, hindex⟩ := hindices i other hi
        exact ⟨index, hfind, by rw [hindex, hcount]; omega⟩

/-- What the maps start from: a claimed record for each, and a single script. -/
structure Prepared (input : Input) (p : Project) : Prop where
  maps : (p.tables.records .maps).toList =
    input.definitions.maps.keys.map fun name => ⟨name, none⟩
  indices : ∀ i name, input.definitions.maps.keys[i]? = some name →
    ∃ index, p.maps.find? name = some index ∧ index.toNat = i
  known : ∀ name index, p.maps.find? name = some index → name ∈ input.definitions.maps.keys
  scripts : p.tables.records .scripts = #[nullRecord]
  dialogs : p.tables.records .dialogs = #[]
  serialDialogs : p.tables.records .serialDialogs = #[]

theorem buildShared_spec {p : Project} (h : Yields (buildShared input) {} () p) :
    Prepared input p := by
  simp only [buildShared, yields_bind, yields_pure] at h
  obtain ⟨_, p₁, hvariables, _, p₂, hmaps, _, p₃, hprototypes, _, p₄, hskins, _, p₅, hportraits, _,
    p₆, htypes, _, p₇, hnull, -, rfl⟩ := h
  -- the passes around the claims have no part in the records of maps
  have hbefore := storeVariables_apart.apart hvariables
  have hafter : Apart p₂ p₆ := change_apart.trans _ _ _ (buildPrototypes_apart.apart hprototypes) <|
    change_apart.trans _ _ _ (loadDialogSkins_apart.apart hskins) <|
    change_apart.trans _ _ _ (buildPortraits_apart.apart hportraits)
      (buildEntityTypes_apart.apart htypes)
  obtain rfl := addNullScript_spec hnull
  obtain ⟨htotal, hframe, hothers, hindices, -⟩ :=
    reserveAll_spec input.definitions.maps.nodup_keys hmaps
  have hempty : ∀ kind ∈ mapKinds, p₁.tables.records kind = #[] := fun kind hkind =>
    (hbefore.tables kind hkind).trans (Tables.records_empty kind)
  exact {
    maps := by
      rw [Tables.records_add_of_ne _ (by decide), hafter.tables _ (by decide), htotal,
        hempty _ (by decide)]
      rfl
    indices := by
      intro i name hi
      obtain ⟨index, hfind, hindex⟩ := hindices i name hi
      refine ⟨index, hafter.maps ▸ hfind, ?_⟩
      rw [hindex, Tables.count, hempty _ (by decide), Array.size_empty, Nat.zero_add]
    known := by
      intro name index hfind
      by_contra hunknown
      change p₆.maps.find? name = _ at hfind
      rw [hafter.maps, hothers name hunknown, hbefore.maps] at hfind
      cases hfind
    scripts := by
      rw [Tables.records_add, if_pos rfl, hafter.tables _ (by decide),
        hframe _ (by decide), hempty _ (by decide)]
      rfl
    dialogs := by
      rw [Tables.records_add_of_ne _ (by decide), hafter.tables _ (by decide),
        hframe _ (by decide), hempty _ (by decide)]
    serialDialogs := by
      rw [Tables.records_add_of_ne _ (by decide), hafter.tables _ (by decide),
        hframe _ (by decide), hempty _ (by decide)] }

end GameBundle
