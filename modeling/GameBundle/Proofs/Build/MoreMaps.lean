import GameBundle.Proofs.Build.Finished
import GameBundle.Proofs.Build.MapsSideBySide
import GameBundle.Proofs.Build.Unchanged

set_option autoImplicit false

/-! # More maps

Maps that come behind all others only add records behind those that are there without them. The
claims for them are made early, but nothing asks for how many claims there are. So up to the first
new map both builds make the same records, and from there on none of them is changed. -/

namespace GameBundle

variable {input : Input} {maps : Ordered MapSettings}

/-! ## Up to the first new map -/

/-- A build with further maps beside one without. -/
def withMaps (more : List (String × MapSettings)) : Comparison where
  extra := more.map fun entry => ⟨entry.1, none⟩
  Common := Any

variable {more : List (String × MapSettings)}

theorem plain_withMaps (properties : Properties) : (withMaps more).Plain properties :=
  fun _ _ _ _ => trivial

theorem allows_withMaps (properties : List Tiled.Property) : (withMaps more).Allows properties :=
  fun _ _ _ _ => trivial

theorem fits_withMaps (input : Input) : (withMaps more).Fits input where
  objectTypes _ _ := allows_withMaps _
  tilesets _ _ _ _ _ := allows_withMaps _
  maps _ _ _ := ⟨allows_withMaps _, fun _ _ => allows_withMaps _⟩
  settings _ _ _ _ := trivial
  dialogs _ _ _ _ _ _ _ := trivial
  serialDialogs _ _ _ _ _ := trivial

theorem knows_withMaps (scripts : Ordered Script) : (withMaps more).Knows scripts scripts where
  null := trivial
  find? _ _ := rfl
  copies _ _ _ _ := rfl
  names _ _ _ _ _ _ _ _ _ _ _ := trivial

/-- The new maps are claimed behind the others. -/
theorem reserveMaps_projects (hmaps : maps.entries = input.definitions.maps.entries ++ more)
    {scripts : Ordered Script} {p q q' : Project} (hnone : p.maps = ∅)
    (h : Yields (reserveMaps input) p () q)
    (h' : Yields (reserveMaps (input.replace maps scripts)) p () q') :
    (withMaps more).Projects q q' := by
  have hkeys : maps.keys = input.definitions.maps.keys ++ more.map Prod.fst := by
    rw [Ordered.keys, hmaps, List.map_append, Ordered.keys]
  have hnodup := maps.nodup_keys
  change maps.keys.Nodup at hnodup
  rw [hkeys] at hnodup
  obtain ⟨-, hdifferent, hapart⟩ := List.nodup_append.1 hnodup
  change Yields (maps.keys.forM _) p () q' at h'
  rw [hkeys] at h'
  obtain ⟨r, hfirst, hmore⟩ := yields_forM_append.1 h'
  cases h.symm.trans hfirst
  obtain ⟨-, -, hothers, -⟩ := reserveAll_spec input.definitions.maps.nodup_keys h
  obtain ⟨htotal, hframe, hsame, -, hrest⟩ := reserveAll_spec hdifferent hmore
  exact {
    records := fun kind => by
      by_cases hkind : kind = .maps
      · subst hkind
        rw [htotal, if_pos rfl, withMaps, List.map_map]
        rfl
      · rw [hframe kind hkind, if_neg hkind, List.append_nil]
    maps := fun name index hfind => by
      -- a name that is claimed already is not one of the new ones
      have hknown : name ∈ input.definitions.maps.keys := by
        by_contra hunknown
        rw [hothers name hunknown, hnone] at hfind
        cases hfind
      rw [hsame name fun hnew => hapart name hknown name hnew rfl, hfind]
    same := fun hextra => by
      have hnil : more = [] := List.map_eq_nil_iff.1 hextra
      subst hnil
      rw [yields_forM_nil.1 hmore]
    rest := hrest
    tiles := fun _ _ _ _ _ _ => plain_withMaps _
    types := fun _ _ _ => plain_withMaps _ }

/-- Up to the first new map both builds have the same project but for the claims. -/
theorem buildUpTo_projects (hmaps : maps.entries = input.definitions.maps.entries ++ more)
    {p p' : Project} (h : Yields (buildUpTo input input.definitions.maps.size) {} () p)
    (h' : Yields (buildUpTo (input.replace maps input.definitions.scripts)
      input.definitions.maps.size) {} () p') :
    (withMaps more).Projects p p' := by
  have hfits : (withMaps more).Fits input := fits_withMaps input
  have hknows : (withMaps more).Knows input.definitions.scripts input.definitions.scripts :=
    knows_withMaps _
  obtain ⟨_, q, hshared, hbuilt⟩ := yields_bind.1 h
  obtain ⟨_, q', hshared', hbuilt'⟩ := yields_bind.1 h'
  obtain ⟨_, r, hvariables, hclaim⟩ := yields_bind.1 hshared
  obtain ⟨_, r', hvariables', hclaim'⟩ := yields_bind.1 hshared'
  cases hvariables.symm.trans hvariables'
  obtain ⟨_, s, hclaims, hpasses⟩ := yields_bind.1 hclaim
  obtain ⟨_, s', hclaims', hpasses'⟩ := yields_bind.1 hclaim'
  have hnone := (storeVariables_apart.apart hvariables).maps
  have hs := reserveMaps_projects hmaps hnone hclaims hclaims'
  obtain ⟨-, t', hpasses'', hq⟩ := (sharedPasses_together hfits s s' hs).yields _ _ hpasses
  cases hpasses'.symm.trans hpasses''
  rw [Ordered.size, List.take_length] at hbuilt
  rw [Input.replace, hmaps, Ordered.size, List.take_left] at hbuilt'
  obtain ⟨-, u', hbuilt'', hp⟩ := (buildMaps_together hfits hknows q q' hq).yields _ _ hbuilt
  cases hbuilt'.symm.trans hbuilt''
  exact hp

/-! ## From there on -/

theorem not_mem_take_keys {α : Type} {m : Ordered α} {i : Nat} {name : String} {value : α}
    (h : m.entries[i]? = some (name, value)) : name ∉ m.keys.take i := by
  have hkey : m.keys[i]? = some name := by
    rw [Ordered.keys, List.getElem?_map, h]
    rfl
  intro hmem
  obtain ⟨j, hj, hname⟩ := List.mem_take_iff_getElem.1 hmem
  have hlt := Nat.lt_of_lt_of_le hj (Nat.min_le_right _ _)
  have hsame : m.keys[j]? = m.keys[i]? := by
    rw [List.getElem?_eq_getElem hlt, hname, hkey]
  have hji := (List.getElem?_inj hlt m.nodup_keys).1 hsame
  omega

/-- The maps of a build preserve what was there before. The induction is on the maps. -/
theorem preserved_of_build {tables : Tables} (h : build input = .ok tables) {i j : Nat}
    (hij : i ≤ j) (hj : j ≤ input.definitions.maps.size) :
    (projectBefore input i).tables.Preserved (projectBefore input j).tables := by
  induction j, hij using Nat.le_induction with
  | base => exact .refl _
  | succ j hij ih =>
    obtain ⟨⟨name, settings⟩, hmap⟩ : ∃ entry, input.definitions.maps.entries[j]? = some entry :=
      ⟨_, List.getElem?_eq_getElem hj⟩
    obtain ⟨hbefore, hbuild⟩ := yields_buildUpTo_succ hmap (yields_before h hj)
    have hperforms := buildMap_careful hbefore (not_mem_take_keys hmap) settings
    have hpreserved := hperforms.preserved (.refl _)
    rw [show outcome (buildMap input name settings) _ = _ from hbuild] at hpreserved
    exact (ih (Nat.le_of_succ_le hj)).trans hpreserved

/-! ## The main result -/

/-- **Further maps never renumber anything.** If a project can be built with and without further
    maps behind all others, then of every kind the records without them are the first ones with
    them: they have the same places, the same names and the same bytes. -/
theorem build_more_maps (hmaps : maps.entries = input.definitions.maps.entries ++ more)
    {tables tables' : Tables} (h : build input = .ok tables)
    (h' : build { input with definitions := { input.definitions with maps } } = .ok tables')
    (kind : Kind) : (tables.records kind).toList <+: (tables'.records kind).toList := by
  obtain ⟨hyields, rfl⟩ := yields_of_build h
  obtain ⟨hyields', rfl⟩ := yields_of_build h'
  have hsize : input.definitions.maps.size ≤ maps.size := by
    rw [Ordered.size, Ordered.size, hmaps, List.length_append]
    exact Nat.le_add_right _ _
  have hprojects := buildUpTo_projects hmaps hyields (yields_before h' hsize)
  have hpreserved := preserved_of_build h' hsize (Nat.le_refl _)
  rw [List.prefix_iff_getElem?]
  intro i hi
  obtain ⟨record, hrecord⟩ : ∃ record,
      ((projectBefore input input.definitions.maps.size).tables.records kind).toList[i]? =
        some record := ⟨_, List.getElem?_eq_getElem hi⟩
  rw [← List.getElem?_eq_getElem hi, hrecord, Array.getElem?_toList]
  rw [Array.getElem?_toList] at hrecord
  -- the record is filled before the first new map, and so it stays as it is
  obtain ⟨bytes, hbytes, -⟩ := whole_of_build h hrecord
  obtain ⟨name, stored⟩ := record
  obtain rfl : stored = some bytes := hbytes
  exact hpreserved.filled kind i name bytes (hprojects.getElem? hrecord)

/-- The maps of the example and a hut behind them. -/
def threeMaps : Ordered MapSettings :=
  twoMaps.definitions.maps.put "hut" { path := some "hut.json", onLook := some "greet" }

/-- The hut comes behind the town and the cave. -/
theorem twoMaps_hut_appends : ∃ tables tables', build twoMaps = .ok tables ∧
    build { twoMaps with definitions := { twoMaps.definitions with maps := threeMaps } } =
      .ok tables' ∧
    ∀ kind, (tables.records kind).toList <+: (tables'.records kind).toList := by
  have hmaps : threeMaps.entries = twoMaps.definitions.maps.entries ++
      [("hut", { path := some "hut.json", onLook := some "greet" })] :=
    Ordered.entries_put _ (by decide)
  obtain ⟨tables, htables⟩ := twoMaps_builds
  obtain ⟨tables', htables'⟩ : ∃ tables',
      build { twoMaps with definitions := { twoMaps.definitions with maps := threeMaps } } =
        .ok tables' := exists_of_isOk (by decide +kernel)
  exact ⟨tables, tables', htables, htables', build_more_maps hmaps htables htables'⟩

end GameBundle
