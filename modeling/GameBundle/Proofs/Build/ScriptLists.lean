import GameBundle.Proofs.Build.Run

set_option autoImplicit false

/-! # The lists of scripts

The maps of a finished bundle share its scripts out among them: all of them list the script that
does nothing, and each of the others is on the list of one map, in the order of the records. -/

namespace GameBundle

/-! ## Consecutive ranges -/

section Ranges

variable {c : Nat → Nat} {n : Nat} (h : ∀ i < n, c i ≤ c (i + 1))
include h

theorem le_of_steps {i j : Nat} (hij : i ≤ j) (hj : j ≤ n) : c i ≤ c j := by
  induction j, hij using Nat.le_induction with
  | base => exact Nat.le_refl _
  | succ j _ ih => exact (ih (Nat.le_of_succ_le hj)).trans (h j hj)

/-- Ranges that follow one another are one range. -/
theorem flatMap_range' :
    (List.range n).flatMap (fun i => List.range' (c i) (c (i + 1) - c i)) =
      List.range' (c 0) (c n - c 0) := by
  induction n with
  | zero => simp
  | succ n ih =>
    have hle : c 0 ≤ c n := le_of_steps h (Nat.zero_le n) (Nat.le_succ n)
    have hlast := h n (Nat.lt_succ_self n)
    have hstart : c n = c 0 + (c n - c 0) := by omega
    have hlength : c (n + 1) - c 0 = (c n - c 0) + (c (n + 1) - c n) := by omega
    rw [List.range_succ, List.flatMap_append, ih fun i hi => h i (Nat.lt_succ_of_lt hi),
      List.flatMap_singleton, hlength, ← List.range'_append_1, ← hstart]

/-- Every number that they cover is in exactly one of them. -/
theorem existsUnique_range {k : Nat} (hle : c 0 ≤ k) (hlt : k < c n) :
    ∃! i, i < n ∧ c i ≤ k ∧ k < c (i + 1) := by
  have hin : k ∈ List.range' (c 0) (c n - c 0) := by
    rw [List.mem_range'_1]
    omega
  rw [← flatMap_range' h, List.mem_flatMap] at hin
  obtain ⟨i, hi, hki⟩ := hin
  rw [List.mem_range] at hi
  rw [List.mem_range'_1] at hki
  refine ⟨i, ⟨hi, by omega⟩, ?_⟩
  rintro j ⟨hj, hkj⟩
  -- of two ranges, one ends before the other starts
  rcases Nat.lt_trichotomy i j with hlt | heq | hlt
  · have := le_of_steps h (show i + 1 ≤ j from hlt) (Nat.le_of_lt hj)
    omega
  · exact heq.symm
  · have := le_of_steps h (show j + 1 ≤ i from hlt) (Nat.le_of_lt hi)
    omega

end Ranges

/-! ## The list of a map -/

/-- The scripts that map `i` of a bundle lists. -/
def Tables.scriptList? (tables : Tables) (i : Nat) : Option (List UInt16) := do
  let record ← (tables.records .maps)[i]?
  let header ← MapHeader.read? (← record.bytes)
  return header.scripts

/-- The names of the scripts that a number stands for. -/
def scriptNameOf? (tables : Tables) (global : UInt16) : Option String :=
  (scriptNames tables)[global.toNat]?

/-- A map does not list two scripts of one name. -/
theorem Numbered.nodup_names {first : Nat} {s : MapState} {P : Record → Prop} {tables : Tables}
    (h : Numbered first s) (hlater : Added P .scripts s.project.tables tables) :
    ((listing first (s.project.tables.count .scripts)).map (scriptNameOf? tables)).Nodup := by
  have hle := h.le
  have hsmall := h.small
  have hname : ∀ {i : Nat} {name : String}, (scriptNames s.project.tables)[i]? = some name →
      scriptNameOf? tables (UInt16.ofNat i) = some name := by
    intro i name hname
    obtain ⟨records, hrecords, -⟩ := hlater
    have hlt := (List.getElem?_eq_some_iff.1 hname).1
    rw [scriptNameOf?, UInt16.toNat_ofNat_of_lt' (by rw [length_scriptNames] at hlt; omega),
      scriptNames, hrecords, List.map_append, ← scriptNames, List.getElem?_append_left hlt, hname]
  have hnames : (listing first (s.project.tables.count .scripts)).map (scriptNameOf? tables) =
      (nullScript :: (scriptNames s.project.tables).drop first).map some := by
    rw [listing, List.map_map, List.map_cons, List.map_cons, List.cons.injEq]
    refine ⟨hname h.null, List.ext_getElem ?_ fun i hi hi' => ?_⟩
    · simp [length_scriptNames]
    · rw [List.getElem_map, List.getElem_range', List.getElem_map, List.getElem_drop, Nat.one_mul]
      exact hname (List.getElem?_eq_getElem _)
  -- these are the keys of the numbers on the map, which are all different
  have hkeys := s.map.scriptNumbers.nodup_keys
  rw [h.numbers, map_fst_numbering] at hkeys
  rw [hnames]
  exact hkeys.map (Option.some_injective _)

section Succeeds

variable {input : Input} {tables : Tables} (h : build input = .ok tables)
include h

theorem countBefore_le_succ {i : Nat} (hi : i < input.definitions.maps.size) :
    countBefore input .scripts i ≤ countBefore input .scripts (i + 1) :=
  (extends_run h (Nat.le_succ i) hi).scripts.count_le

theorem countBefore_zero : countBefore input .scripts 0 = 1 := by
  rw [countBefore, Tables.count, (prepared_of_build h).scripts]
  rfl

theorem countBefore_size :
    countBefore input .scripts input.definitions.maps.size = tables.count .scripts := by
  rw [countBefore, (yields_of_build h).2]

/-- A map lists the records that were claimed while it was built. -/
theorem scriptList_of_build {i : Nat} (hi : i < input.definitions.maps.size) :
    let list := listing (countBefore input .scripts i) (countBefore input .scripts (i + 1))
    tables.scriptList? i = some list ∧ (list.map (scriptNameOf? tables)).Nodup := by
  have hmap := List.getElem?_eq_getElem hi
  obtain ⟨index, tiled, entities, t, hindex, -, hbuilds, hafter⟩ := map_of_build h hmap
  obtain ⟨q, hlater, rfl⟩ := finished_of_build h hi
  rw [hafter] at hlater
  obtain ⟨bytes, header, hbytes, hlist, hrecord⟩ :=
    mapRecord_of_build h hmap hindex hbuilds hlater
  have hcount : countBefore input .scripts (i + 1) = t.project.tables.count .scripts := by
    rw [countBefore, hafter]
  rw [hcount]
  refine ⟨?_, hbuilds.numbered.nodup_names hlater.scripts⟩
  simp only [Tables.scriptList?, hbytes, hrecord.read, Option.bind_eq_bind, Option.bind_some,
    Option.pure_def, hlist, hbuilds.numbered.scripts]
  rfl

theorem count_le_size : tables.count .scripts ≤ UInt16.size := by
  rw [← countBefore_size h]
  exact (ready_of_build h (Nat.le_refl _)).1.small

/-- All records but that of the script that does nothing were claimed for a map, and filled. -/
theorem filled_of_build {k : Nat} (hpos : 0 < k) (hk : k < tables.count .scripts) :
    ∃ name bytes, (tables.records .scripts)[k]? = some ⟨name, some bytes⟩ := by
  obtain ⟨q, hlater, rfl⟩ := finished_of_build h (Nat.zero_le _)
  have hfirst := countBefore_zero h
  rw [countBefore] at hfirst
  have hrecord := Array.getElem?_eq_getElem hk
  obtain ⟨bytes, hbytes⟩ := Option.isSome_iff_exists.1 <|
    hlater.scripts.holds (by rwa [hfirst]) hrecord
  exact ⟨_, bytes, hrecord.trans (congrArg some (by rw [← hbytes]))⟩

end Succeeds

/-! ## All lists -/

/-- How the lists of the maps share out the records of scripts. A record bears the name of the
    script that it was compiled from, so that `names` is about what a map has compiled. -/
structure SharedOut (tables : Tables) (lists : List (List UInt16)) : Prop where
  null : (tables.records .scripts)[0]? = some nullRecord
  first : ∀ list ∈ lists, list.head? = some 0
  filled : ∀ list ∈ lists, ∀ global ∈ list.tail, global ≠ 0 ∧
    ∃ name bytes, (tables.records .scripts)[global.toNat]? = some ⟨name, some bytes⟩
  nodup : (lists.flatMap List.tail).Nodup
  unique : ∀ k, 0 < k → k < tables.count .scripts →
    ∃! i : Nat, ∃ list : List UInt16, lists[i]? = some list ∧ k ∈ list.map UInt16.toNat
  count : tables.count .scripts = 1 + (lists.map fun list => list.length - 1).sum
  names : ∀ list ∈ lists, (list.map (scriptNameOf? tables)).Nodup

theorem flatMap_tail_listing {c : Nat → Nat} {n : Nat} (hc : ∀ i < n, c i ≤ c (i + 1)) :
    ((List.range n).map fun i => listing (c i) (c (i + 1))).flatMap List.tail =
      (List.range' (c 0) (c n - c 0)).map UInt16.ofNat := by
  rw [← flatMap_range' hc, List.flatMap_map, List.map_flatMap]
  rfl

/-- A positive number is on a list if it is in the range of the list. -/
theorem mem_toNat_listing {first last k : Nat} (hlast : last ≤ UInt16.size) (hpos : 0 < k) :
    k ∈ (listing first last).map UInt16.toNat ↔ first ≤ k ∧ k < last := by
  rw [List.mem_map]
  constructor
  · rintro ⟨global, hglobal, rfl⟩
    rcases List.mem_cons.1 hglobal with rfl | htail
    · exact absurd hpos (Nat.lt_irrefl 0)
    · exact (mem_tail_listing hlast).1 htail
  · rintro hk
    have hnat : (UInt16.ofNat k).toNat = k := UInt16.toNat_ofNat_of_lt' (by omega)
    have htail := (mem_tail_listing hlast).2 (show first ≤ (UInt16.ofNat k).toNat ∧
      (UInt16.ofNat k).toNat < last by rwa [hnat])
    exact ⟨UInt16.ofNat k, List.mem_cons_of_mem _ htail, hnat⟩

/-- Lists that follow one another share out what they cover. -/
theorem sharedOut_of_ranges {tables : Tables} {c : Nat → Nat} {n : Nat}
    (hc : ∀ i < n, c i ≤ c (i + 1)) (hzero : c 0 = 1) (hsize : c n = tables.count .scripts)
    (hsmall : tables.count .scripts ≤ UInt16.size)
    (hnull : (tables.records .scripts)[0]? = some nullRecord)
    (hfilled : ∀ k, 0 < k → k < tables.count .scripts →
      ∃ name bytes, (tables.records .scripts)[k]? = some ⟨name, some bytes⟩)
    (hnames : ∀ i < n, ((listing (c i) (c (i + 1))).map (scriptNameOf? tables)).Nodup) :
    SharedOut tables ((List.range n).map fun i => listing (c i) (c (i + 1))) := by
  have hrange : ∀ i < n, 1 ≤ c i ∧ c (i + 1) ≤ tables.count .scripts := by
    intro i hi
    rw [← hsize]
    exact ⟨hzero.ge.trans (le_of_steps hc (Nat.zero_le i) (Nat.le_of_lt hi)),
      le_of_steps hc hi (Nat.le_refl n)⟩
  have htails := flatMap_tail_listing hc
  rw [hzero, hsize] at htails
  exact {
    null := hnull
    first := by
      intro list hlist
      obtain ⟨i, -, rfl⟩ := List.mem_map.1 hlist
      rfl
    filled := by
      intro list hlist global hglobal
      obtain ⟨i, hi, rfl⟩ := List.mem_map.1 hlist
      obtain ⟨hfirst, hlast⟩ := hrange i (List.mem_range.1 hi)
      obtain ⟨hle, hlt⟩ := (mem_tail_listing (hlast.trans hsmall)).1 hglobal
      refine ⟨?_, hfilled _ (hfirst.trans hle) (Nat.lt_of_lt_of_le hlt hlast)⟩
      rintro rfl
      exact absurd (hfirst.trans hle) (by decide)
    nodup := by
      rw [htails]
      refine List.Nodup.map_on ?_ List.nodup_range'
      intro a ha b hb heq
      rw [List.mem_range'_1] at ha hb
      have hnat := congrArg UInt16.toNat heq
      rwa [UInt16.toNat_ofNat_of_lt' (by omega), UInt16.toNat_ofNat_of_lt' (by omega)] at hnat
    unique := by
      intro k hpos hk
      obtain ⟨i, ⟨hi, hki⟩, hunique⟩ := existsUnique_range hc (hzero ▸ hpos) (hsize ▸ hk)
      have hlist : ∀ {j : Nat} {list : List UInt16},
          ((List.range n).map fun i => listing (c i) (c (i + 1)))[j]? = some list ↔
            j < n ∧ listing (c j) (c (j + 1)) = list := by
        intro j list
        rw [List.getElem?_map, Option.map_eq_some_iff]
        simp [List.getElem?_eq_some_iff]
      refine ⟨i, ⟨_, hlist.2 ⟨hi, rfl⟩, ?_⟩, ?_⟩
      · exact (mem_toNat_listing ((hrange i hi).2.trans hsmall) hpos).2 hki
      · rintro j ⟨_, hget, hkj⟩
        obtain ⟨hj, rfl⟩ := hlist.1 hget
        exact hunique j ⟨hj, (mem_toNat_listing ((hrange j hj).2.trans hsmall) hpos).1 hkj⟩
    count := by
      have hlength := congrArg List.length htails
      rw [List.length_map, List.length_range', List.length_flatMap] at hlength
      simp only [List.length_tail] at hlength
      have hpos := le_of_steps hc (Nat.zero_le n) (Nat.le_refl n)
      omega
    names := by
      intro list hlist
      obtain ⟨i, hi, rfl⟩ := List.mem_map.1 hlist
      exact hnames i (List.mem_range.1 hi) }

/-- **Every script of a bundle is on the list of one map, under a name of its own there.** -/
theorem scripts_listed_once {input : Input} {tables : Tables} (h : build input = .ok tables) :
    (tables.records .maps).toList.map Record.name = input.definitions.maps.keys ∧
      ∃ lists : List (List UInt16),
        lists.map some = (List.range input.definitions.maps.size).map tables.scriptList? ∧
        SharedOut tables lists := by
  have hnames := names_of_build h (Nat.le_refl _)
  have hnull := (ready_of_build h (Nat.le_refl _)).1.null
  rw [(yields_of_build h).2] at hnames hnull
  refine ⟨hnames, (List.range input.definitions.maps.size).map fun i =>
    listing (countBefore input .scripts i) (countBefore input .scripts (i + 1)), ?_, ?_⟩
  · rw [List.map_map]
    refine List.map_congr_left fun i hi => ?_
    exact (scriptList_of_build h (List.mem_range.1 hi)).1.symm
  · exact sharedOut_of_ranges (fun i hi => countBefore_le_succ h hi) (countBefore_zero h)
      (countBefore_size h) (count_le_size h) hnull (fun k hpos hk => filled_of_build h hpos hk)
      fun i hi => (scriptList_of_build h hi).2

theorem twoMaps_scripts_listed_once : ∃ tables, build twoMaps = .ok tables ∧
    (tables.records .maps).toList.map Record.name = ["town", "cave"] ∧
      ∃ lists : List (List UInt16), lists.map some = (List.range 2).map tables.scriptList? ∧
        SharedOut tables lists := by
  obtain ⟨tables, htables⟩ := twoMaps_builds
  exact ⟨tables, htables, scripts_listed_once htables⟩

end GameBundle
