import GameBundle.Build.Scripts
import GameBundle.Proofs.Content.Tables

set_option autoImplicit false

/-! # The numbers of the scripts on a map

A map lists the script that does nothing and then the scripts whose records were claimed while it
is built, in the order in which they were claimed. `Numbered` is this invariant: both the list of
records and the numbers of the names follow from the table of scripts alone. -/

namespace GameBundle

/-! ## Lists of scripts -/

/-- The script that does nothing and the records from `first` up to `count`. -/
def listing (first count : Nat) : List UInt16 :=
  (0 :: List.range' first (count - first)).map UInt16.ofNat

/-- Names with their places. -/
def numbering (names : List String) : List (String × UInt16) :=
  names.zipIdx.map fun p => (p.1, UInt16.ofNat p.2)

/-- The names of the records of scripts. -/
def scriptNames (tables : Tables) : List String :=
  (tables.records .scripts).toList.map Record.name

theorem length_scriptNames (tables : Tables) :
    (scriptNames tables).length = tables.count .scripts := by
  simp [scriptNames, Tables.count]

theorem listing_succ {first count : Nat} (h : first ≤ count) :
    listing first (count + 1) = listing first count ++ [UInt16.ofNat count] := by
  have hsub : count + 1 - first = count - first + 1 := by omega
  have hlast : first + (count - first) = count := by omega
  rw [listing, hsub, List.range'_1_concat, hlast, ← List.cons_append, List.map_append]
  rfl

theorem length_listing (first count : Nat) :
    (listing first count).length = 1 + (count - first) := by
  simp [listing, Nat.add_comm]

/-- Apart from zero, a map lists the records of its own range. -/
theorem mem_tail_listing {first last : Nat} {global : UInt16} (hlast : last ≤ UInt16.size) :
    global ∈ (listing first last).tail ↔ first ≤ global.toNat ∧ global.toNat < last := by
  rw [listing, List.map_cons, List.tail_cons, List.mem_map]
  constructor
  · rintro ⟨k, hk, rfl⟩
    rw [List.mem_range'_1] at hk
    rw [UInt16.toNat_ofNat_of_lt' (by omega)]
    omega
  · rintro ⟨hle, hlt⟩
    exact ⟨global.toNat, by rw [List.mem_range'_1]; omega, UInt16.ofNat_toNat⟩

theorem numbering_append (names : List String) (name : String) :
    numbering (names ++ [name]) = numbering names ++ [(name, UInt16.ofNat names.length)] := by
  simp [numbering, List.zipIdx_append]

theorem map_fst_numbering (names : List String) : (numbering names).map Prod.fst = names := by
  rw [numbering, List.map_map]
  exact List.zipIdx_map_fst 0 names

/-! ## The invariant -/

/-- The map lists the script that does nothing and the records claimed from `first` on. -/
structure Numbered (first : Nat) (s : MapState) : Prop where
  pos : 0 < first
  le : first ≤ s.project.tables.count .scripts
  small : s.project.tables.count .scripts ≤ UInt16.size
  null : (scriptNames s.project.tables)[0]? = some nullScript
  scripts : s.map.scripts.toList = listing first (s.project.tables.count .scripts)
  numbers : s.map.scriptNumbers.entries =
    numbering (nullScript :: (scriptNames s.project.tables).drop first)

namespace Numbered

variable {first : Nat} {s t : MapState}

/-- The invariant is about names and lists only. -/
theorem of_eq (h : Numbered first s) (hscripts : t.map.scripts = s.map.scripts)
    (hnumbers : t.map.scriptNumbers = s.map.scriptNumbers)
    (hnames : scriptNames t.project.tables = scriptNames s.project.tables) : Numbered first t := by
  have hcount : t.project.tables.count .scripts = s.project.tables.count .scripts := by
    rw [← length_scriptNames, hnames, length_scriptNames]
  exact {
    pos := h.pos
    le := hcount ▸ h.le
    small := hcount ▸ h.small
    null := hnames ▸ h.null
    scripts := by rw [hscripts, hcount, h.scripts]
    numbers := by rw [hnumbers, hnames, h.numbers] }

/-- A script is claimed and listed. -/
theorem claim {name : String} {number : UInt16} (h : Numbered first s)
    (hnew : s.map.scriptNumber? name = none)
    (hcount : s.project.tables.count .scripts < UInt16.size)
    (hnumber : s.map.nextScript = .ok number) :
    Numbered first ⟨s.map.listScript name (UInt16.ofNat (s.project.tables.count .scripts)) number,
      { s.project with tables := s.project.tables.add .scripts ⟨name, none⟩ }⟩ := by
  have hnames : scriptNames (s.project.tables.add .scripts ⟨name, none⟩) =
      scriptNames s.project.tables ++ [name] := by
    rw [scriptNames, Tables.toList_records_add, List.map_append]
    rfl
  have hcount' : (s.project.tables.add .scripts ⟨name, none⟩).count .scripts =
      s.project.tables.count .scripts + 1 := by
    rw [← length_scriptNames, hnames, List.length_append, length_scriptNames]
    rfl
  have hsize : s.map.scripts.size = 1 + (s.project.tables.count .scripts - first) := by
    rw [← Array.length_toList, h.scripts, length_listing]
  have hle := h.le
  have hnumber' : number = UInt16.ofNat s.map.scripts.size := by
    unfold MapContext.nextScript at hnumber
    split at hnumber
    · cases hnumber
      rfl
    · cases hnumber
  exact {
    pos := h.pos
    le := by
      rw [hcount']
      exact Nat.le_succ_of_le hle
    small := by rwa [hcount']
    null := by
      rw [hnames, List.getElem?_append_left, h.null]
      rw [length_scriptNames]
      exact Nat.lt_of_lt_of_le h.pos hle
    scripts := by
      rw [MapContext.listScript, Array.toList_push, h.scripts, hcount', listing_succ hle]
    numbers := by
      rw [MapContext.listScript, Ordered.entries_put _ hnew, h.numbers, hnames,
        List.drop_append_of_le_length (by rw [length_scriptNames]; exact hle), ← List.cons_append,
        numbering_append, hnumber', hsize, List.length_cons, List.length_drop, length_scriptNames,
        Nat.add_comm] }

/-- The script that does nothing is listed on a map without scripts. -/
theorem start {number : UInt16} (hpos : 0 < s.project.tables.count .scripts)
    (hsmall : s.project.tables.count .scripts ≤ UInt16.size)
    (hnull : (scriptNames s.project.tables)[0]? = some nullScript) (hscripts : s.map.scripts = #[])
    (hnumbers : s.map.scriptNumbers = ∅) (hnumber : s.map.nextScript = .ok number) :
    Numbered (s.project.tables.count .scripts)
      ⟨s.map.listScript nullScript 0 number, s.project⟩ := by
  have hzero : number = 0 := by
    rw [MapContext.nextScript, hscripts] at hnumber
    cases hnumber
    rfl
  exact {
    pos := hpos
    le := Nat.le_refl _
    small := hsmall
    null := hnull
    scripts := by
      rw [MapContext.listScript, hscripts, listing, Nat.sub_self]
      rfl
    numbers := by
      rw [MapContext.listScript, hnumbers, hzero,
        List.drop_of_length_le (Nat.le_of_eq (length_scriptNames _))]
      rfl }

theorem null_number (h : Numbered first s) : s.map.scriptNumber? nullScript = some 0 := by
  rw [MapContext.scriptNumber?, Ordered.find?, h.numbers, numbering, List.zipIdx_cons,
    List.map_cons, List.lookup_cons_self]
  rfl

/-- **What a number on the map means.** It leads to a record with the name of the script, and only
    the script that does nothing has number zero. -/
theorem meaning {name : String} {number : UInt16} (h : Numbered first s)
    (hnumber : s.map.scriptNumber? name = some number) :
    ∃ global record, s.map.scripts[number.toNat]? = some global ∧
      (s.project.tables.records .scripts)[global.toNat]? = some record ∧ record.name = name ∧
      (number = 0 ↔ name = nullScript) ∧
      if name = nullScript then global = 0
      else first ≤ global.toNat ∧ global.toNat < s.project.tables.count .scripts := by
  have hpos := h.pos
  have hle := h.le
  have hsmall := h.small
  have hrecord : ∀ {i : Nat}, (scriptNames s.project.tables)[i]? = some name →
      ∃ record, (s.project.tables.records .scripts)[i]? = some record ∧ record.name = name := by
    intro i hi
    rw [scriptNames, List.getElem?_map, Array.getElem?_toList, Option.map_eq_some_iff] at hi
    exact hi
  -- the number is the place of the name, and the record is as far from the first
  have hmem := Ordered.mem_entries hnumber
  rw [h.numbers, numbering, List.mem_map] at hmem
  obtain ⟨⟨name', i⟩, hi, heq⟩ := hmem
  obtain ⟨rfl, rfl⟩ := Prod.mk.inj heq
  rw [List.mk_mem_zipIdx_iff_getElem?] at hi
  have hkeys := s.map.scriptNumbers.nodup_keys
  rw [h.numbers, map_fst_numbering] at hkeys
  have hlt := (List.getElem?_eq_some_iff.1 hi).1
  rw [List.length_cons, List.length_drop, length_scriptNames] at hlt
  have hnat : (UInt16.ofNat i).toNat = i := UInt16.toNat_ofNat_of_lt' (by omega)
  simp only at hi ⊢
  rw [hnat, ← Array.getElem?_toList, h.scripts, listing]
  cases i with
  | zero =>
    rw [List.getElem?_cons_zero, Option.some.injEq] at hi
    subst hi
    obtain ⟨record, hget, hname⟩ := hrecord h.null
    exact ⟨0, record, rfl, hget, hname, by simp, by rw [if_pos rfl]⟩
  | succ j =>
    rw [List.getElem?_cons_succ] at hi
    have hne : name' ≠ nullScript := by
      rintro rfl
      exact (List.nodup_cons.1 hkeys).1 (List.mem_of_getElem? hi)
    rw [List.getElem?_drop] at hi
    obtain ⟨record, hget, hname⟩ := hrecord hi
    have hglobal : (UInt16.ofNat (first + j)).toNat = first + j :=
      UInt16.toNat_ofNat_of_lt' (by omega)
    refine ⟨UInt16.ofNat (first + j), record, ?_, by rw [hglobal]; exact hget, hname, ?_, ?_⟩
    · rw [List.getElem?_map, List.getElem?_cons_succ, List.getElem?_range' (by omega)]
      simp
    · constructor
      · intro hzero
        have := congrArg UInt16.toNat hzero
        rw [hnat] at this
        exact absurd this (Nat.succ_ne_zero j)
      · exact fun heq => absurd heq hne
    · rw [if_neg hne, hglobal]
      omega

end Numbered

end GameBundle
