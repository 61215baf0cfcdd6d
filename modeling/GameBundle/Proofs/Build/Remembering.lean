import GameBundle.Proofs.Build.Replay
import Mathlib.Data.List.Nodup

set_option autoImplicit false

/-! # Records that are remembered under a key

Dialogs and serial dialogs are added to their tables one by one, and each is remembered under its
key in the same step. `Remembers` follows both at once, so a key leads to the record that was added
for it, and to no other. -/

namespace GameBundle

/-! ## A table and its keys -/

/-- The keys of added records with their numbers, if `first` records were there before. -/
def numberedFrom (first : Nat) (added : List (String × Record)) : List (String × UInt16) :=
  added.zipIdx.map fun a => (a.1.1, UInt16.ofNat (first + a.2))

theorem map_fst_numberedFrom (first : Nat) (added : List (String × Record)) :
    (numberedFrom first added).map Prod.fst = added.map Prod.fst := by
  rw [numberedFrom, List.map_map]
  have hfst : (Prod.fst ∘ fun a : (String × Record) × Nat => (a.1.1, UInt16.ofNat (first + a.2))) =
      Prod.fst ∘ Prod.fst := rfl
  rw [hfst, ← List.map_map, List.zipIdx_map_fst]

/-- Records of a kind were added, each of them remembered under a key and in relation `P` to it. -/
structure RemembersAs (P : String → Record → Prop) (kind : Kind) (memo : Project → Ordered UInt16)
    (added : List (String × Record)) (p q : Project) : Prop where
  records : (q.tables.records kind).toList =
    (p.tables.records kind).toList ++ added.map Prod.snd
  entries : (memo q).entries =
    (memo p).entries ++ numberedFrom (p.tables.count kind) added
  small : added ≠ [] → q.tables.count kind ≤ UInt16.size
  holds : ∀ a ∈ added, P a.1 a.2

namespace RemembersAs

variable {P Q : String → Record → Prop} {kind : Kind} {memo : Project → Ordered UInt16}
  {added more : List (String × Record)} {p q r : Project} {key : String} {index : UInt16}

theorem of_eq (hrecords : q.tables.records kind = p.tables.records kind) (hmemo : memo q = memo p) :
    RemembersAs P kind memo [] p q where
  records := by rw [hrecords, List.map_nil, List.append_nil]
  entries := by rw [hmemo]; exact (List.append_nil _).symm
  small h := absurd rfl h
  holds := by simp

theorem count_eq (h : RemembersAs P kind memo added p q) :
    q.tables.count kind = p.tables.count kind + added.length := by
  rw [Tables.count_eq_length, h.records, List.length_append, List.length_map,
    ← Tables.count_eq_length]

theorem single {record : Record} (hroom : p.tables.count kind < UInt16.size)
    (hrecords : q.tables.records kind = (p.tables.add kind record).records kind)
    (hmemo : (memo q).entries = (memo p).entries ++ [(key, p.next kind)]) (hP : P key record) :
    RemembersAs P kind memo [(key, record)] p q where
  records := by rw [hrecords, Tables.toList_records_add]; rfl
  entries := hmemo
  small _ := by
    rw [Tables.count, hrecords, ← Tables.count, Tables.count_add, if_pos rfl]
    exact hroom
  holds := by simpa using hP

theorem numberedFrom_append (first : Nat) (added more : List (String × Record)) :
    numberedFrom first (added ++ more) =
      numberedFrom first added ++ numberedFrom (first + added.length) more := by
  simp only [numberedFrom, List.zipIdx_append, List.map_append, Nat.zero_add]
  congr 1
  rw [List.zipIdx_eq_map_add, List.map_map]
  refine List.map_congr_left fun a _ => ?_
  show (a.1.1, UInt16.ofNat (first + (added.length + a.2))) = _
  rw [Nat.add_assoc]

theorem trans (hpq : RemembersAs P kind memo added p q) (hqr : RemembersAs P kind memo more q r) :
    RemembersAs P kind memo (added ++ more) p r where
  records := by rw [hqr.records, hpq.records, List.map_append, List.append_assoc]
  entries := by
    rw [hqr.entries, hpq.entries, hpq.count_eq, numberedFrom_append, List.append_assoc]
  small hne := by
    by_cases hmore : more = []
    · subst hmore
      have hcount := hqr.count_eq
      rw [List.length_nil, Nat.add_zero] at hcount
      rw [hcount]
      exact hpq.small (by simpa using hne)
    · exact hqr.small hmore
  holds a ha := (List.mem_append.1 ha).elim (hpq.holds a) (hqr.holds a)

theorem mono (hPQ : ∀ key record, P key record → Q key record)
    (h : RemembersAs P kind memo added p q) : RemembersAs Q kind memo added p q where
  records := h.records
  entries := h.entries
  small := h.small
  holds a ha := hPQ _ _ (h.holds a ha)

/-- A key that is new leads to one of the added records, by its place among them. -/
theorem place (h : RemembersAs P kind memo added p q) (hnew : (memo p).find? key = none)
    (hfind : (memo q).find? key = some index) :
    ∃ i record, added[i]? = some (key, record) ∧
      index.toNat = p.tables.count kind + i := by
  have hmem := Ordered.mem_entries hfind
  rw [h.entries, List.mem_append] at hmem
  rcases hmem with hold | hadded
  · have hkey : key ∈ (memo p).keys := List.mem_map_of_mem (f := Prod.fst) hold
    exact absurd hkey (by
      intro hin
      rw [Ordered.find?, List.lookup_eq_none_iff] at hnew
      simpa using hnew _ hold)
  · obtain ⟨⟨⟨other, record⟩, i⟩, hi, heq⟩ := List.mem_map.1 hadded
    obtain ⟨rfl, rfl⟩ := Prod.mk.inj heq
    rw [List.mk_mem_zipIdx_iff_getElem?] at hi
    have hlt := (List.getElem?_eq_some_iff.1 hi).1
    have hsmall := h.small (List.ne_nil_of_length_pos (Nat.zero_lt_of_lt hlt))
    rw [h.count_eq] at hsmall
    exact ⟨i, record, hi, UInt16.toNat_ofNat_of_lt' (by simp only; omega)⟩

/-- **A new key leads to the record that was added for it.** -/
theorem record (h : RemembersAs P kind memo added p q) (hnew : (memo p).find? key = none)
    (hfind : (memo q).find? key = some index) :
    ∃ record, (key, record) ∈ added ∧ (q.tables.records kind)[index.toNat]? = some record ∧
      P key record := by
  obtain ⟨i, record, hi, hindex⟩ := h.place hnew hfind
  refine ⟨record, List.mem_of_getElem? hi, ?_, h.holds _ (List.mem_of_getElem? hi)⟩
  rw [← Array.getElem?_toList, h.records, hindex, Tables.count_eq_length,
    List.getElem?_append_right (Nat.le_add_right _ _), Nat.add_sub_cancel_left, List.getElem?_map,
    hi]
  rfl

/-- **Different new keys lead to different records.** -/
theorem key_unique (h : RemembersAs P kind memo added p q) {other : String}
    (hnew : (memo p).find? key = none) (hnew' : (memo p).find? other = none)
    (hfind : (memo q).find? key = some index) (hfind' : (memo q).find? other = some index) :
    key = other := by
  obtain ⟨i, record, hi, hindex⟩ := h.place hnew hfind
  obtain ⟨j, record', hj, hindex'⟩ := h.place hnew' hfind'
  obtain rfl : i = j := by omega
  rw [hi] at hj
  exact congrArg Prod.fst (Option.some.inj hj)

/-- **One record is added for a key.** -/
theorem count_key (h : RemembersAs P kind memo added p q) (hnew : (memo p).find? key = none)
    (hfind : (memo q).find? key = some index) : (added.map Prod.fst).count key = 1 := by
  obtain ⟨i, record, hi, -⟩ := h.place hnew hfind
  have hkeys := (memo q).nodup_keys
  rw [h.entries, List.map_append] at hkeys
  rw [map_fst_numberedFrom] at hkeys
  exact List.count_eq_one_of_mem (List.nodup_append.1 hkeys).2.1
    (List.mem_map_of_mem (f := Prod.fst) (List.mem_of_getElem? hi))

end RemembersAs

/-- Records of a kind were added and remembered. -/
def Remembers (P : String → Record → Prop) (kind : Kind) (memo : Project → Ordered UInt16)
    (p q : Project) : Prop := ∃ added, RemembersAs P kind memo added p q

theorem Remembers.added {P : String → Record → Prop} {kind : Kind}
    {memo : Project → Ordered UInt16} {p q : Project} (h : Remembers P kind memo p q) :
    Added (fun record => ∃ key, P key record) kind p.tables q.tables := by
  obtain ⟨added, hadded⟩ := h
  refine ⟨added.map Prod.snd, hadded.records, fun record hrecord => ?_⟩
  obtain ⟨a, ha, rfl⟩ := List.mem_map.1 hrecord
  exact ⟨a.1, hadded.holds a ha⟩

/-! ## Dialogs -/

variable {input : Input} {s t u : MapState}

/-- The record of a dialog on the map: it is settled what its bytes are. -/
def SettledDialog (input : Input) (s : MapState) (key : String) (record : Record) : Prop :=
  ∃ name screens bytes, input.definitions.dialogs.find? name = some screens ∧
    key = dialogKey s.map.name name ∧ record = ⟨key, some bytes⟩ ∧
    Settled (composeDialog (compileScript input) key name screens) bytes s

/-- The record of a serial dialog, which is remembered under its full name. -/
def SettledSerialDialog (input : Input) (s : MapState) (name : String) (record : Record) : Prop :=
  ∃ dialog bytes, input.definitions.serialDialogs.find? name = some dialog ∧
    record = ⟨serialDialogKey name, some bytes⟩ ∧
    Settled (composeSerialDialog (compileScript input) name dialog) bytes s

theorem SettledDialog.mono {key : String} {record : Record} (h : SettledDialog input s key record)
    (hst : Later s t) : SettledDialog input t key record := by
  obtain ⟨name, screens, bytes, hscreens, hkey, hrecord, hsettled⟩ := h
  exact ⟨name, screens, bytes, hscreens, by rw [hkey, hst.name], hrecord, hsettled.mono hst⟩

theorem SettledSerialDialog.mono {name : String} {record : Record}
    (h : SettledSerialDialog input s name record) (hst : Later s t) :
    SettledSerialDialog input t name record := by
  obtain ⟨dialog, bytes, hdialog, hrecord, hsettled⟩ := h
  exact ⟨dialog, bytes, hdialog, hrecord, hsettled.mono hst⟩

theorem Writes.dialogs (h : Writes input s t) :
    Remembers (SettledDialog input t) .dialogs Project.dialogs s.project t.project := by
  have hlater := h.later
  cases h with
  | text pool text value made new within room =>
    exact ⟨_, .of_eq (Tables.records_add_of_ne _ (by cases pool <;> decide)) rfl⟩
  | claim name actions source new room =>
    exact ⟨_, .of_eq (Tables.records_add_of_ne _ (by decide)) rfl⟩
  | list name global number new next claimed => exact ⟨_, .of_eq rfl rfl⟩
  | script index name actions bytes source claimed settled =>
    exact ⟨_, .of_eq (Tables.records_set_of_ne (by decide)) rfl⟩
  | dialog name screens bytes source new settled room =>
    exact ⟨_, .single room rfl (Ordered.entries_put _ new)
      ⟨name, screens, bytes, source, rfl, rfl, settled.mono hlater⟩⟩
  | serialDialog name dialog bytes source within new settled room =>
    exact ⟨_, .of_eq (Tables.records_add_of_ne _ (by decide)) rfl⟩
  | wire global number offset name script old new own slot record listed patched =>
    exact ⟨_, .of_eq (Tables.records_set_of_ne (by decide)) rfl⟩

theorem Writes.serialDialogs (h : Writes input s t) :
    Remembers (SettledSerialDialog input t) .serialDialogs Project.serialDialogs s.project
      t.project := by
  have hlater := h.later
  cases h with
  | text pool text value made new within room =>
    exact ⟨_, .of_eq (Tables.records_add_of_ne _ (by cases pool <;> decide)) rfl⟩
  | claim name actions source new room =>
    exact ⟨_, .of_eq (Tables.records_add_of_ne _ (by decide)) rfl⟩
  | list name global number new next claimed => exact ⟨_, .of_eq rfl rfl⟩
  | script index name actions bytes source claimed settled =>
    exact ⟨_, .of_eq (Tables.records_set_of_ne (by decide)) rfl⟩
  | dialog name screens bytes source new settled room =>
    exact ⟨_, .of_eq (Tables.records_add_of_ne _ (by decide)) rfl⟩
  | serialDialog name dialog bytes source within new settled room =>
    exact ⟨_, .single room rfl (Ordered.entries_put _ new)
      ⟨dialog, bytes, source, rfl, settled.mono hlater⟩⟩
  | wire global number offset name script old new own slot record listed patched =>
    exact ⟨_, .of_eq (Tables.records_set_of_ne (by decide)) rfl⟩

/-- **What a compilation adds to a table stays settled to its end.** The induction is on its
    steps. -/
theorem Follows.remembers {P : MapState → String → Record → Prop} {kind : Kind}
    {memo : Project → Ordered UInt16}
    (hmono : ∀ s t key record, Later s t → P s key record → P t key record)
    (hstep : ∀ s t, Writes input s t → Remembers (P t) kind memo s.project t.project)
    (h : Follows input s t) : Remembers (P t) kind memo s.project t.project := by
  induction h with
  | refl => exact ⟨[], .of_eq rfl rfl⟩
  | tail _ hwrites ih =>
    obtain ⟨added, hadded⟩ := ih
    obtain ⟨more, hmore⟩ := hstep _ _ hwrites
    exact ⟨_, (hadded.mono fun key record => hmono _ _ key record hwrites.later).trans hmore⟩

theorem Follows.dialogs (h : Follows input s t) :
    Remembers (SettledDialog input t) .dialogs Project.dialogs s.project t.project :=
  h.remembers (fun _ _ _ _ hlater h => h.mono hlater) fun _ _ => Writes.dialogs

theorem Follows.serialDialogs (h : Follows input s t) :
    Remembers (SettledSerialDialog input t) .serialDialogs Project.serialDialogs s.project
      t.project :=
  h.remembers (fun _ _ _ _ hlater h => h.mono hlater) fun _ _ => Writes.serialDialogs

end GameBundle
