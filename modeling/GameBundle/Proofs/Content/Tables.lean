import GameBundle.Proofs.Steps

set_option autoImplicit false

/-! # What steps do to the tables

One lemma for each step on the tables says when it succeeds and what the tables are afterwards.
`Added` says of one kind that records were added and the earlier ones stayed what they were. -/

namespace GameBundle

namespace Tables

variable {t t' : Tables} {kind : Kind} {index : UInt16} {name : String} {bytes : Bytes}

/-! ## Steps -/

theorem yields_nextIndex :
    Yields (nextIndex kind) t index t' ↔
      t.count kind < UInt16.size ∧ index = UInt16.ofNat (t.count kind) ∧ t = t' := by
  simp only [nextIndex, yields_bind, yields_get]
  constructor
  · rintro ⟨_, _, ⟨rfl, rfl⟩, h⟩
    split at h
    · next hlt =>
      obtain ⟨rfl, rfl⟩ := yields_pure.1 h
      exact ⟨hlt, rfl, rfl⟩
    · exact (yields_reject.1 h).elim
  · rintro ⟨hlt, rfl, rfl⟩
    refine ⟨_, _, ⟨rfl, rfl⟩, ?_⟩
    rw [if_pos hlt, yields_pure]
    exact ⟨rfl, rfl⟩

@[simp] theorem yields_push :
    Yields (push kind name bytes) t index t' ↔
      t.count kind < UInt16.size ∧ index = UInt16.ofNat (t.count kind) ∧
        t' = t.add kind ⟨name, some bytes⟩ := by
  simp only [push, yields_bind, yields_nextIndex, yields_modify, yields_pure]
  constructor
  · rintro ⟨_, _, ⟨hlt, rfl, rfl⟩, _, _, rfl, rfl, rfl⟩
    exact ⟨hlt, rfl, rfl⟩
  · rintro ⟨hlt, rfl, rfl⟩
    exact ⟨_, _, ⟨hlt, rfl, rfl⟩, (), _, rfl, rfl, rfl⟩

@[simp] theorem yields_reserve :
    Yields (reserve kind name) t index t' ↔
      t.count kind < UInt16.size ∧ index = UInt16.ofNat (t.count kind) ∧
        t' = t.add kind ⟨name, none⟩ := by
  simp only [reserve, yields_bind, yields_nextIndex, yields_modify, yields_pure]
  constructor
  · rintro ⟨_, _, ⟨hlt, rfl, rfl⟩, _, _, rfl, rfl, rfl⟩
    exact ⟨hlt, rfl, rfl⟩
  · rintro ⟨hlt, rfl, rfl⟩
    exact ⟨_, _, ⟨hlt, rfl, rfl⟩, (), _, rfl, rfl, rfl⟩

@[simp] theorem yields_fill {u : Unit} :
    Yields (fill kind index bytes) t u t' ↔
      index.toNat < t.count kind ∧ t' = t.set kind index.toNat bytes := by
  simp only [fill, yields_bind, yields_get]
  constructor
  · rintro ⟨_, _, ⟨rfl, rfl⟩, h⟩
    split at h
    · next hlt => exact ⟨hlt, yields_modify.1 h⟩
    · exact (yields_reject.1 h).elim
  · rintro ⟨hlt, rfl⟩
    refine ⟨_, _, ⟨rfl, rfl⟩, ?_⟩
    rw [if_pos hlt, yields_modify]

theorem yields_bytesOf :
    Yields (bytesOf kind index) t bytes t' ↔
      (∃ name, (t.records kind)[index.toNat]? = some ⟨name, some bytes⟩) ∧ t = t' := by
  simp only [bytesOf, yields_bind, yields_get]
  constructor
  · rintro ⟨_, _, ⟨rfl, rfl⟩, h⟩
    split at h
    · exact (yields_reject.1 h).elim
    · exact (yields_reject.1 h).elim
    · next name stored hrecord =>
      obtain ⟨rfl, rfl⟩ := yields_pure.1 h
      exact ⟨⟨name, hrecord⟩, rfl⟩
  · rintro ⟨⟨name, hrecord⟩, rfl⟩
    refine ⟨_, _, ⟨rfl, rfl⟩, ?_⟩
    rw [hrecord]
    exact yields_pure.2 ⟨rfl, rfl⟩

@[simp] theorem yields_update {f : Bytes → Except Failure Bytes} {u : Unit} :
    Yields (update kind index f) t u t' ↔
      ∃ name old new, (t.records kind)[index.toNat]? = some ⟨name, some old⟩ ∧ f old = .ok new ∧
        t' = t.set kind index.toNat new := by
  simp only [update, yields_bind, yields_bytesOf, yields_except, yields_modify]
  constructor
  · rintro ⟨old, _, ⟨⟨name, hrecord⟩, rfl⟩, new, _, ⟨hnew, rfl⟩, rfl⟩
    exact ⟨name, old, new, hrecord, hnew, rfl⟩
  · rintro ⟨name, old, new, hrecord, hnew, rfl⟩
    exact ⟨old, _, ⟨⟨name, hrecord⟩, rfl⟩, new, _, ⟨hnew, rfl⟩, rfl⟩

/-- A table that is full is left as it is. -/
theorem atomic_nextIndex : Atomic (nextIndex kind) := by
  refine .get_bind fun t => ?_
  dsimp only
  split
  · exact .pure _
  · exact .reject _

theorem atomic_push : Atomic (push kind name bytes) :=
  .bind_sure atomic_nextIndex fun index _ => ⟨index, _, yields_bind.2
    ⟨(), _, yields_modify.2 rfl, yields_pure.2 ⟨rfl, rfl⟩⟩⟩

theorem atomic_reserve : Atomic (reserve kind name) :=
  .bind_sure atomic_nextIndex fun index _ => ⟨index, _, yields_bind.2
    ⟨(), _, yields_modify.2 rfl, yields_pure.2 ⟨rfl, rfl⟩⟩⟩

theorem atomic_fill : Atomic (fill kind index bytes) := by
  refine .get_bind fun t => ?_
  split
  · intro s e t h
    cases h
  · exact .reject _

theorem atomic_update {f : Bytes → Except Failure Bytes} : Atomic (update kind index f) := by
  refine .bind_still (fun t => ?_) fun old => ?_
  · unfold bytesOf
    rw [outcome_bind, show outcome get t = (.ok t, t) from rfl]
    dsimp only
    split <;> rfl
  · refine .except_bind fun new => ?_
    intro s e t h
    cases h

/-! ## Records -/

theorem toList_records_add (record : Record) :
    ((t.add kind record).records kind).toList = (t.records kind).toList ++ [record] := by
  rw [records_add, if_pos rfl, Array.toList_push]

theorem records_add_of_ne {other : Kind} (record : Record) (h : other ≠ kind) :
    (t.add kind record).records other = t.records other := by
  rw [records_add, if_neg h]

theorem records_set_of_ne {other : Kind} {i : Nat} (h : other ≠ kind) :
    (t.set kind i bytes).records other = t.records other := by
  rw [set, records_change, if_neg h]

/-- A record that is given its bytes keeps its name, and the others are left alone. -/
theorem getElem?_records_set {i j : Nat} :
    ((t.set kind i bytes).records kind)[j]? =
      if i = j then ((t.records kind)[j]?).map fun record => { record with bytes := some bytes }
      else (t.records kind)[j]? := by
  rw [set, records_change, if_pos rfl, Array.getElem?_modify]

/-- Giving a record its bytes, seen from the whole list. -/
theorem toList_records_set (bytes : Bytes) {xs ys : List Record} {record : Record}
    (h : (t.records kind).toList = xs ++ record :: ys) :
    ((t.set kind xs.length bytes).records kind).toList =
      xs ++ { record with bytes := some bytes } :: ys := by
  have hmodify : ∀ xs : List Record, (xs ++ record :: ys).modify xs.length
      (fun record => { record with bytes := some bytes }) =
        xs ++ { record with bytes := some bytes } :: ys := by
    intro xs
    induction xs with
    | nil => rfl
    | cons x xs ih =>
      rw [List.cons_append, List.length_cons, List.modify_succ_cons, ih, List.cons_append]
  rw [set, records_change, if_pos rfl, Array.toList_modify, h, hmodify]

theorem map_name_records_set {i : Nat} {other : Kind} :
    ((t.set kind i bytes).records other).toList.map Record.name =
      (t.records other).toList.map Record.name := by
  by_cases hkind : other = kind
  · subst hkind
    apply List.ext_getElem?
    intro j
    rw [List.getElem?_map, List.getElem?_map, Array.getElem?_toList, Array.getElem?_toList,
      getElem?_records_set]
    split
    · rw [Option.map_map]
      rfl
    · rfl
  · rw [records_set_of_ne hkind]

theorem count_eq_length : t.count kind = (t.records kind).toList.length := by
  rw [count, Array.length_toList]

end Tables

/-! ## Records that stay, and records without bytes -/

namespace Tables

variable {s t u : Tables} {kind k : Kind} {i j : Nat} {record : Record} {bytes : Bytes}

theorem getElem?_records_add : ((t.add kind record).records k)[j]? =
    if k = kind ∧ j = t.count kind then some record else (t.records k)[j]? := by
  rw [records_add]
  by_cases hk : k = kind
  · subst hk
    rw [if_pos rfl, Array.getElem?_push, count]
    simp
  · simp [hk]

/-- Every record is still there, and what it was. -/
def Kept (s t : Tables) : Prop :=
  ∀ (kind : Kind) (i : Nat) (record : Record),
    (s.records kind)[i]? = some record → (t.records kind)[i]? = some record

theorem Kept.refl (t : Tables) : Kept t t := fun _ _ _ h => h

theorem Kept.trans (hst : Kept s t) (htu : Kept t u) : Kept s u :=
  fun kind i record h => htu kind i record (hst kind i record h)

theorem Kept.add (h : Kept s t) (kind : Kind) (record : Record) : Kept s (t.add kind record) := by
  intro k j old hold
  have hj := h k j old hold
  rw [getElem?_records_add, if_neg, hj]
  rintro ⟨rfl, rfl⟩
  exact absurd (Array.getElem?_eq_some_iff.1 hj).1 (Nat.lt_irrefl _)

theorem getElem?_records_set_ne (h : ¬(k = kind ∧ j = i)) :
    ((t.set kind i bytes).records k)[j]? = (t.records k)[j]? := by
  by_cases hk : k = kind
  · subst hk
    rw [getElem?_records_set, if_neg fun hij => h ⟨rfl, hij.symm⟩]
  · rw [records_set_of_ne hk]

/-- Records behind those that were there before may change. -/
theorem Kept.set (h : Kept s t) (hi : s.count kind ≤ i) (bytes : Bytes) :
    Kept s (t.set kind i bytes) := by
  intro k j old hold
  rw [getElem?_records_set_ne, h k j old hold]
  rintro ⟨rfl, rfl⟩
  exact absurd (Array.getElem?_eq_some_iff.1 hold).1 (Nat.not_lt.2 hi)

theorem count_add : (t.add kind record).count k = t.count k + if k = kind then 1 else 0 := by
  rw [count, records_add]
  split
  · next h =>
    subst h
    rw [Array.size_push, count]
  · rfl

@[simp] theorem count_set : (t.set kind i bytes).count k = t.count k := by
  rw [count, count, set, records_change]
  split
  · next h =>
    subst h
    rw [Array.size_modify]
  · rfl

/-- The record is claimed and has no bytes yet. -/
def Hole (t : Tables) (kind : Kind) (i : Nat) : Prop :=
  ∃ name, (t.records kind)[i]? = some ⟨name, none⟩

/-- No record is left without bytes but those that had none before. -/
def Completes (s t : Tables) : Prop := ∀ kind i, t.Hole kind i → s.Hole kind i

theorem Completes.refl (t : Tables) : Completes t t := fun _ _ h => h

theorem Completes.trans (hst : Completes s t) (htu : Completes t u) : Completes s u :=
  fun kind i h => hst kind i (htu kind i h)

theorem completes_add (t : Tables) (kind : Kind) (name : String) (bytes : Bytes) :
    Completes t (t.add kind ⟨name, some bytes⟩) := by
  rintro k j ⟨other, hother⟩
  rw [getElem?_records_add] at hother
  split at hother
  · cases hother
  · exact ⟨other, hother⟩

theorem Hole.of_add {name : String} (h : (t.add kind ⟨name, none⟩).Hole k j) :
    t.Hole k j ∨ k = kind ∧ j = t.count kind := by
  obtain ⟨other, hother⟩ := h
  rw [getElem?_records_add] at hother
  split at hother
  · next hnew => exact Or.inr hnew
  · exact Or.inl ⟨other, hother⟩

theorem Hole.of_set (h : (t.set kind i bytes).Hole k j) : t.Hole k j ∧ ¬(k = kind ∧ j = i) := by
  obtain ⟨other, hother⟩ := h
  by_cases heq : k = kind ∧ j = i
  · obtain ⟨rfl, rfl⟩ := heq
    rw [getElem?_records_set, if_pos rfl, Option.map_eq_some_iff] at hother
    obtain ⟨record, -, hrecord⟩ := hother
    cases hrecord
  · rw [getElem?_records_set_ne heq] at hother
    exact ⟨⟨other, hother⟩, heq⟩

/-- A record that is claimed and given its bytes leaves nothing unfinished. -/
theorem Completes.claimed {name : String} (h : Completes (s.add kind ⟨name, none⟩) t)
    (bytes : Bytes) : Completes s (t.set kind (s.count kind) bytes) := by
  intro k j hhole
  obtain ⟨hbefore, hother⟩ := hhole.of_set
  exact (h k j hbefore).of_add.resolve_right hother

end Tables

/-! ## Added records -/

/-- Records of a kind were added, all of them in `P`; the earlier ones are what they were. -/
def Added (P : Record → Prop) (kind : Kind) (s t : Tables) : Prop :=
  ∃ added, (t.records kind).toList = (s.records kind).toList ++ added ∧ ∀ record ∈ added, P record

namespace Added

variable {P Q : Record → Prop} {kind : Kind} {s t u : Tables}

theorem of_eq (h : t.records kind = s.records kind) : Added P kind s t :=
  ⟨[], by rw [h, List.append_nil], by simp⟩

theorem add {record : Record} (h : P record) : Added P kind s (s.add kind record) :=
  ⟨[record], Tables.toList_records_add record, by simpa using h⟩

theorem trans (hst : Added P kind s t) (htu : Added P kind t u) : Added P kind s u := by
  obtain ⟨xs, hxs, hP⟩ := hst
  obtain ⟨ys, hys, hP'⟩ := htu
  refine ⟨xs ++ ys, by rw [hys, hxs, List.append_assoc], fun record hrecord => ?_⟩
  rcases List.mem_append.1 hrecord with h | h
  · exact hP record h
  · exact hP' record h

theorem mono (hPQ : ∀ record, P record → Q record) (h : Added P kind s t) : Added Q kind s t := by
  obtain ⟨xs, hxs, hP⟩ := h
  exact ⟨xs, hxs, fun record hrecord => hPQ record (hP record hrecord)⟩

theorem congr {s' t' : Tables} (h : Added P kind s t) (hs : s'.records kind = s.records kind)
    (ht : t'.records kind = t.records kind) : Added P kind s' t' := by
  obtain ⟨xs, hxs, hP⟩ := h
  exact ⟨xs, by rw [hs, ht, hxs], hP⟩

theorem count_le (h : Added P kind s t) : s.count kind ≤ t.count kind := by
  obtain ⟨xs, hxs, -⟩ := h
  rw [Tables.count_eq_length, Tables.count_eq_length, hxs, List.length_append]
  omega

/-- A record that was there before is there still. -/
theorem getElem? {i : Nat} {record : Record} (h : Added P kind s t)
    (hi : (s.records kind)[i]? = some record) : (t.records kind)[i]? = some record := by
  obtain ⟨xs, hxs, -⟩ := h
  rw [← Array.getElem?_toList] at hi ⊢
  obtain ⟨hlt, -⟩ := List.getElem?_eq_some_iff.1 hi
  rw [hxs, List.getElem?_append_left hlt, hi]

/-- A record that was not there before is one of the added ones. -/
theorem holds {i : Nat} {record : Record} (h : Added P kind s t) (hle : s.count kind ≤ i)
    (hi : (t.records kind)[i]? = some record) : P record := by
  obtain ⟨xs, hxs, hP⟩ := h
  rw [← Array.getElem?_toList, hxs, List.getElem?_append_right] at hi
  · exact hP record (List.mem_of_getElem? hi)
  · rwa [← Tables.count_eq_length]

/-- A record that was added is there after more were added. -/
theorem between {i : Nat} (hst : Added P kind s t) (htu : Added Q kind t u) (hle : s.count kind ≤ i)
    (hlt : i < t.count kind) : ∃ record, (u.records kind)[i]? = some record ∧ P record := by
  have hrecord : (t.records kind)[i]? = some (t.records kind)[i] := Array.getElem?_eq_getElem hlt
  exact ⟨_, htu.getElem? hrecord, hst.holds hle hrecord⟩

end Added

end GameBundle
