import GameBundle.Record.Bytes
import Mathlib.Data.Nat.Bitwise
import Mathlib.Data.Nat.Digits.Defs

set_option autoImplicit false

/-! # Reading bytes back

What a writer left at some place of a record is stated with `Bytes.HasAt`: from `start` on the bytes
are those of `part`. A stretch that is known this way can be cut into parts, survives writes that
do not touch it, and can be read as a word, as a long word or as a slice. -/

namespace GameBundle

/-- The bytes from `start` on begin with `part`. -/
def Bytes.HasAt (bytes : Bytes) (start : Nat) (part : List UInt8) : Prop :=
  ∀ j, j < part.length → bytes[start + j]? = part[j]?

/-- The word that starts at `start`, low byte first. -/
def Bytes.word? (bytes : Bytes) (start : Nat) : Option UInt16 := do
  let b₀ ← bytes[start]?
  let b₁ ← bytes[start + 1]?
  return b₀.toUInt16 ||| b₁.toUInt16 <<< 8

namespace Bytes

variable {bytes : Bytes} {start : Nat} {part : List UInt8}

/-! ## Stretches of bytes -/

theorem hasAt_of_toList (pre post : List UInt8) (h : bytes.toList = pre ++ (part ++ post)) :
    bytes.HasAt pre.length part := by
  intro j hj
  rw [← Array.getElem?_toList, h, List.getElem?_append_right (by omega),
    Nat.add_sub_cancel_left, List.getElem?_append_left hj]

theorem hasAt_append {a b : List UInt8} :
    bytes.HasAt start (a ++ b) ↔ bytes.HasAt start a ∧ bytes.HasAt (start + a.length) b := by
  constructor
  · intro h
    refine ⟨fun j hj => ?_, fun j hj => ?_⟩
    · rw [h j (by rw [List.length_append]; omega), List.getElem?_append_left hj]
    · rw [Nat.add_assoc, h (a.length + j) (by rw [List.length_append]; omega),
        List.getElem?_append_right (by omega), Nat.add_sub_cancel_left]
  · rintro ⟨ha, hb⟩ j hj
    by_cases hja : j < a.length
    · rw [ha j hja, List.getElem?_append_left hja]
    · have hj' : j - a.length < b.length := by
        rw [List.length_append] at hj
        omega
      have hsum : start + a.length + (j - a.length) = start + j := by omega
      rw [List.getElem?_append_right (by omega), ← hb _ hj', hsum]

theorem HasAt.left {a b : List UInt8} (h : bytes.HasAt start (a ++ b)) : bytes.HasAt start a :=
  (hasAt_append.1 h).1

theorem HasAt.right {a b : List UInt8} (h : bytes.HasAt start (a ++ b)) :
    bytes.HasAt (start + a.length) b :=
  (hasAt_append.1 h).2

theorem HasAt.le_size (h : bytes.HasAt start part) (hpart : part ≠ []) :
    start + part.length ≤ bytes.size := by
  have hpos := List.length_pos_iff.2 hpart
  have hlast := h (part.length - 1) (by omega)
  rw [List.getElem?_eq_getElem (by omega)] at hlast
  obtain ⟨hlt, -⟩ := Array.getElem?_eq_some_iff.1 hlast
  omega

/-- What a record holds is held by any bytes that the record lies in. -/
theorem HasAt.within {record : Bytes} {offset : Nat} (h : record.HasAt offset part)
    (hrecord : bytes.HasAt start record.toList) : bytes.HasAt (start + offset) part := by
  intro j hj
  have hfit := h.le_size (List.ne_nil_of_length_pos (by omega))
  rw [Nat.add_assoc, hrecord (offset + j) (by rw [Array.length_toList]; omega),
    Array.getElem?_toList, h j hj]

/-! ## Parts put behind one another -/

theorem toList_concat (header : Bytes) (parts : List Bytes) :
    (parts.foldl (· ++ ·) header).toList = header.toList ++ parts.flatMap Array.toList := by
  induction parts generalizing header with
  | nil => simp
  | cons part rest ih =>
    rw [List.foldl_cons, ih, Array.toList_append, List.append_assoc, List.flatMap_cons]

theorem size_concat (header : Bytes) (parts : List Bytes) :
    (parts.foldl (· ++ ·) header).size = header.size + (parts.map Array.size).sum := by
  rw [← Array.length_toList, toList_concat, List.length_append, Array.length_toList,
    List.length_flatMap]
  simp only [Array.length_toList]

theorem hasAt_concat_header (header : Bytes) (parts : List Bytes) :
    Bytes.HasAt (parts.foldl (· ++ ·) header) 0 header.toList :=
  hasAt_of_toList [] _ (toList_concat header parts)

theorem hasAt_concat (header : Bytes) {parts : List Bytes} {j : Nat} {part : Bytes}
    (hj : parts[j]? = some part) :
    Bytes.HasAt (parts.foldl (· ++ ·) header) (header.size + ((parts.take j).map Array.size).sum)
      part.toList := by
  induction parts generalizing header j with
  | nil => simp at hj
  | cons first rest ih =>
    cases j with
    | zero =>
      rw [List.getElem?_cons_zero, Option.some.injEq] at hj
      subst hj
      have hfirst := hasAt_concat_header (header ++ first) rest
      rw [Array.toList_append] at hfirst
      simpa using hfirst.right
    | succ j =>
      have hrest := ih (header ++ first) hj
      rwa [Array.size_append, Nat.add_assoc, ← List.sum_cons, ← List.map_cons,
        ← List.take_succ_cons] at hrest

theorem hasAt_append_last (a b : Bytes) : Bytes.HasAt (a ++ b) a.size b.toList := by
  rw [← Array.length_toList]
  exact hasAt_of_toList a.toList [] (by rw [Array.toList_append, List.append_nil])

/-! ## Writes -/

theorem hasAt_overwrite (hfit : start + part.length ≤ bytes.size) :
    (bytes.overwrite start part).HasAt start part := by
  intro j hj
  rw [getElem?_overwrite, if_pos (by omega), Nat.add_sub_cancel_left]

theorem HasAt.overwrite_of_disjoint {start' : Nat} {new : List UInt8} (h : bytes.HasAt start part)
    (hdisj : start + part.length ≤ start' ∨ start' + new.length ≤ start) :
    (bytes.overwrite start' new).HasAt start part := by
  intro j hj
  rw [getElem?_overwrite, if_neg (by omega), h j hj]

/-! ## Words -/

/-- The bytes of a word put together again, one bit at a time. -/
theorem joined_word (v : UInt16) :
    v.toUInt8.toUInt16 ||| (v >>> 8).toUInt8.toUInt16 <<< 8 = v := by
  have hv := v.toNat_lt
  apply UInt16.toNat_inj.1
  apply Nat.eq_of_testBit_eq
  intro i
  have hi : 16 ≤ i → v.toNat.testBit i = false := fun h =>
    Nat.testBit_lt_two_pow (Nat.lt_of_lt_of_le hv (Nat.pow_le_pow_right (by decide) h))
  simp only [UInt16.toNat_or, UInt16.toNat_shiftLeft, UInt8.toNat_toUInt16, UInt16.toNat_toUInt8,
    UInt16.toNat_shiftRight, Nat.testBit_lor, Nat.testBit_mod_two_pow, Nat.testBit_shiftLeft,
    Nat.testBit_shiftRight, UInt16.toNat_ofNat]
  grind

/-- The bytes of a long word put together again, one bit at a time. -/
theorem joined_long (v : UInt32) :
    v.toUInt8.toUInt32 ||| (v >>> 8).toUInt8.toUInt32 <<< 8 |||
      (v >>> 16).toUInt8.toUInt32 <<< 16 ||| (v >>> 24).toUInt8.toUInt32 <<< 24 = v := by
  have hv := v.toNat_lt
  apply UInt32.toNat_inj.1
  apply Nat.eq_of_testBit_eq
  intro i
  have hi : 32 ≤ i → v.toNat.testBit i = false := fun h =>
    Nat.testBit_lt_two_pow (Nat.lt_of_lt_of_le hv (Nat.pow_le_pow_right (by decide) h))
  simp only [UInt32.toNat_or, UInt32.toNat_shiftLeft, UInt8.toNat_toUInt32, UInt32.toNat_toUInt8,
    UInt32.toNat_shiftRight, Nat.testBit_lor, Nat.testBit_mod_two_pow, Nat.testBit_shiftLeft,
    Nat.testBit_shiftRight, UInt32.toNat_ofNat]
  grind

theorem HasAt.word? {v : UInt16} (h : bytes.HasAt start (ByteOrder.data.word v)) :
    bytes.word? start = some v := by
  have h₀ := h 0 (by simp)
  have h₁ := h 1 (by simp)
  simp only [ByteOrder.data, ByteOrder.word, ByteOrder.arrange, Nat.add_zero,
    List.getElem?_cons_zero, List.getElem?_cons_succ] at h₀ h₁
  rw [Bytes.word?, h₀, h₁]
  exact congrArg some (joined_word v)

theorem HasAt.long? {v : UInt32} (h : bytes.HasAt start (ByteOrder.little.long v)) :
    bytes.long? start = some v := by
  have h₀ := h 0 (by simp)
  have h₁ := h 1 (by simp)
  have h₂ := h 2 (by simp)
  have h₃ := h 3 (by simp)
  simp only [ByteOrder.long, ByteOrder.arrange, Nat.add_zero, List.getElem?_cons_zero,
    List.getElem?_cons_succ] at h₀ h₁ h₂ h₃
  rw [Bytes.long?, h₀, h₁, h₂, h₃]
  exact congrArg some (joined_long v)

theorem word?_eq_some {v : UInt16} (h : bytes.word? start = some v) : start + 2 ≤ bytes.size := by
  unfold Bytes.word? at h
  simp only [Option.bind_eq_bind, Option.bind_eq_some_iff] at h
  obtain ⟨_, -, _, hlast, -⟩ := h
  have := (Array.getElem?_eq_some_iff.1 hlast).1
  omega

/-- A word depends on its two bytes only. -/
theorem word?_congr {other : Bytes} {start' : Nat} (h₀ : other[start']? = bytes[start]?)
    (h₁ : other[start' + 1]? = bytes[start + 1]?) : other.word? start' = bytes.word? start := by
  rw [Bytes.word?, Bytes.word?, h₀, h₁]

theorem word?_within {record : Bytes} {offset : Nat} {v : UInt16} (h : record.word? offset = some v)
    (hrecord : bytes.HasAt start record.toList) : bytes.word? (start + offset) = some v := by
  have hfit := word?_eq_some h
  have hbyte : ∀ i, i < record.size → bytes[start + i]? = record[i]? := by
    intro i hi
    rw [hrecord i (by rwa [Array.length_toList]), Array.getElem?_toList]
  rw [← h]
  exact word?_congr (hbyte offset (by omega)) (hbyte (offset + 1) (by omega))

/-! ## Slices -/

theorem HasAt.extract (h : bytes.HasAt start part) (hfit : start + part.length ≤ bytes.size) :
    bytes.extract start (start + part.length) = part.toArray := by
  apply Array.ext_getElem?
  intro i
  by_cases hi : i < part.length
  · rw [Array.getElem?_extract, if_pos (by omega), h i hi, List.getElem?_toArray]
  · rw [Array.getElem?_eq_none (by rw [Array.size_extract]; omega),
      Array.getElem?_eq_none (by rw [List.size_toArray]; omega)]

theorem HasAt.slice? (h : bytes.HasAt start part) (hfit : start + part.length ≤ bytes.size) :
    bytes.slice? start part.length = some part.toArray := by
  rw [Bytes.slice?, if_pos hfit, h.extract hfit]

end Bytes

/-! ## Numbers -/

namespace ByteOrder

/-- The number that some bytes spell in this order. -/
def number (order : ByteOrder) (part : List UInt8) : Nat :=
  Nat.ofDigits 256 ((order.arrange part).map UInt8.toNat)

@[simp] theorem arrange_arrange (order : ByteOrder) (part : List UInt8) :
    order.arrange (order.arrange part) = part := by
  cases order with
  | little => rfl
  | big => exact List.reverse_reverse part

theorem number_singleton (order : ByteOrder) (b : UInt8) : order.number [b] = b.toNat := by
  cases order <;> exact Nat.ofDigits_singleton

theorem number_word (order : ByteOrder) (v : UInt16) : order.number (order.word v) = v.toNat := by
  have hv := v.toNat_lt
  simp only [number, word, arrange_arrange, List.map_cons, List.map_nil, Nat.ofDigits_cons,
    Nat.ofDigits_nil, UInt16.toNat_toUInt8, UInt16.toNat_shiftRight, UInt16.reduceToNat,
    Nat.reducePow, Nat.reduceMod, Nat.shiftRight_eq_div_pow]
  omega

theorem number_long (order : ByteOrder) (v : UInt32) : order.number (order.long v) = v.toNat := by
  have hv := v.toNat_lt
  simp only [number, long, arrange_arrange, List.map_cons, List.map_nil, Nat.ofDigits_cons,
    Nat.ofDigits_nil, UInt32.toNat_toUInt8, UInt32.toNat_shiftRight, UInt32.reduceToNat,
    Nat.reducePow, Nat.reduceMod, Nat.shiftRight_eq_div_pow]
  omega

end ByteOrder

end GameBundle
