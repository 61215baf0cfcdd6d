set_option autoImplicit false

/-! # Bytes and machine words

Records are arrays of bytes. This module fixes how words are spelled in bytes, the padding of
record lengths to four bytes, and the two ways to reach into bytes that exist already: replacing a
stretch of them and reading a word back. -/

namespace GameBundle

/-- The bytes of a record, an image or a whole bundle. -/
abbrev Bytes : Type := Array UInt8

/-! ## Byte order -/

/-- Which end of a word comes first. -/
inductive ByteOrder
  | little
  | big
  deriving Repr, DecidableEq, Inhabited

/-- The order of all general fields. -/
def ByteOrder.data : ByteOrder := .little

/-- The order of values that go to the screen as they are. -/
def ByteOrder.screen : ByteOrder := .big

/-- Bytes listed from the least significant one, in this order. -/
def ByteOrder.arrange : ByteOrder → List UInt8 → List UInt8
  | .little, bytes => bytes
  | .big, bytes => bytes.reverse

@[simp] theorem ByteOrder.length_arrange (order : ByteOrder) (bytes : List UInt8) :
    (order.arrange bytes).length = bytes.length := by
  cases order <;> simp [arrange]

/-- The two bytes of a word. -/
def ByteOrder.word (order : ByteOrder) (v : UInt16) : List UInt8 :=
  order.arrange [v.toUInt8, (v >>> 8).toUInt8]

/-- The four bytes of a long word. -/
def ByteOrder.long (order : ByteOrder) (v : UInt32) : List UInt8 :=
  order.arrange [v.toUInt8, (v >>> 8).toUInt8, (v >>> 16).toUInt8, (v >>> 24).toUInt8]

@[simp] theorem ByteOrder.length_word (order : ByteOrder) (v : UInt16) :
    (order.word v).length = 2 := by simp [word]

@[simp] theorem ByteOrder.length_long (order : ByteOrder) (v : UInt32) :
    (order.long v).length = 4 := by simp [long]

/-! ## Lengths -/

/-- The next multiple of four. -/
def paddedLength (length : Nat) : Nat := (length + 3) / 4 * 4

theorem le_paddedLength (length : Nat) : length ≤ paddedLength length := by
  unfold paddedLength
  omega

theorem paddedLength_lt (length : Nat) : paddedLength length < length + 4 := by
  unfold paddedLength
  omega

theorem paddedLength_of_dvd {length : Nat} (h : 4 ∣ length) : paddedLength length = length := by
  unfold paddedLength
  omega

theorem four_dvd_paddedLength (length : Nat) : 4 ∣ paddedLength length := by
  unfold paddedLength
  omega

/-- Add zero bytes up to the next multiple of four. -/
def Bytes.pad (bytes : Bytes) : Bytes :=
  bytes ++ Array.replicate (paddedLength bytes.size - bytes.size) 0

@[simp] theorem Bytes.size_pad (bytes : Bytes) : bytes.pad.size = paddedLength bytes.size := by
  have := le_paddedLength bytes.size
  simp only [pad, Array.size_append, Array.size_replicate]
  omega

/-- The largest value of a field of `width` bytes. Fields have one, two or four bytes; any other
    width holds nothing but zero. -/
def maxForWidth : Nat → Nat
  | 1 => 0xff
  | 2 => 0xffff
  | 4 => 0xffffffff
  | _ => 0

/-- Offsets and counts are 64-bit words. -/
def wordLimit : Nat := UInt64.size

/-! ## Reaching into bytes -/

/-- Replace the bytes from `start` on by `new`. Whatever would lie past the end is dropped. -/
def Bytes.overwrite (bytes : Bytes) (start : Nat) : List UInt8 → Bytes
  | [] => bytes
  | b :: rest => Bytes.overwrite (bytes.setIfInBounds start b) (start + 1) rest

@[simp] theorem Bytes.size_overwrite (bytes : Bytes) (start : Nat) (new : List UInt8) :
    (bytes.overwrite start new).size = bytes.size := by
  induction new generalizing bytes start with
  | nil => rfl
  | cons b rest ih => simp [overwrite, ih]

/-- Byte `i` after `overwrite`: a new byte where the stretch lies, the old one elsewhere. -/
theorem Bytes.getElem?_overwrite (bytes : Bytes) (start : Nat) (new : List UInt8) (i : Nat) :
    (bytes.overwrite start new)[i]? =
      if start ≤ i ∧ i < start + new.length ∧ i < bytes.size then new[i - start]?
      else bytes[i]? := by
  induction new generalizing bytes start with
  | nil =>
    simp only [overwrite, List.length_nil, Nat.add_zero]
    split <;> first | rfl | omega
  | cons b rest ih =>
    rw [overwrite, ih]
    simp only [Array.size_setIfInBounds, List.length_cons]
    rcases Nat.lt_trichotomy i start with h | h | h
    · rw [if_neg (by omega), if_neg (by omega), Array.getElem?_setIfInBounds_ne (by omega)]
    · subst h
      rw [if_neg (by omega)]
      by_cases hi : i < bytes.size
      · rw [if_pos (by omega), Array.getElem?_setIfInBounds_self_of_lt hi]
        simp
      · rw [if_neg (by omega), Array.getElem?_eq_none (by simpa using hi),
          Array.getElem?_eq_none (by simpa using hi)]
    · by_cases hi : i < start + 1 + rest.length ∧ i < bytes.size
      · rw [if_pos (by omega), if_pos (by omega)]
        obtain ⟨k, hk⟩ : ∃ k, i - start = k + 1 := ⟨i - start - 1, by omega⟩
        rw [hk, List.getElem?_cons_succ]
        congr 1
        omega
      · rw [if_neg (by omega), if_neg (by omega), Array.getElem?_setIfInBounds_ne (by omega)]

/-- The long word that starts at `at`, low byte first. -/
def Bytes.long? (bytes : Bytes) (start : Nat) : Option UInt32 := do
  let b₀ ← bytes[start]?
  let b₁ ← bytes[start + 1]?
  let b₂ ← bytes[start + 2]?
  let b₃ ← bytes[start + 3]?
  return b₀.toUInt32 ||| b₁.toUInt32 <<< 8 ||| b₂.toUInt32 <<< 16 ||| b₃.toUInt32 <<< 24

/-- The `length` bytes from `start` on, if they all exist. -/
def Bytes.slice? (bytes : Bytes) (start length : Nat) : Option Bytes :=
  if start + length ≤ bytes.size then some (bytes.extract start (start + length)) else none

end GameBundle
