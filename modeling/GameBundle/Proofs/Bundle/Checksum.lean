import GameBundle.Bundle.Crc32
import GameBundle.Proofs.Record.Fields
import Mathlib.Data.Nat.Digits.Lemmas

set_option autoImplicit false

/-! # What a checksum tells apart

A shift of the register is linear in exclusive or, and only zero is shifted to zero, since the
polynomial has its top bit set. So no byte that enters later makes two registers equal again, and
four bytes, which fit the register side by side, leave a register of their own: strings of bytes
that agree outside four consecutive positions have the same checksum only if they are the same. -/

namespace GameBundle.Crc32

/-! ## Shifts -/

theorem and_one_eq_one (v : UInt32) : v &&& 1 = 1 ↔ v.toNat % 2 = 1 := by
  rw [← UInt32.toNat_inj, UInt32.toNat_and, UInt32.toNat_one, Nat.and_one_is_mod]

theorem xor_and_one (a b : UInt32) :
    (a ^^^ b) &&& 1 = 1 ↔ ¬(a &&& 1 = 1 ↔ b &&& 1 = 1) := by
  have hlow := Nat.testBit_xor a.toNat b.toNat 0
  simp only [Nat.testBit_zero] at hlow
  simp only [and_one_eq_one, UInt32.toNat_xor]
  grind

theorem xor_cancel (a b p : UInt32) : (a ^^^ p) ^^^ (b ^^^ p) = a ^^^ b := by
  rw [UInt32.xor_comm b p, ← UInt32.xor_assoc, UInt32.xor_assoc a, UInt32.xor_self, UInt32.xor_zero]

theorem shift_xor (a b : UInt32) : shift (a ^^^ b) = shift a ^^^ shift b := by
  have hright : (a ^^^ b) >>> 1 = (a >>> 1) ^^^ (b >>> 1) := by
    rw [← UInt32.toBitVec_inj]
    simp [BitVec.ushiftRight_xor_distrib]
  have hlow := xor_and_one a b
  unfold shift
  by_cases ha : a &&& 1 = 1 <;> by_cases hb : b &&& 1 = 1
  · rw [if_neg (by tauto), if_pos ha, if_pos hb, hright, xor_cancel]
  · rw [if_pos (by tauto), if_pos ha, if_neg hb, hright]
    ac_rfl
  · rw [if_pos (by tauto), if_neg ha, if_pos hb, hright]
    ac_rfl
  · rw [if_neg (by tauto), if_neg ha, if_neg hb, hright]

/-- Only zero is shifted to zero: a bit that leaves the register comes back at its top. -/
theorem shift_eq_zero {v : UInt32} (h : shift v = 0) : v = 0 := by
  have hlt := v.toNat_lt
  have hright : (v >>> 1).toNat = v.toNat / 2 := by
    rw [UInt32.toNat_shiftRight]
    exact Nat.shiftRight_one _
  rw [shift] at h
  split at h
  case isTrue =>
    have htop : polynomial.toNat = v.toNat / 2 := by
      rw [← hright, UInt32.xor_eq_zero_iff.1 h]
    have hpolynomial : polynomial.toNat = 0xedb88320 := rfl
    omega
  case isFalse hlow =>
    rw [h, UInt32.toNat_zero] at hright
    rw [and_one_eq_one] at hlow
    exact UInt32.toNat_inj.1 (by rw [UInt32.toNat_zero]; omega)

/-- A register whose low bit is clear is halved. -/
theorem shift_double {k : Nat} (h : 2 * k < UInt32.size) :
    shift (UInt32.ofNat (2 * k)) = UInt32.ofNat k := by
  have hlow : ¬(UInt32.ofNat (2 * k) &&& 1 = 1) := by
    rw [and_one_eq_one, UInt32.toNat_ofNat_of_lt' h]
    omega
  rw [shift, if_neg hlow, ← UInt32.toNat_inj, UInt32.toNat_shiftRight,
    UInt32.toNat_ofNat_of_lt' h, UInt32.toNat_ofNat_of_lt' (by omega)]
  exact Nat.mul_div_cancel_left k (by decide)

theorem shifts_add (m n : Nat) (v : UInt32) : shifts (m + n) v = shifts n (shifts m v) := by
  induction m generalizing v with
  | zero => rw [Nat.zero_add, shifts]
  | succ m ih => rw [Nat.add_right_comm, shifts, ih, ← shifts]

theorem shifts_xor (n : Nat) (a b : UInt32) : shifts n (a ^^^ b) = shifts n a ^^^ shifts n b := by
  induction n generalizing a b with
  | zero => rfl
  | succ n ih => rw [shifts, shift_xor, ih, ← shifts, ← shifts]

theorem shifts_eq_zero {n : Nat} {v : UInt32} (h : shifts n v = 0) : v = 0 := by
  induction n generalizing v with
  | zero => exact h
  | succ n ih => exact shift_eq_zero (ih h)

theorem shifts_injective (n : Nat) : Function.Injective (shifts n) := by
  intro a b h
  have hdifference : shifts n (a ^^^ b) = 0 := by rw [shifts_xor, h, UInt32.xor_self]
  exact UInt32.xor_eq_zero_iff.1 (shifts_eq_zero hdifference)

theorem shifts_two_pow_mul {n k : Nat} (h : 2 ^ n * k < UInt32.size) :
    shifts n (UInt32.ofNat (2 ^ n * k)) = UInt32.ofNat k := by
  induction n with
  | zero => rw [Nat.pow_zero, Nat.one_mul, shifts]
  | succ n ih =>
    have hdouble : 2 ^ (n + 1) * k = 2 * (2 ^ n * k) := by ring
    rw [hdouble] at h ⊢
    rw [shifts, shift_double h, ih (by omega)]

/-! ## Bytes -/

theorem step_injective (byte : UInt8) : Function.Injective fun register => step register byte :=
  fun _ _ h => UInt32.xor_left_inj _ |>.1 (shifts_injective 8 h)

theorem foldl_step_injective (bytes : List UInt8) :
    Function.Injective fun register => bytes.foldl step register := by
  induction bytes with
  | nil => exact fun _ _ h => h
  | cons byte rest ih => exact fun _ _ h => step_injective byte (ih h)

/-- The number that the bytes spell, the lowest first. -/
def spelled (bytes : List UInt8) : Nat := Nat.ofDigits 256 (bytes.map UInt8.toNat)

theorem spelled_cons (byte : UInt8) (rest : List UInt8) :
    spelled (byte :: rest) = 2 ^ 8 * spelled rest + byte.toNat := by
  rw [spelled, List.map_cons, Nat.ofDigits_cons, Nat.add_comm]
  rfl

theorem digit_lt {bytes : List UInt8} : ∀ d ∈ bytes.map UInt8.toNat, d < 256 := by
  intro d hd
  obtain ⟨byte, -, rfl⟩ := List.mem_map.1 hd
  exact byte.toNat_lt

theorem spelled_lt (bytes : List UInt8) : spelled bytes < 256 ^ bytes.length := by
  have h := Nat.ofDigits_lt_base_pow_length (by decide) (@digit_lt bytes)
  rwa [List.length_map] at h

theorem spelled_inj {xs ys : List UInt8} (hlength : xs.length = ys.length)
    (h : spelled xs = spelled ys) : xs = ys := by
  have hdigits := Nat.ofDigits_inj_of_len_eq (by decide)
    (by rw [List.length_map, List.length_map, hlength]) digit_lt digit_lt h
  exact List.map_injective_iff.2 (fun _ _ => UInt8.toNat_inj.1) hdigits

/-- A byte and the number above it are side by side in the register. -/
theorem ofNat_xor_byte {k : Nat} (byte : UInt8) (h : 2 ^ 8 * k + byte.toNat < UInt32.size) :
    UInt32.ofNat (2 ^ 8 * k + byte.toNat) = byte.toUInt32 ^^^ UInt32.ofNat (2 ^ 8 * k) := by
  have hbyte : byte.toNat < 2 ^ 8 := byte.toNat_lt
  apply UInt32.toNat_inj.1
  rw [UInt32.toNat_xor, UInt32.toNat_ofNat_of_lt' h, UInt32.toNat_ofNat_of_lt' (by omega),
    UInt8.toNat_toUInt32]
  apply Nat.eq_of_testBit_eq
  intro i
  have hhigh := Nat.testBit_two_pow_mul_add k (Nat.two_pow_pos 8) i
  rw [Nat.add_zero] at hhigh
  rw [Nat.testBit_xor, Nat.testBit_two_pow_mul_add k hbyte, hhigh]
  split
  · simp
  · next hi =>
    have hpow : 2 ^ 8 ≤ 2 ^ i := Nat.pow_le_pow_right (by decide) (Nat.not_lt.1 hi)
    rw [Nat.testBit_lt_two_pow (Nat.lt_of_lt_of_le hbyte hpow), Bool.false_xor]

/-- Up to four bytes may enter the register at once, before any of them is shifted out. -/
theorem foldl_step_eq {bytes : List UInt8} (register : UInt32) (h : bytes.length ≤ 4) :
    bytes.foldl step register =
      shifts (8 * bytes.length) (register ^^^ UInt32.ofNat (spelled bytes)) := by
  induction bytes generalizing register with
  | nil => simp [shifts, spelled]
  | cons byte rest ih =>
    have hfit : spelled (byte :: rest) < UInt32.size :=
      Nat.lt_of_lt_of_le (spelled_lt _) (Nat.pow_le_pow_right (by decide) h)
    rw [spelled_cons] at hfit ⊢
    -- the eight shifts of the first byte only move the number above it down to its place
    have hlength : 8 * (byte :: rest).length = 8 + 8 * rest.length := by
      rw [List.length_cons]
      ring
    rw [List.foldl_cons, ih _ (Nat.le_of_succ_le h), hlength, shifts_add, ofNat_xor_byte byte hfit,
      ← UInt32.xor_assoc, shifts_xor 8 _ (UInt32.ofNat _), shifts_two_pow_mul (by omega), ← step]

theorem eq_of_foldl_step {xs ys : List UInt8} {register : UInt32} (hlength : xs.length = ys.length)
    (hfour : xs.length ≤ 4) (h : xs.foldl step register = ys.foldl step register) : xs = ys := by
  rw [foldl_step_eq register hfour, foldl_step_eq register (hlength ▸ hfour), hlength] at h
  have hspelled := (UInt32.xor_right_inj _).1 (shifts_injective _ h)
  have hfit : ∀ zs : List UInt8, zs.length ≤ 4 → spelled zs < UInt32.size := fun zs hzs =>
    Nat.lt_of_lt_of_le (spelled_lt zs) (Nat.pow_le_pow_right (by decide) hzs)
  apply spelled_inj hlength
  rw [← UInt32.toNat_ofNat_of_lt' (hfit xs hfour), hspelled,
    UInt32.toNat_ofNat_of_lt' (hfit ys (hlength ▸ hfour))]

/-! ## Damage -/

/-- What lies before, in and behind four positions. -/
theorem split_window (bytes : Bytes) (start : Nat) :
    bytes.toList.take start ++ ((bytes.toList.drop start).take 4 ++ bytes.toList.drop (start + 4)) =
      bytes.toList := by
  rw [← List.drop_drop, List.take_append_drop, List.take_append_drop]

/-- **Damage within four consecutive bytes shows in the checksum.** -/
theorem eq_of_checksum_eq {bytes other : Bytes} {start : Nat}
    (hagree : bytes.AgreeOutside start (start + 3) other) (h : checksum other = checksum bytes) :
    other = bytes := by
  obtain ⟨hsize, hsame⟩ := hagree
  have hbefore : other.toList.take start = bytes.toList.take start := by
    apply List.ext_getElem?
    intro i
    rw [List.getElem?_take, List.getElem?_take, Array.getElem?_toList, Array.getElem?_toList]
    split
    · next hi => exact hsame i (Or.inl hi)
    · rfl
  have hbehind : other.toList.drop (start + 4) = bytes.toList.drop (start + 4) := by
    apply List.ext_getElem?
    intro i
    rw [List.getElem?_drop, List.getElem?_drop, Array.getElem?_toList, Array.getElem?_toList]
    exact hsame _ (Or.inr (by omega))
  have hregister : other.toList.foldl step 0xffffffff = bytes.toList.foldl step 0xffffffff := by
    rw [Array.foldl_toList, Array.foldl_toList]
    exact (UInt32.xor_left_inj _).1 h
  rw [← split_window other start, ← split_window bytes start, hbefore, hbehind,
    List.foldl_append, List.foldl_append, List.foldl_append, List.foldl_append] at hregister
  have hwindow : (other.toList.drop start).take 4 = (bytes.toList.drop start).take 4 := by
    refine eq_of_foldl_step ?_ (List.length_take_le _ _) (foldl_step_injective _ hregister)
    simp only [List.length_take, List.length_drop, Array.length_toList, hsize]
  apply Array.toList_inj.1
  rw [← split_window other start, ← split_window bytes start, hbefore, hwindow, hbehind]

end GameBundle.Crc32
