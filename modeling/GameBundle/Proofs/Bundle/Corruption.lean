import GameBundle.Proofs.Bundle.Checksum
import GameBundle.Proofs.Bundle.Reader
import GameBundle.Proofs.Bundle.RoundTrip

set_option autoImplicit false

/-! # Damaged bundles

Two bundles of one length have the same magic bytes and store the same length. If they differ only
within four consecutive bytes, then either their checksum words agree, and so their bodies do, or
the difference lies before the bodies, whose checksums agree. So the only such difference is the
version, which no check covers. -/

namespace GameBundle.Bundle

/-- Two strings of bytes with the same part at the same place agree there. -/
theorem getElem?_eq_of_hasAt {bytes other : Bytes} {start : Nat} {part : List UInt8}
    (hbytes : bytes.HasAt start part) (hother : other.HasAt start part) {i : Nat} (hi : start ≤ i)
    (hstop : i < start + part.length) : other[i]? = bytes[i]? := by
  have hj : i - start < part.length := by omega
  have hsum : start + (i - start) = i := by omega
  rw [← hsum, hother _ hj, hbytes _ hj]

theorem getElem?_eq_of_long? {bytes other : Bytes} {start : Nat} {v : UInt32}
    (hbytes : bytes.long? start = some v) (hother : other.long? start = some v) {i : Nat}
    (hi : start ≤ i) (hstop : i < start + 4) : other[i]? = bytes[i]? :=
  getElem?_eq_of_hasAt (Bytes.long?_eq_some_iff.1 hbytes) (Bytes.long?_eq_some_iff.1 hother) hi
    (by rwa [ByteOrder.length_long])

theorem agreeOutside_overwrite (bytes : Bytes) {start last : Nat} {new : List UInt8}
    (hlast : start + new.length ≤ last + 1) :
    bytes.AgreeOutside start last (bytes.overwrite start new) := by
  refine ⟨Bytes.size_overwrite bytes start new, fun i hi => ?_⟩
  rw [Bytes.getElem?_overwrite, if_neg (by omega)]

theorem long?_congr {bytes other : Bytes} {start : Nat}
    (h : ∀ i, start ≤ i → i < start + 4 → other[i]? = bytes[i]?) :
    other.long? start = bytes.long? start := by
  rw [Bytes.long?, Bytes.long?, h start (by omega) (by omega), h (start + 1) (by omega) (by omega),
    h (start + 2) (by omega) (by omega), h (start + 3) (by omega) (by omega)]

/-- The bytes behind the signature. -/
def bodyOf (bytes : Bytes) : Bytes := bytes.extract signatureLength bytes.size

theorem getElem?_bodyOf (bytes : Bytes) (i : Nat) :
    (bodyOf bytes)[i]? = bytes[signatureLength + i]? := by
  rw [bodyOf, Array.getElem?_extract]
  split
  · rfl
  · rw [Array.getElem?_eq_none (by omega)]

/-- The part of a window that lies behind the signature is a window there. -/
theorem agreeOutside_bodyOf {bytes damaged : Bytes} {start : Nat}
    (hwindow : bytes.AgreeOutside start (start + 3) damaged) :
    (bodyOf bytes).AgreeOutside (start - signatureLength) (start - signatureLength + 3)
      (bodyOf damaged) := by
  refine ⟨?_, fun i hi => ?_⟩
  · simp only [bodyOf, Array.size_extract, hwindow.1]
  · rw [getElem?_bodyOf, getElem?_bodyOf]
    exact hwindow.2 _ (by omega)

/-- Bundles that agree outside four consecutive bytes store the same checksum. -/
theorem checksum_eq_of_accepts {bytes damaged : Bytes} {index index' : Index} {start : Nat}
    (hbytes : Accepts bytes index) (hdamaged : Accepts damaged index')
    (hwindow : bytes.AgreeOutside start (start + 3) damaged) :
    index'.checksum = index.checksum := by
  by_cases hstart : start < 16
  · -- no byte behind the signature is touched
    have hbodies : bodyOf damaged = bodyOf bytes := by
      apply Array.ext_getElem?
      intro i
      rw [getElem?_bodyOf, getElem?_bodyOf]
      exact hwindow.2 _ (Or.inr (by rw [signatureLength]; omega))
    rw [← hdamaged.checksum, ← hbytes.checksum, ← bodyOf, ← bodyOf, hbodies]
  · -- the stored checksum is not touched
    have hword : damaged.long? checksumOffset = bytes.long? checksumOffset := long?_congr
      fun i _ hi => hwindow.2 i (Or.inl (by rw [checksumOffset] at hi; omega))
    rw [hdamaged.stored, hbytes.stored, Option.some.injEq] at hword
    exact hword

/-- Bundles that agree outside four consecutive bytes differ in their versions at most. -/
theorem getElem?_eq_of_accepts {bytes damaged : Bytes} {index index' : Index} {start : Nat}
    (hbytes : Accepts bytes index) (hdamaged : Accepts damaged index')
    (hwindow : bytes.AgreeOutside start (start + 3) damaged) {i : Nat} (hi : ¬(8 ≤ i ∧ i < 12)) :
    damaged[i]? = bytes[i]? := by
  have hstored := checksum_eq_of_accepts hbytes hdamaged hwindow
  have hlength : index'.length = index.length :=
    UInt32.toNat_inj.1 (by rw [hdamaged.size, hbytes.size, hwindow.1])
  by_cases hmagic : i < 8
  · exact getElem?_eq_of_hasAt hbytes.start hdamaged.start (Nat.zero_le i)
      (by rw [length_magic]; omega)
  by_cases hchecksum : i < 16
  · exact getElem?_eq_of_long? hbytes.stored (hstored ▸ hdamaged.stored)
      (by rw [checksumOffset]; omega) hchecksum
  by_cases hword : i < 20
  · exact getElem?_eq_of_long? hbytes.length (hlength ▸ hdamaged.length)
      (by rw [lengthOffset]; omega) hword
  have hbodies : bodyOf damaged = bodyOf bytes :=
    Crc32.eq_of_checksum_eq (agreeOutside_bodyOf hwindow)
      (hdamaged.checksum.trans (hstored.trans hbytes.checksum.symm))
  obtain ⟨j, rfl⟩ : ∃ j, i = signatureLength + j := ⟨i - 20, by rw [signatureLength]; omega⟩
  rw [← getElem?_bodyOf, ← getElem?_bodyOf, hbodies]

/-- **Damage is noticed.** A bundle that is changed within four consecutive bytes, but not only in
    its version, is refused. -/
theorem parse_refuses_damage {bytes damaged : Bytes} {index : Index} {start : Nat}
    (haccepted : Index.parse bytes = .ok index)
    (hwindow : bytes.AgreeOutside start (start + 3) damaged)
    (hdamage : ∃ i, ¬(8 ≤ i ∧ i < 12) ∧ damaged[i]? ≠ bytes[i]?) :
    ∃ e, Index.parse damaged = .error e := by
  cases hparse : Index.parse damaged with
  | error e => exact ⟨e, rfl⟩
  | ok index' =>
    obtain ⟨i, hi, hne⟩ := hdamage
    have hsame := getElem?_eq_of_accepts (parse_eq_ok.1 haccepted) (parse_eq_ok.1 hparse) hwindow hi
    exact absurd hsame hne

/-- The second letter of a text is changed. -/
theorem parse_refuses_changed_letter :
    let damaged := twoRecordsBundle.overwrite 96 [0x68, 0x6f, 0, 0]
    (∃ index, Index.parse twoRecordsBundle = .ok index) ∧
      twoRecordsBundle.AgreeOutside 96 99 damaged ∧ ∃ e, Index.parse damaged = .error e := by
  intro damaged
  obtain ⟨index, hparse⟩ := exists_parse_twoRecordsBundle
  have hwindow : twoRecordsBundle.AgreeOutside 96 99 damaged :=
    agreeOutside_overwrite twoRecordsBundle (Nat.le_refl _)
  have hletter : damaged[97]? ≠ twoRecordsBundle[97]? := by decide +kernel
  exact ⟨⟨index, hparse⟩, hwindow, parse_refuses_damage hparse hwindow ⟨97, by decide, hletter⟩⟩

end GameBundle.Bundle
