import GameBundle.Bundle.CheckedIndex
import GameBundle.Proofs.Bundle.Reader
import GameBundle.Proofs.Bundle.RoundTrip

set_option autoImplicit false

/-! # The reader stays within its limits

Read step by step in machine words, a bundle gives what `Index.parse` gives. The counts of the index
blocks are 32-bit words, so every position that is computed from one block has at most 36 bits
before the next word is read, and reading that word bounds it by the length of the bytes again, of
which the signature says that it is a 32-bit word. -/

namespace GameBundle

/-! ## Steps that cannot overrun -/

theorem checkedAdd_eq {a b : Nat} (h : a + b < wordLimit) : checkedAdd a b = .ok (a + b) :=
  if_pos h

theorem checkedMul_eq {a b : Nat} (h : a * b < wordLimit) : checkedMul a b = .ok (a * b) :=
  if_pos h

theorem checkedRoom_eq {count width : Nat} (h : count * width < wordLimit / 2) :
    checkedRoom count width = .ok () := if_pos h

theorem Bytes.checkedRange_eq {bytes : Bytes} {start stop : Nat}
    (h : start ≤ stop ∧ stop ≤ bytes.size) :
    bytes.checkedRange start stop = .ok (bytes.extract start stop) := if_pos h

theorem wordLimit_eq : wordLimit = 2 ^ 64 := rfl

theorem ok_bind {ε α β : Type} (a : α) (f : α → Except ε β) :
    (Except.ok a >>= f) = f a := rfl

/-- A result whose mistakes have become failures. -/
def lifted {α : Type} (x : Except BuildError α) : Except Failure α := x.mapError Failure.error

theorem lifted_bind {α β : Type} (x : Except BuildError α) (f : α → Except BuildError β) :
    lifted (x >>= f) = lifted x >>= fun a => lifted (f a) := by
  cases x <;> rfl

theorem lifted_ite {α : Type} {c : Prop} [Decidable c] (e : BuildError) (x : Except BuildError α) :
    lifted (if c then .error e else x) = if c then reject e else lifted x := by
  split <;> rfl

namespace Bundle.Index

theorem checkedWord_eq (bytes : Bytes) {start : Nat} (h : start + 4 < wordLimit) :
    checkedWord bytes start = lifted (word bytes start) := by
  rw [checkedWord, Bytes.readLong, if_pos h, word]
  cases bytes.long? start <;> rfl

theorem checkedEntries_eq {bytes : Bytes} {offsets lengths remaining i : Nat}
    (hcount : i + remaining ≤ 2 ^ 32) (hoffsets : offsets ≤ 2 ^ 35) (hlengths : lengths ≤ 2 ^ 35) :
    checkedEntries bytes offsets lengths remaining i =
      lifted (readEntries bytes remaining (offsets + 4 * i) (lengths + 4 * i)) := by
  induction remaining generalizing i with
  | zero => rfl
  | succ remaining ih =>
    have hlimit := wordLimit_eq
    have hmul : checkedMul i 4 = .ok (4 * i) := by
      rw [checkedMul_eq (by omega), Nat.mul_comm]
    have hoffset : checkedAdd offsets (4 * i) = .ok (offsets + 4 * i) := checkedAdd_eq (by omega)
    have hlength : checkedAdd lengths (4 * i) = .ok (lengths + 4 * i) := checkedAdd_eq (by omega)
    have hstop : ∀ offset length : UInt32, checkedAdd offset.toNat length.toNat =
        .ok (offset.toNat + length.toNat) := fun offset length =>
      checkedAdd_eq (by have := offset.toNat_lt; have := length.toNat_lt; omega)
    have hrest := ih (i := i + 1) (by omega)
    rw [Nat.mul_succ, ← Nat.add_assoc, ← Nat.add_assoc] at hrest
    simp only [checkedEntries, readEntries, hmul, hoffset, hlength, hstop, hrest, ok_bind,
      checkedWord_eq bytes (show offsets + 4 * i + 4 < wordLimit by omega),
      checkedWord_eq bytes (show lengths + 4 * i + 4 < wordLimit by omega), lifted_bind,
      lifted_ite]
    rfl

theorem checkedBlocks_eq {bytes : Bytes} {blocks start : Nat} (hsize : bytes.size < 2 ^ 32)
    (hstart : start ≤ 2 ^ 36) :
    checkedBlocks bytes blocks start = lifted (readBlocks bytes blocks start) := by
  induction blocks generalizing start with
  | zero => rfl
  | succ blocks ih =>
    have hlimit := wordLimit_eq
    rw [checkedBlocks, readBlocks, lifted_bind, checkedWord_eq bytes (by omega)]
    cases hword : word bytes start with
    | error e => rfl
    | ok v =>
      -- the word lies inside, so the size bounds `start` anew, however large the last count was
      have hinside := Bytes.exists_long?_iff.1 ⟨v, word_eq_ok_iff.1 hword⟩
      have hcount := v.toNat_lt
      have hmul : checkedMul v.toNat 4 = .ok (4 * v.toNat) := by
        rw [checkedMul_eq (by omega), Nat.mul_comm]
      have hnext : start + 4 + 4 * v.toNat + 4 * v.toNat = start + 4 + 8 * v.toNat := by omega
      have hoffsets : checkedAdd start 4 = .ok (start + 4) := checkedAdd_eq (by omega)
      have hlengths : checkedAdd (start + 4) (4 * v.toNat) = .ok (start + 4 + 4 * v.toNat) :=
        checkedAdd_eq (by omega)
      have hstop : checkedAdd (start + 4 + 4 * v.toNat) (4 * v.toNat) =
          .ok (start + 4 + 8 * v.toNat) := by rw [checkedAdd_eq (by omega), hnext]
      have hroom : checkedRoom v.toNat 8 = .ok () := checkedRoom_eq (by omega)
      have hentries : checkedEntries bytes (start + 4) (start + 4 + 4 * v.toNat) v.toNat 0 =
          lifted (readEntries bytes v.toNat (start + 4) (start + 4 + 4 * v.toNat)) :=
        checkedEntries_eq (by omega) (by omega) (by omega)
      have hv : lifted (Except.ok v) = .ok v := rfl
      simp only [hv, ok_bind, hoffsets, hmul, hlengths, hstop, hroom, hentries,
        ih (show start + 4 + 8 * v.toNat ≤ 2 ^ 36 by omega), lifted_bind]
      rfl

/-- **Reading a bundle never leaves the limits of the machine.** -/
theorem checkedParse_eq (bytes : Bytes) : checkedParse bytes = lifted (parse bytes) := by
  rw [parse, parseWith]
  by_cases hshort : bytes.size < signatureLength
  · rw [checkedParse, if_pos hshort, if_pos (Or.inl hshort)]
    rfl
  have hsize := Nat.not_lt.1 hshort
  rw [signatureLength] at hsize
  have hstart : bytes.checkedRange 0 8 = .ok (bytes.extract 0 8) :=
    Bytes.checkedRange_eq (by omega)
  rw [checkedParse, if_neg hshort, hstart, ok_bind]
  by_cases hmagic : bytes.extract 0 8 ≠ magic.toUTF8.data
  · rw [if_pos hmagic, if_pos (Or.inr hmagic)]
    rfl
  rw [if_neg hmagic, if_neg (not_or.2 ⟨hshort, hmagic⟩)]
  have hwords : ∀ start, start ≤ 16 → checkedWord bytes start = lifted (word bytes start) :=
    fun start h => checkedWord_eq bytes (by rw [wordLimit_eq]; omega)
  have hbody : bytes.checkedRange signatureLength bytes.size =
      .ok (bytes.extract signatureLength bytes.size) :=
    Bytes.checkedRange_eq ⟨hsize, Nat.le_refl _⟩
  simp only [hwords 8 (by decide), hwords 12 (by decide), hwords 16 (by decide), hbody, ok_bind,
    lifted_bind]
  refine congrArg _ (funext fun version => congrArg _ (funext fun stored => ?_))
  refine congrArg _ (funext fun length => ?_)
  by_cases hlength : length.toNat ≠ bytes.size
  · rw [if_pos hlength, if_pos hlength]
    rfl
  rw [if_neg hlength, if_neg hlength]
  split
  · rfl
  · have hfits : bytes.size < 2 ^ 32 := by
      rw [← not_not.1 hlength]
      exact length.toNat_lt
    rw [checkedBlocks_eq hfits (by decide), lifted_bind]
    rfl

/-! ## Records -/

/-- The entry of a record lies inside, so neither its end nor the block it is in can be missed. -/
theorem checkedRecord?_eq {bytes : Bytes} {index : Index} (h : Accepts bytes index) (kind : Kind)
    (number : Nat) :
    checkedRecord? index bytes kind number = .ok (index.record? bytes kind number) := by
  have hblock := h.getElem?_blocks kind
  have hsize : bytes.size < UInt32.size := h.size ▸ index.length.toNat_lt
  rw [checkedRecord?, record?, entries, List.getD_eq_getElem?_getD, hblock, Option.getD_some]
  by_cases hnumber : number < storedCount bytes kind.position
  · have hfit := ((h.blockAt kind.position_lt).inside_of_lt hnumber).inside
    simp only [getElem?_storedEntries hnumber, Option.bind_eq_bind, Option.bind_some]
    rw [if_pos (by omega)]
  · simp only [List.getElem?_eq_none (show (storedEntries bytes kind.position).length ≤ number by
      rw [length_storedEntries]; omega), Option.bind_eq_bind, Option.bind_none]

theorem record?_of_lt {bytes : Bytes} {index : Index} (h : Accepts bytes index) {kind : Kind}
    {number : Nat} (hnumber : number < storedCount bytes kind.position) :
    ∃ record, index.record? bytes kind number = some record ∧
      record.size = storedLength bytes kind.position number ∧
      bytes.HasAt (storedOffset bytes kind.position number) record.toList := by
  have hfit := ((h.blockAt kind.position_lt).inside_of_lt hnumber).inside
  rw [storedEntry_offset, storedEntry_length] at hfit
  obtain ⟨record, hslice, hlength, hbytes⟩ := Bytes.slice?_of_le hfit
  refine ⟨record, ?_, hlength, hbytes⟩
  rw [record?, entries, List.getD_eq_getElem?_getD, h.getElem?_blocks kind, Option.getD_some,
    getElem?_storedEntries hnumber]
  change bytes.slice? _ _ = _
  rw [storedEntry_offset, storedEntry_length, hslice]

theorem record?_of_le {bytes : Bytes} {index : Index} (h : Accepts bytes index) {kind : Kind}
    {number : Nat} (hnumber : storedCount bytes kind.position ≤ number) :
    index.record? bytes kind number = none := by
  rw [record?, entries, List.getD_eq_getElem?_getD, h.getElem?_blocks kind, Option.getD_some,
    List.getElem?_eq_none (by rwa [length_storedEntries])]
  rfl

/-! ## The reader as a whole -/

/-- **The reader is safe on any bytes.** It never leaves the limits of the machine, whatever counts
    and offsets the bytes store. It accepts exactly the bytes that are a bundle, and then finds for
    every number below the count of a kind the bytes that the entry describes, and for no other
    number anything. -/
theorem parse_safe (bytes : Bytes) :
    checkedParse bytes = lifted (parse bytes) ∧
      ((∃ index, parse bytes = .ok index) ↔ Readable bytes) ∧
      ∀ index, parse bytes = .ok index → ∀ kind number,
        checkedRecord? index bytes kind number = .ok (index.record? bytes kind number) ∧
          (number < storedCount bytes kind.position →
            ∃ record, index.record? bytes kind number = some record ∧
              record.size = storedLength bytes kind.position number ∧
              bytes.HasAt (storedOffset bytes kind.position number) record.toList) ∧
          (storedCount bytes kind.position ≤ number → index.record? bytes kind number = none) := by
  refine ⟨checkedParse_eq bytes, ?_, fun index hparse kind number => ?_⟩
  · simp only [parse_eq_ok]
    exact exists_accepts_iff
  · have haccepts := parse_eq_ok.1 hparse
    exact ⟨checkedRecord?_eq haccepts kind number, record?_of_lt haccepts, record?_of_le haccepts⟩

/-- The one text of a bundle takes the four bytes from 96 on, and there is no second one. -/
theorem parse_safe_twoRecords :
    assemble twoRecords = .ok twoRecordsBundle ∧ ∃ index, parse twoRecordsBundle = .ok index ∧
      checkedRecord? index twoRecordsBundle .strings 0 =
        .ok (index.record? twoRecordsBundle .strings 0) ∧
      (∃ record, index.record? twoRecordsBundle .strings 0 = some record ∧ record.size = 4 ∧
        twoRecordsBundle.HasAt 96 record.toList) ∧
      index.record? twoRecordsBundle .strings 1 = none := by
  have hcount : storedCount twoRecordsBundle 11 = 1 := by decide +kernel
  have hoffset : storedOffset twoRecordsBundle 11 0 = 96 := by decide +kernel
  have hlength : storedLength twoRecordsBundle 11 0 = 4 := by decide +kernel
  obtain ⟨index, hparse⟩ := exists_parse_twoRecordsBundle
  have hsafe := (parse_safe twoRecordsBundle).2.2 index hparse .strings
  have hfirst := (hsafe 0).2.1 (by rw [Kind.position, hcount]; decide)
  rw [Kind.position, hoffset, hlength] at hfirst
  have hsecond := (hsafe 1).2.2 (by rw [Kind.position, hcount])
  exact ⟨assemble_twoRecords, index, hparse, (hsafe 0).1, hfirst, hsecond⟩

end Bundle.Index

end GameBundle
