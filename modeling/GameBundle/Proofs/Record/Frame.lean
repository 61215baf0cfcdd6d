import GameBundle.Proofs.Record.Fields

set_option autoImplicit false

/-! # Any calls on a writer

Records are written by encoders that keep to their layout. What the writer does is settled without
them: here it takes any calls in any order, fields that leave the record, numbers that are refused
and patches at any place among them. The buffer then holds, at each place, what the last call that
copied a byte there left (`getElem?_runAll`), and all else is derived from that. -/

namespace GameBundle

namespace Field

/-- A gap is the only field that copies nothing, not even an empty text. -/
def Copies : Field → Prop
  | gap _ => False
  | _ => True

instance : DecidablePred Fits
  | number value width _ _ => inferInstanceAs (Decidable (value ≤ maxForWidth width))
  | byte _ | word _ _ | long _ _ | chars _ _ | gap _ => inferInstanceAs (Decidable True)

end Field

/-! ## Single calls -/

/-- A call on a writer. A floating point number is written as the long word of its bits. -/
inductive Call
  | write (field : Field)
  | patch (start : Nat) (value : UInt16) (order : ByteOrder)

namespace Call

/-- What the writer answers. -/
def perform (w : Writer) : Call → Except Failure Writer
  | write field => w.write field
  | patch start value order => w.patchWord start value order

/-- The call is not refused. Only numbers that do not fit are. -/
def Accepted : Call → Prop
  | write field => field.Fits
  | patch _ _ _ => True

instance : DecidablePred Accepted
  | write field => inferInstanceAs (Decidable field.Fits)
  | patch _ _ _ => inferInstanceAs (Decidable True)

/-- The call copies bytes, if only an empty stretch of them. -/
def Copies : Call → Prop
  | write field => field.Copies
  | patch _ _ _ => True

/-- Where the call takes effect when it finds the cursor there. -/
def start (cursor : Nat) : Call → Nat
  | write _ => cursor
  | patch start _ _ => start

/-- How many bytes are set aside for what the call writes. -/
def width : Call → Nat
  | write field => field.width
  | patch _ _ _ => 2

/-- How far the call moves the cursor. -/
def advance : Call → Nat
  | write field => if field.Fits then field.width else 0
  | patch _ _ _ => 0

/-- The bytes that the call copies. -/
def copied : Call → List UInt8
  | write field => if field.Fits then field.written else []
  | patch _ value order => order.word value

end Call

namespace Writer

variable {w w' : Writer} {field : Field} {call : Call} {calls : List Call}

/-- A number that does not fit is refused whatever the state of the writer is. -/
theorem write_of_not_fits (hfits : ¬field.Fits) :
    ∃ e, ∀ w : Writer, w.write field = .error (.error e) := by
  cases field with
  | number value width context order => exact ⟨_, fun w => if_pos (Nat.not_le.1 hfits)⟩
  | _ => exact absurd trivial hfits

theorem write_gap (width : Nat) : w.write (.gap width) = w.skip width := rfl

/-- Every other field copies its bytes to the cursor and moves it by its width. -/
theorem write_eq_place (hfits : field.Fits) (hcopies : field.Copies) :
    w.write field = w.place field.written field.width := by
  cases field with
  | byte value => rfl
  | word value order => rw [write, put, ByteOrder.length_word]; rfl
  | long value order => rw [write, put, ByteOrder.length_long]; rfl
  | chars text width => rfl
  | gap width => exact hcopies.elim
  | number value width context order =>
    refine (if_neg (Nat.not_lt.2 hfits)).trans ?_
    unfold Field.written Field.width
    split <;> simp_all [put]

end Writer

namespace Call

variable {w w' : Writer} {call : Call}

theorem perform_of_not_accepted (hcall : ¬call.Accepted) :
    ∃ e, ∀ w : Writer, call.perform w = .error (.error e) := by
  cases call with
  | write field => exact Writer.write_of_not_fits hcall
  | patch start value order => exact absurd trivial hcall

theorem copied_of_not_accepted (hcall : ¬call.Accepted) : call.copied = [] := by
  cases call with
  | write field => exact if_neg hcall
  | patch start value order => exact absurd trivial hcall

theorem advance_of_not_accepted (hcall : ¬call.Accepted) : call.advance = 0 := by
  cases call with
  | write field => exact if_neg hcall
  | patch start value order => rfl

theorem copies_of_ne_nil (call : Call) (h : call.copied ≠ []) : call.Copies := by
  cases call with
  | write field =>
    cases field with
    | gap width => exact absurd rfl h
    | _ => trivial
  | patch start value order => trivial

theorem length_copied_le (call : Call) : call.copied.length ≤ call.width := by
  cases call with
  | write field =>
    simp only [copied, width]
    split
    · exact field.length_written_le
    · exact Nat.zero_le _
  | patch start value order => exact (order.length_word value).le

/-- A call that is carried out copies its bytes and moves the cursor. -/
theorem perform_eq_ok (h : call.perform w = .ok w') :
    call.Accepted ∧ (call.Copies → call.start w.offset + call.copied.length ≤ w.buffer.size) ∧
      w' = ⟨w.buffer.overwrite (call.start w.offset) call.copied, w.offset + call.advance⟩ := by
  by_cases hcall : call.Accepted
  · refine ⟨hcall, ?_⟩
    cases call with
    | write field =>
      have hfits : field.Fits := hcall
      simp only [copied, advance, if_pos hfits, start]
      by_cases hcopies : field.Copies
      · rw [perform, Writer.write_eq_place hcall hcopies] at h
        obtain ⟨⟨hroom, -⟩, rfl⟩ := Writer.place_eq_ok.1 h
        exact ⟨fun _ => hroom, rfl⟩
      · cases field with
        | gap width =>
          rw [perform, Writer.write_gap, Writer.skip] at h
          split at h
          · cases h
            exact ⟨fun hgap => hgap.elim, rfl⟩
          · cases h
        | _ => exact absurd trivial hcopies
    | patch start value order =>
      simp only [perform, Writer.patchWord, bind_eq_ok, pure_eq_ok, patchWord_eq_ok] at h
      obtain ⟨buffer, ⟨hroom, rfl⟩, rfl⟩ := h
      exact ⟨fun _ => (order.length_word value).symm ▸ hroom, rfl⟩
  · obtain ⟨e, he⟩ := perform_of_not_accepted hcall
    rw [he w] at h
    cases h

/-- A call that is not refused is carried out or overruns the record. -/
theorem Accepted.perform_ne_error (hcall : call.Accepted) (e : BuildError) :
    call.perform w ≠ .error (.error e) := by
  have hplace : ∀ part advance, w.place part advance ≠ .error (.error e) := by
    intro part advance
    unfold Writer.place
    split <;> rintro ⟨⟩
  cases call with
  | write field =>
    by_cases hcopies : field.Copies
    · rw [perform, Writer.write_eq_place hcall hcopies]
      exact hplace _ _
    · cases field with
      | gap width =>
        rw [perform, Writer.write_gap, Writer.skip]
        split <;> rintro ⟨⟩
      | _ => exact absurd trivial hcopies
  | patch start value order =>
    simp only [perform, Writer.patchWord, Bytes.patchWord]
    split <;> rintro ⟨⟩

/-- A call overruns the record exactly if its bytes would not lie in it. A gap never does, nor does
a number that is refused. -/
theorem perform_overrun_iff (hword : w.offset + call.advance < wordLimit) :
    call.perform w = .error .overrun ↔
      call.Accepted ∧ call.Copies ∧ w.buffer.size < call.start w.offset + call.copied.length := by
  by_cases hcall : call.Accepted
  · cases call with
    | write field =>
      have hfits : field.Fits := hcall
      simp only [advance, if_pos hfits] at hword
      simp only [copied, if_pos hfits, start, perform, hcall, true_and]
      by_cases hcopies : field.Copies
      · rw [Writer.write_eq_place hcall hcopies, Writer.place]
        simp only [hword, and_true, show (write field).Copies from hcopies, true_and]
        split
        · next hroom => exact iff_of_false nofun (Nat.not_lt.2 hroom)
        · next hroom => exact iff_of_true rfl (Nat.not_le.1 hroom)
      · refine iff_of_false ?_ fun h => hcopies h.1
        cases field with
        | gap width =>
          exact (if_pos hword).trans_ne nofun
        | _ => exact absurd trivial hcopies
    | patch start value order =>
      have hlength := order.length_word value
      simp only [perform, Writer.patchWord, Bytes.patchWord, copied, Call.start, hlength, Accepted,
        Copies, true_and]
      split
      · next hroom => exact iff_of_false nofun (Nat.not_lt.2 hroom)
      · next hroom => exact iff_of_true rfl (Nat.not_le.1 hroom)
  · obtain ⟨e, he⟩ := perform_of_not_accepted hcall
    refine iff_of_false ?_ fun h => hcall h.1
    rw [he w]
    nofun

end Call

/-! ## Runs -/

/-- A call in a run of calls. One that is refused leaves the writer as it was, and after an overrun
there is no writer any more. -/
def Call.run (w : Writer) (call : Call) : Option Writer :=
  match call.perform w with
  | .ok w' => some w'
  | .error (.error _) => some w
  | .error .overrun => none

/-- Some calls, one after the other. -/
def Writer.runAll (w : Writer) (calls : List Call) : Option Writer := calls.foldlM Call.run w

/-- A call and the place where it takes effect. -/
structure Placed where
  call : Call
  start : Nat

/-- The byte that a call copies to the place `i`. -/
def Placed.byte? (placed : Placed) (i : Nat) : Option UInt8 :=
  if placed.start ≤ i then placed.call.copied[i - placed.start]? else none

/-- The call copies a byte to the place `i`. -/
def Placed.Covers (placed : Placed) (i : Nat) : Prop :=
  placed.start ≤ i ∧ i < placed.start + placed.call.copied.length

/-- The place `i` is one of those that are set aside for the call. -/
def Placed.Extends (placed : Placed) (i : Nat) : Prop :=
  placed.start ≤ i ∧ i < placed.start + placed.call.width

/-- The calls with their places when the first one finds the cursor at `cursor`. -/
def placedFrom : Nat → List Call → List Placed
  | _, [] => []
  | cursor, call :: rest => ⟨call, call.start cursor⟩ :: placedFrom (cursor + call.advance) rest

theorem Placed.byte?_eq_none {placed : Placed} {i : Nat} :
    placed.byte? i = none ↔ ¬placed.Covers i := by
  unfold byte? Covers
  split
  · rw [List.getElem?_eq_none_iff]
    omega
  · next h => exact iff_of_true rfl fun hcovers => h hcovers.1

namespace Writer

variable {w w' : Writer} {call : Call} {calls : List Call} {i : Nat}

/-- What one call leaves. -/
theorem run_eq_some (h : call.run w = some w') :
    w' = ⟨w.buffer.overwrite (call.start w.offset) call.copied, w.offset + call.advance⟩ ∧
      (call.Accepted → call.Copies →
        call.start w.offset + call.copied.length ≤ w.buffer.size) := by
  unfold Call.run at h
  split at h
  · next w₁ hcall =>
    cases h
    obtain ⟨-, hroom, hw⟩ := Call.perform_eq_ok hcall
    exact ⟨hw, fun _ => hroom⟩
  · next e hcall =>
    cases h
    have hrefused : ¬call.Accepted := fun haccepted => haccepted.perform_ne_error e hcall
    rw [Call.copied_of_not_accepted hrefused, Call.advance_of_not_accepted hrefused]
    exact ⟨rfl, fun haccepted => absurd haccepted hrefused⟩
  · cases h

/-- A refused call does nothing to the calls behind it. -/
theorem run_of_not_accepted (hcall : ¬call.Accepted) : call.run w = some w := by
  obtain ⟨e, he⟩ := Call.perform_of_not_accepted hcall
  rw [Call.run, he w]

theorem runAll_cons {rest : List Call} : runAll w (call :: rest) = some w' ↔
    ∃ w₁, call.run w = some w₁ ∧ w₁.runAll rest = some w' := by
  rw [runAll, List.foldlM_cons, Option.bind_eq_bind, Option.bind_eq_some_iff]
  rfl

theorem runAll_append {rest : List Call} : runAll w (calls ++ rest) = some w' ↔
    ∃ w₁, w.runAll calls = some w₁ ∧ w₁.runAll rest = some w' := by
  rw [runAll, List.foldlM_append, Option.bind_eq_bind, Option.bind_eq_some_iff]
  rfl

theorem size_buffer_runAll (h : w.runAll calls = some w') : w'.buffer.size = w.buffer.size := by
  induction calls generalizing w with
  | nil =>
    cases h
    rfl
  | cons call rest ih =>
    obtain ⟨w₁, hcall, hrest⟩ := runAll_cons.1 h
    rw [ih hrest, (run_eq_some hcall).1, Bytes.size_overwrite]

theorem offset_runAll (h : w.runAll calls = some w') :
    w'.offset = w.offset + (calls.map Call.advance).sum := by
  induction calls generalizing w with
  | nil =>
    cases h
    rfl
  | cons call rest ih =>
    obtain ⟨w₁, hcall, hrest⟩ := runAll_cons.1 h
    rw [ih hrest, (run_eq_some hcall).1, List.map_cons, List.sum_cons, Nat.add_assoc]

/-- One call puts its bytes over what was there. -/
theorem getElem?_run (h : call.run w = some w') (hi : i < w.buffer.size) :
    w'.buffer[i]? = (Placed.byte? ⟨call, call.start w.offset⟩ i).or w.buffer[i]? := by
  rw [(run_eq_some h).1, Bytes.getElem?_overwrite]
  simp only [Placed.byte?]
  by_cases hfirst : call.start w.offset ≤ i
  · by_cases hlast : i < call.start w.offset + call.copied.length
    · obtain ⟨b, hb⟩ : ∃ b, call.copied[i - call.start w.offset]? = some b :=
        ⟨_, List.getElem?_eq_getElem (by omega)⟩
      rw [if_pos ⟨hfirst, hlast, hi⟩, if_pos hfirst, hb, Option.some_or]
    · rw [if_neg (by omega), if_pos hfirst, List.getElem?_eq_none (by omega), Option.none_or]
  · rw [if_neg (by omega), if_neg hfirst, Option.none_or]

/-- **A byte is what the last call that copied to its place left there.** -/
theorem getElem?_runAll (h : w.runAll calls = some w') (hi : i < w.buffer.size) :
    w'.buffer[i]? =
      ((placedFrom w.offset calls).reverse.findSome? (Placed.byte? · i)).or w.buffer[i]? := by
  induction calls generalizing w with
  | nil =>
    cases h
    rfl
  | cons call rest ih =>
    obtain ⟨w₁, hcall, hrest⟩ := runAll_cons.1 h
    have hw₁ := (run_eq_some hcall).1
    have hi₁ : i < w₁.buffer.size := by rwa [hw₁, Bytes.size_overwrite]
    rw [ih hrest hi₁, getElem?_run hcall hi, placedFrom, List.reverse_cons, List.findSome?_append,
      List.findSome?_singleton, Option.or_assoc, hw₁]

end Writer

/-! ## Fields that keep apart -/

/-- No other call copies a byte to the places that are set aside for call `k`. -/
def KeepsApart (calls : List Placed) (k : Nat) : Prop :=
  ∀ placed, calls[k]? = some placed → ∀ j other, j ≠ k → calls[j]? = some other →
    ∀ i, placed.Extends i → ¬other.Covers i

/-- Then the bytes at these places are its own. -/
theorem KeepsApart.findSome? {calls : List Placed} {k i : Nat} {placed : Placed}
    (h : KeepsApart calls k) (hk : calls[k]? = some placed) (hi : placed.Extends i) :
    calls.reverse.findSome? (Placed.byte? · i) = placed.byte? i := by
  obtain ⟨hlt, hget⟩ := List.getElem?_eq_some_iff.1 hk
  have hsplit : calls = calls.take k ++ placed :: calls.drop (k + 1) := by
    rw [← hget, ← List.drop_eq_getElem_cons, List.take_append_drop]
  have hbefore : (calls.take k).reverse.findSome? (Placed.byte? · i) = none := by
    rw [List.findSome?_eq_none_iff]
    intro other hother
    obtain ⟨j, hj⟩ := List.mem_iff_getElem?.1 (List.mem_reverse.1 hother)
    rw [List.getElem?_take, Option.ite_none_right_eq_some] at hj
    exact Placed.byte?_eq_none.2 (h placed hk j other hj.1.ne hj.2 i hi)
  have hafter : (calls.drop (k + 1)).reverse.findSome? (Placed.byte? · i) = none := by
    rw [List.findSome?_eq_none_iff]
    intro other hother
    obtain ⟨j, hj⟩ := List.mem_iff_getElem?.1 (List.mem_reverse.1 hother)
    rw [List.getElem?_drop] at hj
    exact Placed.byte?_eq_none.2 (h placed hk _ other (by omega) hj i hi)
  conv_lhs => rw [hsplit]
  rw [List.reverse_append, List.reverse_cons, List.append_assoc, List.findSome?_append, hafter,
    Option.none_or, List.findSome?_append, hbefore, Option.or_none, List.findSome?_singleton]

/-! ## Reading fields back -/

/-- The number that `width` bytes from `start` on spell, if they all exist. -/
def Bytes.number? (bytes : Bytes) (start width : Nat) (order : ByteOrder) : Option Nat :=
  (bytes.slice? start width).map fun part => order.number part.toList

theorem Bytes.HasAt.number?_eq {bytes : Bytes} {start : Nat} {part : List UInt8}
    (h : bytes.HasAt start part) (hroom : start + part.length ≤ bytes.size) (order : ByteOrder) :
    bytes.number? start part.length order = some (order.number part) := by
  rw [Bytes.number?, h.slice? hroom, Option.map_some]

/-- What the call wrote can be read back: a number in its width and order, and a text with zero
bytes behind it if it is too short. Only the part of a text that lies in the record is asked for. -/
def Call.ReadsBack (bytes : Bytes) (start : Nat) : Call → Prop
  | write (.byte value) => bytes.number? start 1 .data = some value.toNat
  | write (.word value order) => bytes.number? start 2 order = some value.toNat
  | write (.long value order) => bytes.number? start 4 order = some value.toNat
  | write (.chars text width) => ∀ j < width, start + j < bytes.size →
      bytes[start + j]? = some (text.toUTF8.toList[j]?.getD 0)
  | write (.gap _) => True
  | write (.number value width context order) =>
      bytes.number? start (Field.number value width context order).width order = some value
  | patch _ value order => bytes.number? start 2 order = some value.toNat

/-- The bytes of a number that fits spell it. -/
theorem Field.number_written {value width : Nat} {context : String} {order : ByteOrder}
    (hfits : (number value width context order).Fits) :
    order.number (number value width context order).written = value := by
  have hle : value ≤ maxForWidth width := hfits
  have hlong : value < UInt32.size :=
    Nat.lt_of_le_of_lt hle (by unfold maxForWidth; split <;> decide)
  by_cases hone : width = 1
  · subst hone
    rw [written, ByteOrder.number_singleton]
    exact UInt8.toNat_ofNat_of_lt' (Nat.lt_succ_of_le hle)
  by_cases htwo : width = 2
  · subst htwo
    rw [written, ByteOrder.number_word]
    exact UInt16.toNat_ofNat_of_lt' (Nat.lt_succ_of_le hle)
  · have hwritten : (number value width context order).written = order.long value.toUInt32 := by
      unfold written
      split <;> simp_all
    rw [hwritten, ByteOrder.number_long]
    exact UInt32.toNat_ofNat_of_lt' hlong

theorem Field.length_written_number (value width : Nat) (context : String) (order : ByteOrder) :
    (number value width context order).written.length =
      (number value width context order).width := by
  unfold written Field.width
  split <;> simp_all

/-- Bytes that were copied and not touched again can be read back. -/
theorem Call.readsBack {bytes : Bytes} {start : Nat} {call : Call} (haccepted : call.Accepted)
    (hcopied : bytes.HasAt start call.copied)
    (hroom : call.Copies → start + call.copied.length ≤ bytes.size)
    (hzero : ∀ i, start + call.copied.length ≤ i → i < start + call.width → i < bytes.size →
      bytes[i]? = some 0) : call.ReadsBack bytes start := by
  cases call with
  | patch _ value order =>
    have hread := hcopied.number?_eq (hroom trivial) order
    rwa [copied, ByteOrder.number_word, ByteOrder.length_word] at hread
  | write field =>
    have hfits : field.Fits := haccepted
    simp only [copied, if_pos hfits] at hcopied hroom hzero
    cases field with
    | byte value =>
      have hread := hcopied.number?_eq (hroom trivial) .data
      rwa [Field.written, ByteOrder.number_singleton] at hread
    | word value order =>
      have hread := hcopied.number?_eq (hroom trivial) order
      rwa [Field.written, ByteOrder.number_word, ByteOrder.length_word] at hread
    | long value order =>
      have hread := hcopied.number?_eq (hroom trivial) order
      rwa [Field.written, ByteOrder.number_long, ByteOrder.length_long] at hread
    | gap width => trivial
    | number value width context order =>
      have hread := hcopied.number?_eq (hroom trivial) order
      rwa [Field.number_written hfits, Field.length_written_number] at hread
    | chars text width =>
      intro j hj hsize
      simp only [Field.written, List.length_take] at hcopied hzero
      by_cases htext : j < text.toUTF8.toList.length
      · rw [hcopied j (by rw [List.length_take]; omega), List.getElem?_take, if_pos hj,
          List.getElem?_eq_getElem htext, Option.getD_some]
      · rw [hzero (start + j) (by omega) (Nat.add_lt_add_left hj start) hsize,
          List.getElem?_eq_none (Nat.not_lt.1 htext), Option.getD_none]

/-! ## The frame of a writer -/

namespace Writer

variable {declared k i : Nat} {w : Writer} {calls : List Call} {placed : Placed}

/-- A new record is all zero. -/
theorem getElem?_new (hi : i < paddedLength declared) : (new declared).buffer[i]? = some 0 := by
  rw [new, Array.getElem?_replicate, if_pos hi]

theorem size_runAll_new (h : (new declared).runAll calls = some w) :
    w.buffer.size = paddedLength declared := by
  rw [size_buffer_runAll h, new, Array.size_replicate]

/-- A byte that no call copies stays zero. -/
theorem getElem?_runAll_new_of_uncovered (h : (new declared).runAll calls = some w)
    (hi : i < w.buffer.size) (huncovered : ∀ placed ∈ placedFrom 0 calls, ¬placed.Covers i) :
    w.buffer[i]? = some 0 := by
  rw [size_runAll_new h] at hi
  have hnone : (placedFrom 0 calls).reverse.findSome? (Placed.byte? · i) = none := by
    rw [List.findSome?_eq_none_iff]
    exact fun placed hplaced =>
      Placed.byte?_eq_none.2 (huncovered placed (List.mem_reverse.1 hplaced))
  have hsize : i < (new declared).buffer.size := by rwa [new, Array.size_replicate]
  rw [getElem?_runAll h hsize]
  exact (congrArg (Option.or · _) hnone).trans (getElem?_new hi)

/-- Every call of a run that copies something found room for it. -/
theorem room_of_runAll {w' : Writer} (h : w.runAll calls = some w')
    (hk : (placedFrom w.offset calls)[k]? = some placed) (haccepted : placed.call.Accepted)
    (hcopies : placed.call.Copies) :
    placed.start + placed.call.copied.length ≤ w.buffer.size := by
  induction calls generalizing w k with
  | nil => simp [placedFrom] at hk
  | cons call rest ih =>
    obtain ⟨w₁, hcall, hrest⟩ := runAll_cons.1 h
    obtain ⟨hw₁, hroom⟩ := run_eq_some hcall
    cases k with
    | zero =>
      rw [placedFrom, List.getElem?_cons_zero, Option.some.injEq] at hk
      subst hk
      exact hroom haccepted hcopies
    | succ k =>
      rw [placedFrom, List.getElem?_cons_succ] at hk
      have hplaced : (placedFrom w₁.offset rest)[k]? = some placed := by rwa [hw₁]
      have hlater := ih hrest hplaced
      rw [hw₁, Bytes.size_overwrite] at hlater
      exact hlater

/-- Bytes that were set aside for a call and that no other call copied to hold what it wrote. -/
theorem readsBack_of_runAll (h : (new declared).runAll calls = some w)
    (hk : (placedFrom 0 calls)[k]? = some placed) (haccepted : placed.call.Accepted)
    (hapart : KeepsApart (placedFrom 0 calls) k) : placed.call.ReadsBack w.buffer placed.start := by
  have hsize : w.buffer.size = (new declared).buffer.size := size_buffer_runAll h
  have hroom := room_of_runAll h hk haccepted
  rw [← hsize] at hroom
  have hbyte : ∀ i, i < w.buffer.size → placed.Extends i →
      w.buffer[i]? = (placed.byte? i).or (some 0) := by
    intro i hi hextends
    have hnew : (new declared).buffer[i]? = some 0 :=
      getElem?_new (by rwa [← size_runAll_new h])
    rw [getElem?_runAll h (hsize ▸ hi), hnew]
    exact congrArg (Option.or · _) (hapart.findSome? hk hextends)
  have hlength := placed.call.length_copied_le
  refine Call.readsBack haccepted (fun j hj => ?_) hroom fun i hfirst hlast hi => ?_
  · have hend := hroom (placed.call.copies_of_ne_nil (List.ne_nil_of_length_pos (by omega)))
    have hi : placed.start + j < w.buffer.size := by omega
    rw [hbyte _ hi ⟨Nat.le_add_right _ _, by omega⟩, Placed.byte?, if_pos (Nat.le_add_right _ _),
      Nat.add_sub_cancel_left, List.getElem?_eq_getElem hj, Option.some_or]
  · rw [hbyte i hi ⟨by omega, hlast⟩, Placed.byte?_eq_none.2 fun hcovers => ?_, Option.none_or]
    exact Nat.not_lt.2 hfirst hcovers.2

/-- **What any calls on a new record leave.** The buffer keeps its length, the cursor stands at the
sum of the widths of the calls that were carried out, and a byte that no call copied is zero. What
was written can be read back if no other call copies to the bytes that are set aside for it. A
number that does not fit is refused and changes nothing. Any other call that copies bytes overruns
the record exactly if they would end behind it. -/
theorem frame_of_runAll (h : (new declared).runAll calls = some w) :
    w.buffer.size = paddedLength declared ∧
    w.offset = (calls.map Call.advance).sum ∧
    (∀ i < w.buffer.size, (∀ placed ∈ placedFrom 0 calls, ¬placed.Covers i) →
      w.buffer[i]? = some 0) ∧
    (∀ k placed, (placedFrom 0 calls)[k]? = some placed → placed.call.Accepted →
      KeepsApart (placedFrom 0 calls) k → placed.call.ReadsBack w.buffer placed.start) ∧
    (∀ value width context order, maxForWidth width < value →
      w.write (.number value width context order) =
        .error (.error (.fieldOverflow context value width)) ∧
      (new declared).runAll (calls ++ [.write (.number value width context order)]) = some w) ∧
    ∀ call : Call, w.offset + call.advance < wordLimit →
      (call.perform w = .error .overrun ↔ call.Accepted ∧ call.Copies ∧
        paddedLength declared < call.start w.offset + call.copied.length) := by
  have hsize := size_runAll_new h
  refine ⟨hsize, ?_, fun i hi => getElem?_runAll_new_of_uncovered h hi,
    fun k placed hk haccepted hapart => readsBack_of_runAll h hk haccepted hapart,
    fun value width context order hvalue => ⟨if_pos hvalue, ?_⟩, fun call hword => ?_⟩
  · have hoffset := offset_runAll h
    rwa [new, Nat.zero_add] at hoffset
  · have hrefused : ¬(Call.write (.number value width context order)).Accepted :=
      Nat.not_le.2 hvalue
    exact runAll_append.2 ⟨w, h, runAll_cons.2 ⟨w, run_of_not_accepted hrefused, rfl⟩⟩
  · rw [← hsize]
    exact Call.perform_overrun_iff hword

/-- A word, a number that is refused and a patch behind the cursor: both can be read back. -/
theorem frame_of_word_and_patch :
    ∃ w, (new 6).runAll [.write (.word 515 .big), .write (.number 256 1 "index"),
        .patch 4 258 .little] = some w ∧
      w.buffer.size = 8 ∧ w.offset = 2 ∧ w.buffer[3]? = some 0 ∧
      w.buffer.number? 0 2 .big = some 515 ∧ w.buffer.number? 4 2 .little = some 258 ∧
      w.write (.number 256 1 "index") = .error (.error (.fieldOverflow "index" 256 1)) ∧
      Call.perform w (.patch 7 0 .little) = .error .overrun := by
  obtain ⟨w, h⟩ : ∃ w, (new 6).runAll [.write (.word 515 .big), .write (.number 256 1 "index"),
    .patch 4 258 .little] = some w := ⟨_, rfl⟩
  obtain ⟨hsize, hoffset, hzero, hread, hrefused, hoverrun⟩ := frame_of_runAll h
  refine ⟨w, h, hsize, hoffset, hzero 3 (hsize ▸ by decide) ?_, hread 0 _ rfl trivial ?_,
    hread 2 _ rfl trivial ?_, (hrefused 256 1 "index" .data (by decide)).1,
    (hoverrun _ ?_).2 ⟨trivial, trivial, show 8 < 7 + 2 by decide⟩⟩
  · simp only [placedFrom, List.forall_mem_cons, Placed.Covers]
    exact ⟨by decide, by decide, by decide, nofun⟩
  · rintro placed ⟨⟩ (_ | _ | _ | j) other hj hother i hextends hcovers
    · exact hj rfl
    · cases hother
      exact Nat.not_lt.2 hcovers.1 hcovers.2
    · cases hother
      exact absurd hextends.2 (Nat.not_lt.2 (Nat.le_trans (by decide) hcovers.1))
    · cases hother
  · rintro placed ⟨⟩ (_ | _ | _ | j) other hj hother i hextends hcovers
    · cases hother
      exact absurd hcovers.2 (Nat.not_lt.2 (Nat.le_trans (by decide) hextends.1))
    · cases hother
      exact Nat.not_lt.2 hcovers.1 hcovers.2
    · exact hj rfl
    · cases hother
  · rw [hoffset]
    decide

/-- A number that is refused copies nothing, and so it is refused behind the end of the record too,
where an empty text would be an overrun. -/
theorem refused_number_behind_end :
    ¬∀ (declared : Nat) (calls : List Call) (w : Writer) (call : Call),
      (new declared).runAll calls = some w → w.offset + call.advance < wordLimit → call.Copies →
      (call.perform w = .error .overrun ↔
        paddedLength declared < call.start w.offset + call.copied.length) := by
  intro h
  have hnumber := h 4 [.write (.gap 100)] ⟨(new 4).buffer, 100⟩ (.write (.number 300 1 "index")) rfl
    (by decide) trivial
  have hoverrun := hnumber.2 (by decide)
  cases hoverrun

end Writer

end GameBundle
