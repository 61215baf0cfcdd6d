import GameBundle.Error
import GameBundle.Record.Bytes

set_option autoImplicit false

/-! # Fixed-layout records

Every record is a zero-filled buffer as long as its declared fields, padded to a multiple of four,
and is written front to back. A `Field` is one write and a record is a list of them: `encode` runs
the list over a fresh buffer. A number that does not fit its field is a mistake of the project; a
write that would pass the end of the buffer is an overrun. -/

namespace GameBundle

/-! ## Fields -/

/-- One write into a record. -/
inductive Field
  | byte (value : UInt8)
  | word (value : UInt16) (order : ByteOrder := .data)
  | long (value : UInt32) (order : ByteOrder := .data)
  /-- The first `width` bytes of `text`; a shorter text leaves the zero fill behind it. -/
  | chars (text : String) (width : Nat)
  /-- A stretch of bytes that keep what they are. -/
  | gap (width : Nat)
  /-- A number that has to fit `width` bytes; `context` names it if it does not. -/
  | number (value width : Nat) (context : String) (order : ByteOrder := .data)
  deriving Repr, Inhabited

/-! ## The writer -/

/-- A record in the making and the place of the next write. -/
structure Writer where
  buffer : Bytes
  offset : Nat
  deriving Repr, Inhabited

namespace Writer

/-- A zero-filled record for `declared` bytes of fields. -/
def new (declared : Nat) : Writer := ⟨Array.replicate (paddedLength declared) 0, 0⟩

/-- Write `bytes` at the cursor and move it by `advance`. -/
def place (w : Writer) (bytes : List UInt8) (advance : Nat) : Except Failure Writer :=
  if w.offset + bytes.length ≤ w.buffer.size ∧ w.offset + advance < wordLimit then
    .ok ⟨w.buffer.overwrite w.offset bytes, w.offset + advance⟩
  else
    .error .overrun

/-- Write `bytes` at the cursor and move it behind them. -/
def put (w : Writer) (bytes : List UInt8) : Except Failure Writer := w.place bytes bytes.length

/-- Move the cursor without writing; it may leave the record as long as nothing is written there. -/
def skip (w : Writer) (width : Nat) : Except Failure Writer :=
  if w.offset + width < wordLimit then .ok { w with offset := w.offset + width }
  else .error .overrun

/-- Write one field. -/
def write (w : Writer) : Field → Except Failure Writer
  | .byte value => w.put [value]
  | .word value order => w.put (order.word value)
  | .long value order => w.put (order.long value)
  | .chars text width => w.place (text.toUTF8.toList.take width) width
  | .gap width => w.skip width
  | .number value width context order =>
    if value > maxForWidth width then
      .error (.error (.fieldOverflow context value width))
    else match width with
      | 1 => w.put [value.toUInt8]
      | 2 => w.put (order.word value.toUInt16)
      | _ => w.put (order.long value.toUInt32)

/-- Write the fields one after the other. -/
def writeAll (w : Writer) (fields : List Field) : Except Failure Writer :=
  fields.foldlM write w

end Writer

/-- Replace the word at `start` of a finished record. -/
def Bytes.patchWord (bytes : Bytes) (start : Nat) (value : UInt16) (order : ByteOrder := .data) :
    Except Failure Bytes :=
  if start + 2 ≤ bytes.size then .ok (bytes.overwrite start (order.word value))
  else .error .overrun

/-- Replace the word at `start` without moving the cursor. -/
def Writer.patchWord (w : Writer) (start : Nat) (value : UInt16) (order : ByteOrder := .data) :
    Except Failure Writer := do
  return { w with buffer := ← w.buffer.patchWord start value order }

/-- The record with `declared` bytes of fields in which `fields` have been written. -/
def Record.encode (declared : Nat) (fields : List Field) : Except Failure Bytes := do
  return (← (Writer.new declared).writeAll fields).buffer

/-! ## Limits of the address space -/

/-- A padded length that is a 64-bit word itself. -/
def checkedPadding (length : Nat) : Except Failure Nat :=
  if paddedLength length < wordLimit then .ok (paddedLength length) else .error .overrun

/-- The long word at `start`, if there is one. Its end has to be a 64-bit word. -/
def Bytes.readLong (bytes : Bytes) (start : Nat) : Except Failure (Option UInt32) :=
  if start + 4 < wordLimit then .ok (bytes.long? start) else .error .overrun

/-- A zero-filled record that takes at most half of the address space. -/
def Writer.allocate (declared : Nat) : Except Failure Writer :=
  if paddedLength declared < wordLimit / 2 then .ok (new declared) else .error .overrun

/-! ## Sizes -/

theorem Writer.size_buffer_place {w w' : Writer} {bytes : List UInt8} {advance : Nat}
    (h : w.place bytes advance = .ok w') : w'.buffer.size = w.buffer.size := by
  unfold Writer.place at h
  split at h
  · cases h
    simp
  · cases h

theorem Writer.size_buffer_write {w w' : Writer} {field : Field} (h : w.write field = .ok w') :
    w'.buffer.size = w.buffer.size := by
  cases field with
  | gap width =>
    simp only [Writer.write, Writer.skip] at h
    split at h
    · cases h
      rfl
    · cases h
  | number value width context order =>
    simp only [Writer.write] at h
    split at h
    · cases h
    · split at h <;> exact Writer.size_buffer_place h
  | _ => exact Writer.size_buffer_place h

theorem Writer.size_buffer_writeAll {w w' : Writer} {fields : List Field}
    (h : w.writeAll fields = .ok w') : w'.buffer.size = w.buffer.size := by
  induction fields generalizing w with
  | nil =>
    cases h
    rfl
  | cons field rest ih =>
    simp only [Writer.writeAll, List.foldlM_cons] at h
    cases hw : w.write field with
    | error e =>
      rw [hw] at h
      cases h
    | ok w₁ =>
      rw [hw] at h
      exact (ih h).trans (Writer.size_buffer_write hw)

/-- **A record is as long as its declared fields, padded to four bytes.** -/
theorem Record.size_of_encode {declared : Nat} {fields : List Field} {bytes : Bytes}
    (h : Record.encode declared fields = .ok bytes) : bytes.size = paddedLength declared := by
  unfold Record.encode at h
  cases hw : (Writer.new declared).writeAll fields with
  | error e =>
    rw [hw] at h
    cases h
  | ok w =>
    rw [hw] at h
    cases h
    rw [Writer.size_buffer_writeAll hw]
    simp [Writer.new]

end GameBundle
