import GameBundle.Bundle.Index
import GameBundle.Record.Writer

set_option autoImplicit false

/-! # Reading a bundle in machine words

The reader of a bundle once more, step by step as a machine takes them. Positions, counts and
lengths are 64-bit words, what an index stores are 32-bit words, and whatever leaves its limits on
the way is an overrun: a sum or a product that is too large, a range that is not one of the bytes, a
block that is not there, a list that takes more than half of the address space. -/

namespace GameBundle

/-! ## Machine words -/

/-- A sum that is a 64-bit word. -/
def checkedAdd (a b : Nat) : Except Failure Nat :=
  if a + b < wordLimit then .ok (a + b) else .error .overrun

/-- A product that is a 64-bit word. -/
def checkedMul (a b : Nat) : Except Failure Nat :=
  if a * b < wordLimit then .ok (a * b) else .error .overrun

/-- Room for `count` elements of `width` bytes. -/
def checkedRoom (count width : Nat) : Except Failure Unit :=
  if count * width < wordLimit / 2 then .ok () else .error .overrun

/-- The bytes from `start` up to `stop`. -/
def Bytes.checkedRange (bytes : Bytes) (start stop : Nat) : Except Failure Bytes :=
  if start ≤ stop ∧ stop ≤ bytes.size then .ok (bytes.extract start stop) else .error .overrun

namespace Bundle.Index

/-! ## The reader -/

/-- The word at `start`, which has to be there. -/
def checkedWord (bytes : Bytes) (start : Nat) : Except Failure UInt32 := do
  orReject (← bytes.readLong start) truncated

/-- The entries from number `i` on, `remaining` of them, of a block whose offsets start at `offsets`
    and whose lengths start at `lengths`. -/
def checkedEntries (bytes : Bytes) (offsets lengths : Nat) :
    Nat → Nat → Except Failure (List Entry)
  | 0, _ => .ok []
  | remaining + 1, i => do
    let offset ← checkedWord bytes (← checkedAdd offsets (← checkedMul i 4))
    let length ← checkedWord bytes (← checkedAdd lengths (← checkedMul i 4))
    if bytes.size < (← checkedAdd offset.toNat length.toNat) then reject truncated
    else return ⟨offset, length⟩ :: (← checkedEntries bytes offsets lengths remaining (i + 1))

/-- `blocks` index blocks from `start` on. -/
def checkedBlocks (bytes : Bytes) : Nat → Nat → Except Failure (List (List Entry))
  | 0, _ => .ok []
  | blocks + 1, start => do
    let count := (← checkedWord bytes start).toNat
    let offsets ← checkedAdd start 4
    let lengths ← checkedAdd offsets (← checkedMul count 4)
    checkedRoom count 8
    let entries ← checkedEntries bytes offsets lengths count 0
    let stop ← checkedAdd lengths (← checkedMul count 4)
    return entries :: (← checkedBlocks bytes blocks stop)

/-- Read the signature and the index blocks of a bundle. -/
def checkedParse (bytes : Bytes) : Except Failure Index := do
  if bytes.size < signatureLength then
    reject (.malformed "bundle" "does not start with MAGEGAME")
  if (← bytes.checkedRange 0 8) ≠ magic.toUTF8.data then
    reject (.malformed "bundle" "does not start with MAGEGAME")
  let version ← checkedWord bytes 8
  let stored ← checkedWord bytes 12
  let length ← checkedWord bytes 16
  if length.toNat ≠ bytes.size then
    reject (.malformed "bundle" s!"stores length {length} but is {bytes.size} bytes long")
  let computed := Crc32.checksum (← bytes.checkedRange signatureLength bytes.size)
  if computed ≠ stored then
    reject (.malformed "bundle"
      s!"checksum mismatch: stored {hex stored}, computed {hex computed}")
  let blocks ← checkedBlocks bytes Kind.count signatureLength
  return ⟨version, stored, length, blocks⟩

/-- The bytes of a record. Where it ends is a 32-bit word, like its offset and its length. -/
def checkedRecord? (index : Index) (bytes : Bytes) (kind : Kind) (number : Nat) :
    Except Failure (Option Bytes) :=
  match index.blocks[kind.position]? with
  | none => .error .overrun
  | some entries =>
    match entries[number]? with
    | none => .ok none
    | some entry =>
      if entry.offset.toNat + entry.length.toNat < UInt32.size then
        .ok (bytes.slice? entry.offset.toNat entry.length.toNat)
      else .error .overrun

end Bundle.Index

end GameBundle
