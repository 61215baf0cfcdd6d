import GameBundle.Bundle.Assemble

set_option autoImplicit false

/-! # Reading a bundle

`Index.parse` checks the signature and reads the index blocks; `Index.record?` then finds the bytes
of a record. Whatever the bytes are, nothing outside them is read. -/

namespace GameBundle.Bundle

/-- Where a record lies. -/
structure Entry where
  offset : UInt32
  length : UInt32
  deriving Repr, DecidableEq, Inhabited

/-- The signature and the index blocks of a bundle. -/
structure Index where
  version : UInt32
  checksum : UInt32
  length : UInt32
  /-- The entries of each kind, in the order of the kinds. -/
  blocks : List (List Entry)
  deriving Repr

namespace Index

/-- The entries of a kind, in the order of their records. -/
def entries (index : Index) (kind : Kind) : List Entry := index.blocks.getD kind.position []

/-- The complaint about a bundle that ends too early. -/
def truncated : BuildError := .malformed "bundle" "is truncated"

/-- The word at `start`, which has to be there. -/
def word (bytes : Bytes) (start : Nat) : Except BuildError UInt32 :=
  match bytes.long? start with
  | some v => .ok v
  | none => .error truncated

/-- The next `count` entries, whose offsets continue at `offsets` and lengths at `lengths`. -/
def readEntries (bytes : Bytes) : Nat → Nat → Nat → Except BuildError (List Entry)
  | 0, _, _ => .ok []
  | count + 1, offsets, lengths => do
    let offset ← word bytes offsets
    let length ← word bytes lengths
    if bytes.size < offset.toNat + length.toNat then .error truncated
    else return ⟨offset, length⟩ :: (← readEntries bytes count (offsets + 4) (lengths + 4))

/-- `blocks` index blocks from `start` on. -/
def readBlocks (bytes : Bytes) : Nat → Nat → Except BuildError (List (List Entry))
  | 0, _ => .ok []
  | blocks + 1, start => do
    let count := (← word bytes start).toNat
    let entries ← readEntries bytes count (start + 4) (start + 4 + 4 * count)
    return entries :: (← readBlocks bytes blocks (start + 4 + 8 * count))

/-- A word as `0x` and eight hexadecimal digits. -/
def hex (v : UInt32) : String :=
  let digits := Nat.toDigits 16 v.toNat
  String.ofList (['0', 'x'] ++ List.replicate (8 - digits.length) '0' ++ digits)

/-- Read the signature and the index blocks of a bundle that has `hash` as its checksum. -/
def parseWith (hash : Bytes → UInt32) (bytes : Bytes) : Except BuildError Index := do
  if bytes.size < signatureLength ∨ bytes.extract 0 8 ≠ magic.toUTF8.data then
    .error (.malformed "bundle" "does not start with MAGEGAME")
  let version ← word bytes 8
  let stored ← word bytes 12
  let length ← word bytes 16
  if length.toNat ≠ bytes.size then
    .error (.malformed "bundle" s!"stores length {length} but is {bytes.size} bytes long")
  let computed := hash (bytes.extract signatureLength bytes.size)
  if computed ≠ stored then
    .error (.malformed "bundle"
      s!"checksum mismatch: stored {hex stored}, computed {hex computed}")
  let blocks ← readBlocks bytes Kind.count signatureLength
  return ⟨version, stored, length, blocks⟩

/-- Read the signature and the index blocks of a bundle. -/
def parse (bytes : Bytes) : Except BuildError Index := parseWith Crc32.checksum bytes

/-- The bytes of a record. -/
def record? (index : Index) (bytes : Bytes) (kind : Kind) (number : Nat) : Option Bytes := do
  let entry ← (index.entries kind)[number]?
  bytes.slice? entry.offset.toNat entry.length.toNat

end Index

end GameBundle.Bundle
