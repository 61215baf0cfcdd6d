import GameBundle.Bundle.Crc32
import GameBundle.Content.Tables

set_option autoImplicit false

/-! # The bundle format

A bundle starts with a signature of twenty bytes: eight magic bytes, the version of the format, the
checksum of everything behind the signature, and the length of the whole. Then every kind has an
index block with the number of its records, their offsets from the start of the bundle and their
lengths. Then come the records themselves, kind after kind, each padded to a multiple of four. -/

namespace GameBundle.Bundle

/-! ## The signature -/

/-- The first bytes of every bundle. -/
def magic : String := "MAGEGAME"

/-- The version of the record layouts. -/
def version : UInt32 := 3

/-- The length of the signature. -/
def signatureLength : Nat := 20

/-- Where the signature has its checksum. -/
def checksumOffset : Nat := 12

/-- Where the signature has the length of the bundle. -/
def lengthOffset : Nat := 16

/-- A signature whose checksum and length are still blank. -/
def blankSignature : Bytes :=
  magic.toUTF8.data ++ ByteOrder.little.long version ++ Array.replicate 8 0

/-- Put length and checksum into a bundle that is complete apart from them. -/
def sign (hash : Bytes → UInt32) (length : UInt32) (bundle : Bytes) : Bytes :=
  let checksum := hash (bundle.extract signatureLength bundle.size)
  (bundle.overwrite lengthOffset (ByteOrder.little.long length)).overwrite checksumOffset
    (ByteOrder.little.long checksum)

/-! ## Index blocks -/

/-- A number that has to fit 32 bits. -/
def narrow (context : String) (value : Nat) : Except BuildError UInt32 :=
  if value < UInt32.size then .ok (UInt32.ofNat value) else .error (.fieldOverflow context value 4)

/-- The length of the index blocks of `records` records. -/
def indexLength (records : Nat) : Nat := 4 * Kind.count + 8 * records

/-- The offsets of records that lie one after the other from `start` on, and where the last ends. -/
def offsets (start : Nat) : List Bytes → Except BuildError (List UInt32 × Nat)
  | [] => .ok ([], start)
  | body :: rest => do
    let offset ← narrow "bundle offset" start
    let (others, stop) ← offsets (start + paddedLength body.size) rest
    return (offset :: others, stop)

/-- The index block of a kind whose records start at `start`, and where the last of them ends. -/
def indexBlock (kind : Kind) (start : Nat) (bodies : List Bytes) :
    Except BuildError (Bytes × Nat) := do
  let count ← narrow s!"{kind.label} count" bodies.length
  let (offsets, stop) ← offsets start bodies
  let lengths ← bodies.mapM fun body => narrow "record length" (paddedLength body.size)
  let words := count :: offsets ++ lengths
  return ((words.flatMap ByteOrder.little.long).toArray, stop)

/-- All index blocks, one behind the other. -/
def indexBlocks (start : Nat) : List (Kind × List Bytes) → Except BuildError Bytes
  | [] => .ok #[]
  | (kind, bodies) :: rest => do
    let (block, stop) ← indexBlock kind start bodies
    return block ++ (← indexBlocks stop rest)

/-! ## The whole -/

/-- The bytes of record number `index` of a kind. -/
def body (kind : Kind) (index : Nat) (record : Record) : Except BuildError Bytes :=
  match record.bytes with
  | some bytes => .ok bytes
  | none =>
    .error (.malformed s!"{kind.label} record {index} (\"{record.name}\")"
      "was reserved but never encoded")

/-- The bytes of all records of a kind. -/
def bodies (tables : Tables) (kind : Kind) : Except BuildError (List Bytes) :=
  (tables.records kind).toList.zipIdx.mapM fun (record, index) => body kind index record

/-- The bundle of some tables, with `hash` as the checksum. It is refused if a record is only reserved,
    or if the bundle is too long for its own length field. -/
def assembleWith (hash : Bytes → UInt32) (tables : Tables) : Except BuildError Bytes := do
  let contents ← Kind.all.mapM fun kind => do return (kind, ← bodies tables kind)
  let all := contents.flatMap Prod.snd
  let index ← indexBlocks (signatureLength + indexLength all.length) contents
  let bundle := all.foldl (fun bundle body => Bytes.pad (bundle ++ body)) (blankSignature ++ index)
  let length ← narrow "bundle length" bundle.size
  return sign hash length bundle

/-- The bundle of some tables. -/
def assemble (tables : Tables) : Except BuildError Bytes := assembleWith Crc32.checksum tables

end GameBundle.Bundle
