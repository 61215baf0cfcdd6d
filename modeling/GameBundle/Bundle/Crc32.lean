import GameBundle.Record.Bytes

set_option autoImplicit false

/-! # Checksums

The checksum of a bundle is the cyclic redundancy check with the reflected polynomial `0xEDB88320`.
The register starts with all bits set and is inverted at the end; bytes enter at the low end, one
bit at a time. -/

namespace GameBundle.Crc32

/-- The generator polynomial, lowest power in the highest bit. -/
def polynomial : UInt32 := 0xedb88320

/-- Shift one bit out of the register. -/
def shift (register : UInt32) : UInt32 :=
  if register &&& 1 = 1 then (register >>> 1) ^^^ polynomial else register >>> 1

/-- Shift `n` bits out of the register. -/
def shifts : Nat → UInt32 → UInt32
  | 0, register => register
  | n + 1, register => shifts n (shift register)

/-- Take one byte into the register. -/
def step (register : UInt32) (byte : UInt8) : UInt32 := shifts 8 (register ^^^ byte.toUInt32)

/-- The checksum of some bytes. -/
def checksum (bytes : Bytes) : UInt32 := bytes.foldl step 0xffffffff ^^^ 0xffffffff

end GameBundle.Crc32
