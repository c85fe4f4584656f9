import MailMerge.Text.Utf8

/-!
# Checksums

The cyclic redundancy check of 32 bits that an archive keeps for each of its parts.
-/

namespace MailMerge

/-- One bit of the check: a shift, and the polynomial if a one is shifted out. -/
def checksumBit (x : UInt32) : UInt32 :=
  if x &&& 1 = 1 then (x >>> 1) ^^^ 0xEDB88320 else x >>> 1

/-- One byte of the check. -/
def checksumByte (x : UInt32) (byte : UInt8) : UInt32 :=
  let y := x ^^^ byte.toUInt32
  checksumBit <| checksumBit <| checksumBit <| checksumBit <|
    checksumBit <| checksumBit <| checksumBit <| checksumBit y

/-- The **checksum** of bytes. -/
def checksum (bytes : Bytes) : UInt32 := (bytes.foldl checksumByte 0xFFFFFFFF) ^^^ 0xFFFFFFFF

end MailMerge
