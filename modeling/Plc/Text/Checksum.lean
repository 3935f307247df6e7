/-!
# The content checksum of text

CRC-32 with the reflected polynomial of IEEE 802.3, over the UTF-8 bytes of a text. The register
starts with all bits set and is complemented at the end.
-/

namespace Plc.Text

/-- One bit of polynomial division: the register moves down, and the divisor is subtracted when the
bit that falls out is set. -/
def checksumBit (register : UInt32) : UInt32 :=
  if register &&& 1 = 1 then (register >>> 1) ^^^ 0xEDB88320 else register >>> 1

/-- Takes one byte into the register. -/
def checksumByte (register : UInt32) (byte : UInt8) : UInt32 :=
  checksumBit (checksumBit (checksumBit (checksumBit (checksumBit (checksumBit (checksumBit
    (checksumBit (register ^^^ byte.toUInt32))))))))

/-- The checksum of a sequence of bytes. -/
def checksum (bytes : List UInt8) : UInt32 :=
  bytes.foldl checksumByte 0xFFFFFFFF ^^^ 0xFFFFFFFF

/-- The check value that the standard gives for the nine digits. -/
example : checksum [0x31, 0x32, 0x33, 0x34, 0x35, 0x36, 0x37, 0x38, 0x39] = 0xCBF43926 := by
  decide +kernel

end Plc.Text
