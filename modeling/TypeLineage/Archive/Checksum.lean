/-!
# Checksums

The cyclic redundancy check over 32 bits that archives keep of every entry: the remainder of the
content, read as a polynomial over two elements with the lowest bit of each byte first, by a fixed
polynomial of degree 32, with all bits turned over before and after.
-/

namespace TypeLineage.Archive

/-- The fixed polynomial, without its highest term and with the lowest exponent first. -/
def polynomial : UInt32 := 0xEDB88320

/-- The remainder after one more bit. -/
def stepBit (remainder : UInt32) : UInt32 :=
  if remainder &&& 1 = 1 then (remainder >>> 1) ^^^ polynomial else remainder >>> 1

/-- The remainder after one more byte. -/
def stepByte (remainder : UInt32) (byte : UInt8) : UInt32 :=
  Nat.repeat stepBit 8 (remainder ^^^ byte.toUInt32)

/-- The checksum of some bytes. -/
def checksum (bytes : ByteArray) : UInt32 :=
  ~~~ bytes.toList.foldl stepByte (~~~ 0)

end TypeLineage.Archive
