/-!
# Numbers in bytes

Archives write their numbers with the lowest byte first.
-/

namespace TypeLineage

/-- The number that some bytes stand for, the lowest byte first. -/
def Archive.numberOf : List UInt8 → Nat
  | [] => 0
  | byte :: rest => byte.toNat + 256 * numberOf rest

/-- The number written in so many bytes from a position on; none if the bytes end before. -/
def Archive.number? (bytes : ByteArray) (width position : Nat) : Option Nat :=
  if position + width ≤ bytes.size then
    some (numberOf (bytes.extract position (position + width)).toList)
  else none

end TypeLineage
