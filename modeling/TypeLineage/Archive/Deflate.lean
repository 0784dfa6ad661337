/-!
# Deflated data

The compression that archives use for most of their entries. The data are bits, the lowest bit of
each byte first, and come in blocks. A block holds bytes as they are, or symbols written in a prefix
code: a symbol is a byte, the end of the block, or the length of a piece to be repeated, and the
distance back to that piece follows in a second code.

## The model

A code is a tree: zero goes one way and one the other. It is given by the lengths of its code words
alone, which are dealt out in the order of length and then of symbol. A set of lengths that does not
use up the tree exactly is refused, unless no more than one symbol is used at all.

Data that break a rule, or end before the last block does, have no content. A piece that starts
before the beginning is filled up with zeros; what follows the last block does not matter.
-/

namespace TypeLineage.Archive.Deflate

/-- The bits of a byte, the lowest first. -/
def bitsOfByte (byte : UInt8) : List Bool :=
  (List.range 8).map fun n => byte.toNat.testBit n

/-- The bits of some bytes. -/
def bitsOf (bytes : List UInt8) : List Bool :=
  bytes.flatMap bitsOfByte

/-- The number that some bits stand for, the lowest first. -/
def numberOfBits : List Bool → Nat
  | [] => 0
  | bit :: rest => bit.toNat + 2 * numberOfBits rest

/-- Takes a number of so many bits. -/
def takeNumber (width : Nat) (bits : List Bool) : Option (Nat × List Bool) :=
  let taken := bits.take width
  if taken.length = width then some (numberOfBits taken, bits.drop width) else none

/-- A prefix code. -/
inductive Code where
  /-- No code word leads here. -/
  | nothing
  /-- The code word of a symbol ends here. -/
  | leaf (symbol : Nat)
  /-- The code word goes on. -/
  | branch (zero one : Code)
  deriving DecidableEq, Repr

namespace Code

/-- Takes a symbol. -/
def take : Code → List Bool → Option (Nat × List Bool)
  | .leaf symbol, bits => some (symbol, bits)
  | .branch zero _, false :: rest => zero.take rest
  | .branch _ one, true :: rest => one.take rest
  | _, _ => none

/-- The code with one more code word. -/
def insert (symbol : Nat) : Code → List Bool → Code
  | _, [] => .leaf symbol
  | .branch zero one, false :: rest => .branch (zero.insert symbol rest) one
  | .branch zero one, true :: rest => .branch zero (one.insert symbol rest)
  | _, false :: rest => .branch (nothing.insert symbol rest) .nothing
  | _, true :: rest => .branch .nothing (nothing.insert symbol rest)

/-- The lowest bits of a number, the highest of them first. -/
def highFirst (number width : Nat) : List Bool :=
  ((List.range width).map fun n => number.testBit n).reverse

/-- The longest code word there is. -/
def longest : Nat := 15

/-- How many symbols have a code word of some length. -/
def countOf (lengths : List Nat) (length : Nat) : Nat :=
  if length = 0 then 0 else lengths.count length

/-- The first code word of some length, as a number. -/
def firstOf (lengths : List Nat) : Nat → Nat
  | 0 => 0
  | length + 1 => 2 * (firstOf lengths length + countOf lengths length)

/-- The symbols with a code word of some length, in their order. -/
def symbolsOf (lengths : List Nat) (length : Nat) : List Nat :=
  lengths.zipIdx.filterMap fun (l, symbol) => if l = length then some symbol else none

/-- The code words of some length with their symbols. -/
def wordsOf (lengths : List Nat) (length : Nat) : List (List Bool × Nat) :=
  let first := firstOf lengths length
  (symbolsOf lengths length).zipIdx.map fun (symbol, n) => (highFirst (first + n) length, symbol)

/-- The code whose words have the given lengths; zero stands for a symbol without a code word. -/
def ofLengths (lengths : List Nat) : Code :=
  ((List.range longest).flatMap fun n => wordsOf lengths (n + 1)).foldl
    (fun code (word, symbol) => code.insert symbol word) .nothing

/-- How many symbols have a code word. -/
def used (lengths : List Nat) : Nat :=
  lengths.countP (· != 0)

/-- How many of the longest code words start with a code word of the given length. -/
def share (length : Nat) : Nat :=
  if length = 0 then 0 else 1 <<< (longest - length)

/-- Whether code words of the given lengths use up the tree exactly. -/
def isComplete (lengths : List Nat) : Bool :=
  lengths.foldl (fun total length => total + share length) 0 == 1 <<< longest

/-- The code of the given lengths, if they are complete or at most one symbol is used. -/
def ofLengths? (lengths : List Nat) : Option Code :=
  if isComplete lengths || used lengths ≤ 1 then some (ofLengths lengths) else none

end Code

/-! ### Symbols -/

/-- The symbol that ends a block. -/
def endOfBlock : Nat := 256

/-- The shortest piece that a symbol stands for, and how many further bits are added to it. -/
def lengthRows : List (Nat × Nat) :=
  [(3, 0), (4, 0), (5, 0), (6, 0), (7, 0), (8, 0), (9, 0), (10, 0), (11, 1), (13, 1), (15, 1),
    (17, 1), (19, 2), (23, 2), (27, 2), (31, 2), (35, 3), (43, 3), (51, 3), (59, 3), (67, 4),
    (83, 4), (99, 4), (115, 4), (131, 5), (163, 5), (195, 5), (227, 5), (258, 0)]

/-- The shortest distance that a symbol stands for, and how many further bits are added to it. -/
def distanceRows : List (Nat × Nat) :=
  [(1, 0), (2, 0), (3, 0), (4, 0), (5, 1), (7, 1), (9, 2), (13, 2), (17, 3), (25, 3), (33, 4),
    (49, 4), (65, 5), (97, 5), (129, 6), (193, 6), (257, 7), (385, 7), (513, 8), (769, 8),
    (1025, 9), (1537, 9), (2049, 10), (3073, 10), (4097, 11), (6145, 11), (8193, 12), (12289, 12),
    (16385, 13), (24577, 13)]

/-- Takes the further bits of a row of a table. -/
def takeRow (rows : List (Nat × Nat)) (index : Nat) (bits : List Bool) :
    Option (Nat × List Bool) := do
  let (least, width) ← rows[index]?
  let (more, bits) ← takeNumber width bits
  return (least + more, bits)

/-- The byte at a distance back from the end; zero before the beginning. -/
def byteBack (out : ByteArray) (distance : Nat) : UInt8 :=
  if h : 0 < distance ∧ distance ≤ out.size then out[out.size - distance] else 0

/-- Repeats a piece, byte by byte, so that it may reach into itself. -/
def repeatPiece (distance : Nat) : Nat → ByteArray → ByteArray
  | 0, out => out
  | length + 1, out => repeatPiece distance length (out.push (byteBack out distance))

/-- Puts the symbols of a block after what is there. There are no more symbols than bits. -/
def takeSymbols (symbols distances : Code) :
    Nat → List Bool → ByteArray → Option (ByteArray × List Bool)
  | 0, _, _ => none
  | steps + 1, bits, out => do
    let (symbol, bits) ← symbols.take bits
    if symbol < endOfBlock then
      takeSymbols symbols distances steps bits (out.push (UInt8.ofNat symbol))
    else if symbol = endOfBlock then
      return (out, bits)
    else
      let (length, bits) ← takeRow lengthRows (symbol - endOfBlock - 1) bits
      let (row, bits) ← distances.take bits
      let (distance, bits) ← takeRow distanceRows row bits
      takeSymbols symbols distances steps bits (repeatPiece distance length out)

/-! ### Blocks -/

/-- Takes a block of bytes as they are. It starts at the next byte, with the number of its bytes
and the same number with its bits turned over. -/
def takeStored (bits : List Bool) (out : ByteArray) : Option (ByteArray × List Bool) := do
  let bits := bits.drop (bits.length % 8)
  let (count, bits) ← takeNumber 16 bits
  let (turned, bits) ← takeNumber 16 bits
  if count + turned = 65535 then
    takeBytes count bits out
  else none
where
  /-- Takes so many bytes. -/
  takeBytes : Nat → List Bool → ByteArray → Option (ByteArray × List Bool)
    | 0, bits, out => some (out, bits)
    | count + 1, bits, out => do
      let (byte, bits) ← takeNumber 8 bits
      takeBytes count bits (out.push (UInt8.ofNat byte))

/-- The code of symbols in a block that does not bring its own. -/
def fixedSymbols : Code :=
  .ofLengths (List.replicate 144 8 ++ List.replicate 112 9 ++ List.replicate 24 7 ++
    List.replicate 8 8)

/-- The code of distances in a block that does not bring its own. -/
def fixedDistances : Code :=
  .ofLengths (List.replicate 32 5)

/-- The order in which the lengths of the code for lengths are written. -/
def lengthOrder : List Nat :=
  [16, 17, 18, 0, 8, 7, 9, 6, 10, 5, 11, 4, 12, 3, 13, 2, 14, 1, 15]

/-- Takes so many numbers of three bits. -/
def takeTriples : Nat → List Bool → Option (List Nat × List Bool)
  | 0, bits => some ([], bits)
  | count + 1, bits => do
    let (number, bits) ← takeNumber 3 bits
    let (rest, bits) ← takeTriples count bits
    return (number :: rest, bits)

/-- Takes lengths until there are as many as needed, when some have been taken, the last one first.
A length may be repeated, and a row of zeros may be written as their number. -/
def takeLengths (code : Code) (needed : Nat) :
    Nat → List Nat → List Bool → Option (List Nat × List Bool)
  | 0, _, _ => none
  | steps + 1, taken, bits =>
    if taken.length = needed then some (taken.reverse, bits)
    else if needed < taken.length then none
    else do
      let (symbol, bits) ← code.take bits
      if symbol < 16 then
        takeLengths code needed steps (symbol :: taken) bits
      else
        let (length, least, width) ←
          if symbol = 16 then taken.head?.map fun length => (length, 3, 2)
          else if symbol = 17 then some (0, 3, 3)
          else some (0, 11, 7)
        let (more, bits) ← takeNumber width bits
        takeLengths code needed steps (List.replicate (least + more) length ++ taken) bits

/-- Takes the two codes that a block brings. -/
def takeCodes (bits : List Bool) : Option ((Code × Code) × List Bool) := do
  let (moreSymbols, bits) ← takeNumber 5 bits
  let (moreDistances, bits) ← takeNumber 5 bits
  let (moreLengths, bits) ← takeNumber 4 bits
  let symbols := moreSymbols + 257
  let distances := moreDistances + 1
  if symbols ≤ 286 ∧ distances ≤ 30 then
    let (written, bits) ← takeTriples (moreLengths + 4) bits
    let places := lengthOrder.zip written
    let lengths := (List.range 19).map fun symbol => (places.lookup symbol).getD 0
    if Code.isComplete lengths then
      let (taken, bits) ←
        takeLengths (.ofLengths lengths) (symbols + distances) (symbols + distances + 1) [] bits
      let symbolCode ← Code.ofLengths? (taken.take symbols)
      let distanceCode ← Code.ofLengths? (taken.drop symbols)
      return ((symbolCode, distanceCode), bits)
    else none
  else none

/-- Takes a block of a kind. -/
def takeBlock (kind : Nat) (bits : List Bool) (out : ByteArray) :
    Option (ByteArray × List Bool) :=
  match kind with
  | 0 => takeStored bits out
  | 1 => takeSymbols fixedSymbols fixedDistances (bits.length + 1) bits out
  | 2 => do
    let ((symbols, distances), bits) ← takeCodes bits
    takeSymbols symbols distances (bits.length + 1) bits out
  | _ => none

/-- Takes blocks up to the last one. There are no more blocks than bits. -/
def takeBlocks : Nat → List Bool → ByteArray → Option ByteArray
  | 0, _, _ => none
  | steps + 1, bits, out => do
    let (last, bits) ← takeNumber 1 bits
    let (kind, bits) ← takeNumber 2 bits
    let (out, bits) ← takeBlock kind bits out
    if last = 1 then return out else takeBlocks steps bits out

/-- The content of deflated data. -/
def inflate? (bytes : ByteArray) : Option ByteArray :=
  let bits := bitsOf bytes.toList
  takeBlocks (bits.length + 1) bits .empty

end TypeLineage.Archive.Deflate
