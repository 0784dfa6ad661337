/-!
# SHA-256

The hash function of FIPS 180-4 with 256 bits of result, and its result in hexadecimal digits.
-/

namespace TypeLineage.Digest.Sha256

/-- The constants of the 64 rounds. -/
def roundConstants : Array UInt32 :=
  #[0x428a2f98, 0x71374491, 0xb5c0fbcf, 0xe9b5dba5, 0x3956c25b, 0x59f111f1, 0x923f82a4, 0xab1c5ed5,
    0xd807aa98, 0x12835b01, 0x243185be, 0x550c7dc3, 0x72be5d74, 0x80deb1fe, 0x9bdc06a7, 0xc19bf174,
    0xe49b69c1, 0xefbe4786, 0x0fc19dc6, 0x240ca1cc, 0x2de92c6f, 0x4a7484aa, 0x5cb0a9dc, 0x76f988da,
    0x983e5152, 0xa831c66d, 0xb00327c8, 0xbf597fc7, 0xc6e00bf3, 0xd5a79147, 0x06ca6351, 0x14292967,
    0x27b70a85, 0x2e1b2138, 0x4d2c6dfc, 0x53380d13, 0x650a7354, 0x766a0abb, 0x81c2c92e, 0x92722c85,
    0xa2bfe8a1, 0xa81a664b, 0xc24b8b70, 0xc76c51a3, 0xd192e819, 0xd6990624, 0xf40e3585, 0x106aa070,
    0x19a4c116, 0x1e376c08, 0x2748774c, 0x34b0bcb5, 0x391c0cb3, 0x4ed8aa4a, 0x5b9cca4f, 0x682e6ff3,
    0x748f82ee, 0x78a5636f, 0x84c87814, 0x8cc70208, 0x90befffa, 0xa4506ceb, 0xbef9a3f7, 0xc67178f2]

/-- The eight words of state. -/
structure State where
  a : UInt32
  b : UInt32
  c : UInt32
  d : UInt32
  e : UInt32
  f : UInt32
  g : UInt32
  h : UInt32

/-- The state before the first block. -/
def State.initial : State :=
  ⟨0x6a09e667, 0xbb67ae85, 0x3c6ef372, 0xa54ff53a, 0x510e527f, 0x9b05688c, 0x1f83d9ab, 0x5be0cd19⟩

/-- The words of a state in order. -/
def State.words (s : State) : List UInt32 :=
  [s.a, s.b, s.c, s.d, s.e, s.f, s.g, s.h]

/-- The sum of two states, word by word. -/
def State.add (s t : State) : State :=
  ⟨s.a + t.a, s.b + t.b, s.c + t.c, s.d + t.d, s.e + t.e, s.f + t.f, s.g + t.g, s.h + t.h⟩

/-- A word with its bits rotated to the right. -/
def rotateRight (x : UInt32) (n : UInt32) : UInt32 :=
  (x >>> n) ||| (x <<< (32 - n))

/-- A message made up to whole blocks: a one bit, zeros, and the length in bits. -/
def pad (message : ByteArray) : ByteArray :=
  let zeros := (119 - message.size % 64) % 64
  let length := message.size * 8
  let bytes := (List.range 8).map fun i => UInt8.ofNat (length >>> (8 * (7 - i)) % 256)
  message ++ ⟨(0x80 :: (List.replicate zeros 0 ++ bytes)).toArray⟩

/-- The word of four bytes that starts at a place, the first byte the highest. -/
def wordAt (bytes : ByteArray) (start : Nat) : UInt32 :=
  (List.range 4).foldl (fun word i => word * 256 + (bytes.data.getD (start + i) 0).toUInt32) 0

/-- The next word of a message schedule. -/
def scheduleWord (schedule : Array UInt32) : UInt32 :=
  let back := fun n => schedule.getD (schedule.size - n) 0
  let x := back 15
  let y := back 2
  let small0 := rotateRight x 7 ^^^ rotateRight x 18 ^^^ (x >>> 3)
  let small1 := rotateRight y 17 ^^^ rotateRight y 19 ^^^ (y >>> 10)
  back 16 + small0 + back 7 + small1

/-- The 64 words that a block contributes. -/
def schedule (bytes : ByteArray) (start : Nat) : Array UInt32 :=
  (List.range 48).foldl (fun words _ => words.push (scheduleWord words))
    ((List.range 16).map fun i => wordAt bytes (start + 4 * i)).toArray

/-- One round. -/
def round (s : State) (constant word : UInt32) : State :=
  let big1 := rotateRight s.e 6 ^^^ rotateRight s.e 11 ^^^ rotateRight s.e 25
  let choice := (s.e &&& s.f) ^^^ (~~~s.e &&& s.g)
  let first := s.h + big1 + choice + constant + word
  let big0 := rotateRight s.a 2 ^^^ rotateRight s.a 13 ^^^ rotateRight s.a 22
  let majority := (s.a &&& s.b) ^^^ (s.a &&& s.c) ^^^ (s.b &&& s.c)
  ⟨first + (big0 + majority), s.a, s.b, s.c, s.d + first, s.e, s.f, s.g⟩

/-- The state after one more block. -/
def compress (bytes : ByteArray) (s : State) (start : Nat) : State :=
  let words := schedule bytes start
  s.add ((List.range 64).foldl
    (fun t i => round t (roundConstants.getD i 0) (words.getD i 0)) s)

/-- The hash of a message as eight words. -/
def hash (message : ByteArray) : List UInt32 :=
  let bytes := pad message
  ((List.range (bytes.size / 64)).foldl (fun s i => compress bytes s (64 * i)) .initial).words

/-- A number as a given count of hexadecimal digits, in small letters. -/
def hexDigits (count : Nat) (n : Nat) : List Char :=
  (List.range count).map fun i => Nat.digitChar (n >>> (4 * (count - 1 - i)) % 16)

/-- The hash of a message in 64 hexadecimal digits. -/
def hexHash (message : ByteArray) : String :=
  String.ofList ((hash message).flatMap fun word => hexDigits 8 word.toNat)

end TypeLineage.Digest.Sha256
