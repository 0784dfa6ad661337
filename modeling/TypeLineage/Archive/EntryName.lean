/-!
# Names of entries

An archive says of each entry how its name is written: in UTF-8, or in the old code page of
terminals, where every byte is one character. Bytes that are no UTF-8 are replaced: as long a
beginning of a character as there is, or else a single byte, by one replacement character.

## The model

Reading UTF-8 keeps what is still `Pending`: the value so far, how many bytes are missing, and
between which bounds the next one lies. Only the first of the missing bytes has narrower bounds;
they shut out needlessly long forms, surrogates and what lies beyond the last character.
-/

namespace TypeLineage.Archive.EntryName

/-- The characters of the code page from byte 128 on. -/
def upperHalf : List Nat :=
  [0x00C7, 0x00FC, 0x00E9, 0x00E2, 0x00E4, 0x00E0, 0x00E5, 0x00E7, 0x00EA, 0x00EB, 0x00E8,
   0x00EF, 0x00EE, 0x00EC, 0x00C4, 0x00C5, 0x00C9, 0x00E6, 0x00C6, 0x00F4, 0x00F6, 0x00F2,
   0x00FB, 0x00F9, 0x00FF, 0x00D6, 0x00DC, 0x00A2, 0x00A3, 0x00A5, 0x20A7, 0x0192, 0x00E1,
   0x00ED, 0x00F3, 0x00FA, 0x00F1, 0x00D1, 0x00AA, 0x00BA, 0x00BF, 0x2310, 0x00AC, 0x00BD,
   0x00BC, 0x00A1, 0x00AB, 0x00BB, 0x2591, 0x2592, 0x2593, 0x2502, 0x2524, 0x2561, 0x2562,
   0x2556, 0x2555, 0x2563, 0x2551, 0x2557, 0x255D, 0x255C, 0x255B, 0x2510, 0x2514, 0x2534,
   0x252C, 0x251C, 0x2500, 0x253C, 0x255E, 0x255F, 0x255A, 0x2554, 0x2569, 0x2566, 0x2560,
   0x2550, 0x256C, 0x2567, 0x2568, 0x2564, 0x2565, 0x2559, 0x2558, 0x2552, 0x2553, 0x256B,
   0x256A, 0x2518, 0x250C, 0x2588, 0x2584, 0x258C, 0x2590, 0x2580, 0x03B1, 0x00DF, 0x0393,
   0x03C0, 0x03A3, 0x03C3, 0x00B5, 0x03C4, 0x03A6, 0x0398, 0x03A9, 0x03B4, 0x221E, 0x03C6,
   0x03B5, 0x2229, 0x2261, 0x00B1, 0x2265, 0x2264, 0x2320, 0x2321, 0x00F7, 0x2248, 0x00B0,
   0x2219, 0x00B7, 0x221A, 0x207F, 0x00B2, 0x25A0, 0x00A0]

/-- The character of a byte in the code page. -/
def charOfByte (byte : UInt8) : Char :=
  if byte < 128 then Char.ofNat byte.toNat
  else Char.ofNat (upperHalf.getD (byte.toNat - 128) 0)

/-- What replaces bytes that are no character. -/
def replacement : Char := '\uFFFD'

/-- A character that has been read in part. -/
structure Pending where
  /-- The value of the bits read so far. -/
  value : Nat
  /-- How many bytes are missing after the next one. -/
  further : Nat
  /-- The least next byte. -/
  least : Nat := 0x80
  /-- The greatest next byte. -/
  greatest : Nat := 0xBF
  deriving DecidableEq, Repr

/-- Reads the first byte of a character. -/
def begin (byte : Nat) : List Char × Option Pending :=
  if byte < 0x80 then ([Char.ofNat byte], none)
  else if byte < 0xC2 then ([replacement], none)
  else if byte < 0xE0 then ([], some { value := byte - 0xC0, further := 0 })
  else if byte = 0xE0 then ([], some { value := 0, further := 1, least := 0xA0 })
  else if byte = 0xED then ([], some { value := 0xD, further := 1, greatest := 0x9F })
  else if byte < 0xF0 then ([], some { value := byte - 0xE0, further := 1 })
  else if byte = 0xF0 then ([], some { value := 0, further := 2, least := 0x90 })
  else if byte < 0xF4 then ([], some { value := byte - 0xF0, further := 2 })
  else if byte = 0xF4 then ([], some { value := 4, further := 2, greatest := 0x8F })
  else ([replacement], none)

/-- Reads one more byte. -/
def advance (pending : Option Pending) (byte : Nat) : List Char × Option Pending :=
  match pending with
  | none => begin byte
  | some p =>
    if p.least ≤ byte ∧ byte ≤ p.greatest then
      let value := 64 * p.value + (byte - 0x80)
      match p.further with
      | 0 => ([Char.ofNat value], none)
      | further + 1 => ([], some { value, further })
    else
      let (chars, pending) := begin byte
      (replacement :: chars, pending)

/-- The characters of bytes in UTF-8, after what is pending. -/
def decodeFrom (pending : Option Pending) : List UInt8 → List Char
  | [] => if pending.isSome then [replacement] else []
  | byte :: rest =>
    let (chars, pending) := advance pending byte.toNat
    chars ++ decodeFrom pending rest

/-- The name that some bytes stand for. -/
def ofBytes (utf8 : Bool) (bytes : ByteArray) : String :=
  if utf8 then String.ofList (decodeFrom none bytes.toList)
  else String.ofList (bytes.toList.map charOfByte)

end TypeLineage.Archive.EntryName
