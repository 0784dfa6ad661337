import TypeLineage.Archive.EntryName
import TypeLineage.Archive.Number

/-!
# The directory of an archive

An archive ends with a record that tells where its directory is, and the directory lists the
entries. There may be other bytes before the archive; then all places in it count from the first
byte that is its own, which is found by comparing where the record stands with where the directory
should end. Numbers that do not fit into their fields are written in a wide record that has a
locator of its own.

## The model

A `Defect` is what keeps an archive, or one of its entries, from being opened. Fields are read in
their order, so the first that is damaged decides on the defect.
-/

namespace TypeLineage.Archive

/-- What keeps an archive or an entry from being opened. -/
inductive Defect where
  /-- The bytes end within a record. -/
  | truncated
  /-- There are fewer bytes than any archive has. -/
  | tooShort
  /-- No record ends the directory. -/
  | noDirectoryEnd
  /-- The directory does not fit before the record that ends it. -/
  | misplacedDirectory
  /-- There is no room for the wide record that the locator tells of. -/
  | noRoomForWideEnd
  /-- The wide record is not where the locator tells, nor behind. -/
  | noWideEnd
  /-- A record of the directory does not start as it should. -/
  | badDirectoryRecord
  /-- An entry lies beyond all numbers. -/
  | tooFar
  /-- The archive is spread over several disks. -/
  | severalDisks
  /-- An entry says that it is encrypted, but not how. -/
  | noCipher
  /-- An entry describes its cipher in a field of a wrong length. -/
  | badCipherLength
  /-- An entry names a wrong maker of its cipher. -/
  | badCipherVendor
  /-- An entry names an unknown version of its cipher. -/
  | badCipherVersion
  /-- An entry names an unknown strength of its cipher. -/
  | badCipherStrength
  /-- An entry is encrypted. -/
  | encrypted
  /-- An entry does not start as it should. -/
  | badEntry
  /-- An entry is compressed in an unknown way. -/
  | unknownMethod
  deriving DecidableEq, Repr

namespace Defect

/-- The text about a defect of form. -/
def invalid (what : String) : String :=
  "invalid Zip archive: " ++ what

/-- The text about something that is not supported. -/
def unsupported (what : String) : String :=
  "unsupported Zip archive: " ++ what

/-- What is said of a defect. -/
def message : Defect → String
  | .truncated => "failed to fill whole buffer"
  | .tooShort => invalid "Invalid zip header"
  | .noDirectoryEnd => invalid "Could not find central directory end"
  | .misplacedDirectory => invalid "Invalid central directory size or offset"
  | .noRoomForWideEnd => invalid "File cannot contain ZIP64 central directory end"
  | .noWideEnd => invalid "Could not find ZIP64 central directory end"
  | .badDirectoryRecord => invalid "Invalid Central Directory header"
  | .tooFar => invalid "Archive header is too large"
  | .severalDisks => unsupported "Support for multi-disk files is not implemented"
  | .noCipher => invalid "AES encryption without AES extra data field"
  | .badCipherLength => unsupported "AES extra data field has an unsupported length"
  | .badCipherVendor => invalid "Invalid AES vendor"
  | .badCipherVersion => invalid "Invalid AES vendor version"
  | .badCipherStrength => invalid "Invalid AES encryption strength"
  | .encrypted => unsupported "Password required to decrypt file"
  | .badEntry => invalid "Invalid local file header"
  | .unknownMethod => unsupported "Compression method not supported"

end Defect

/-- The number written in so many bytes from a position on. -/
def number (bytes : ByteArray) (width position : Nat) : Except Defect Nat :=
  match number? bytes width position with
  | some number => .ok number
  | none => .error .truncated

/-! ### The end of the directory -/

/-- What starts the record that ends the directory. -/
def endMark : Nat := 0x06054B50

/-- What starts the locator of the wide record. -/
def locatorMark : Nat := 0x07064B50

/-- What starts the wide record. -/
def wideEndMark : Nat := 0x06064B50

/-- What starts a record of the directory. -/
def directoryMark : Nat := 0x02014B50

/-- The greatest number in a field of two bytes, which says that it stands elsewhere. -/
def full16 : Nat := 0xFFFF

/-- The greatest number in a field of four bytes, which says that it stands elsewhere. -/
def full32 : Nat := 0xFFFFFFFF

/-- The bound of all places in an archive. -/
def addressBound : Nat := 1 <<< 64

/-- The length of the record that ends the directory, without the comment. -/
def endLength : Nat := 22

/-- The record that ends the directory. -/
structure DirectoryEnd where
  /-- Where the record stands. -/
  position : Nat
  /-- The number of the disk with the record. -/
  disk : Nat
  /-- The number of the disk with the start of the directory. -/
  directoryDisk : Nat
  /-- The number of entries on this disk. -/
  entriesHere : Nat
  /-- The number of entries. -/
  entries : Nat
  /-- The length of the directory. -/
  size : Nat
  /-- Where the directory starts, counted from the start of the archive. -/
  start : Nat
  /-- The length of the comment. -/
  comment : Nat
  deriving DecidableEq, Repr

namespace DirectoryEnd

/-- Whether some number does not fit into the record. -/
def isTooSmall (record : DirectoryEnd) : Bool :=
  record.disk == full16 || record.directoryDisk == full16 || record.entriesHere == full16 ||
    record.entries == full16 || record.size == full32 || record.start == full32

/-- The record at a position. -/
def read (bytes : ByteArray) (position : Nat) : Except Defect DirectoryEnd := do
  let disk ← number bytes 2 (position + 4)
  let directoryDisk ← number bytes 2 (position + 6)
  let entriesHere ← number bytes 2 (position + 8)
  let entries ← number bytes 2 (position + 10)
  let size ← number bytes 4 (position + 12)
  let start ← number bytes 4 (position + 16)
  let comment ← number bytes 2 (position + 20)
  if position + endLength + comment ≤ bytes.size then
    return { position, disk, directoryDisk, entriesHere, entries, size, start, comment }
  else
    throw .truncated

/-- The last position, of so many from a lowest one on, where the record starts. -/
def lastMark? (bytes : ByteArray) (lowest : Nat) : Nat → Option Nat
  | 0 => none
  | count + 1 =>
    if number? bytes 4 (lowest + count) = some endMark then some (lowest + count)
    else lastMark? bytes lowest count

/-- Finds the record. It is looked for as far back as the longest comment can reach. -/
def find (bytes : ByteArray) : Except Defect DirectoryEnd :=
  if bytes.size < endLength then throw .tooShort
  else
    let lowest := bytes.size - (endLength + full16)
    match lastMark? bytes lowest (bytes.size - endLength - lowest + 1) with
    | some position => read bytes position
    | none => throw .noDirectoryEnd

end DirectoryEnd

/-- Where the entries of the directory are, and how far all places are shifted. -/
structure DirectoryPlace where
  /-- How many bytes stand before the archive. -/
  shift : Nat
  /-- Where the directory starts. -/
  start : Nat
  /-- The number of entries. -/
  entries : Nat
  deriving DecidableEq, Repr

namespace DirectoryPlace

/-- The place of a directory without a wide record. -/
def ofEnd (record : DirectoryEnd) : Except Defect DirectoryPlace :=
  if record.size + record.start ≤ record.position then
    let shift := record.position - record.size - record.start
    return { shift, start := record.start + shift, entries := record.entriesHere }
  else throw .misplacedDirectory

/-- The first position, of so many from a position on, where the wide record starts. -/
def firstWideMark (bytes : ByteArray) : Nat → Nat → Except Defect Nat
  | 0, _ => throw .noWideEnd
  | count + 1, position => do
    if (← number bytes 4 position) = wideEndMark then return position
    else firstWideMark bytes count (position + 1)

/-- The place that the wide record tells, which should stand at the nominal position or behind. -/
def ofWideEnd (bytes : ByteArray) (record : DirectoryEnd) (nominal : Nat) :
    Except Defect DirectoryPlace := do
  if record.position < 60 then throw .noRoomForWideEnd
  let position ← firstWideMark bytes (record.position - 60 + 1 - nominal) nominal
  let disk ← number bytes 4 (position + 16)
  let directoryDisk ← number bytes 4 (position + 20)
  let entries ← number bytes 8 (position + 32)
  let start ← number bytes 8 (position + 48)
  if disk ≠ directoryDisk then throw .severalDisks
  let shift := position - nominal
  if addressBound ≤ start + shift then throw .misplacedDirectory
  return { shift, start := start + shift, entries }

/-- The place of the directory. A locator of a wide record would stand right before the record that
ends the directory and its comment, if these end the file. -/
def find (bytes : ByteArray) : Except Defect DirectoryPlace := do
  let record ← DirectoryEnd.find bytes
  if !record.isTooSmall && record.disk ≠ record.directoryDisk then throw .severalDisks
  if bytes.size < 20 + endLength + record.comment then ofEnd record
  else
    let locator := bytes.size - (20 + endLength + record.comment)
    if (← number bytes 4 locator) = locatorMark then
      let directoryDisk ← number bytes 4 (locator + 4)
      let nominal ← number bytes 8 (locator + 8)
      if !record.isTooSmall && record.disk ≠ directoryDisk then throw .severalDisks
      ofWideEnd bytes record nominal
    else ofEnd record

end DirectoryPlace

/-! ### Entries -/

/-- An entry as the directory lists it. -/
structure Entry where
  /-- Its name, a path with slashes. -/
  name : String
  /-- Whether it is encrypted. -/
  isEncrypted : Bool
  /-- The number of the way in which it is compressed. -/
  method : Nat
  /-- The checksum of its content. -/
  checksum : Nat
  /-- The length of its compressed content. -/
  packed : Nat
  /-- Where it starts in the file. -/
  position : Nat
  deriving DecidableEq, Repr

namespace Entry

/-- What the further fields of a record can change. -/
structure Fields where
  /-- The length of the content. -/
  plain : Nat
  /-- The length of the compressed content. -/
  packed : Nat
  /-- Where the entry starts, counted from the start of the archive. -/
  start : Nat
  /-- The number of the way in which it is compressed. -/
  method : Nat
  /-- Whether a cipher is described. -/
  hasCipher : Bool := false
  deriving DecidableEq, Repr

/-- The number that says that a content is encrypted, and how it is compressed stands elsewhere. -/
def cipherMethod : Nat := 99

/-- A number that is written elsewhere if its field is full, and the position behind it. -/
def wideNumber (extra : ByteArray) (value position : Nat) : Option (Nat × Nat) :=
  if value = full32 then (number? extra 8 position).map fun number => (number, position + 8)
  else some (value, position)

/-- The numbers that did not fit, from a position on, and the position behind them. Those before
the first that is missing count. -/
def readWide (extra : ByteArray) (position : Nat) (fields : Fields) : Fields × Option Nat :=
  match wideNumber extra fields.plain position with
  | none => (fields, none)
  | some (plain, position) =>
    match wideNumber extra fields.packed position with
    | none => ({ fields with plain }, none)
    | some (packed, position) =>
      match wideNumber extra fields.start position with
      | none => ({ fields with plain, packed }, none)
      | some (start, position) => ({ fields with plain, packed, start }, some position)

/-- The description of a cipher at a position. -/
def readCipher (extra : ByteArray) (length position : Nat) (fields : Fields) :
    Except Defect (Fields × Option Nat) :=
  if length ≠ 7 then throw .badCipherLength
  else
    match number? extra 2 position, number? extra 2 (position + 2), number? extra 1 (position + 4),
      number? extra 2 (position + 5) with
    | some version, some vendor, some strength, some method =>
      if vendor ≠ 0x4541 then throw .badCipherVendor
      else if version ≠ 1 ∧ version ≠ 2 then throw .badCipherVersion
      else if strength = 0 ∨ 3 < strength then throw .badCipherStrength
      else return ({ fields with method, hasCipher := true }, some (position + 7))
    | _, _, _, _ => return (fields, none)

/-- Reads further fields from a position on. Each has a kind and a length, and there are no more of
them than bytes. Where the bytes end too early, the fields before count. -/
def readFields (extra : ByteArray) : Nat → Nat → Fields → Except Defect Fields
  | 0, _, fields => return fields
  | steps + 1, position, fields =>
    if extra.size ≤ position then return fields
    else
      match number? extra 2 position, number? extra 2 (position + 2) with
      | some kind, some length => do
        let body := position + 4
        let (fields, behind?) ←
          if kind = 0x0001 then pure (readWide extra body fields)
          else if kind = 0x9901 then readCipher extra length body fields
          else pure (fields, some body)
        match behind? with
        | none => return fields
        | some behind =>
          let skipped := if kind = 0x0001 then length - (behind - body) else length
          readFields extra steps (behind + skipped) fields
      | _, _ => return fields

/-- The entry listed at a position, and the position behind its record. -/
def read (bytes : ByteArray) (shift position : Nat) : Except Defect (Entry × Nat) := do
  if (← number bytes 4 position) ≠ directoryMark then throw .badDirectoryRecord
  let flags ← number bytes 2 (position + 8)
  let method ← number bytes 2 (position + 10)
  let checksum ← number bytes 4 (position + 16)
  let packed ← number bytes 4 (position + 20)
  let plain ← number bytes 4 (position + 24)
  let nameLength ← number bytes 2 (position + 28)
  let extraLength ← number bytes 2 (position + 30)
  let commentLength ← number bytes 2 (position + 32)
  let start ← number bytes 4 (position + 42)
  let nameStart := position + 46
  let extraStart := nameStart + nameLength
  let behind := extraStart + extraLength + commentLength
  if bytes.size < behind then throw .truncated
  let extra := bytes.extract extraStart (extraStart + extraLength)
  let fields ← readFields extra (extra.size + 1) 0 { plain, packed, start, method }
  if fields.method = cipherMethod ∧ !fields.hasCipher then throw .noCipher
  if addressBound ≤ fields.start + shift then throw .tooFar
  let name := EntryName.ofBytes (flags.testBit 11) (bytes.extract nameStart extraStart)
  return ({ name
            isEncrypted := flags.testBit 0
            method := fields.method
            checksum
            packed := fields.packed
            position := fields.start + shift }, behind)

/-- The entries listed from a position on. -/
def readAll (bytes : ByteArray) (shift : Nat) : Nat → Nat → Except Defect (List Entry)
  | 0, _ => return []
  | count + 1, position => do
    let (entry, behind) ← read bytes shift position
    let rest ← readAll bytes shift count behind
    return entry :: rest

end Entry

end TypeLineage.Archive
