import TypeLineage.Archive.Checksum
import TypeLineage.Archive.Deflate
import TypeLineage.Archive.Directory

/-!
# Archives

An archive is the bytes of a file together with the entries that its directory lists. The directory
is read once, when the archive is opened; an entry is looked at when it is asked for. Of two entries
with one name the later one counts.

An entry can be *opened* if it is not encrypted, starts as it should and is compressed in a known
way. Only then does its content matter, which has to unpack, to fit its checksum and to be text.

Whether an entry is encrypted is told by its mark alone. Left out are entries without that mark of
which a further field describes a cipher: they are opened as any other.
-/

namespace TypeLineage

/-- An opened archive. -/
structure Archive where
  /-- The bytes of the file. -/
  bytes : ByteArray
  /-- The entries in the order of the directory. -/
  entries : List Archive.Entry

namespace Archive

/-- Opens an archive. -/
def ofBytes (bytes : ByteArray) : Except Defect Archive := do
  let place ← DirectoryPlace.find bytes
  let entries ← Entry.readAll bytes place.shift place.entries place.start
  return { bytes, entries }

/-- The entry of a name. -/
def entry? (archive : Archive) (name : String) : Option Entry :=
  archive.entries.findRev? fun entry => entry.name == name

/-- How the content of an entry is compressed. -/
inductive Method where
  /-- Not at all. -/
  | stored
  /-- As deflated data. -/
  | deflated
  deriving DecidableEq, Repr

/-- The way of compression that a number stands for. -/
def Method.ofNumber? : Nat → Option Method
  | 0 => some .stored
  | 8 => some .deflated
  | _ => none

/-- An entry that has been opened. -/
structure Opened where
  /-- How its content is compressed. -/
  method : Method
  /-- The compressed content. -/
  packed : ByteArray
  /-- The checksum that the content should have. -/
  checksum : Nat

/-- What starts an entry. -/
def entryMark : Nat := 0x04034B50

/-- Opens an entry. Its compressed content starts behind the name and the further fields that are
written there once more, and is cut off where the file ends. -/
def openEntry (archive : Archive) (entry : Entry) : Except Defect Opened := do
  if entry.isEncrypted then throw .encrypted
  if (← number archive.bytes 4 entry.position) ≠ entryMark then throw .badEntry
  let nameLength ← number archive.bytes 2 (entry.position + 26)
  let extraLength ← number archive.bytes 2 (entry.position + 28)
  let start := entry.position + 30 + nameLength + extraLength
  match Method.ofNumber? entry.method with
  | none => throw .unknownMethod
  | some method =>
    let packed := archive.bytes.extract start (start + entry.packed)
    return { method, packed, checksum := entry.checksum }

/-- Whether there is an entry of a name that can be opened. -/
def hasEntry (archive : Archive) (name : String) : Bool :=
  match archive.entry? name with
  | none => false
  | some entry => (archive.openEntry entry).isOk

/-- What keeps the content of an opened entry from being read. -/
inductive Damage where
  /-- The compressed content cannot be unpacked. -/
  | corrupt
  /-- The content does not have its checksum. -/
  | checksum
  /-- The content is no text. -/
  | notText
  deriving DecidableEq, Repr

/-- What is said of a damage. -/
def Damage.message : Damage → String
  | .corrupt => "corrupt deflate stream"
  | .checksum => "Invalid checksum"
  | .notText => "stream did not contain valid UTF-8"

namespace Opened

/-- The content as it unpacks. -/
def unpacked? (opened : Opened) : Option ByteArray :=
  match opened.method with
  | .stored => some opened.packed
  | .deflated => Deflate.inflate? opened.packed

/-- The content. -/
def content (opened : Opened) : Except Damage ByteArray :=
  match opened.unpacked? with
  | none => throw .corrupt
  | some bytes =>
    if (Archive.checksum bytes).toNat = opened.checksum then return bytes else throw .checksum

/-- The content as text. -/
def text (opened : Opened) : Except Damage String := do
  match String.fromUTF8? (← opened.content) with
  | some text => return text
  | none => throw .notText

end Opened

end Archive

end TypeLineage
