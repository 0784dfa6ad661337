import TypeLineage.Archive
import TypeLineage.Files.Disk
import TypeLineage.Log
import TypeLineage.TypeName

/-!
# Roots

A root is opened once, as what its path leads to at that time. Of an archive all bytes are kept, so
it does not change any more; what lies in a directory is looked up anew every time.

## The model

A root *has* a type if a file, or an entry that can be opened, is at the path of the type's
compilation unit. The first root that has a type decides on it, even if it then turns out that the
text cannot be read. An entry that cannot be opened decides as well, though its root does not count
as having the type.
-/

namespace TypeLineage

/-- Why a compilation unit is of no use. -/
inductive ReadFault where
  /-- A file cannot be read. -/
  | file (path : Files.Path) (fault : Files.Fault)
  /-- An archive, or an entry of it, cannot be opened. -/
  | archive (path : Files.Path) (defect : Archive.Defect)
  /-- The content of an entry is damaged. -/
  | entry (path : Files.Path) (damage : Archive.Damage)
  /-- The text does not declare the type. -/
  | undeclared (name : TypeName) (origin : String)
  deriving DecidableEq, Repr

/-- What is said of a fault. -/
def ReadFault.message : ReadFault → String
  | .file path fault => "failed to read " ++ path.text ++ ": " ++ fault.message
  | .archive path defect => "failed to read archive " ++ path.text ++ ": " ++ defect.message
  | .entry path damage => "failed to read " ++ path.text ++ ": " ++ damage.message
  | .undeclared name origin => "no declaration of " ++ name.dotted ++ " in " ++ origin

/-- What is told while sources are read. -/
inductive Notice where
  /-- A root is passed over, since there is nothing. -/
  | absentRoot (path : Files.Path)
  /-- A root is passed over, since it cannot be read. -/
  | unreadableRoot (fault : ReadFault)
  /-- The roots have been opened; so many can be used. -/
  | opened (count : Nat)
  /-- The roots are closed. -/
  | closing (count : Nat)
  /-- A type is taken for unknown. -/
  | unresolved (name : TypeName) (fault : ReadFault)
  deriving DecidableEq, Repr

namespace Notice

/-- The level of a notice. -/
def level : Notice → LogLevel
  | .absentRoot _ => .warn
  | .unreadableRoot _ => .warn
  | .opened _ => .debug
  | .closing _ => .debug
  | .unresolved _ _ => .warn

/-- What a notice says. -/
def text : Notice → String
  | .absentRoot path => "source root does not exist path=" ++ path.text
  | .unreadableRoot fault => "skipping unreadable source root error=" ++ fault.message
  | .opened count => "opened source roots roots=" ++ toString count
  | .closing count => "closing source roots roots=" ++ toString count
  | .unresolved name fault =>
    "treating type as unresolved type_name=" ++ name.dotted ++ " error=" ++ fault.message

/-- The line of a notice in a log. -/
def line (notice : Notice) : String :=
  notice.level.label ++ " " ++ notice.text

end Notice

/-- An opened root. -/
inductive Root where
  /-- A directory. -/
  | directory (path : Files.Path)
  /-- An archive. -/
  | archive (path : Files.Path) (content : Archive)

/-- The text of a compilation unit and where it is from. -/
structure SourceText where
  /-- Where the text is from. -/
  origin : String
  /-- The text. -/
  text : String
  deriving DecidableEq, Repr

namespace Root

/-- Opens a root, if its path leads to something that can be used. -/
def openAt (disk : Files.Disk) (path : Files.Path) : Option Root × List Notice :=
  if disk.isDirectory path then (some (.directory path), [])
  else if !disk.isFile path then (none, [.absentRoot path])
  else
    match disk.read path with
    | .error fault => (none, [.unreadableRoot (.file path fault)])
    | .ok bytes =>
      match Archive.ofBytes bytes with
      | .error defect => (none, [.unreadableRoot (.archive path defect)])
      | .ok content => (some (.archive path content), [])

/-- Opens the roots that can be used, in their order. -/
def openAll (disk : Files.Disk) (paths : List Files.Path) : List Root × List Notice :=
  let results := paths.map (openAt disk)
  let roots := results.filterMap Prod.fst
  (roots, results.flatMap Prod.snd ++ [.opened roots.length])

/-- The path of a type's compilation unit in a directory. -/
def unitPath (directory : Files.Path) (name : TypeName) : Files.Path :=
  directory.join ⟨name.sourcePath⟩

/-- Whether a root has a type. -/
def has (disk : Files.Disk) (name : TypeName) : Root → Bool
  | .directory path => disk.isFile (unitPath path name)
  | .archive _ content => content.hasEntry name.sourcePath

/-- The text of a type's compilation unit in a root; none if the root does not decide on it. -/
def text? (disk : Files.Disk) (name : TypeName) : Root → Option (Except ReadFault SourceText)
  | .directory base =>
    let path := unitPath base name
    if disk.isFile path then
      some <|
        match disk.readText path with
        | .ok text => .ok { origin := path.text, text }
        | .error fault => .error (.file path fault)
    else none
  | .archive path content =>
    (content.entry? name.sourcePath).map fun entry =>
      match content.openEntry entry with
      | .error defect => .error (.archive path defect)
      | .ok opened =>
        match opened.text with
        | .error damage => .error (.entry path damage)
        | .ok text => .ok { origin := path.text ++ "!/" ++ name.sourcePath, text }

/-- Whether any root has a type. -/
def anyHas (disk : Files.Disk) (roots : List Root) (name : TypeName) : Bool :=
  roots.any (has disk name)

/-- The text of a type's compilation unit in the first root that decides on it. -/
def firstText? (disk : Files.Disk) (roots : List Root) (name : TypeName) :
    Option (Except ReadFault SourceText) :=
  roots.findSome? (text? disk name)

end Root

end TypeLineage
