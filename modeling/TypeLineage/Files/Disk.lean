import TypeLineage.Files.Path

/-!
# The file tree

Files, directories and symbolic links as a value, together with the directory that relative paths
start from. A path is followed as a system does it: every name but the last must lead to a
directory, a slash behind the last name asks for a directory too, and a link is followed wherever
it stands, up to forty of them on one way.

Names are texts, so what has a name whose bytes are no text is left out of a tree, with all that is
below it. So are permissions: whatever is there can be read.
-/

namespace TypeLineage.Files

/-- What stands at a place of the tree. -/
inductive Node where
  /-- A regular file. -/
  | file (content : ByteArray)
  /-- A directory. -/
  | directory
  /-- A symbolic link to a path as written. -/
  | link (target : Path)

/-- Whether a node is a directory; a link to one is none. -/
def Node.isDirectory : Node → Bool
  | .directory => true
  | _ => false

/-- The place of a node: the names on the way from the top of the tree. -/
abbrev Place := List String

/-- A file tree and the directory where relative paths start. -/
structure Disk where
  /-- What stands where, below the top, which is always a directory. -/
  nodes : List (Place × Node) := []
  /-- The directory where relative paths start. -/
  workplace : Place := []

/-- Why a file cannot be read. -/
inductive Fault where
  /-- Nothing is there. -/
  | missing
  /-- A name on the way does not lead to a directory. -/
  | notDirectory
  /-- There are too many links on the way. -/
  | tooManyLinks
  /-- What is there is a directory. -/
  | isDirectory
  /-- The content is no text. -/
  | notText
  deriving DecidableEq, Repr

/-- What a system says of a fault. -/
def Fault.message : Fault → String
  | .missing => "No such file or directory (os error 2)"
  | .notDirectory => "Not a directory (os error 20)"
  | .tooManyLinks => "Too many levels of symbolic links (os error 40)"
  | .isDirectory => "Is a directory (os error 21)"
  | .notText => "stream did not contain valid UTF-8"

namespace Disk

/-- What stands at a place. -/
def node? (disk : Disk) (place : Place) : Option Node :=
  if place.isEmpty then some .directory else disk.nodes.lookup place

/-- Where a path starts. -/
def startOf (disk : Disk) (path : Path) : Place :=
  if path.isAbsolute then [] else disk.workplace

/-- Follows the rest of a path from a place, through at most so many links. -/
def follow (disk : Disk) (links : Nat) (place : Place) : List String → Except Fault Place
  | [] => .ok place
  | segment :: rest =>
    match disk.node? place with
    | some .directory =>
      if segment = "" ∨ segment = "." then follow disk links place rest
      else if segment = ".." then follow disk links place.dropLast rest
      else
        match disk.node? (place ++ [segment]) with
        | none => .error .missing
        | some (.link target) =>
          match links with
          | 0 => .error .tooManyLinks
          | links + 1 =>
            follow disk links (if target.isAbsolute then [] else place) (target.segments ++ rest)
        | some _ => follow disk links (place ++ [segment]) rest
    | some _ => .error .notDirectory
    | none => .error .missing
termination_by segments => (links, segments.length)

/-- The place that a path leads to. -/
def resolve (disk : Disk) (path : Path) : Except Fault Place :=
  if path.text.isEmpty then .error .missing
  else disk.follow 40 (disk.startOf path) path.segments

/-- What a path leads to. -/
def at? (disk : Disk) (path : Path) : Option Node :=
  match disk.resolve path with
  | .ok place => disk.node? place
  | .error _ => none

/-- Whether a path leads to a directory. -/
def isDirectory (disk : Disk) (path : Path) : Bool :=
  match disk.at? path with
  | some .directory => true
  | _ => false

/-- Whether a path leads to a regular file. -/
def isFile (disk : Disk) (path : Path) : Bool :=
  match disk.at? path with
  | some (.file _) => true
  | _ => false

/-- The content of the file that a path leads to. -/
def read (disk : Disk) (path : Path) : Except Fault ByteArray := do
  let place ← disk.resolve path
  match disk.node? place with
  | some (.file content) => .ok content
  | some .directory => .error .isDirectory
  | _ => .error .missing

/-- The content of a file as text. -/
def readText (disk : Disk) (path : Path) : Except Fault String := do
  let content ← disk.read path
  match String.fromUTF8? content with
  | some text => .ok text
  | none => .error .notText

/-! ### Changing the tree -/

/-- The tree without what stands at a place and below it. -/
def removeAt (disk : Disk) (place : Place) : Disk :=
  { disk with nodes := disk.nodes.filter fun entry => !place.isPrefixOf entry.1 }

/-- The tree with another node at a place, and nothing below it. -/
def putAt (disk : Disk) (place : Place) (node : Node) : Disk :=
  let disk := disk.removeAt place
  { disk with nodes := disk.nodes ++ [(place, node)] }

/-- Goes down some names from a place, and makes directories where nothing is. The names of the way
are followed as links if they are links. -/
def descend (disk : Disk) (place : Place) : List String → Disk × Place
  | [] => (disk, place)
  | segment :: rest =>
    match disk.follow 40 place [segment] with
    | .ok next => descend disk next rest
    | .error _ => descend (disk.putAt (place ++ [segment]) .directory) (place ++ [segment]) rest

/-- The place where a path would put something, with the directories on the way made. -/
def prepare (disk : Disk) (path : Path) : Disk × Place :=
  let names := path.segments.filter fun segment => segment ≠ "" ∧ segment ≠ "."
  let (disk, place) := disk.descend (disk.startOf path) names.dropLast
  (disk, place ++ names.getLast?.toList)

/-- Puts a node where a path leads, in place of whatever is there; but a directory that is there
stays with all that is below it if it is to be a directory again. -/
def put (disk : Disk) (path : Path) (node : Node) : Disk :=
  let (disk, place) := disk.prepare path
  if node.isDirectory && (disk.node? place).any Node.isDirectory then disk
  else disk.putAt place node

/-- Removes what a path leads to, with all that is below it; a link is removed itself. -/
def remove (disk : Disk) (path : Path) : Disk :=
  let (_, place) := disk.prepare path
  disk.removeAt place

/-- An empty tree but for the directory where relative paths start. -/
def emptyAt (workplace : Place) : Disk :=
  let disk : Disk := { workplace }
  { disk with nodes := ((List.range workplace.length).map fun n =>
      (workplace.take (n + 1), Node.directory)) }

end Disk

end TypeLineage.Files
