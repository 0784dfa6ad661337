import TypeLineage.Files.Ignore

/-!
# Source archives below a directory

Build tools keep the sources of a library in archives whose names end in `-sources.jar`. Here all of
them below a directory are found, hidden ones included, without following symbolic links, in the
order of their paths. What a walk reports is judged by its name only, and a name that is no text is
passed over; since paths are texts here, no such name is met in a tree.
-/

namespace TypeLineage.Files

/-- Whether bytes are the name of a source archive. A name that is no text is none, whatever its
bytes end in. -/
def isSourceJarName (name : ByteArray) : Bool :=
  match String.fromUTF8? name with
  | none => false
  | some text => text.endsWith "-sources.jar"

/-- Whether the name at the end of a path is that of a source archive. -/
def isSourceJar (path : Path) : Bool :=
  path.fileName?.any fun name => isSourceJarName name.toUTF8

namespace Disk

/-- The names on the way from a directory down to the nodes below it, with these nodes. -/
def below (disk : Disk) (place : Place) : List (List String × Node) :=
  disk.nodes.filterMap fun (other, node) =>
    if place.isPrefixOf other ∧ other ≠ place then some (other.drop place.length, node) else none

/-- Whether an entry below a directory is visited: the way to it leads through directories, no link
among them, and nothing on it is passed over. -/
def visited (disk : Disk) (place : Place) (names : List String) (node : Node) : Bool :=
  (List.range (names.length - 1)).all (fun n =>
    let way := names.take (n + 1)
    ((disk.node? (place ++ way)).map Node.isDirectory).getD false &&
      !disk.passedOver place way true) &&
    !disk.passedOver place names node.isDirectory

/-- The path of an entry, given by the names below a base. -/
def pathBelow (base : Path) (names : List String) : Path :=
  names.foldl (fun path name => path.join ⟨name⟩) base

/-- Whether a base stands for the standard input. A directory of that name is not walked. -/
def standsForInput (base : Path) : Bool :=
  base.components == [.name "-"]

/-- What is reported in place of the entries where the base stands for the standard input. -/
def inputEntry : Path := ⟨"<stdin>"⟩

/-- The paths of the entries visited from a base, the base first. -/
def entries (disk : Disk) (base : Path) : List Path :=
  if standsForInput base then [inputEntry]
  else
    match disk.resolve base with
    | .error _ => []
    | .ok place =>
      base :: (disk.below place).filterMap fun (names, node) =>
        if disk.visited place names node then some (pathBelow base names) else none

end Disk

/-- The source archives among reported paths, in the order of their paths. -/
def sourceJarsAmong (reported : List Path) : List Path :=
  Path.sort (reported.filter isSourceJar)

namespace Disk

/-- The source archives below a base in the order of their paths. -/
def sourceJars (disk : Disk) (base : Path) : List Path :=
  sourceJarsAmong (disk.entries base)

end Disk

/-- A base below which nothing can be found, since it is no directory. -/
structure NotDirectory where
  /-- The path. -/
  path : Path
  deriving DecidableEq, Repr

/-- What is said of such a base. -/
def NotDirectory.message (fault : NotDirectory) : String :=
  "Not a directory: " ++ fault.path.text

/-- The source archives below a base, which has to be a directory. -/
def Disk.findSourceJars (disk : Disk) (base : Path) : Except NotDirectory (List Path) :=
  if disk.isDirectory base then .ok (disk.sourceJars base) else .error ⟨base⟩

end TypeLineage.Files
