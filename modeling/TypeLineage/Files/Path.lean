import TypeLineage.Text.Split

/-!
# Paths

A path keeps the spelling it was given, and is compared by its components. Doubled slashes, a slash
at the end and a dot between other components are spelling only; a dot at the start of a relative
path and a double dot are components of their own.

To a system a path is a sequence of bytes. Here it is a text: paths whose bytes are not those of a
text in UTF-8 are left out.
-/

namespace TypeLineage.Files

/-- A path as written. -/
structure Path where
  /-- The spelling. -/
  text : String
  deriving DecidableEq, Repr, Inhabited

/-- A component of a path. -/
inductive Component where
  /-- The top of the file tree, where an absolute path starts. -/
  | top
  /-- A dot at the start of a relative path. -/
  | here
  /-- A double dot. -/
  | up
  /-- A name in a directory. -/
  | name (text : String)
  deriving DecidableEq, Repr

namespace Component

/-- Components are ordered by kind, names among themselves by code point. -/
def rank : Component → Nat × String
  | .top => (0, "")
  | .here => (1, "")
  | .up => (2, "")
  | .name text => (3, text)

/-- Whether a component comes before another. -/
def before (a b : Component) : Bool :=
  a.rank.1 < b.rank.1 || (a.rank.1 == b.rank.1 && a.rank.2 < b.rank.2)

end Component

namespace Path

/-- The texts between the slashes of a path. -/
def segments (path : Path) : List String :=
  (Text.splitOn '/' path.text.toList).map String.ofList

/-- Whether a path starts at the top of the file tree. -/
def isAbsolute (path : Path) : Bool :=
  path.text.toList.head? == some '/'

/-- The component that a text between slashes stands for, other than at the start. -/
def component? (segment : String) : Option Component :=
  if segment = "" ∨ segment = "." then none
  else if segment = ".." then some .up
  else some (.name segment)

/-- The components of a path. -/
def components (path : Path) : List Component :=
  if path.isAbsolute then .top :: path.segments.filterMap component?
  else if path.segments.head? = some "." then .here :: path.segments.tail.filterMap component?
  else path.segments.filterMap component?

/-- Whether one list of components comes before another: by the first that differs, and a list
before those that go on. -/
def componentsBefore : List Component → List Component → Bool
  | [], [] => false
  | [], _ :: _ => true
  | _ :: _, [] => false
  | a :: as, b :: bs => if a = b then componentsBefore as bs else a.before b

/-- Whether a path comes before another, by their components. -/
def before (a b : Path) : Bool :=
  componentsBefore a.components b.components

/-- Paths in ascending order; paths with the same components stay as they are. -/
def sort (paths : List Path) : List Path :=
  paths.mergeSort fun a b => !b.before a

/-- A path below another. An absolute path stays as it is, and a slash is put in where none is. -/
def join (base below : Path) : Path :=
  if below.isAbsolute || base.text.isEmpty then below
  else if base.text.toList.getLast? == some '/' then ⟨base.text ++ below.text⟩
  else ⟨base.text ++ "/" ++ below.text⟩

/-- The name of what a path leads to, if its last component is a name. -/
def fileName? (path : Path) : Option String :=
  match path.components.getLast? with
  | some (.name text) => some text
  | _ => none

end Path

end TypeLineage.Files
