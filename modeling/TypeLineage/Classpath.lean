import TypeLineage.Digest.Sha256
import TypeLineage.Files.Path

/-!
# Class paths

A project is an ordered list of roots below which the sources of types lie: directories and
archives. Two lists are one project if they have the same components, however they are spelled; the
fingerprint of a project is taken of the spelling.
-/

namespace TypeLineage

/-- An ordered list of roots. -/
structure Classpath where
  /-- The paths of the roots. -/
  roots : List Files.Path
  deriving DecidableEq, Repr, Inhabited

namespace Classpath

/-- What two class paths have to agree on to be one project. -/
def key (classpath : Classpath) : List (List Files.Component) :=
  classpath.roots.map Files.Path.components

/-- The text whose hash is the fingerprint: every root on a line of its own. -/
def listing (classpath : Classpath) : String :=
  String.join (classpath.roots.map fun root => root.text ++ "\n")

/-- A text that identifies the list of roots. -/
def fingerprint (classpath : Classpath) : String :=
  Digest.Sha256.hexHash classpath.listing.toUTF8

end Classpath

end TypeLineage
