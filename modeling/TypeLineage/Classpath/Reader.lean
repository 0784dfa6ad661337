import TypeLineage.Classpath
import TypeLineage.Classpath.Resolution
import TypeLineage.Classpath.Root
import TypeLineage.Engine.State
import TypeLineage.Java.Item

/-!
# Readers of sources

A reader answers from the sources below the roots of a project. It opens them when it is first asked
and keeps them open until it is released; asked again afterwards, it opens them anew. A type that
cannot be read is unknown to it, and it tells why.
-/

namespace TypeLineage.Classpath

/-- The world that readers of sources share: the file tree and what has been told. -/
structure World where
  /-- The file tree. -/
  disk : Files.Disk
  /-- What has been told, the first notice first. -/
  notices : List Notice := []

namespace World

/-- The world after some notices. -/
def tell (world : World) (notices : List Notice) : World :=
  { world with notices := world.notices ++ notices }

end World

/-- A reader of the sources below some roots. -/
structure Reader where
  /-- The paths of the roots. -/
  paths : List Files.Path
  /-- The roots that can be used, while they are open. -/
  opened : Option (List Root) := none

/-- The fact about a type, given the opened roots; none also if no root has the type. -/
def factIn? (disk : Files.Disk) (roots : List Root) (name : TypeName) :
    Except ReadFault (Option Fact) :=
  match Root.firstText? disk roots name with
  | none => return none
  | some (.error fault) => throw fault
  | some (.ok source) =>
    match Java.Unit.ofText? source.text with
    | none => throw (.undeclared name source.origin)
    | some unit =>
      match unit.declaration? name.simple with
      | none => throw (.undeclared name source.origin)
      | some declaration =>
        return some (Resolution.fact unit (Root.anyHas disk roots) name declaration)

namespace Reader

/-- A reader that has not been asked yet. -/
def make (classpath : Classpath) : Reader :=
  { paths := classpath.roots }

/-- The opened roots, which are opened now if they are not. -/
def roots (reader : Reader) (world : World) : List Root × World :=
  match reader.opened with
  | some roots => (roots, world)
  | none =>
    let (roots, notices) := Root.openAll world.disk reader.paths
    (roots, world.tell notices)

/-- Asks for the fact about a type. -/
def read (reader : Reader) (name : TypeName) (world : World) : Option Fact × Reader × World :=
  let (roots, world) := reader.roots world
  let reader := { reader with opened := some roots }
  match factIn? world.disk roots name with
  | .ok fact => (fact, reader, world)
  | .error fault => (none, reader, world.tell [.unresolved name fault])

/-- Closes the roots if they are open. -/
def release (reader : Reader) (world : World) : Reader × World :=
  match reader.opened with
  | none => (reader, world)
  | some roots => ({ reader with opened := none }, world.tell [.closing roots.length])

end Reader

/-- The readers of sources. -/
def readers : Engine.Readers Classpath (List (List Files.Component)) Reader World where
  key := key
  create classpath world := (.make classpath, world)
  read reader name world := reader.read name world
  release reader world := reader.release world

/-- The state of an engine over readers of sources. -/
abbrev EngineState :=
  Engine.State Classpath (List (List Files.Component)) Reader World

end TypeLineage.Classpath
