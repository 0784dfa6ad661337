import TypeLineage.CommandLine.Program

/-!
# The command line program

Everything that touches the system: the words and the environment are fetched, the part of the file
tree that an invocation can look at is read into a value, and what comes out is printed.
-/

namespace TypeLineage.CommandLine

open Files

/-- Whether the content of a file met in a directory can matter. -/
def canMatter (name : String) : Bool :=
  name.endsWith ".java" || isSourceJarName name.toUTF8 || name == ".ignore"

/-- The absolute path of a place. -/
def pathOf (place : Place) : String :=
  "/" ++ String.intercalate "/" place

/-- The place of an absolute path without links. -/
def placeOf (path : String) : Place :=
  (Files.Path.mk path).segments.filter fun segment => segment ≠ ""

/-- What has been read of the file tree. -/
structure Loaded where
  /-- The part of the tree. -/
  disk : Disk
  /-- The directories that have been read as a whole. -/
  listed : List Place := []

/-- What stands at a place; the content of a file is read if it is wanted. -/
def readNode? (place : Place) (isWanted : Bool) : IO (Option Node) := do
  let path := (← IO.currentDir) / pathOf place
  try
    match (← path.symlinkMetadata).type with
    | .dir => return some .directory
    | .symlink => return some (.link ⟨toString (← IO.FS.realPath path)⟩)
    | .file => return some (.file (← if isWanted then IO.FS.readBinFile path else pure .empty))
    | .other => return none
  catch _ => return none

/-- Reads what stands at a place. What is known stays, but a file is read again if its content is
wanted. -/
def loadNode (loaded : Loaded) (place : Place) (isWanted : Bool) : IO (Loaded × Option Node) := do
  let known? := loaded.disk.node? place
  let isFile := known?.any fun node => node matches .file _
  if known?.isSome && !(isFile && isWanted) then return (loaded, known?)
  else
    match ← readNode? place isWanted with
    | none => return (loaded, none)
    | some node => return ({ loaded with disk := loaded.disk.putAt place node }, some node)

/-- Reads all that stands on a way; the place where it ends. -/
partial def loadWay (loaded : Loaded) (place : Place) : List String → IO (Loaded × Option Place)
  | [] => return (loaded, some place)
  | segment :: rest => do
    if segment = "" ∨ segment = "." then loadWay loaded place rest
    else if segment = ".." then loadWay loaded place.dropLast rest
    else
      let here := place ++ [segment]
      let (loaded, node?) ← loadNode loaded here rest.isEmpty
      match node? with
      | none => return (loaded, none)
      | some (.link target) => loadWay loaded [] (target.segments ++ rest)
      | some _ => loadWay loaded here rest

mutual

/-- Reads all that is below a directory, through links too. -/
partial def loadBelow (loaded : Loaded) (place : Place) : IO Loaded := do
  if place ∈ loaded.listed then return loaded
  let path := (← IO.currentDir) / pathOf place
  let entries ← try path.readDir catch _ => pure #[]
  entries.foldlM (fun loaded entry => loadEntry loaded (place ++ [entry.fileName]))
    { loaded with listed := place :: loaded.listed }

/-- Reads an entry of a directory and all that is below it. -/
partial def loadEntry (loaded : Loaded) (place : Place) : IO Loaded := do
  let (loaded, node?) ← loadNode loaded place (canMatter (place.getLast?.getD ""))
  match node? with
  | some .directory => loadBelow loaded place
  | some (.link target) => loadTree loaded target
  | _ => return loaded

/-- Reads what a path leads to and all that is below it. -/
partial def loadTree (loaded : Loaded) (path : Files.Path) : IO Loaded := do
  let (loaded, place?) ← loadWay loaded (loaded.disk.startOf path) path.segments
  match place? with
  | none => return loaded
  | some place =>
    match loaded.disk.node? place with
    | some .directory => loadBelow loaded place
    | _ => return loaded

end

/-- Reads the rules of the directories above a path. -/
def loadRules (loaded : Loaded) (path : Files.Path) : IO Loaded := do
  let (loaded, place?) ← loadWay loaded (loaded.disk.startOf path) path.segments
  match place? with
  | none => return loaded
  | some place =>
    (List.range place.length).foldlM
      (fun loaded depth => return (← loadWay loaded (place.take depth) [".ignore"]).1) loaded

/-- The part of the file tree that an invocation can look at. -/
def loadDisk (invocation : Invocation) (home : Option String) : IO Disk := do
  let workplace := placeOf (toString (← IO.FS.realPath (← IO.currentDir)))
  let loaded : Loaded := { disk := Disk.emptyAt workplace }
  let loaded ←
    if invocation.repositorySources then
      match repositoryOf invocation home with
      | .error _ => pure loaded
      | .ok repository => loadTree (← loadRules loaded repository) repository
    else pure loaded
  let loaded ← invocation.sources.foldlM loadTree loaded
  match invocation.command with
  | .ask _ => return loaded.disk
  | .batch file =>
    return (← loadWay loaded (loaded.disk.startOf file) file.segments).1.disk

/-- Reads all that is left of a stream. -/
partial def readAll (stream : IO.FS.Stream) (read : ByteArray) : IO ByteArray := do
  let more ← stream.read 65536
  if more.isEmpty then return read else readAll stream (read ++ more)

/-- What the program finds when it is started with some words. -/
def findSetting (words : List String) : IO Setting := do
  let home ← IO.getEnv "HOME"
  let setting : Setting := { words, switch := (← IO.getEnv switchName), home }
  match parse words with
  | .error _ => return setting
  | .ok invocation =>
    let disk ← loadDisk invocation home
    match invocation.command with
    | .ask _ => return { setting with disk }
    | .batch file =>
      if file.text = inputName then
        return { setting with disk, input := (← readAll (← IO.getStdin) .empty) }
      else return { setting with disk }

end TypeLineage.CommandLine

open TypeLineage.CommandLine in
/-- Runs the program. -/
def main (words : List String) : IO UInt32 := do
  let setting ← findSetting words
  let start ← IO.monoMsNow
  -- A run without an outcome never comes to an end, so there is nothing to say of it.
  let some outcome ← IO.lazyPure fun _ => run setting | return 1
  let result := outcome.result ((← IO.monoMsNow) - start)
  for line in result.log do IO.eprintln line
  IO.eprint result.errors
  IO.print result.output
  return UInt32.ofNat result.code
