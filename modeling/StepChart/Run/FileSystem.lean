import StepChart.Run.Plan

/-!
# Runs on a file system

A file system as a value: directories and files under one root, with a working directory. `run`
carries out a request on it and answers with the file system afterwards and what was written to the
console.
-/

namespace StepChart

/-- What stands at a place of a file system. -/
inductive Entry where
  | file (bytes : ByteArray)
  | directory
deriving Inhabited

/-- Directories and files; a place is the list of names on the way from the root. -/
structure FileSystem where
  /-- The place of the working directory. -/
  working : List String := []
  entries : List (List String × Entry) := []
deriving Inhabited

namespace FileSystem

/-- What stands at a place. The root is always there. -/
def entry? (files : FileSystem) (place : List String) : Option Entry :=
  if place.isEmpty then some .directory else files.entries.lookup place

/-- A directory stands at the place. -/
def isDirectory (files : FileSystem) (place : List String) : Bool :=
  match files.entry? place with
  | some .directory => true
  | _ => false

/-- The length of the longest name, in bytes. -/
def longestName : Nat := 255

/-- The length of the longest path, in bytes. -/
def longestPath : Nat := 4095

/-- The place that some parts of a path lead to from another place. All but the last have to be
directories. -/
def placeFrom? (files : FileSystem) (place : List String) : List String → Option (List String)
  | [] => some place
  | part :: rest =>
    if !files.isDirectory place then none
    else if part.isEmpty || part == "." then placeFrom? files place rest
    else if part == ".." then placeFrom? files place.dropLast rest
    else if longestName < part.utf8ByteSize then none
    else placeFrom? files (place ++ [part]) rest

/-- The place that a path leads to. -/
def place? (files : FileSystem) (path : String) : Option (List String) :=
  if path.isEmpty || decide (longestPath < path.utf8ByteSize) || path.toList.contains '\x00' then none
  else files.placeFrom? (if Path.isAbsolute path then [] else files.working) (Path.parts path)

/-- The text of a readable file; the bytes of a file that is not text are not readable. -/
def read? (files : FileSystem) (path : String) : Option String :=
  match (files.place? path).bind files.entry? with
  | some (.file bytes) => String.fromUTF8? bytes
  | _ => none

/-- Puts an entry at a place, instead of any entry before. -/
def put (files : FileSystem) (place : List String) (entry : Entry) : FileSystem :=
  { files with entries := (place, entry) :: files.entries.filter (·.1 != place) }

/-- Writes a file. The directory it is in has to be there, and no directory in its place. -/
def write? (files : FileSystem) (path content : String) : Option FileSystem :=
  (files.place? path).bind fun place =>
    if files.isDirectory place then none else some (files.put place (.file content.toUTF8))

/-- Puts a directory at a place, and the directories on the way to it. -/
def makeDirectories (files : FileSystem) (place : List String) : FileSystem :=
  (List.range place.length).foldl (fun files count =>
    let inner := place.take (count + 1)
    if files.isDirectory inner then files else files.put inner .directory) files

/-- Puts a file at a place, and the directories on the way to it. -/
def putFile (files : FileSystem) (place : List String) (bytes : ByteArray) : FileSystem :=
  (files.makeDirectories place.dropLast).put place (.file bytes)

/-- What a run sees of a file system. -/
def surroundings (files : FileSystem) : Surroundings where
  read := files.read?
  directory := some ("/" ++ "/".intercalate files.working)

/-- The files that are new or have new content. -/
def changedSince (files before : FileSystem) : List (List String × ByteArray) :=
  files.entries.filterMap fun (place, entry) =>
    match entry, before.entry? place with
    | .file bytes, some (.file old) => if bytes == old then none else some (place, bytes)
    | .file bytes, _ => some (place, bytes)
    | .directory, _ => none

end FileSystem

/-- How a run ended, and what it left behind. -/
structure Outcome where
  result : Except RunError Unit
  console : Transcript
  files : FileSystem
deriving Inhabited

/-- Writes diagrams one after the other, up to the first that cannot be written. -/
def deliver : List Diagram → (console : Transcript) → FileSystem → Outcome
  | [], console, files => ⟨.ok (), console, files⟩
  | diagram :: rest, console, files =>
    match diagram.path with
    | none => deliver rest (console.write diagram.content) files
    | some path =>
      match files.write? path diagram.content with
      | none => ⟨.error (.unwritableDiagram path), console, files⟩
      | some files => deliver rest console files

/-- Carries out a request on source files that a front end can read. -/
def Request.run (request : Request) (frontend : Frontend) (files : FileSystem) : Outcome :=
  match request.plan frontend files.surroundings with
  | .error error => ⟨.error error, {}, files⟩
  | .ok diagrams => deliver diagrams {} files

end StepChart
