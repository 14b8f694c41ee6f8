import RpcSchema.Files.Error
import RpcSchema.Files.Location

set_option autoImplicit false

/-!
# File systems

A file system is a map from places to files and directories; a place is the list of the segments
that lead to it from the root. The operations have the outcomes that programs meet on the usual
systems.

## Main definitions

* `RpcSchema.FileSystem` — files and directories, and the directory that relative paths start from.
* `RpcSchema.FileSystem.resolve` — the place a path leads to.
* `RpcSchema.FileSystem.read`, `RpcSchema.FileSystem.write`,
  `RpcSchema.FileSystem.createDirectories` — the operations.
* `RpcSchema.FileSystem.changes` — the files that differ between two states.
-/

namespace RpcSchema

/-- A place, as the segments that lead to it from the root. -/
abbrev Place : Type := List String

/-- What is at a place. -/
inductive FileNode
  | file (contents : String)
  | directory
deriving DecidableEq

/-- **A file system**: what is at every place, and the place that relative paths start from. -/
structure FileSystem where
  nodes : List (Place × FileNode)
  workingDirectory : Place

namespace FileSystem

/-- A file system with nothing but an empty directory to work in. -/
def empty : FileSystem := ⟨[(["work"], .directory)], ["work"]⟩

/-- What is at a place. The root is always there. -/
def node? (files : FileSystem) (place : Place) : Option FileNode :=
  if place = [] then some .directory else files.nodes.lookup place

/-- Sets what is at a place of a list. -/
def putNode (place : Place) (node : FileNode) :
    List (Place × FileNode) → List (Place × FileNode)
  | [] => [(place, node)]
  | (other, old) :: rest =>
    if other = place then (place, node) :: rest else (other, old) :: putNode place node rest

/-- Sets what is at a place. -/
def put (files : FileSystem) (place : Place) (node : FileNode) : FileSystem :=
  { files with nodes := putNode place node files.nodes }

/-! ## Paths -/

/-- The place a path starts from. -/
def start (files : FileSystem) (path : String) : Place :=
  if Location.isAbsolute path then [] else files.workingDirectory

/-- Goes one segment on from a place, which has to be a directory. -/
def step (files : FileSystem) (here : Place) (segment : String) : Except OsError Place :=
  match files.node? here with
  | none => .error .notFound
  | some (.file _) => .error .notDirectory
  | some .directory =>
    .ok (if segment = ".." then here.dropLast
      else if Location.isStep segment then here ++ [segment] else here)

/-- **The place a path leads to**, where there may be nothing. -/
def resolve (files : FileSystem) (path : String) : Except OsError Place :=
  if path = "" then .error .notFound
  else (Text.split '/' path).foldlM files.step (files.start path)

/-- What a path leads to. -/
def find (files : FileSystem) (path : String) : Except OsError FileNode := do
  match files.node? (← files.resolve path) with
  | some node => .ok node
  | none => .error .notFound

/-- Whether a path leads to anything. -/
def isThere (files : FileSystem) (path : String) : Bool := (files.find path).toOption.isSome

/-- Whether a path leads to a directory. -/
def isDirectory (files : FileSystem) (path : String) : Bool :=
  (files.find path).toOption = some .directory

/-! ## Operations -/

/-- **Reads a file.** -/
def read (files : FileSystem) (path : String) : Except OsError String := do
  match ← files.find path with
  | .file contents => .ok contents
  | .directory => .error .isDirectory

/-- The place of the directory that the last segment of a path is in, and that segment. -/
def lastStep (files : FileSystem) (segments : List String) (path : String) :
    Except OsError (Place × String) := do
  let here ← segments.dropLast.foldlM files.step (files.start path)
  let _ ← files.step here "."
  return (here, segments.getLast?.getD "")

/-- **Writes a file** with the given contents. -/
def write (files : FileSystem) (path contents : String) : Except OsError FileSystem := do
  if path = "" then throw .notFound
  let (here, segment) ← files.lastStep (Text.split '/' path) path
  if segment = ".." || !Location.isStep segment then throw .isDirectory
  let place := here ++ [segment]
  match files.node? place with
  | some .directory => throw .isDirectory
  | _ => return files.put place (.file contents)

/-- The segments of a path without empty ones at the end. -/
def trimmedSegments (path : String) : List String :=
  ((Text.split '/' path).reverse.dropWhile (· = "")).reverse

/-- Creates a directory inside one that is there. -/
def createDirectory (files : FileSystem) (path : String) : Except OsError FileSystem := do
  if path = "" then throw .notFound
  let (here, segment) ← files.lastStep (trimmedSegments path) path
  if segment = ".." || !Location.isStep segment then throw .alreadyThere
  let place := here ++ [segment]
  if (files.node? place).isSome then throw .alreadyThere
  return files.put place .directory

/-- Creates a directory and those around it, which are as many as the path has segments at most.
What has been created before an error stays. -/
def createAround : Nat → String → FileSystem → Except OsError Unit × FileSystem
  | 0, _, files => (.ok (), files)
  | steps + 1, path, files =>
    if path = "" then (.ok (), files)
    else
      match files.createDirectory path with
      | .ok files => (.ok (), files)
      | .error .notFound =>
        match Location.parent? path with
        | none => (.error .notFound, files)
        | some outer =>
          match createAround steps outer files with
          | (.error error, files) => (.error error, files)
          | (.ok (), files) =>
            match files.createDirectory path with
            | .ok files => (.ok (), files)
            | .error error => (if files.isDirectory path then .ok () else .error error, files)
      | .error error => (if files.isDirectory path then .ok () else .error error, files)

/-- **Creates a directory** and those around it, as far as they are not there. -/
def createDirectories (files : FileSystem) (path : String) : Except OsError Unit × FileSystem :=
  createAround ((Text.split '/' path).length + 1) path files

/-! ## Comparison -/

/-- The path from the directory that relative paths start from to a place inside it. -/
def relative? (files : FileSystem) (place : Place) : Option String :=
  if files.workingDirectory.isPrefixOf place then
    some ("/".intercalate (place.drop files.workingDirectory.length))
  else none

/-- The files below the directory that relative paths start from, with their contents. -/
def listing (files : FileSystem) : List (String × String) :=
  files.nodes.filterMap fun (place, node) =>
    match node, files.relative? place with
    | .file contents, some path => some (path, contents)
    | _, _ => none

/-- **The files that differ** from an earlier state or are new, in the order of their paths. -/
def changes (before after : FileSystem) : List (String × String) :=
  (after.listing.filter fun file => before.listing.lookup file.1 ≠ some file.2).mergeSort
    fun a b => a.1 ≤ b.1

end FileSystem

end RpcSchema
