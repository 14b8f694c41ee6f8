import RpcSchema.Codegen.Options
import RpcSchema.Files.System

set_option autoImplicit false

/-!
# What commands ask of their surroundings

Commands read and write files and print lines. They are written against a record of these
operations, so that they can be run on the files of a machine and on a file system that is a value.

## Main definitions

* `RpcSchema.Host` — the operations.
* `RpcSchema.Session`, `RpcSchema.Session.host` — a file system as a value, with the lines printed.
* `RpcSchema.Host.place` — puts a generated file where it belongs.
-/

namespace RpcSchema

/-- **The operations that commands ask for.** -/
structure Host (m : Type → Type) where
  /-- Whether a path leads to anything. -/
  isThere : String → m Bool
  read : String → m (Except OsError String)
  /-- Writes a file: its path, and what it holds. -/
  write : String → String → m (Except OsError Unit)
  createDirectories : String → m (Except OsError Unit)
  /-- Prints a line. -/
  say : String → m Unit
  /-- Prints a line about something that went wrong. -/
  complain : String → m Unit

/-- **A file system with the lines printed** so far, each of the two streams by itself. -/
structure Session where
  files : FileSystem
  output : String := ""
  complaints : String := ""

namespace Session

/-- Writes a file. -/
def write (path contents : String) (session : Session) : Except OsError Unit × Session :=
  match session.files.write path contents with
  | .ok files => (.ok (), { session with files })
  | .error error => (.error error, session)

/-- Creates directories. -/
def createDirectories (path : String) (session : Session) : Except OsError Unit × Session :=
  let (result, files) := session.files.createDirectories path
  (result, { session with files })

/-- **The operations on a file system that is a value.** -/
def host : Host (StateM Session) where
  isThere path := do return (← get).files.isThere path
  read path := do return (← get).files.read path
  write path contents := fun session => session.write path contents
  createDirectories path := fun session => session.createDirectories path
  say line := modify fun session => { session with output := session.output ++ line ++ "\n" }
  complain line :=
    modify fun session => { session with complaints := session.complaints ++ line ++ "\n" }

end Session

namespace Host

variable {m : Type → Type} [Monad m]

/-- **Puts a generated file where it belongs**, with the directories around it. -/
def place (host : Host m) (file : GeneratedFile) : ExceptT CodegenError m Unit := do
  match Location.parent? file.path with
  | none => pure ()
  | some directory =>
    if directory ≠ "" then
      match ← host.createDirectories directory with
      | .ok () => pure ()
      | .error error => throw (.file directory error)
  match ← host.write file.path file.contents with
  | .ok () => return ()
  | .error error => throw (.file file.path error)

end Host

end RpcSchema
