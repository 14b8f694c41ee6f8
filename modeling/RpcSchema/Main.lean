import RpcSchema.Cli.Arguments

set_option autoImplicit false

/-!
# The program

Commands are run on the files of the machine.
-/

namespace RpcSchema

/-- The reason for which an operation on the files of the machine fails. -/
def OsError.ofMachine : IO.Error → OsError
  | .noFileOrDirectory _ _ _ => .notFound
  | .alreadyExists _ _ _ => .alreadyThere
  | .inappropriateType _ 21 _ => .isDirectory
  | .inappropriateType _ _ _ => .notDirectory
  | error => .other (toString error)

/-- The outcome of an operation on the files of the machine. -/
def outcome {α : Type} (action : IO α) : IO (Except OsError α) := do
  try return .ok (← action) catch error => return .error (.ofMachine error)

/-- **The operations on the files of the machine.** -/
def machine : Host IO where
  isThere path := do
    match ← outcome (IO.FS.Handle.mk path .read) with
    | .error .notFound => return false
    | .error .notDirectory => return false
    | _ => return true
  read path := outcome (IO.FS.readFile path)
  write path contents := outcome (IO.FS.writeFile path contents)
  createDirectories path := outcome (IO.FS.createDirAll path)
  say line := IO.println line
  complain line := IO.eprintln line

end RpcSchema

/-- **Runs the command line.** -/
def main (arguments : List String) : IO UInt32 := do
  return UInt32.ofNat (← RpcSchema.machine.runArguments arguments)
