import RpcSchema.Cli.Config
import RpcSchema.Cli.Host

set_option autoImplicit false

/-!
# Loading definitions and configurations

## Main definitions

* `RpcSchema.LoadError` — why a definition cannot be loaded.
* `RpcSchema.Host.loadDefinition` — reads and checks a definition.
* `RpcSchema.Host.loadConfig` — reads a configuration; without a file, it has its defaults.
-/

namespace RpcSchema

/-- **Why a definition cannot be loaded.** -/
inductive LoadError
  | notFound (path : String)
  | file (path : String) (error : OsError)
  /-- The text of the file describes no definition. -/
  | parse (path : String) (error : SchemaError)
  /-- The definition does not pass its check. -/
  | invalid (path : String) (error : DefinitionError)
deriving DecidableEq

/-- What an error is called. -/
def LoadError.message : LoadError → String
  | .notFound path => "Definition file not found: " ++ path
  | .file path error => "Failed to read " ++ path ++ ": " ++ error.message
  | .parse path error => "Invalid definition in " ++ path ++ ": " ++ error.message
  | .invalid path error => "Invalid definition in " ++ path ++ ": " ++ error.message

/-- The definition that the text of the file at a path describes, if it passes its check. -/
def Definition.ofFileText (path text : String) : Except LoadError Definition := do
  let definition ← (Definition.ofText text).mapError (.parse path)
  definition.check.mapError (.invalid path)
  return definition

namespace Host

variable {m : Type → Type} [Monad m]

/-- **Reads and checks the definition** at a path. -/
def loadDefinition (host : Host m) (path : String) : ExceptT LoadError m Definition := do
  if ← host.isThere path then
    match ← host.read path with
    | .ok text => ExceptT.mk (pure (Definition.ofFileText path text))
    | .error error => throw (.file path error)
  else throw (.notFound path)

/-- **Reads the configuration** at a path, or at the usual place. Without a file there it is the
default. -/
def loadConfig (host : Host m) (path : Option String) : ExceptT ConfigError m Config := do
  let path := path.getD Config.fileName
  if ← host.isThere path then
    match ← host.read path with
    | .ok text => ExceptT.mk (pure (Config.parse path text))
    | .error error => throw (.file path error)
  else return {}

end Host

end RpcSchema
