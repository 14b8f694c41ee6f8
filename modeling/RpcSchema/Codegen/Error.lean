import RpcSchema.Definition.Check
import RpcSchema.Files.Error

set_option autoImplicit false

/-!
# Why code cannot be generated

## Main definitions

* `RpcSchema.CodegenError` — what can go wrong, and `RpcSchema.CodegenError.message` in words.
-/

namespace RpcSchema

/-- **Why code cannot be generated.** The places inside schemas are given as pointers. -/
inductive CodegenError
  /-- A reference to a model that does not exist. -/
  | unresolvedReference (place target : String)
  /-- A name that stands for another type already. -/
  | nameConflict (name place : String)
  /-- An option that a generator needs is empty. -/
  | missingOption (generator option : String)
  /-- There is nothing to generate a client for. -/
  | noProcedures (generator : String)
  /-- A schema breaks a rule. -/
  | schema (place : String) (fault : SchemaFault)
  /-- A definition does not pass its check. -/
  | definition (error : DefinitionError)
  /-- A file cannot be written. -/
  | file (path : String) (error : OsError)
deriving DecidableEq

/-- What an error is called. -/
def CodegenError.message : CodegenError → String
  | .unresolvedReference place target =>
    "Schema at '" ++ place ++ "' references unknown model '" ++ target ++ "'"
  | .nameConflict name place =>
    "Type name '" ++ name ++ "' at '" ++ place ++
      "' was already generated for a different schema"
  | .missingOption generator option =>
    "Generator '" ++ generator ++ "' is missing required option '" ++ option ++ "'"
  | .noProcedures generator =>
    "Generator '" ++ generator ++ "' found no procedures in the app definition"
  | .schema place fault => fault.message place
  | .definition error => error.message
  | .file path error => "Failed to write '" ++ path ++ "': " ++ error.message

end RpcSchema
