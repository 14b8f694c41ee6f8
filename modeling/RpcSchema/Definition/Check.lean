import RpcSchema.Definition.Basic

set_option autoImplicit false

/-!
# Checking definitions

A definition can be generated from if its models and its schema of errors are objects, every
reference finds its model, procedures take and give models that exist, and the keys of the
procedures make up a tree.

## Main definitions

* `RpcSchema.DefinitionError` — why a definition cannot be generated from.
* `RpcSchema.Definition.check` — checks a definition.
-/

namespace RpcSchema

/-- **Why a definition cannot be generated from.** -/
inductive DefinitionError
  | schema (error : SchemaError)
  | procedures (error : TreeError)
  /-- A model, or the schema of errors, has another form than that of an object. -/
  | modelNotObject (name form : String)
  /-- A procedure takes (`params`) or gives (`response`) a model that does not exist. -/
  | unknownModel (procedure role model : String)
deriving DecidableEq

/-- What an error is called. -/
def DefinitionError.message : DefinitionError → String
  | .schema error => error.message
  | .procedures error => error.message
  | .modelNotObject name form =>
    "Model '" ++ name ++ "' must be an object schema, found " ++ form
  | .unknownModel procedure role model =>
    "Procedure '" ++ procedure ++ "' " ++ role ++ " references unknown model '" ++ model ++ "'"

namespace Definition

/-- Every reference inside a schema at a place finds its model. -/
def checkReferences (models : Models) (place : Path) (schema : Schema) :
    Except DefinitionError Unit :=
  match schema.references.find? fun (_, target) => !Entries.contains models target with
  | some (path, target) => .error (.schema ⟨place ++ path, .unresolvedReference target⟩)
  | none => .ok ()

/-- A schema is an object, and its references find their models. -/
def checkModel (models : Models) (name : String) (place : Path) (schema : Schema) :
    Except DefinitionError Unit :=
  if schema.isObject then checkReferences models place schema
  else .error (.modelNotObject name schema.formName)

/-- A model that a procedure takes or gives exists. -/
def checkPayload (models : Models) (procedure role : String) (model : Option String) :
    Except DefinitionError Unit :=
  match model with
  | some model =>
    if Entries.contains models model then .ok () else .error (.unknownModel procedure role model)
  | none => .ok ()

/-- The tree of the procedures. -/
def serviceTree (definition : Definition) : Except DefinitionError Service :=
  (Service.ofProcedures definition.procedures).mapError .procedures

/-- **Checks a definition**: first the models, then the schema of errors, then what the procedures
take and give, and last their keys. -/
def check (definition : Definition) : Except DefinitionError Unit := do
  definition.models.forM fun (name, schema) =>
    checkModel definition.models name [.key "models", .key name] schema
  checkModel definition.models "errors" [.key "errors"] definition.errors
  definition.procedures.forM fun (key, procedure) => do
    checkPayload definition.models key "params" procedure.params
    checkPayload definition.models key "response" procedure.response
  let _ ← definition.serviceTree
  return ()

end Definition

end RpcSchema
