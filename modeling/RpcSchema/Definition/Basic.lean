import RpcSchema.Procedure.Tree
import RpcSchema.Schema.Wire

set_option autoImplicit false

/-!
# Definitions

A definition is what a client is generated from: procedures by key, models by name, and the schema
of the errors that any procedure may answer with.

## Main definitions

* `RpcSchema.Definition` — a definition.
* `RpcSchema.Definition.ofJson`, `RpcSchema.Definition.ofText` — reading.
* `RpcSchema.Definition.toJson`, `RpcSchema.Definition.text` — writing.
-/

namespace RpcSchema

/-- What is said about an application. -/
structure Info where
  title : Option String := none
  description : Option String := none
  version : Option String := none
deriving DecidableEq

/-- **A definition**: procedures by key, models by name, and the schema of errors. -/
structure Definition where
  schemaVersion : String
  info : Option Info
  procedures : Entries Procedure
  models : Models
  errors : Schema

namespace Definition

/-- The version of the format that new definitions have. -/
def currentVersion : String := "0.0.4"

/-- A definition with nothing but a schema of errors. -/
def ofErrors (errors : Schema) : Definition :=
  { schemaVersion := currentVersion, info := none, procedures := [], models := [], errors }

/-- Adds a procedure. -/
def withProcedure (definition : Definition) (key : String) (procedure : Procedure) : Definition :=
  { definition with procedures := Entries.insert definition.procedures key procedure }

/-- Adds a model. -/
def withModel (definition : Definition) (name : String) (schema : Schema) : Definition :=
  { definition with models := Entries.insert definition.models name schema }

/-! ## Reading -/

/-- Takes in one field of what is said about an application. -/
def readInfoField (info : Info) (name : String) (value : Json) : Except ReadError Info :=
  match name with
  | "title" => (Read.optional Read.text value).map fun v => { info with title := v }
  | "description" => (Read.optional Read.text value).map fun v => { info with description := v }
  | "version" => (Read.optional Read.text value).map fun v => { info with version := v }
  | _ => .ok info

/-- Takes in what is said about an application. -/
def readInfo (value : Json) : Except ReadError Info := Record.info.read readInfoField {} value

/-- **The document of a definition** as it is written. -/
structure Draft where
  schemaVersion : Option String := none
  info : Option Info := none
  procedures : Entries Procedure := []
  models : Entries Keywords := []
  errors : Option Keywords := none

/-- Takes in one field of a definition. -/
def Draft.readField (draft : Draft) (name : String) (value : Json) : Except ReadError Draft :=
  match name with
  | "arriSchemaVersion" => (Read.text value).map fun v => { draft with schemaVersion := some v }
  | "info" => (Read.optional readInfo value).map fun v => { draft with info := v }
  | "procedures" => (Read.map Procedure.ofJson value).map fun v => { draft with procedures := v }
  | "models" => (Read.map Keywords.read value).map fun v => { draft with models := v }
  | "errors" => (Keywords.read value).map fun v => { draft with errors := some v }
  | _ => .ok draft

/-- The models of a document. -/
def readModels : Entries Keywords → Except SchemaError Models
  | [] => .ok []
  | (name, keywords) :: rest => do
    let schema ← (keywords.toSchema []).mapError (·.within [.key "models", .key name])
    return (name, schema) :: (← readModels rest)

/-- The definition, once the fields that have to be there are. -/
def Draft.finish (draft : Draft) : Except SchemaError Definition := do
  match draft.schemaVersion, draft.errors with
  | some schemaVersion, some errors => do
    let models ← readModels draft.models
    let errors ← (errors.toSchema []).mapError (·.within [.key "errors"])
    return { schemaVersion, info := draft.info, procedures := draft.procedures, models, errors }
  | none, _ =>
    .error (.ofReadError { fault := .missingField "arriSchemaVersion" })
  | _, none => .error (.ofReadError { fault := .missingField "errors" })

/-- **Reads a definition** from a JSON value. -/
def ofJson (value : Json) : Except SchemaError Definition :=
  match Record.definition.read Draft.readField {} value with
  | .error error => .error (.ofReadError error)
  | .ok draft => draft.finish

/-- **Reads a definition** from a text. -/
def ofText (text : String) : Except SchemaError Definition :=
  match Record.definition.ofText text with
  | .error error => .error (.ofReadError error)
  | .ok document => ofJson document

/-! ## Writing -/

/-- The document of what is said about an application. -/
def infoJson (info : Info) : Json :=
  .object <|
    Procedure.textEntry "title" info.title ++
    Procedure.textEntry "description" info.description ++
    Procedure.textEntry "version" info.version

/-- **The document of a definition.** -/
def toJson (definition : Definition) : Json :=
  .object <|
    [("arriSchemaVersion", .string definition.schemaVersion)] ++
    (definition.info.map fun info => ("info", infoJson info)).toList ++
    [("procedures", .object (Entries.mapValues Procedure.toJson definition.procedures)),
      ("models", .object (Schema.childEntries definition.models)),
      ("errors", definition.errors.toJson)]

/-- The document of a definition as indented text. -/
def text (definition : Definition) : String := definition.toJson.pretty

/-- Whether two definitions are the same. -/
def same (left right : Definition) : Bool :=
  left.schemaVersion == right.schemaVersion && left.info == right.info &&
    left.procedures == right.procedures && Schema.sameChildren left.models right.models &&
    left.errors.same right.errors

end Definition

end RpcSchema
