set_option autoImplicit false

/-!
# The formats of documents

What a document may hold at each place: texts, flags, names from a fixed list, lists, maps and
records. A record is written as an object of its fields, or as an array of them in the order of
declaration.

## Main definitions

* `RpcSchema.Format` — what a document may hold at one place.
* `RpcSchema.Record` — the records of the documents.
* `RpcSchema.Record.fields` — the fields of a record, in order.
-/

namespace RpcSchema

/-- The records that documents are made of. -/
inductive Record
  | schema
  | metadata
  | procedure
  | info
  | definition
  | options
  | generator
deriving DecidableEq

/-- **What a document may hold at one place.** -/
inductive Format
  | text
  | flag
  /-- One of a fixed list of names. -/
  | choice (names : List String)
  /-- `null` stands for nothing. -/
  | optional (format : Format)
  | list (format : Format)
  | map (format : Format)
  | record (record : Record)
deriving DecidableEq

/-- A field of a record: its name, another name that is understood as well, what it holds, and
whether it has to be there. -/
structure Field where
  name : String
  alternative : Option String := none
  format : Format
  required : Bool := false
deriving DecidableEq

namespace Record

/-- The name of a record in messages. -/
def title : Record → String
  | .schema => "struct RawSchema"
  | .metadata => "struct Metadata"
  | .procedure => "struct RpcDefinition"
  | .info => "struct AppInfo"
  | .definition => "struct RawAppDefinition"
  | .options => "struct GeneratorOptions"
  | .generator => "struct GeneratorEntry"

/-- The names of the methods of a procedure. -/
def methodNames : List String := ["get", "post", "put", "patch", "delete", "head"]

/-- The names of the transports of a procedure. -/
def transportNames : List String := ["http", "ws"]

/-- The names of the kinds of generators. -/
def generatorNames : List String := ["typescript"]

/-- **The fields of a record**, in order of declaration. -/
def fields : Record → List Field
  | .schema =>
    [ { name := "type", format := .optional .text },
      { name := "enum", format := .optional (.list .text) },
      { name := "elements", format := .optional (.record .schema) },
      { name := "values", format := .optional (.record .schema) },
      { name := "properties", format := .optional (.map (.record .schema)) },
      { name := "optionalProperties", format := .optional (.map (.record .schema)) },
      { name := "additionalProperties", format := .optional .flag },
      { name := "discriminator", format := .optional .text },
      { name := "mapping", format := .optional (.map (.record .schema)) },
      { name := "ref", format := .optional .text },
      { name := "nullable", format := .flag },
      { name := "metadata", format := .record .metadata } ]
  | .metadata =>
    [ { name := "id", format := .optional .text },
      { name := "description", format := .optional .text },
      { name := "isDeprecated", alternative := some "deprecated", format := .flag } ]
  | .procedure =>
    [ { name := "path", format := .text, required := true },
      { name := "method", format := .choice methodNames, required := true },
      { name := "params", format := .optional .text },
      { name := "response", format := .optional .text },
      { name := "transport", format := .choice transportNames },
      { name := "isEventStream", format := .flag },
      { name := "description", format := .optional .text } ]
  | .info =>
    [ { name := "title", format := .optional .text },
      { name := "description", format := .optional .text },
      { name := "version", format := .optional .text } ]
  | .definition =>
    [ { name := "arriSchemaVersion", format := .text, required := true },
      { name := "info", format := .optional (.record .info) },
      { name := "procedures", format := .map (.record .procedure) },
      { name := "models", format := .map (.record .schema) },
      { name := "errors", format := .record .schema, required := true } ]
  | .options =>
    [ { name := "clientName", format := .text, required := true },
      { name := "outputFile", format := .text, required := true } ]
  | .generator =>
    [ { name := "kind", format := .choice generatorNames },
      { name := "client_name", format := .text },
      { name := "output_file", format := .text },
      { name := "type_prefix", format := .text },
      { name := "generate_docs", format := .flag },
      { name := "strict_names", format := .flag } ]

/-- The field that a key of an object names. -/
def field? (record : Record) (key : String) : Option Field :=
  record.fields.find? fun field => field.name == key || field.alternative == some key

/-- How the length of an array that stands for a record is described. -/
def lengthText (record : Record) : String :=
  record.title ++ " with " ++ toString record.fields.length ++ " elements"

end Record

end RpcSchema
