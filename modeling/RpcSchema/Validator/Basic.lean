import RpcSchema.Json.Reader
import RpcSchema.Validator.Decode
import RpcSchema.Validator.Encode
import RpcSchema.Validator.Guard
import RpcSchema.Validator.Lenient
import RpcSchema.Validator.Lowering

set_option autoImplicit false

/-!
# Validators

A validator is a schema with its models, compiled once and put to all the uses that a program has
for it: decoding documents, asking whether values belong to the schema, and encoding them.

## Main definitions

* `RpcSchema.Validator` — a compiled schema.
* `RpcSchema.Validator.compile` — compiling.
* `RpcSchema.Validator.decode`, `RpcSchema.Validator.coerce`, `RpcSchema.Validator.parse`,
  `RpcSchema.Validator.parseLenient` — from documents to values.
* `RpcSchema.Validator.validate` — whether a value belongs to the schema.
* `RpcSchema.Validator.encode`, `RpcSchema.Validator.encodeText` — from values to documents.
-/

namespace RpcSchema

/-- **A compiled schema.** -/
structure Validator where
  program : Program

namespace Validator

/-- **Compiles a schema** with the models it refers to. -/
def compile (schema : Schema) (models : Models) : Except SchemaError Validator :=
  match Program.compile schema models with
  | .ok program => .ok ⟨program⟩
  | .error error => .error error

/-- **Decodes a document**, or gives everything that is wrong with it. -/
def decode (validator : Validator) (input : Json) : Walk (Except (List ValueError) Value) :=
  (validator.program.decode .strict input).map Report.result

/-- Decodes a text. -/
def decodeText (validator : Validator) (text : String) : Walk (Except (List ValueError) Value) :=
  match Json.parse text with
  | .ok input => validator.decode input
  | .error error => some (.error [⟨[], [], .notJson error⟩])

/-- **Decodes a document**, converting scalars of other spellings. -/
def coerce (validator : Validator) (input : Json) : Walk (Except (List ValueError) Value) :=
  (validator.program.decode .converting input).map Report.result

/-- Decodes a document, or gives the first thing that is wrong with it. -/
def parse (validator : Validator) (input : Json) : Walk (Except ValueError Value) :=
  (validator.decode input).map fun result =>
    result.mapError fun errors => errors.head?.getD ⟨[], [], .unexplained⟩

/-- **Reads a document leniently**, with defaults for what does not fit. -/
def parseLenient (validator : Validator) (input : Json) : Walk (Except ValueError Value) :=
  (validator.program.readLeniently input).run

/-- **Whether a value belongs to the schema.** -/
def validate (validator : Validator) (value : Value) : Walk Bool := validator.program.holds value

/-- **Encodes a value** as a document. -/
def encode (validator : Validator) (value : Value) : Walk (Except ValueError Json) :=
  (validator.program.encode value).run

/-- Encodes a value as a text. -/
def encodeText (validator : Validator) (value : Value) : Walk (Except ValueError String) :=
  (validator.encode value).map fun result => result.map Json.compact

end Validator

end RpcSchema
