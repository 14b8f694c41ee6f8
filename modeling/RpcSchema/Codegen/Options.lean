import RpcSchema.Codegen.Error
import RpcSchema.Document.FromJson
import RpcSchema.Text.Blank

set_option autoImplicit false

/-!
# What a generator has to be told

## Main definitions

* `RpcSchema.GeneratorOptions` — the name of the client and the file it goes to.
* `RpcSchema.GeneratorOptions.check` — neither may be empty.
* `RpcSchema.GeneratedFile` — a file and what it holds.
-/

namespace RpcSchema

/-- **What a generator has to be told.** -/
structure GeneratorOptions where
  clientName : String
  outputFile : String
deriving DecidableEq

/-- **A file** and what it holds. -/
structure GeneratedFile where
  path : String
  contents : String
deriving DecidableEq

namespace GeneratorOptions

/-- Neither option is empty; blanks do not make a name. -/
def check (options : GeneratorOptions) (generator : String) : Except CodegenError Unit :=
  if (Text.trim options.clientName.toList).isEmpty then
    .error (.missingOption generator "client_name")
  else if options.outputFile = "" then .error (.missingOption generator "output_file")
  else .ok ()

/-- The options read so far. -/
structure Draft where
  clientName : Option String := none
  outputFile : Option String := none

/-- Takes in one field. -/
def Draft.readField (draft : Draft) (name : String) (value : Json) : Except ReadError Draft :=
  match name with
  | "clientName" => (Read.text value).map fun v => { draft with clientName := some v }
  | "outputFile" => (Read.path value).map fun v => { draft with outputFile := some v }
  | _ => .ok draft

/-- **Reads options** from a JSON value. -/
def ofJson (value : Json) : Except ReadError GeneratorOptions := do
  let draft ← Record.options.read Draft.readField {} value
  match draft.clientName, draft.outputFile with
  | some clientName, some outputFile => .ok { clientName, outputFile }
  | none, _ => .error { fault := .missingField "clientName" }
  | _, none => .error { fault := .missingField "outputFile" }

end GeneratorOptions

end RpcSchema
