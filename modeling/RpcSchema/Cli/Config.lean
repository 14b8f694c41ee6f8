import RpcSchema.Codegen.Config
import RpcSchema.Codegen.Options
import RpcSchema.Files.Location
import RpcSchema.Toml.Reader

set_option autoImplicit false

/-!
# Configurations

A configuration names the definition to read, the directory that code goes to, and the generators to
run. Everything in it has a default. It is read from a TOML document, in which a table may also be
given as an array of the values of its fields.

## Main definitions

* `RpcSchema.Config`, `RpcSchema.GeneratorEntry` — a configuration and a generator in it.
* `RpcSchema.Config.parse` — reading.
* `RpcSchema.Config.override` — what arguments put in the place of a configuration.
* `RpcSchema.Config.template` — the text that a new configuration begins with.
* `RpcSchema.GeneratorEntry.ofJson` — a generator read from a JSON value.
-/

namespace RpcSchema

/-- A kind of generators, by the language of the code. -/
inductive GeneratorKind
  | typescript
deriving DecidableEq

namespace GeneratorKind

/-- The name of a kind. -/
def name : GeneratorKind → String
  | .typescript => "typescript"

/-- The kind with a name. -/
def ofName? (name : String) : Option GeneratorKind :=
  if name = "typescript" then some .typescript else none

end GeneratorKind

/-- **A generator to run.** -/
structure GeneratorEntry where
  kind : GeneratorKind := .typescript
  clientName : String := ""
  /-- Taken from the directory of the configuration. -/
  outputFile : String := ""
  typePrefix : String := ""
  generateDocs : Bool := true
  strictNames : Bool := false
deriving DecidableEq

/-- **A configuration.** -/
structure Config where
  definition : String := "app_definition.json"
  outputDirectory : String := "."
  generators : List GeneratorEntry := []
deriving DecidableEq

/-- **Why a configuration cannot be used.** -/
inductive ConfigError
  /-- The document breaks a rule of its syntax, or has values of the wrong kinds. -/
  | invalidDocument (path : String)
  | invalidValue (key message : String)
  | file (path : String) (error : OsError)
deriving DecidableEq

/-- What an error is called. -/
def ConfigError.message : ConfigError → String
  | .invalidDocument path => "Invalid TOML in " ++ path ++ ": malformed document"
  | .invalidValue key message => "Invalid configuration value for '" ++ key ++ "': " ++ message
  | .file path error => "Failed to read config " ++ path ++ ": " ++ error.message

namespace GeneratorEntry

/-! ## What a generator is told -/

/-- The options of a generator, whose file is taken from a directory. -/
def options (entry : GeneratorEntry) (directory : String) : GeneratorOptions :=
  { clientName := entry.clientName
    outputFile := if entry.outputFile = "" then "" else Location.join directory entry.outputFile }

/-- The choices of a generator. -/
def generatorConfig (entry : GeneratorEntry) : GeneratorConfig :=
  { typePrefix := entry.typePrefix, generateDocs := entry.generateDocs
    strictNames := entry.strictNames }

/-! ## Reading from JSON -/

/-- Takes in one field. -/
def readField (entry : GeneratorEntry) (name : String) (value : Json) :
    Except ReadError GeneratorEntry :=
  match name with
  | "kind" =>
    (Read.choice Record.generatorNames GeneratorKind.ofName? value).map fun v =>
      { entry with kind := v }
  | "client_name" => (Read.text value).map fun v => { entry with clientName := v }
  | "output_file" => (Read.path value).map fun v => { entry with outputFile := v }
  | "type_prefix" => (Read.text value).map fun v => { entry with typePrefix := v }
  | "generate_docs" => (Read.flag value).map fun v => { entry with generateDocs := v }
  | "strict_names" => (Read.flag value).map fun v => { entry with strictNames := v }
  | _ => .ok entry

/-- **Reads a generator** from a JSON value. -/
def ofJson (value : Json) : Except ReadError GeneratorEntry :=
  Record.generator.read readField {} value

/-- Reads a list of generators. -/
def listOfJson (value : Json) : Except ReadError (List GeneratorEntry) := Read.list ofJson value

end GeneratorEntry

/-! ## Reading from TOML -/

namespace Toml

/-- The fields of a record with the given names: the entries of a table, or the items of an array
one after the other. A moment is a record without any of them. -/
def fields? (names : List String) : Toml → Option Table
  | .table _ entries => some entries
  | .array items => some (names.zip items)
  | .tables items => some (names.zip (items.reverse.map (Toml.table .header)))
  | .moment _ => some []
  | _ => none

/-- The items of a list. -/
def items? : Toml → Option (List Toml)
  | .array items => some items
  | .tables items => some (items.reverse.map (Toml.table .header))
  | _ => none

/-- The text of a text. -/
def text? : Toml → Option String
  | .text value => some value
  | _ => none

/-- The flag of a flag. -/
def flag? : Toml → Option Bool
  | .flag value => some value
  | _ => none

/-- Whether a value is a table or a list without content. -/
def isEmpty : Toml → Bool
  | .table _ entries => entries.isEmpty
  | .array items => items.isEmpty
  | _ => false

/-- The kind of generators that a value names: by a text, or by the only key of a table, with
nothing under it. -/
def kind? : Toml → Option GeneratorKind
  | .text name => GeneratorKind.ofName? name
  | .table _ [(name, inner)] => if inner.isEmpty then GeneratorKind.ofName? name else none
  | _ => none

/-- The value of a field, read if it is there. -/
def field? {α : Type} (entries : Table) (name : String) (read : Toml → Option α) (default : α) :
    Option α :=
  match at? entries name with
  | some value => read value
  | none => some default

/-- The generator that a value describes. -/
def generator? (value : Toml) : Option GeneratorEntry := do
  let entries ← value.fields?
    ["kind", "client_name", "output_file", "type_prefix", "generate_docs", "strict_names"]
  let default : GeneratorEntry := {}
  return { kind := ← field? entries "kind" kind? default.kind
           clientName := ← field? entries "client_name" text? default.clientName
           outputFile := ← field? entries "output_file" text? default.outputFile
           typePrefix := ← field? entries "type_prefix" text? default.typePrefix
           generateDocs := ← field? entries "generate_docs" flag? default.generateDocs
           strictNames := ← field? entries "strict_names" flag? default.strictNames }

/-- The text that is the only field of a record. -/
def onlyText? (name default : String) (value : Toml) : Option String := do
  field? (← value.fields? [name]) name text? default

/-- The generators of a list. -/
def generators? (value : Toml) : Option (List GeneratorEntry) := do
  (← value.items?).mapM generator?

/-- **The configuration that a document describes.** Keys that mean nothing are passed over. -/
def config? (document : Table) : Option Config := do
  let default : Config := {}
  return { definition :=
             ← field? document "input" (onlyText? "definition" default.definition)
               default.definition
           outputDirectory :=
             ← field? document "output" (onlyText? "dir" default.outputDirectory)
               default.outputDirectory
           generators := ← field? document "generators" generators? default.generators }

end Toml

namespace Config

/-- Looks for the first generator, from a position on, that lacks a name or a file. -/
def checkFrom (position : Nat) : List GeneratorEntry → Except ConfigError Unit
  | [] => .ok ()
  | entry :: rest =>
    let key := fun field => "generators[" ++ toString position ++ "]." ++ field
    if (Text.trim entry.clientName.toList).isEmpty then
      .error (.invalidValue (key "client_name") "must not be empty")
    else if entry.outputFile = "" then
      .error (.invalidValue (key "output_file") "must not be empty")
    else checkFrom (position + 1) rest

/-- **Reads a configuration** from the text of the file at a path. -/
def parse (path text : String) : Except ConfigError Config := do
  match (Toml.parse? text).bind Toml.config? with
  | none => .error (.invalidDocument path)
  | some config => do
    checkFrom 0 config.generators
    return config

/-- **What arguments put in the place of a configuration**, as far as they are given. -/
def override (config : Config) (definition outputDirectory : Option String) : Config :=
  { config with
    definition := definition.getD config.definition
    outputDirectory := outputDirectory.getD config.outputDirectory }

/-- The name of the file that a configuration is read from. -/
def fileName : String := "tyrpc.toml"

/-- **The text that a new configuration begins with.** -/
def template : String := "\n".intercalate [
  "# tyrpc configuration file",
  "",
  "[input]",
  "# App definition JSON produced by the server",
  "definition = \"app_definition.json\"",
  "",
  "[output]",
  "# Directory generator output files are resolved against",
  "dir = \".\"",
  "",
  "[[generators]]",
  "# Target language (typescript)",
  "kind = \"typescript\"",
  "",
  "# Name of the generated root client class",
  "client_name = \"Client\"",
  "",
  "# Output file, relative to [output].dir",
  "output_file = \"client.ts\"",
  "",
  "# Prefix prepended to every generated type name",
  "type_prefix = \"\"",
  "",
  "# Whether to emit doc comments from schema descriptions",
  "generate_docs = true",
  "",
  "# Fail when one type name is reused for two different shapes",
  "strict_names = false",
  ""]

end Config

end RpcSchema
