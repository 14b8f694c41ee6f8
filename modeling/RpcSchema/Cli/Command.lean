import RpcSchema.Cli.Load
import RpcSchema.Codegen.TypeScript.Client

set_option autoImplicit false

/-!
# Commands

There are three commands: one runs the generators of a configuration, one writes a first
configuration, and one checks a definition.

## Main definitions

* `RpcSchema.Command` — a command with its arguments.
* `RpcSchema.GeneratorRun`, `RpcSchema.renderAll` — what the generators of a configuration make of a
  definition.
* `RpcSchema.Host.generate`, `RpcSchema.Host.init`, `RpcSchema.Host.check` — what commands do.
* `RpcSchema.Host.run` — runs a command, and gives the number that says how it ended.
-/

namespace RpcSchema

/-- **A command** with its arguments. -/
inductive Command
  /-- Runs generators. -/
  | generate (definition output config : Option String) (dryRun : Bool)
  /-- Writes a first configuration. -/
  | init (output : String) (force : Bool)
  /-- Checks a definition. -/
  | check (definition : String)
deriving DecidableEq

/-- **Why a command fails.** -/
inductive CommandError
  | config (error : ConfigError)
  | load (error : LoadError)
  | codegen (error : CodegenError)
  /-- Some generators failed, and have been complained about. -/
  | generators (failed total : Nat)
  | usage (message : String)
  | file (error : OsError)
deriving DecidableEq

namespace CommandError

/-- What an error is called. -/
def message : CommandError → String
  | .config error => "Failed to load configuration: " ++ error.message
  | .load error => "Failed to load definition: " ++ error.message
  | .codegen error => "Failed to generate client: " ++ error.message
  | .generators failed total =>
    toString failed ++ " of " ++ toString total ++ " generator(s) failed"
  | .usage message => message
  | .file error => "IO error: " ++ error.message

/-- Whether an error lies in the definition itself. -/
def isInvalidDefinition : CommandError → Bool
  | .load (.parse _ _) => true
  | .load (.invalid _ _) => true
  | _ => false

/-- The number that says that a command ended with an error. -/
def exitCode (error : CommandError) : Nat := if error.isInvalidDefinition then 2 else 1

end CommandError

/-! ## Generators -/

/-- **What a generator made of a definition.** -/
structure GeneratorRun where
  kind : GeneratorKind
  clientName : String
  result : Except CodegenError (List GeneratedFile)

/-- The files that a generator makes of a definition. -/
def GeneratorEntry.render (entry : GeneratorEntry) (directory : String)
    (definition : Definition) : Except CodegenError (List GeneratedFile) := do
  let options := entry.options directory
  match entry.kind with
  | .typescript => do
    options.check TypeScript.generatorId
    TypeScript.render entry.generatorConfig options definition

/-- **What all the generators of a configuration make of a definition**, each by itself. -/
def renderAll (definition : Definition) (config : Config) : List GeneratorRun :=
  config.generators.map fun entry =>
    ⟨entry.kind, entry.clientName, entry.render config.outputDirectory definition⟩

namespace Host

variable {m : Type → Type} [Monad m]

/-! ## Running generators -/

/-- A long line. -/
def rule : String := String.ofList (List.replicate 60 '─')

/-- How a generator is called in lines about it. -/
def runTitle (run : GeneratorRun) : String := run.clientName ++ " (" ++ run.kind.name ++ ")"

/-- Shows a file that is not written. -/
def preview (host : Host m) (file : GeneratedFile) : m Unit := do
  host.say ("[dry-run] Would write to " ++ file.path ++ ":")
  host.say rule
  host.say file.contents
  host.say rule

/-- Writes a file of a generator. -/
def deliver (host : Host m) (run : GeneratorRun) (file : GeneratedFile) :
    ExceptT CommandError m Unit := do
  (host.place file).adapt CommandError.codegen
  host.say ("✓ " ++ runTitle run ++ ": wrote " ++ toString file.contents.utf8ByteSize ++
    " bytes to " ++ file.path)

/-- Writes or shows the files of generators, one generator after the other, and gives how many of
them failed. -/
def deliverAll (host : Host m) (dryRun : Bool) :
    List GeneratorRun → ExceptT CommandError m Nat
  | [] => return 0
  | run :: rest => do
    match run.result with
    | .ok files => do
      for file in files do
        if dryRun then host.preview file else host.deliver run file
      host.deliverAll dryRun rest
    | .error error => do
      host.complain ("✗ " ++ runTitle run ++ ": " ++ error.message)
      let failed ← host.deliverAll dryRun rest
      return failed + 1

/-- **Runs the generators of a configuration.** All of them are run before the first file is
written. -/
def generate (host : Host m) (definition output config : Option String) (dryRun : Bool) :
    ExceptT CommandError m Unit := do
  let config ← (host.loadConfig config).adapt CommandError.config
  let config := config.override definition output
  if config.generators.isEmpty then
    host.say ("Warning: No generators configured. Run 'tyrpc init' to create " ++
      Config.fileName ++ ".")
  else do
    host.say ("Loading definition " ++ config.definition)
    let definition ← (host.loadDefinition config.definition).adapt CommandError.load
    host.say ("  Found " ++ toString definition.procedures.length ++ " procedure(s) and " ++
      toString definition.models.length ++ " model(s)")
    host.say "Running generators..."
    let runs := renderAll definition config
    let failed ← host.deliverAll dryRun runs
    if 0 < failed then throw (.generators failed runs.length)

/-! ## The other commands -/

/-- **Writes a first configuration**, which replaces a file only by force. -/
def init (host : Host m) (output : String) (force : Bool) : ExceptT CommandError m Unit := do
  if (← host.isThere output) && !force then
    host.say "  Use --force to overwrite"
    throw (.usage ("Configuration file already exists: " ++ output))
  match ← host.write output Config.template with
  | .ok () => host.say ("✓ Created configuration file: " ++ output)
  | .error error => throw (.file error)

/-- **Checks a definition**, and says how large it is. -/
def check (host : Host m) (path : String) : ExceptT CommandError m Unit := do
  let definition ← (host.loadDefinition path).adapt CommandError.load
  match definition.serviceTree with
  | .error error => throw (.load (.invalid path error))
  | .ok tree => do
    host.say ("✓ " ++ path ++ " is valid")
    host.say ("  Schema version: " ++ definition.schemaVersion)
    host.say ("  Procedures: " ++ toString definition.procedures.length ++ " (" ++
      toString tree.children.length ++ " top-level)")
    host.say ("  Models: " ++ toString definition.models.length)

/-! ## Running -/

/-- What a command does. -/
def perform (host : Host m) : Command → ExceptT CommandError m Unit
  | .generate definition output config dryRun => host.generate definition output config dryRun
  | .init output force => host.init output force
  | .check definition => host.check definition

/-- **Runs a command**, and gives the number that says how it ended. -/
def run (host : Host m) (command : Command) : m Nat := do
  match ← (host.perform command).run with
  | .ok () => return 0
  | .error error => do
    host.complain ("Error: " ++ error.message)
    return error.exitCode

end Host

end RpcSchema
