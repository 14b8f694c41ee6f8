import RpcSchema.Cli.Command

set_option autoImplicit false

/-!
# Command lines

A command line names a command and gives it options. An option is written with two hyphens and its
name, or with one hyphen and a letter, and its value follows behind an equals sign, or as the next
argument, or, after a letter, at once. No option is given twice. Two hyphens alone end the options.

## Main definitions

* `RpcSchema.OptionSpec` — an option that a command understands.
* `RpcSchema.Command.ofArguments` — the command of a command line.
-/

namespace RpcSchema

/-- **An option that a command understands**, with its name, its letter if it has one, and whether
it takes a value. -/
structure OptionSpec where
  name : String
  letter : Option Char
  takesValue : Bool

/-- Options that are given, with their values; a flag has the empty text. -/
abbrev Given : Type := Entries String

namespace Command

/-- The option that every command understands. -/
def verbose : OptionSpec := ⟨"verbose", some 'v', false⟩

/-- The options of the command with a name. -/
def specs? (command : String) : Option (List OptionSpec) :=
  match command with
  | "generate" => some [⟨"definition", some 'd', true⟩, ⟨"output", some 'o', true⟩,
      ⟨"config", some 'c', true⟩, ⟨"dry-run", none, false⟩, verbose]
  | "init" => some [⟨"output", some 'o', true⟩, ⟨"force", none, false⟩, verbose]
  | "check" => some [⟨"definition", some 'd', true⟩, verbose]
  | _ => none

/-- Takes in an option. -/
def give (given : Given) (spec : OptionSpec) (value : String) : Except String Given :=
  if Entries.contains given spec.name then
    .error ("the argument '--" ++ spec.name ++ "' cannot be used multiple times")
  else if spec.takesValue ∧ value = "" then
    .error ("a value is required for '--" ++ spec.name ++ "' but none was supplied")
  else .ok (Entries.insert given spec.name value)

/-- The error of an argument that nothing understands. -/
def unexpected {α : Type} (argument : String) : Except String α :=
  .error ("unexpected argument '" ++ argument ++ "' found")

/-- The letters of an argument behind a hyphen: flags, and at the end an option with a value, which
is asked for if the letters end with the option. -/
def letters (specs : List OptionSpec) (argument : String) :
    Given → List Char → Except String (Given × Option OptionSpec)
  | given, [] => .ok (given, none)
  | given, c :: rest =>
    match specs.find? fun spec => spec.letter = some c with
    | none => unexpected argument
    | some spec =>
      if spec.takesValue then
        match rest with
        | [] => .ok (given, some spec)
        | '=' :: rest => (give given spec (String.ofList rest)).map fun given => (given, none)
        | rest => (give given spec (String.ofList rest)).map fun given => (given, none)
      else do
        let given ← give given spec ""
        letters specs argument given rest

/-- An argument with two hyphens, the part behind these being given in characters. -/
def long (specs : List OptionSpec) (argument : String) (given : Given) (chars : List Char) :
    Except String (Given × Option OptionSpec) :=
  let name := String.ofList (chars.takeWhile (· ≠ '='))
  match specs.find? fun spec => spec.name = name, chars.dropWhile (· ≠ '=') with
  | none, _ => unexpected argument
  | some spec, [] =>
    if spec.takesValue then .ok (given, some spec)
    else (give given spec "").map fun given => (given, none)
  | some spec, _ :: value =>
    if spec.takesValue then
      (give given spec (String.ofList value)).map fun given => (given, none)
    else .error ("unexpected value for '--" ++ spec.name ++ "' found")

/-- Whether an argument is one of options. -/
def isOption (argument : String) : Bool := argument.startsWith "-" && argument ≠ "-"

/-- Takes in the options of one argument. -/
def option (specs : List OptionSpec) (given : Given) (argument : String) :
    Except String (Given × Option OptionSpec) :=
  match argument.toList with
  | '-' :: '-' :: rest => long specs argument given rest
  | '-' :: rest => letters specs argument given rest
  | _ => unexpected argument

/-- Takes in options, the first argument being the value of the one that waits for it. Two hyphens
alone end them, and nothing may follow. -/
def options (specs : List OptionSpec) :
    Option OptionSpec → Given → List String → Except String Given
  | none, given, [] => .ok given
  | some spec, _, [] =>
    .error ("a value is required for '--" ++ spec.name ++ "' but none was supplied")
  | some spec, given, argument :: rest =>
    if isOption argument then
      .error ("a value is required for '--" ++ spec.name ++ "' but none was supplied")
    else do
      let given ← give given spec argument
      options specs none given rest
  | none, given, argument :: rest =>
    if argument = "--" then
      match rest with
      | [] => .ok given
      | argument :: _ => unexpected argument
    else if isOption argument then do
      let (given, waiting) ← option specs given argument
      options specs waiting given rest
    else unexpected argument

/-- The command with a name and options. -/
def ofOptions (name : String) (given : Given) : Except String Command :=
  let isGiven := Entries.contains given
  match name with
  | "generate" =>
    .ok (.generate (given.lookup "definition") (given.lookup "output") (given.lookup "config")
      (isGiven "dry-run"))
  | "init" => .ok (.init ((given.lookup "output").getD Config.fileName) (isGiven "force"))
  | _ =>
    match given.lookup "definition" with
    | some definition => .ok (.check definition)
    | none => .error "the following required arguments were not provided: --definition"

/-- **The command of a command line**, or what is wrong with it. -/
def ofArguments (arguments : List String) : Except String Command := do
  let isBefore := fun argument => isOption argument && argument ≠ "--"
  let given ← options [verbose] none [] (arguments.takeWhile isBefore)
  match arguments.dropWhile isBefore with
  | [] => .error "a command is required: generate, init or check"
  | name :: rest =>
    match specs? name with
    | none => .error ("unrecognized subcommand '" ++ name ++ "'")
    | some specs => do
      let given ← options specs none given rest
      ofOptions name given

end Command

/-- **Runs a command line.** One that names no command ends with the number two. -/
def Host.runArguments {m : Type → Type} [Monad m] (host : Host m) (arguments : List String) :
    m Nat := do
  match Command.ofArguments arguments with
  | .ok command => host.run command
  | .error message => do
    host.complain ("error: " ++ message)
    return 2

end RpcSchema
