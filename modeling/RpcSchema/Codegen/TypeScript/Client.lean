import RpcSchema.Codegen.Options
import RpcSchema.Codegen.TypeScript.Declaration

set_option autoImplicit false

/-!
# Clients in TypeScript

A client is a class for every service of a definition, with a method for every procedure of the
service and a field for every service below it. The declarations of the models and of the errors
follow behind the classes.

## Main definitions

* `RpcSchema.TypeScript.ClientMethod`, `RpcSchema.TypeScript.ClientClass`,
  `RpcSchema.TypeScript.Client` — what a client consists of.
* `RpcSchema.TypeScript.serviceClasses` — the classes for a service and those below it.
* `RpcSchema.TypeScript.client` — the client for a definition.
* `RpcSchema.TypeScript.Client.text` — the text of a client.
* `RpcSchema.TypeScript.render` — the file with the client for a definition.
-/

namespace RpcSchema.TypeScript

/-- **A method for a procedure**: the key of the procedure, the name of the method, and the types
of what the procedure takes and gives. -/
structure ClientMethod where
  key : String
  name : String
  procedure : Procedure
  params : Option String
  response : Option String
deriving DecidableEq

/-- A field that holds the class of a service. -/
structure ServiceField where
  name : String
  className : String
deriving DecidableEq

/-- **A class for a service**: the segments that lead to the service, the fields for the services
below it, and the methods for its procedures. -/
structure ClientClass where
  name : String
  path : List String
  services : List ServiceField
  methods : List ClientMethod
deriving DecidableEq

/-- **A client**: the name of the class of the outermost service, what is imported, the classes,
and the declarations of types. -/
structure Client where
  name : String
  imports : List String
  classes : List ClientClass
  declarations : List String

/-! ## What a client consists of -/

/-- What the methods for some procedures import. -/
def runtimeImports (procedures : List Procedure) : List String :=
  let sockets := procedures.any fun p => p.transport = .ws
  let streams := procedures.any fun p => p.transport = .http && p.isEventStream
  let calls := procedures.any fun p => p.transport = .http && !p.isEventStream
  (if calls then ["rpcRequest"] else []) ++
    (if streams then ["rpcSseRequest"] else []) ++
    (if sockets then ["rpcWsRequest"] else []) ++
    ["type HeaderMap"] ++
    (if streams then ["type EventStreamController", "type EventStreamHooks"] else []) ++
    (if sockets then ["type WsController", "type WsHooks"] else [])

/-- The type of a model that a procedure takes (`params`) or gives (`response`). -/
def payloadType (scheme : NameScheme) (key role : String) (model : Option String) :
    Except CodegenError (Option String) :=
  match model with
  | none => .ok none
  | some model =>
    match scheme.modelTypeName? model with
    | some name => .ok (some name)
    | none => .error (.unresolvedReference ("/procedures/" ++ key ++ "/" ++ role) model)

/-- The method for a procedure below the service that some segments lead to. -/
def clientMethod (scheme : NameScheme) (path : List String) (segment : String)
    (procedure : Procedure) : Except CodegenError ClientMethod := do
  let key := ".".intercalate (path ++ [segment])
  let params ← payloadType scheme key "params" procedure.params
  let response ← payloadType scheme key "response" procedure.response
  return { key, name := Text.camel segment, procedure, params, response }

/-- The name of the class for the service that some segments lead to. -/
def className (client : String) (path : List String) : String :=
  client ++ Naming.pascalPath ("/".intercalate path) ++ "Service"

/-- The fields for the services below the one that some segments lead to. -/
def serviceFields (client : String) (path : List String) (services : Entries Service) :
    List ServiceField :=
  services.map fun (segment, _) => ⟨Text.camel segment, className client (path ++ [segment])⟩

mutual

/-- **The classes for a service** and for those below it: its own first, then theirs in order. -/
def serviceClasses (scheme : NameScheme) (client name : String) (path : List String) :
    Service → Except CodegenError (List ClientClass)
  | ⟨children⟩ => do
    let methods ← (Service.procedures ⟨children⟩).mapM fun (segment, procedure) =>
      clientMethod scheme path segment procedure
    let inner ← branchClasses scheme client path children
    let services := serviceFields client path (Service.services ⟨children⟩)
    return { name, path, services, methods } :: inner

/-- The classes for the services among the entries of a service. -/
def branchClasses (scheme : NameScheme) (client : String) (path : List String) :
    List (String × Branch) → Except CodegenError (List ClientClass)
  | [] => return []
  | (_, .procedure _) :: rest => branchClasses scheme client path rest
  | (segment, .service service) :: rest => do
    let below := path ++ [segment]
    let classes ← serviceClasses scheme client (className client below) below service
    let further ← branchClasses scheme client path rest
    return classes ++ further

end

/-- The schema of the errors of a definition, which has a name in any case. -/
def errorSchema (definition : Definition) (client : String) : Schema :=
  match definition.errors.typeId with
  | some _ => definition.errors
  | none => definition.errors.withId (client ++ "Error")

/-- The outlines of the models of a definition and of its errors. -/
def typeOutlines (scheme : NameScheme) (definition : Definition) (client : String) :
    Pass (List Outline) := do
  let models ← Models.outline scheme definition.models
  let errors ← (errorSchema definition client).outline scheme (.ofPaths "errors" "/errors")
  return models ++ [errors]

/-- **The client for a definition** that has procedures and passes its check. -/
def client (config : GeneratorConfig) (options : GeneratorOptions) (definition : Definition) :
    Except CodegenError Client := do
  options.check generatorId
  if definition.procedures.isEmpty then throw (.noProcedures generatorId)
  definition.check.mapError .definition
  let tree ← definition.serviceTree.mapError .definition
  let backend := backend config
  let scheme := backend.scheme definition.models
  let name := Naming.pascalPath options.clientName
  let types ← ((typeOutlines scheme definition name).run { registry := backend.registry }).1
  let classes ← serviceClasses scheme name name [] tree
  return {
    name
    imports := runtimeImports (Entries.values definition.procedures)
    classes
    declarations := types.flatMap fun outline => (outline.render backend).declarations }

/-! ## The text of a client -/

/-- The name of the type of the options of a client. -/
def optionsType (client : String) : String := client ++ "Options"

/-- The first line of a client. -/
def banner : String := "// This file was autogenerated by tyrpc. Do not modify directly."

/-- The module that a client imports from. -/
def runtimeModule : String := "@tyrpc/client"

/-- The test that an input is an object, which the declarations use. -/
def objectTest : String :=
  "function isObject(input: unknown): input is Record<string, any> \x7b\n" ++
  "  return typeof input === \"object\" && input !== null && !Array.isArray(input);\n\x7d"

/-- The import of some names. -/
def importText (names : List String) : String :=
  let listed := ", ".intercalate names
  s!"import \x7b {listed} \x7d from {Json.quote runtimeModule};"

/-- The type of the options of a client. -/
def optionsText (config : GeneratorConfig) (client : String) : String :=
  let i1 := config.indentation 1
  s!"export interface {optionsType client} \x7b\n{i1}baseUrl?: string;\n" ++
    s!"{i1}headers?: HeaderMap;\n\x7d"

namespace ClientMethod

/-- The type of what a procedure takes. -/
def paramsType (method : ClientMethod) : String := method.params.getD "undefined"

/-- The type of what a procedure gives. -/
def responseType (method : ClientMethod) : String := method.response.getD "undefined"

/-- The function that writes what a procedure takes. -/
def serializer (method : ClientMethod) : String :=
  match method.params with
  | some type => helperName type ++ ".serialize"
  | none => "() => \"\""

/-- The function that reads what a procedure gives. -/
def parser (method : ClientMethod) : String :=
  match method.response with
  | some type => helperName type ++ ".parse"
  | none => "() => undefined"

/-- The expression for the address of a procedure. -/
def url (method : ClientMethod) : String :=
  s!"(this.options.baseUrl ?? \"\") + {Json.quote method.procedure.path}"

/-- The properties of a request, each in a line behind a pad. -/
def requestLines (method : ClientMethod) (pad : String) : String :=
  let argument := if method.params.isSome then "params" else "undefined"
  s!"{pad}url: {method.url},\n" ++
    s!"{pad}method: {Json.quote method.procedure.method.name},\n" ++
    s!"{pad}headers: this.options.headers,\n" ++
    s!"{pad}params: {argument},\n" ++
    s!"{pad}parser: {method.parser},\n" ++
    s!"{pad}serializer: {method.serializer},\n"

/-- The method for a procedure behind a socket. -/
def socketText (config : GeneratorConfig) (method : ClientMethod) : String :=
  let i1 := config.indentation 1
  let i2 := config.indentation 2
  let i3 := config.indentation 3
  let params := method.paramsType
  let response := method.responseType
  s!"{i1}{method.name}(hooks: WsHooks<{response}> = \x7b\x7d): " ++
    s!"Promise<WsController<{params}, {response}>> \x7b\n" ++
    s!"{i2}return rpcWsRequest<{params}, {response}>(\n" ++
    s!"{i3}\x7b\n" ++
    s!"{i3}{i1}url: {method.url},\n" ++
    s!"{i3}{i1}headers: this.options.headers,\n" ++
    s!"{i3}{i1}parser: {method.parser},\n" ++
    s!"{i3}{i1}serializer: {method.serializer},\n" ++
    s!"{i3}\x7d,\n" ++
    s!"{i3}hooks,\n" ++
    s!"{i2});\n" ++
    s!"{i1}\x7d"

/-- The parameter for what a procedure takes, if it takes anything. -/
def parameters (method : ClientMethod) : List String :=
  (method.params.map fun type => "params: " ++ type).toList

/-- The method for a procedure that gives a stream of events. -/
def streamText (config : GeneratorConfig) (method : ClientMethod) : String :=
  let i1 := config.indentation 1
  let i2 := config.indentation 2
  let i3 := config.indentation 3
  let params := method.paramsType
  let response := method.responseType
  let hooks := s!"hooks: EventStreamHooks<{response}> = \x7b\x7d"
  let signature := ", ".intercalate (method.parameters ++ [hooks])
  s!"{i1}{method.name}({signature}): EventStreamController \x7b\n" ++
    s!"{i2}return rpcSseRequest<{params}, {response}>(\n" ++
    s!"{i3}\x7b\n" ++
    method.requestLines (i3 ++ i1) ++
    s!"{i3}\x7d,\n" ++
    s!"{i3}hooks,\n" ++
    s!"{i2});\n" ++
    s!"{i1}\x7d"

/-- The method for a procedure that is called and answers once. -/
def callText (config : GeneratorConfig) (method : ClientMethod) : String :=
  let i1 := config.indentation 1
  let i2 := config.indentation 2
  let i3 := config.indentation 3
  let params := method.paramsType
  let response := method.responseType
  let signature := ", ".intercalate method.parameters
  s!"{i1}async {method.name}({signature}): Promise<{response}> \x7b\n" ++
    s!"{i2}return rpcRequest<{params}, {response}>(\x7b\n" ++
    method.requestLines i3 ++
    s!"{i2}\x7d);\n" ++
    s!"{i1}\x7d"

/-- **The text of a method.** -/
def text (config : GeneratorConfig) (method : ClientMethod) : String :=
  let procedure := method.procedure
  docComment config { description := procedure.description } 1 ++
    match procedure.transport, procedure.isEventStream with
    | .ws, _ => method.socketText config
    | .http, true => method.streamText config
    | .http, false => method.callText config

end ClientMethod

/-- **The text of a class**: its fields, its constructor and its methods. -/
def ClientClass.text (config : GeneratorConfig) (client : String) (cls : ClientClass) : String :=
  let i1 := config.indentation 1
  let i2 := config.indentation 2
  let options := optionsType client
  let fields :=
    s!"{i1}private readonly options: {options};" ::
      cls.services.map fun service => s!"{i1}readonly {service.name}: {service.className};"
  let settings :=
    s!"{i2}this.options = options;" ::
      cls.services.map fun service =>
        s!"{i2}this.{service.name} = new {service.className}(options);"
  s!"export class {cls.name} \x7b\n" ++ "\n".intercalate fields ++ "\n\n" ++
    s!"{i1}constructor(options: {options} = \x7b\x7d) \x7b\n" ++ "\n".intercalate settings ++
    s!"\n{i1}\x7d\n" ++
    String.join (cls.methods.map fun method => "\n" ++ method.text config ++ "\n") ++ "\x7d"

/-- **The text of a client**: its sections with an empty line between them. -/
def Client.text (config : GeneratorConfig) (client : Client) : String :=
  "\n\n".intercalate
    ([banner, importText client.imports, objectTest, optionsText config client.name] ++
      client.classes.map (ClientClass.text config client.name) ++ client.declarations) ++ "\n"

/-- **The file with the client for a definition.** -/
def render (config : GeneratorConfig) (options : GeneratorOptions) (definition : Definition) :
    Except CodegenError (List GeneratedFile) := do
  let client ← client config options definition
  return [⟨options.outputFile, client.text config⟩]

end RpcSchema.TypeScript
