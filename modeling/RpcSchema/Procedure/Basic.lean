import RpcSchema.Document.FromJson
import RpcSchema.Text.Blank
import RpcSchema.Text.Split
import RpcSchema.Text.Words

set_option autoImplicit false

/-!
# Procedures

A procedure is something a client can call: the path it is served at, how it is called, and the
models of what it takes and gives.

## Main definitions

* `RpcSchema.Procedure` — a procedure.
* `RpcSchema.Procedure.ofJson`, `RpcSchema.Procedure.toJson` — reading and writing.
* `RpcSchema.Procedure.segments` — the segments of the key of a procedure.
* `RpcSchema.Procedure.defaultPath` — the path that a key suggests.
-/

namespace RpcSchema

/-- How a procedure is called over HTTP. -/
inductive Method
  | get
  | post
  | put
  | patch
  | delete
  | head
deriving DecidableEq

namespace Method

/-- The name of a method. -/
def name : Method → String
  | .get => "get"
  | .post => "post"
  | .put => "put"
  | .patch => "patch"
  | .delete => "delete"
  | .head => "head"

/-- The method with a name. -/
def ofName? (name : String) : Option Method :=
  [Method.get, .post, .put, .patch, .delete, .head].find? fun method => method.name == name

end Method

/-- What a procedure is called over. -/
inductive Transport
  | http
  | ws
deriving DecidableEq

namespace Transport

/-- The name of a transport. -/
def name : Transport → String
  | .http => "http"
  | .ws => "ws"

/-- The transport with a name. -/
def ofName? (name : String) : Option Transport :=
  [Transport.http, .ws].find? fun transport => transport.name == name

end Transport

/-- **A procedure**: the path it is served at, how it is called, the names of the models of what it
takes and gives, and whether it gives a stream of events. -/
structure Procedure where
  path : String
  method : Method
  params : Option String := none
  response : Option String := none
  transport : Transport := .http
  isEventStream : Bool := false
  description : Option String := none
deriving DecidableEq

namespace Procedure

/-! ## Reading -/

/-- The fields of a procedure read so far. -/
structure Draft where
  path : Option String := none
  method : Option Method := none
  params : Option String := none
  response : Option String := none
  transport : Transport := .http
  isEventStream : Bool := false
  description : Option String := none

/-- Takes in one field. -/
def Draft.readField (draft : Draft) (name : String) (value : Json) : Except ReadError Draft :=
  match name with
  | "path" => (Read.text value).map fun v => { draft with path := some v }
  | "method" =>
    (Read.choice Record.methodNames Method.ofName? value).map fun v =>
      { draft with method := some v }
  | "params" => (Read.optional Read.text value).map fun v => { draft with params := v }
  | "response" => (Read.optional Read.text value).map fun v => { draft with response := v }
  | "transport" =>
    (Read.choice Record.transportNames Transport.ofName? value).map fun v =>
      { draft with transport := v }
  | "isEventStream" => (Read.flag value).map fun v => { draft with isEventStream := v }
  | "description" => (Read.optional Read.text value).map fun v => { draft with description := v }
  | _ => .ok draft

/-- The procedure, once the fields that have to be there are. -/
def Draft.finish (draft : Draft) : Except ReadError Procedure :=
  match draft.path, draft.method with
  | some path, some method =>
    .ok { path, method, params := draft.params, response := draft.response,
          transport := draft.transport, isEventStream := draft.isEventStream,
          description := draft.description }
  | none, _ => .error { fault := .missingField "path" }
  | _, none => .error { fault := .missingField "method" }

/-- **Reads a procedure** from a JSON value. -/
def ofJson (value : Json) : Except ReadError Procedure := do
  (← Record.procedure.read Draft.readField {} value).finish

/-! ## Writing -/

/-- A text under a key, if there is one. -/
def textEntry (key : String) (text : Option String) : Entries Json :=
  (text.map fun text => (key, Json.string text)).toList

/-- **The document of a procedure.** The transport is always written. -/
def toJson (procedure : Procedure) : Json :=
  .object <|
    [("path", .string procedure.path), ("method", .string procedure.method.name)] ++
    textEntry "params" procedure.params ++
    textEntry "response" procedure.response ++
    [("transport", .string procedure.transport.name)] ++
    (if procedure.isEventStream then [("isEventStream", .bool true)] else []) ++
    textEntry "description" procedure.description

/-! ## Keys and paths -/

/-- **The segments of a key**: what stands between its points. -/
def segments (key : String) : List String := Text.split '.' key

/-- The characters that do not go into a path. -/
def disallowed : List Char := "!@#$%^&*()+=[]\x7b\x7d|\\;:'\",<>./?".toList

/-- A segment of a key as a segment of a path: without the characters that do not go into a path
and without blanks, its words in lower case joined by hyphens. -/
def pathSegment (segment : String) : String :=
  Text.kebab <| String.ofList <|
    segment.toList.filter fun c => !disallowed.contains c && !Text.isBlank c

/-- **The path that a key suggests**: a slash and the segments of the key, empty ones left out. -/
def defaultPath (key : String) : String :=
  "/" ++ "/".intercalate (((segments key).filter (· ≠ "")).map pathSegment)

end Procedure

end RpcSchema
