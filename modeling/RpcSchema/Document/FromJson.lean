import RpcSchema.Document.Error
import RpcSchema.Document.Format

set_option autoImplicit false

/-!
# Documents as values

A document that is given as a JSON value is read by the same rules as one that is given as text:
field by field in the order in which it is written, so that the first field that does not fit is
the error. What can only be known at the end, such as a field that is missing, is reported after
all the fields have been read.

## Main definitions

* `RpcSchema.Read.text`, `RpcSchema.Read.flag`, `RpcSchema.Read.choice`, `RpcSchema.Read.optional`,
  `RpcSchema.Read.list`, `RpcSchema.Read.map` — readers of what a field may hold.
* `RpcSchema.Record.layout` — the fields of a record in the order in which they are written.
* `RpcSchema.Record.read` — folds a step over the fields of a record.
-/

namespace RpcSchema

namespace Read

/-- A value of another kind than expected. -/
def unexpected {α : Type} (value : Json) (expected : String) : Except ReadError α :=
  .error { fault := .invalidType value.describe expected }

/-- A text. -/
def text : Json → Except ReadError String
  | .string value => .ok value
  | value => unexpected value "a string"

/-- A text that names a file. -/
def path : Json → Except ReadError String
  | .string value => .ok value
  | value => unexpected value "path string"

/-- A flag. -/
def flag : Json → Except ReadError Bool
  | .bool value => .ok value
  | value => unexpected value "a boolean"

/-- `null` stands for nothing. -/
def optional {α : Type} (read : Json → Except ReadError α) : Json → Except ReadError (Option α)
  | .null => .ok none
  | value => (read value).map some

/-- The items of a list from position `index` on. -/
def listFrom {α : Type} (read : Json → Except ReadError α) :
    Nat → List Json → Except ReadError (List α)
  | _, [] => .ok []
  | index, item :: rest => do
    let item ← ReadError.locate (.index index) (read item)
    let rest ← listFrom read (index + 1) rest
    return item :: rest

/-- A list. -/
def list {α : Type} (read : Json → Except ReadError α) : Json → Except ReadError (List α)
  | .array items => listFrom read 0 items
  | value => unexpected value "a sequence"

/-- The entries of a map. -/
def entries {α : Type} (read : Json → Except ReadError α) :
    Entries Json → Except ReadError (Entries α)
  | [] => .ok []
  | (key, value) :: rest => do
    let value ← ReadError.locate (.key key) (read value)
    let rest ← entries read rest
    return (key, value) :: rest

/-- A map. -/
def map {α : Type} (read : Json → Except ReadError α) : Json → Except ReadError (Entries α)
  | .object values => entries read values
  | value => unexpected value "a map"

/-- One of the names that `ofName?` understands: a text, or an object with the name as its only
key and `null` as the value. -/
def choice {α : Type} (names : List String) (ofName? : String → Option α) :
    Json → Except ReadError α
  | .string name => named name
  | .object [(name, value)] => do
    let result ← named name
    match value with
    | .null => return result
    | value => ReadError.locate (.key name) (unexpected value "unit")
  | .object _ => .error { fault := .invalidValue "map" "map with a single key" }
  | value => unexpected value "string or map"
where
  /-- The value that a name stands for. -/
  named (name : String) : Except ReadError α :=
    match ofName? name with
    | some result => .ok result
    | none => .error { fault := .unknownVariant name names }

end Read

namespace Record

/-- A field as it is written: the step that leads to it, its name and what it holds. -/
structure Member where
  step : Step
  name : String
  value : Json

/-- **The fields of a record in the order in which they are written**, and what is wrong with the
record as a whole, which counts only once all of them have been read. -/
structure Layout where
  members : List Member
  fault : Option ReadFault

/-- The fault of a record that lacks a field, if it does: the first in order of declaration. -/
def missing? (record : Record) (seen : List String) : Option ReadFault :=
  (record.fields.find? fun field => field.required && !seen.contains field.name).map
    fun field => .missingField field.name

/-- The fields of an object. Keys of no field are left out; a field that comes a second time, under
another of its names, ends the reading. -/
def layoutFields (record : Record) : Entries Json → List String → Layout
  | [], seen => ⟨[], record.missing? seen⟩
  | (key, value) :: rest, seen =>
    match record.field? key with
    | none => record.layoutFields rest seen
    | some field =>
      if seen.contains field.name then ⟨[], some (.duplicateField field.name)⟩
      else
        let layout := record.layoutFields rest (field.name :: seen)
        ⟨⟨.key key, field.name, value⟩ :: layout.members, layout.fault⟩

/-- The fields of an array of `length` items, the fields left being those of the positions from
`index` on. -/
def layoutPositions (record : Record) (length : Nat) : Nat → List Json → List Field → Layout
  | _, [], left =>
    ⟨[], ((left.zipIdx (record.fields.length - left.length)).find? (·.1.required)).map
      fun (_, index) => .invalidLength index record.lengthText⟩
  | _, _ :: _, [] => ⟨[], some (.invalidLength length "fewer elements in array")⟩
  | index, item :: rest, field :: left =>
    let layout := record.layoutPositions length (index + 1) rest left
    ⟨⟨.index index, field.name, item⟩ :: layout.members, layout.fault⟩

/-- The fields of a record that is written as an object or as an array. -/
def layout (record : Record) : Json → Except ReadError Layout
  | .object entries => .ok (record.layoutFields entries [])
  | .array items => .ok (record.layoutPositions items.length 0 items record.fields)
  | value => Read.unexpected value record.title

/-- **Reads a record**: `step` takes in one field after the other. -/
def read {α : Type} (record : Record) (step : α → String → Json → Except ReadError α) (start : α)
    (value : Json) : Except ReadError α := do
  let layout ← record.layout value
  let result ← layout.members.foldlM
    (fun result member => ReadError.locate member.step (step result member.name member.value)) start
  match layout.fault with
  | some fault => .error { fault := fault }
  | none => return result

end Record

end RpcSchema
