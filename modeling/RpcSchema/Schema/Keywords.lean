import RpcSchema.Document.FromJson
import RpcSchema.Schema.Basic

set_option autoImplicit false

/-!
# Keywords of a schema document

A schema is written as an object of keywords. Reading one first takes in the keywords as they are,
without asking whether they make sense together, so that a value of the wrong kind anywhere in a
document comes before a rule that is broken.

## Main definitions

* `RpcSchema.Keywords` — the keywords of a schema document as they are written.
* `RpcSchema.Keywords.read` — takes them in from a JSON value.
* `RpcSchema.Metadata.read` — takes in what is said about a schema.
-/

namespace RpcSchema

/-- Takes in one field of what is said about a schema. -/
def Metadata.readField (metadata : Metadata) (name : String) (value : Json) :
    Except ReadError Metadata :=
  match name with
  | "id" => (Read.optional Read.text value).map fun id => { metadata with id := id }
  | "description" =>
    (Read.optional Read.text value).map fun text => { metadata with description := text }
  | "isDeprecated" => (Read.flag value).map fun flag => { metadata with deprecated := flag }
  | _ => .ok metadata

/-- **Takes in what is said about a schema.** -/
def Metadata.read (value : Json) : Except ReadError Metadata :=
  Record.metadata.read readField {} value

/-- **The keywords of a schema document** as they are written. -/
structure Keywords where
  type : Option String := none
  values : Option (List String) := none
  elements : Option Keywords := none
  record : Option Keywords := none
  properties : Option (List (String × Keywords)) := none
  optionalProperties : Option (List (String × Keywords)) := none
  additionalProperties : Option Bool := none
  discriminator : Option String := none
  mapping : Option (List (String × Keywords)) := none
  ref : Option String := none
  nullable : Bool := false
  metadata : Metadata := {}

namespace Keywords

/-- Takes in one keyword. A schema that the keyword may hold is given as the result of reading it,
and a map of schemas likewise. -/
def readKeyword (keywords : Keywords) (name : String) (value : Json)
    (schema : Unit → Except ReadError Keywords)
    (children : Unit → Except ReadError (List (String × Keywords))) : Except ReadError Keywords :=
  match name with
  | "type" => (Read.optional Read.text value).map fun v => { keywords with type := v }
  | "enum" => (Read.optional (Read.list Read.text) value).map fun v => { keywords with values := v }
  | "elements" =>
    if value.isNull then .ok { keywords with elements := none }
    else (schema ()).map fun v => { keywords with elements := some v }
  | "values" =>
    if value.isNull then .ok { keywords with record := none }
    else (schema ()).map fun v => { keywords with record := some v }
  | "properties" =>
    if value.isNull then .ok { keywords with properties := none }
    else (children ()).map fun v => { keywords with properties := some v }
  | "optionalProperties" =>
    if value.isNull then .ok { keywords with optionalProperties := none }
    else (children ()).map fun v => { keywords with optionalProperties := some v }
  | "additionalProperties" =>
    (Read.optional Read.flag value).map fun v => { keywords with additionalProperties := v }
  | "discriminator" =>
    (Read.optional Read.text value).map fun v => { keywords with discriminator := v }
  | "mapping" =>
    if value.isNull then .ok { keywords with mapping := none }
    else (children ()).map fun v => { keywords with mapping := some v }
  | "ref" => (Read.optional Read.text value).map fun v => { keywords with ref := v }
  | "nullable" => (Read.flag value).map fun v => { keywords with nullable := v }
  | "metadata" => (Metadata.read value).map fun v => { keywords with metadata := v }
  | _ => .ok keywords

/-- The keyword that an array holds at a position. -/
def keywordAt? (position : Nat) : Option String := (Record.schema.fields[position]?).map (·.name)

mutual

/-- **Takes in the keywords of a schema document**: an object, or an array in the order of the
keywords. -/
def read : Json → Except ReadError Keywords
  | .object entries => readFields entries {}
  | .array items => readPositions items 0 {}
  | value => Read.unexpected value Record.schema.title

/-- Takes in the keywords of an object, one after the other. Other keys are left out. -/
def readFields : List (String × Json) → Keywords → Except ReadError Keywords
  | [], keywords => .ok keywords
  | (name, value) :: rest, keywords =>
    match ReadError.locate (.key name)
        (keywords.readKeyword name value (fun _ => read value) (fun _ => readMap value)) with
    | .error error => .error error
    | .ok keywords => readFields rest keywords

/-- Takes in the keywords of an array, from a position on. -/
def readPositions : List Json → Nat → Keywords → Except ReadError Keywords
  | [], _, keywords => .ok keywords
  | value :: rest, position, keywords =>
    match keywordAt? position with
    | none =>
      .error { fault := .invalidLength (position + 1 + rest.length) "fewer elements in array" }
    | some name =>
      match ReadError.locate (.index position)
          (keywords.readKeyword name value (fun _ => read value) (fun _ => readMap value)) with
      | .error error => .error error
      | .ok keywords => readPositions rest (position + 1) keywords

/-- Takes in a map of schemas. -/
def readMap : Json → Except ReadError (List (String × Keywords))
  | .object entries => readEntries entries
  | value => Read.unexpected value "a map"

/-- Takes in the schemas of a map, one after the other. -/
def readEntries : List (String × Json) → Except ReadError (List (String × Keywords))
  | [] => .ok []
  | (key, value) :: rest =>
    match ReadError.locate (.key key) (read value) with
    | .error error => .error error
    | .ok keywords =>
      match readEntries rest with
      | .error error => .error error
      | .ok done => .ok ((key, keywords) :: done)

end

end Keywords

end RpcSchema
