import RpcSchema.Entries
import RpcSchema.Path
import RpcSchema.Schema.ScalarKind

set_option autoImplicit false

/-!
# Schemas

A schema describes the values of a type. It has one of seven forms; any form may allow `null` in
addition, and carries a name, a description and a mark of deprecation.

## Main definitions

* `RpcSchema.Schema`, `RpcSchema.Form` — a schema and its form.
* `RpcSchema.Schema.property`, `RpcSchema.Schema.variant`, … — building a schema step by step.
* `RpcSchema.Schema.nodes` — a schema and all the schemas inside it, with the paths to them.
* `RpcSchema.Schema.references` — the references inside a schema.
* `RpcSchema.Schema.WellFormed` — the rules that a document of a schema has to keep.
-/

namespace RpcSchema

/-- **What is said about a schema** beside the values it describes. -/
structure Metadata where
  /-- The name of the type. -/
  id : Option String := none
  description : Option String := none
  deprecated : Bool := false
deriving DecidableEq

/-- Whether nothing is said. -/
def Metadata.isEmpty (metadata : Metadata) : Bool :=
  metadata.id.isNone && metadata.description.isNone && !metadata.deprecated

mutual

/-- **The form of a schema.** -/
inductive Form
  /-- A value without parts. -/
  | scalar (kind : ScalarKind)
  /-- One of a list of texts. -/
  | enumeration (values : List String)
  /-- An object with properties that have to be there and properties that may be. A strict one
  has no others. -/
  | object (required optional : List (String × Schema)) (strict : Bool)
  /-- A list of values of one type. -/
  | array (element : Schema)
  /-- A map from text to values of one type. -/
  | record (value : Schema)
  /-- An object that says by the text under its tag which of the variants it is. -/
  | union (tag : String) (variants : List (String × Schema))
  /-- A model, by its name. -/
  | ref (target : String)

/-- **A schema**: its form, whether `null` is allowed in addition, and what is said about it. -/
structure Schema where
  form : Form
  nullable : Bool
  metadata : Metadata

end

/-- The models of a definition: schemas by name, to which references refer. -/
abbrev Models : Type := Entries Schema

namespace Form

/-- The keyword by which documents recognise a form. -/
def name : Form → String
  | .scalar _ => "type"
  | .enumeration _ => "enum"
  | .object _ _ _ => "properties"
  | .array _ => "elements"
  | .record _ => "values"
  | .union _ _ => "discriminator"
  | .ref _ => "ref"

/-- Whether a form is that of an object. -/
def isObject : Form → Bool
  | .object _ _ _ => true
  | _ => false

end Form

namespace Schema

/-! ## Building -/

/-- A schema of a form, without `null` and with nothing said about it. -/
def ofForm (form : Form) : Schema := ⟨form, false, {}⟩

/-- A scalar of a kind. -/
def scalar (kind : ScalarKind) : Schema := ofForm (.scalar kind)

/-- One of the given texts. -/
def enumeration (values : List String) : Schema := ofForm (.enumeration values)

/-- A strict object without properties. -/
def object : Schema := ofForm (.object [] [] true)

/-- A list of values. -/
def array (element : Schema) : Schema := ofForm (.array element)

/-- A map to values. -/
def record (value : Schema) : Schema := ofForm (.record value)

/-- A union without variants. -/
def union (tag : String) : Schema := ofForm (.union tag [])

/-- A reference to a model. -/
def reference (target : String) : Schema := ofForm (.ref target)

/-- Adds a property that has to be there. A schema that is not an object stays as it is. -/
def property (schema : Schema) (key : String) (value : Schema) : Schema :=
  match schema.form with
  | .object required optional strict =>
    { schema with form := .object (Entries.insert required key value) optional strict }
  | _ => schema

/-- Adds a property that may be there. A schema that is not an object stays as it is. -/
def optionalProperty (schema : Schema) (key : String) (value : Schema) : Schema :=
  match schema.form with
  | .object required optional strict =>
    { schema with form := .object required (Entries.insert optional key value) strict }
  | _ => schema

/-- Lets an object have further properties. A schema that is not an object stays as it is. -/
def allowAdditional (schema : Schema) : Schema :=
  match schema.form with
  | .object required optional _ => { schema with form := .object required optional false }
  | _ => schema

/-- Adds a variant. A schema that is not a union stays as it is. -/
def variant (schema : Schema) (name : String) (value : Schema) : Schema :=
  match schema.form with
  | .union tag variants =>
    { schema with form := .union tag (Entries.insert variants name value) }
  | _ => schema

/-- Allows `null` in addition. -/
def orNull (schema : Schema) : Schema := { schema with nullable := true }

/-- Names the type. -/
def withId (schema : Schema) (id : String) : Schema :=
  { schema with metadata := { schema.metadata with id := some id } }

/-- Describes the type. -/
def withDescription (schema : Schema) (description : String) : Schema :=
  { schema with metadata := { schema.metadata with description := some description } }

/-- Marks the type as deprecated. -/
def markDeprecated (schema : Schema) : Schema :=
  { schema with metadata := { schema.metadata with deprecated := true } }

/-! ## Questions -/

/-- The keyword by which documents recognise the form. -/
def formName (schema : Schema) : String := schema.form.name

/-- Whether the schema is an object. -/
def isObject (schema : Schema) : Bool := schema.form.isObject

/-- The name given to the type. -/
def typeId (schema : Schema) : Option String := schema.metadata.id

/-- The property of an object under a key; one that has to be there comes before one that may
be. -/
def declared? (required optional : Entries Schema) (key : String) : Option Schema :=
  required.lookup key <|> optional.lookup key

/-- Whether an object has a property under a key. -/
def declares (required optional : Entries Schema) (key : String) : Bool :=
  Entries.contains required key || Entries.contains optional key

/-! ## The schemas inside a schema -/

mutual

/-- **A schema and all the schemas inside it**, each before those inside it, with the paths that
lead to them from the place of the schema. -/
def nodes (place : Path) : Schema → List (Path × Schema)
  | ⟨form, nullable, metadata⟩ => (place, ⟨form, nullable, metadata⟩) :: formNodes place form

/-- The schemas inside a form. -/
def formNodes (place : Path) : Form → List (Path × Schema)
  | .object required optional _ =>
    childNodes (place ++ [.key "properties"]) required ++
      childNodes (place ++ [.key "optionalProperties"]) optional
  | .array element => element.nodes (place ++ [.key "elements"])
  | .record value => value.nodes (place ++ [.key "values"])
  | .union _ variants => childNodes (place ++ [.key "mapping"]) variants
  | _ => []

/-- The schemas inside the values of a map. -/
def childNodes (place : Path) : List (String × Schema) → List (Path × Schema)
  | [] => []
  | (key, schema) :: rest => schema.nodes (place ++ [.key key]) ++ childNodes place rest

end

/-- **The references inside a schema**: the paths to them and the models they name. -/
def references (schema : Schema) : List (Path × String) :=
  (schema.nodes []).filterMap fun (path, node) =>
    match node.form with
    | .ref target => some (path, target)
    | _ => none

/-- The models that a schema refers to, in order and as often as it does. -/
def targets (schema : Schema) : List String := schema.references.map Prod.snd

/-! ## Equality -/

mutual

/-- Whether two schemas are the same, in the order of their properties as well. -/
def same : Schema → Schema → Bool
  | ⟨form, nullable, metadata⟩, ⟨form', nullable', metadata'⟩ =>
    sameForm form form' && nullable == nullable' && metadata == metadata'

/-- Whether two forms are the same. -/
def sameForm : Form → Form → Bool
  | .scalar kind, .scalar kind' => kind == kind'
  | .enumeration values, .enumeration values' => values == values'
  | .object required optional strict, .object required' optional' strict' =>
    sameChildren required required' && sameChildren optional optional' && strict == strict'
  | .array element, .array element' => element.same element'
  | .record value, .record value' => value.same value'
  | .union tag variants, .union tag' variants' => tag == tag' && sameChildren variants variants'
  | .ref target, .ref target' => target == target'
  | _, _ => false

/-- Whether two maps hold the same schemas under the same keys in the same order. -/
def sameChildren : List (String × Schema) → List (String × Schema) → Bool
  | [], [] => true
  | (key, schema) :: rest, (key', schema') :: rest' =>
    key == key' && schema.same schema' && sameChildren rest rest'
  | _, _ => false

end

instance : BEq Schema := ⟨same⟩

/-! ## Well-formedness -/

/-- Whether a variant of a union with a tag is an object that leaves the tag to the union. -/
def IsVariant (tag : String) (schema : Schema) : Prop :=
  match schema.form with
  | .object required optional _ => declares required optional tag = false
  | _ => False

mutual

/-- **Well-formedness**: at every depth an enumeration has values and none twice, and the variants
of a union are objects that leave the tag to the union. -/
def WellFormed : Schema → Prop
  | ⟨form, _, _⟩ => WellFormedForm form

/-- Well-formedness of a form. -/
def WellFormedForm : Form → Prop
  | .scalar _ => True
  | .enumeration values => values ≠ [] ∧ values.Nodup
  | .object required optional _ => WellFormedChildren required ∧ WellFormedChildren optional
  | .array element => element.WellFormed
  | .record value => value.WellFormed
  | .union tag variants => WellFormedChildren variants ∧ ∀ pair ∈ variants, IsVariant tag pair.2
  | .ref _ => True

/-- Well-formedness of the values of a map. -/
def WellFormedChildren : List (String × Schema) → Prop
  | [] => True
  | (_, schema) :: rest => schema.WellFormed ∧ WellFormedChildren rest

end

end Schema

end RpcSchema
