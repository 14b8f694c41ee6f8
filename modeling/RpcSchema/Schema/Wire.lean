import RpcSchema.Document.FromText
import RpcSchema.Json.Writer
import RpcSchema.Schema.Error
import RpcSchema.Schema.Keywords

set_option autoImplicit false

/-!
# Schemas as documents

A schema is read from its keywords under the rules of the forms: exactly one form, values in an
enumeration and none twice, both halves of a union, variants that are objects and leave the tag to
the union. Writing leaves out what is not said: an empty section of optional properties, strictness,
the refusal of `null`, metadata without content.

## Main definitions

* `RpcSchema.Keywords.toSchema` — the schema that keywords describe.
* `RpcSchema.Schema.ofJson`, `RpcSchema.Schema.ofText` — reading.
* `RpcSchema.Schema.toJson` — writing.
* `RpcSchema.Schema.fingerprint` — the compact text of the written schema.
-/

namespace RpcSchema

/-! ## Rules -/

/-- The values of an enumeration: at least one, and none twice. -/
def checkValues (place : Path) (values : List String) : Except SchemaError Unit :=
  if values.isEmpty then .error ⟨place, .emptyEnumeration⟩ else go [] values
where
  /-- Looks for the first value that was there before. -/
  go (seen : List String) : List String → Except SchemaError Unit
    | [] => .ok ()
    | value :: rest =>
      if seen.contains value then .error ⟨place, .repeatedValue value⟩
      else go (value :: seen) rest

/-- The variants of a union: objects that leave the tag to the union. -/
def checkVariants (place : Path) (tag : String) : Entries Schema → Except SchemaError Unit
  | [] => .ok ()
  | (name, schema) :: rest =>
    let place' := place ++ [.key "mapping", .key name]
    match schema.form with
    | .object required optional _ =>
      if Schema.declares required optional tag then .error ⟨place', .tagRedeclared name tag⟩
      else checkVariants place tag rest
    | _ => .error ⟨place', .variantNotObject name⟩

namespace Keywords

/-! ## Reading -/

/-- The forms whose keywords are there. -/
def forms (keywords : Keywords) : List String :=
  (if keywords.type.isSome then ["type"] else []) ++
  (if keywords.values.isSome then ["enum"] else []) ++
  (if keywords.properties.isSome || keywords.optionalProperties.isSome then ["properties"]
    else []) ++
  (if keywords.elements.isSome then ["elements"] else []) ++
  (if keywords.record.isSome then ["values"] else []) ++
  (if keywords.discriminator.isSome || keywords.mapping.isSome then ["discriminator"] else []) ++
  (if keywords.ref.isSome then ["ref"] else [])

/-- Exactly one form is there. -/
def checkForms (place : Path) (forms : List String) : Except SchemaError Unit :=
  match forms with
  | [] => .error ⟨place, .noForm⟩
  | [_] => .ok ()
  | forms => .error ⟨place, .ambiguousForm forms⟩

mutual

/-- **The schema that keywords describe**, at a place of the document. -/
def toSchema (place : Path) : Keywords → Except SchemaError Schema
  | ⟨type, values, elements, record, properties, optionalProperties, additionalProperties,
      discriminator, mapping, ref, nullable, metadata⟩ => do
    checkForms place (forms ⟨type, values, elements, record, properties, optionalProperties,
      additionalProperties, discriminator, mapping, ref, nullable, metadata⟩)
    let form ←
      if let some name := type then
        match ScalarKind.ofName? name with
        | some kind => pure (Form.scalar kind)
        | none => .error ⟨place, .unknownScalar name⟩
      else if let some values := values then do
        checkValues place values
        pure (Form.enumeration values)
      else if properties.isSome || optionalProperties.isSome then do
        let required ← toSection place "properties" properties
        let optional ← toSection place "optionalProperties" optionalProperties
        pure (Form.object required optional !(additionalProperties.getD false))
      else if elements.isSome then
        (toSchema? (place ++ [.key "elements"]) elements).map Form.array
      else if record.isSome then
        (toSchema? (place ++ [.key "values"]) record).map Form.record
      else if let some target := ref then pure (Form.ref target)
      else
        match discriminator with
        | none => .error ⟨place, .incompleteUnion⟩
        | some tag => do
          if mapping.isNone then .error ⟨place, .incompleteUnion⟩
          else do
            let variants ← toSection place "mapping" mapping
            checkVariants place tag variants
            pure (Form.union tag variants)
    return ⟨form, nullable, metadata⟩

/-- The schema of a keyword that holds one. -/
def toSchema? (place : Path) : Option Keywords → Except SchemaError Schema
  | none => .error ⟨place, .noForm⟩
  | some keywords => keywords.toSchema place

/-- The schemas of a keyword that holds a map of them; without the keyword there are none. -/
def toSection (place : Path) (keyword : String) :
    Option (List (String × Keywords)) → Except SchemaError (Entries Schema)
  | none => .ok []
  | some children => toChildren (place ++ [.key keyword]) children

/-- The schemas of a map. -/
def toChildren (place : Path) :
    List (String × Keywords) → Except SchemaError (Entries Schema)
  | [] => .ok []
  | (key, keywords) :: rest => do
    let schema ← keywords.toSchema (place ++ [.key key])
    let rest ← toChildren place rest
    return (key, schema) :: rest

end

end Keywords

namespace Schema

/-- **Reads a schema** from a JSON value. -/
def ofJson (value : Json) : Except SchemaError Schema :=
  match Keywords.read value with
  | .error error => .error (.ofReadError error)
  | .ok keywords => keywords.toSchema []

/-- **Reads a schema** from a text. -/
def ofText (text : String) : Except SchemaError Schema :=
  match Record.schema.ofText text with
  | .error error => .error (.ofReadError error)
  | .ok document => ofJson document

/-! ## Writing -/

/-- What is said about a schema, as far as anything is. -/
def metadataJson (metadata : Metadata) : Json :=
  .object <|
    (metadata.id.map fun id => ("id", Json.string id)).toList ++
    (metadata.description.map fun text => ("description", Json.string text)).toList ++
    (if metadata.deprecated then [("isDeprecated", Json.bool true)] else [])

/-- The keywords that any form may have. -/
def modifierEntries (nullable : Bool) (metadata : Metadata) : Entries Json :=
  (if nullable then [("nullable", Json.bool true)] else []) ++
  (if metadata.isEmpty then [] else [("metadata", metadataJson metadata)])

mutual

/-- **The document of a schema.** -/
def toJson : Schema → Json
  | ⟨form, nullable, metadata⟩ =>
    .object (formEntries form ++ modifierEntries nullable metadata)

/-- The keywords of a form. -/
def formEntries : Form → List (String × Json)
  | .scalar kind => [("type", .string kind.name)]
  | .enumeration values => [("enum", .array (values.map .string))]
  | .object required optional strict =>
    [("properties", .object (childEntries required))] ++
    (if optional.isEmpty then []
      else [("optionalProperties", .object (childEntries optional))]) ++
    (if strict then [] else [("additionalProperties", .bool true)])
  | .array element => [("elements", element.toJson)]
  | .record value => [("values", value.toJson)]
  | .union tag variants =>
    [("discriminator", .string tag), ("mapping", .object (childEntries variants))]
  | .ref target => [("ref", .string target)]

/-- The documents of the schemas of a map. -/
def childEntries : List (String × Schema) → List (String × Json)
  | [] => []
  | (key, schema) :: rest => (key, schema.toJson) :: childEntries rest

end

/-- The documents of the schemas of a map stand under their keys. -/
theorem childEntries_eq_mapValues (children : List (String × Schema)) :
    childEntries children = Entries.mapValues toJson children := by
  induction children with
  | nil => rfl
  | cons child rest ih =>
    rw [childEntries, ih]
    rfl

/-- **The fingerprint of a schema**: the compact text of its document. -/
def fingerprint (schema : Schema) : String := schema.toJson.compact

end Schema

end RpcSchema
