import RpcSchema.Proofs.Document
import RpcSchema.Proofs.Schema.Induction
import RpcSchema.Proofs.Schema.Rules

set_option autoImplicit false

/-!
# Schemas that are written and read

The document of a schema spells each keyword of its form once. Reading takes in exactly these
keywords, and they describe the schema itself if it keeps the rules, and nothing if it does not.

## Main definitions

* `RpcSchema.Keywords.ofSchema` — the keywords that the document of a schema spells.

## Main results

* `RpcSchema.Keywords.read_toJson` — reading takes in these keywords.
* `RpcSchema.Keywords.toSchema_ofSchema_iff` — they describe the schema when it is well-formed.
* `RpcSchema.Schema.ofJson_toJson_iff` — which schemas are read back as they are.
* `RpcSchema.Schema.ofJson_exact` — the same, and what any document is read as.
-/

namespace RpcSchema

open Outcome (bind_eq_ok_iff map_eq_ok_iff)

/-- Empty metadata say nothing. -/
theorem Metadata.eq_of_isEmpty {metadata : Metadata} (h : metadata.isEmpty = true) :
    metadata = {} := by
  obtain ⟨id, description, deprecated⟩ := metadata
  simp_all [Metadata.isEmpty]

/-- The document of a schema is an object. -/
theorem Schema.isNull_toJson (schema : Schema) : schema.toJson.isNull = false := by
  obtain ⟨form, nullable, metadata⟩ := schema
  rw [Schema.toJson]
  rfl

namespace Keywords

mutual

/-- **The keywords that the document of a schema spells.** -/
def ofSchema : Schema → Keywords
  | ⟨form, nullable, metadata⟩ => { ofForm form with nullable, metadata }

/-- The keywords of a form. -/
def ofForm : Form → Keywords
  | .scalar kind => { type := some kind.name }
  | .enumeration values => { values := some values }
  | .object required optional strict =>
    { properties := some (ofChildren required)
      optionalProperties := if optional.isEmpty then none else some (ofChildren optional)
      additionalProperties := if strict then none else some true }
  | .array element => { elements := some (ofSchema element) }
  | .record value => { record := some (ofSchema value) }
  | .union tag variants => { discriminator := some tag, mapping := some (ofChildren variants) }
  | .ref target => { ref := some target }

/-- The keywords of the schemas of a map. -/
def ofChildren : List (String × Schema) → List (String × Keywords)
  | [] => []
  | (key, schema) :: rest => (key, ofSchema schema) :: ofChildren rest

end

/-! ## Taking in keywords -/

theorem readFields_append (entries rest : List (String × Json)) (keywords : Keywords) :
    readFields (entries ++ rest) keywords = (readFields entries keywords >>= readFields rest) := by
  induction entries generalizing keywords with
  | nil => rfl
  | cons entry entries ih =>
    obtain ⟨name, value⟩ := entry
    rw [List.cons_append, readFields, readFields]
    split
    · rfl
    · exact ih _

/-- What is said about a schema is read as it is written. -/
theorem read_metadataJson (metadata : Metadata) :
    Metadata.read (Schema.metadataJson metadata) = .ok metadata := by
  obtain ⟨id, description, deprecated⟩ := metadata
  cases id <;> cases description <;> cases deprecated <;> rfl

/-- The keywords that any form may have are taken in beside those of the form. -/
theorem readFields_modifierEntries {keywords : Keywords} (hnullable : keywords.nullable = false)
    (hmetadata : keywords.metadata = {}) (nullable : Bool) (metadata : Metadata) :
    readFields (Schema.modifierEntries nullable metadata) keywords =
      .ok { keywords with nullable, metadata } := by
  obtain ⟨type, values, elements, record, properties, optionalProperties, additionalProperties,
    discriminator, mapping, ref, nullable', metadata'⟩ := keywords
  obtain rfl : nullable' = false := hnullable
  obtain rfl : metadata' = {} := hmetadata
  have hread := read_metadataJson metadata
  unfold Schema.modifierEntries
  cases hempty : metadata.isEmpty with
  | true =>
    obtain rfl := Metadata.eq_of_isEmpty hempty
    cases nullable <;> rfl
  | false =>
    cases nullable <;>
      simp [readFields, readKeyword, hread, Except.map, ReadError.locate, Read.flag]

theorem readEntries_childEntries {children : List (String × Schema)}
    (h : ∀ child ∈ children, read child.2.toJson = .ok (ofSchema child.2)) :
    readEntries (Schema.childEntries children) = .ok (ofChildren children) := by
  induction children with
  | nil => rfl
  | cons child rest ih =>
    obtain ⟨key, schema⟩ := child
    obtain ⟨hschema, hrest⟩ := List.forall_mem_cons.mp h
    rw [Schema.childEntries, readEntries, hschema, ih hrest]
    rfl

/-- Taking in the document of a schema is taking in the keywords of its form. -/
theorem read_toJson_of_form {form : Form} (nullable : Bool) (metadata : Metadata)
    (h : readFields (Schema.formEntries form) {} = .ok (ofForm form)) :
    read (Schema.toJson ⟨form, nullable, metadata⟩) =
      .ok (ofSchema ⟨form, nullable, metadata⟩) := by
  have hnullable : (ofForm form).nullable = false := by cases form <;> rfl
  have hmetadata : (ofForm form).metadata = {} := by cases form <;> rfl
  rw [Schema.toJson, read, readFields_append, h]
  exact readFields_modifierEntries hnullable hmetadata nullable metadata

/-- **Reading takes in the keywords** that the document of a schema spells. -/
theorem read_toJson (schema : Schema) : read schema.toJson = .ok (ofSchema schema) := by
  induction schema using Schema.induct with
  | scalar kind nullable metadata => exact read_toJson_of_form nullable metadata rfl
  | enumeration values nullable metadata =>
    apply read_toJson_of_form
    simp [Schema.formEntries, ofForm, readFields, readKeyword, Read.optional, Read.list_text,
      Except.map, ReadError.locate]
  | object required optional strict nullable metadata hrequired hoptional =>
    have hrequired := readEntries_childEntries hrequired
    have hoptional := readEntries_childEntries hoptional
    apply read_toJson_of_form
    cases hempty : optional.isEmpty <;> cases strict <;>
      simp [Schema.formEntries, ofForm, readFields, readKeyword, Json.isNull, readMap, hrequired,
        hoptional, hempty, Except.map, ReadError.locate, Read.optional, Read.flag]
  | array element nullable metadata ih =>
    apply read_toJson_of_form
    simp [Schema.formEntries, ofForm, readFields, readKeyword, Schema.isNull_toJson, ih, Except.map,
      ReadError.locate]
  | record value nullable metadata ih =>
    apply read_toJson_of_form
    simp [Schema.formEntries, ofForm, readFields, readKeyword, Schema.isNull_toJson, ih, Except.map,
      ReadError.locate]
  | union tag variants nullable metadata ih =>
    have hvariants := readEntries_childEntries ih
    apply read_toJson_of_form
    simp [Schema.formEntries, ofForm, readFields, readKeyword, Json.isNull, readMap, hvariants,
      Except.map, ReadError.locate, Read.optional, Read.text]
  | ref target nullable metadata => exact read_toJson_of_form nullable metadata rfl

/-! ## What keywords describe -/

variable {place : Path}

theorem toSection_ofChildren (keyword : String) (children : List (String × Schema)) :
    toSection place keyword (if children.isEmpty then none else some (ofChildren children)) =
      toChildren (place ++ [.key keyword]) (ofChildren children) := by
  cases children with
  | nil => rfl
  | cons child rest => rfl

theorem toSchema_ofSchema_scalar (kind : ScalarKind) (nullable : Bool) (metadata : Metadata) :
    (ofSchema ⟨.scalar kind, nullable, metadata⟩).toSchema place =
      .ok ⟨.scalar kind, nullable, metadata⟩ := by
  simp [ofSchema, ofForm, toSchema, forms, checkForms, ScalarKind.ofName?_name]

theorem toSchema_ofSchema_object (required optional : List (String × Schema))
    (strict nullable : Bool) (metadata : Metadata) :
    (ofSchema ⟨.object required optional strict, nullable, metadata⟩).toSchema place = do
      let required ← toChildren (place ++ [.key "properties"]) (ofChildren required)
      let optional ← toChildren (place ++ [.key "optionalProperties"]) (ofChildren optional)
      return ⟨.object required optional strict, nullable, metadata⟩ := by
  rw [← toSection_ofChildren "optionalProperties" optional, ofSchema, ofForm, toSchema]
  cases strict <;> rfl

theorem toSchema_ofSchema_enumeration (values : List String) (nullable : Bool)
    (metadata : Metadata) :
    (ofSchema ⟨.enumeration values, nullable, metadata⟩).toSchema place = do
      checkValues place values
      return ⟨.enumeration values, nullable, metadata⟩ := by
  rw [ofSchema, ofForm, toSchema]
  rfl

/-- Putting a schema into a form and the form between the modifiers is one step. -/
theorem map_bind_modifiers (outcome : Except SchemaError Schema) (f : Schema → Form)
    (nullable : Bool) (metadata : Metadata) :
    (outcome.map f >>= fun form => (pure ⟨form, nullable, metadata⟩ : Except SchemaError Schema)) =
      outcome.map fun schema => ⟨f schema, nullable, metadata⟩ := by
  cases outcome <;> rfl

theorem toSchema_ofSchema_array (element : Schema) (nullable : Bool) (metadata : Metadata) :
    (ofSchema ⟨.array element, nullable, metadata⟩).toSchema place =
      ((ofSchema element).toSchema (place ++ [.key "elements"])).map fun element =>
        ⟨.array element, nullable, metadata⟩ := by
  rw [ofSchema, ofForm, toSchema, ← map_bind_modifiers]
  rfl

theorem toSchema_ofSchema_record (value : Schema) (nullable : Bool) (metadata : Metadata) :
    (ofSchema ⟨.record value, nullable, metadata⟩).toSchema place =
      ((ofSchema value).toSchema (place ++ [.key "values"])).map fun value =>
        ⟨.record value, nullable, metadata⟩ := by
  rw [ofSchema, ofForm, toSchema, ← map_bind_modifiers]
  rfl

theorem toSchema_ofSchema_union (tag : String) (variants : List (String × Schema))
    (nullable : Bool) (metadata : Metadata) :
    (ofSchema ⟨.union tag variants, nullable, metadata⟩).toSchema place = do
      let variants ← toChildren (place ++ [.key "mapping"]) (ofChildren variants)
      checkVariants place tag variants
      return ⟨.union tag variants, nullable, metadata⟩ := by
  rw [ofSchema, ofForm, toSchema]
  rfl

theorem toSchema_ofSchema_ref (target : String) (nullable : Bool) (metadata : Metadata) :
    (ofSchema ⟨.ref target, nullable, metadata⟩).toSchema place =
      .ok ⟨.ref target, nullable, metadata⟩ := by
  rw [ofSchema, ofForm, toSchema]
  rfl

/-- A schema around another describes itself when the other does. -/
theorem map_toSchema_iff {schema : Schema}
    (h : ∀ {place : Path} {read : Schema},
      (ofSchema schema).toSchema place = .ok read ↔ read = schema ∧ schema.WellFormed)
    (around : Schema → Schema) {read : Schema} :
    ((ofSchema schema).toSchema place).map around = .ok read ↔
      read = around schema ∧ schema.WellFormed := by
  rw [map_eq_ok_iff]
  constructor
  · rintro ⟨_, hschema, rfl⟩
    obtain ⟨rfl, hwellFormed⟩ := h.mp hschema
    exact ⟨rfl, hwellFormed⟩
  · rintro ⟨rfl, hwellFormed⟩
    exact ⟨schema, h.mpr ⟨rfl, hwellFormed⟩, rfl⟩

/-- A map describes itself when each of its schemas does. -/
theorem toChildren_ofChildren_iff {children : List (String × Schema)}
    (h : ∀ child ∈ children, ∀ {place : Path} {read : Schema},
      (ofSchema child.2).toSchema place = .ok read ↔ read = child.2 ∧ child.2.WellFormed)
    {read : Entries Schema} :
    toChildren place (ofChildren children) = .ok read ↔
      read = children ∧ Schema.WellFormedChildren children := by
  induction children generalizing read with
  | nil => simp [ofChildren, toChildren, Schema.WellFormedChildren, eq_comm]
  | cons child rest ih =>
    obtain ⟨key, schema⟩ := child
    obtain ⟨hschema, hrest⟩ := List.forall_mem_cons.mp h
    rw [ofChildren, toChildren, bind_eq_ok_iff, Schema.WellFormedChildren]
    simp only [bind_eq_ok_iff, hschema, ih hrest]
    constructor
    · rintro ⟨_, ⟨rfl, hschema⟩, _, ⟨rfl, hrest⟩, hread⟩
      cases hread
      exact ⟨rfl, hschema, hrest⟩
    · rintro ⟨rfl, hschema, hrest⟩
      exact ⟨_, ⟨rfl, hschema⟩, _, ⟨rfl, hrest⟩, rfl⟩

/-- **The keywords of a schema describe it** when it is well-formed, and nothing otherwise. -/
theorem toSchema_ofSchema_iff (schema : Schema) : ∀ {place : Path} {read : Schema},
    (ofSchema schema).toSchema place = .ok read ↔ read = schema ∧ schema.WellFormed := by
  induction schema using Schema.induct with
  | scalar kind nullable metadata =>
    intro place read
    rw [toSchema_ofSchema_scalar, Schema.WellFormed]
    simp [Schema.WellFormedForm, eq_comm]
  | enumeration values nullable metadata =>
    intro place read
    rw [toSchema_ofSchema_enumeration, bind_eq_ok_iff, Schema.WellFormed]
    constructor
    · rintro ⟨_, hcheck, h⟩
      cases h
      exact ⟨rfl, checkValues_eq_ok_iff.mp hcheck⟩
    · rintro ⟨rfl, h⟩
      exact ⟨(), checkValues_eq_ok_iff.mpr h, rfl⟩
  | object required optional strict nullable metadata ihRequired ihOptional =>
    intro place read
    simp only [toSchema_ofSchema_object, bind_eq_ok_iff, toChildren_ofChildren_iff ihRequired,
      toChildren_ofChildren_iff ihOptional, Schema.WellFormed]
    constructor
    · rintro ⟨_, ⟨rfl, hrequired⟩, _, ⟨rfl, hoptional⟩, h⟩
      cases h
      exact ⟨rfl, hrequired, hoptional⟩
    · rintro ⟨rfl, hrequired, hoptional⟩
      exact ⟨_, ⟨rfl, hrequired⟩, _, ⟨rfl, hoptional⟩, rfl⟩
  | array element nullable metadata ih =>
    intro place read
    rw [toSchema_ofSchema_array]
    exact map_toSchema_iff ih _
  | record value nullable metadata ih =>
    intro place read
    rw [toSchema_ofSchema_record]
    exact map_toSchema_iff ih _
  | union tag variants nullable metadata ih =>
    intro place read
    simp only [toSchema_ofSchema_union, bind_eq_ok_iff, toChildren_ofChildren_iff ih,
      Schema.WellFormed]
    constructor
    · rintro ⟨_, ⟨rfl, hvariants⟩, _, hcheck, h⟩
      cases h
      exact ⟨rfl, hvariants, checkVariants_eq_ok_iff.mp hcheck⟩
    · rintro ⟨rfl, hvariants, hcheck⟩
      exact ⟨_, ⟨rfl, hvariants⟩, (), checkVariants_eq_ok_iff.mpr hcheck, rfl⟩
  | ref target nullable metadata =>
    intro place read
    rw [toSchema_ofSchema_ref, Schema.WellFormed]
    simp [Schema.WellFormedForm, eq_comm]

end Keywords

namespace Schema

/-! ## Exactness -/

/-- A document is read when its keywords describe a schema. -/
theorem ofJson_eq_ok_iff {document : Json} {schema : Schema} :
    ofJson document = .ok schema ↔
      ∃ keywords, Keywords.read document = .ok keywords ∧ keywords.toSchema [] = .ok schema := by
  unfold ofJson
  cases Keywords.read document <;> simp

/-- **What is read from the document of a schema** is this schema, and it is well-formed. -/
theorem ofJson_toJson_iff {schema read : Schema} :
    ofJson schema.toJson = .ok read ↔ read = schema ∧ schema.WellFormed := by
  rw [ofJson_eq_ok_iff, Keywords.read_toJson]
  simp [Keywords.toSchema_ofSchema_iff]

/-- **What is read from any document** is well-formed. -/
theorem wellFormed_of_ofJson {document : Json} {schema : Schema}
    (h : ofJson document = .ok schema) : schema.WellFormed := by
  obtain ⟨keywords, -, hschema⟩ := ofJson_eq_ok_iff.mp h
  exact Keywords.wellFormed_of_toSchema hschema

/-- **The format of schemas is exact**: the document of a schema is read as the schema if and only
if it is well-formed, and is an error otherwise; and every schema that is read is well-formed. -/
theorem ofJson_exact :
    (∀ schema : Schema, (ofJson schema.toJson = .ok schema ↔ schema.WellFormed) ∧
      (¬ schema.WellFormed → ∃ error, ofJson schema.toJson = .error error)) ∧
    ∀ (document : Json) (schema : Schema), ofJson document = .ok schema → schema.WellFormed := by
  refine ⟨fun schema => ⟨?_, fun h => ?_⟩, fun document schema => wellFormed_of_ofJson⟩
  · simp [ofJson_toJson_iff]
  · refine Outcome.exists_error_iff.mpr fun read hread => ?_
    exact h (ofJson_toJson_iff.mp hread).2

/-- The case of a variant with a property under the tag of its union, inside a list. -/
theorem ofJson_exact_tag_in_list :
    let variant := object.optionalProperty "kind" (scalar .string)
    let schema := array ((union "kind").variant "a" variant)
    ¬ schema.WellFormed ∧ ∃ error, ofJson schema.toJson = .error error := by
  intro variant schema
  have hvariant : ¬ IsVariant "kind" variant := by
    intro h
    exact absurd (show declares [] [("kind", scalar .string)] "kind" = false from h) (by decide)
  have hschema : ¬ schema.WellFormed := fun h => hvariant (h.2 ("a", variant) List.mem_cons_self)
  exact ⟨hschema, (ofJson_exact.1 schema).2 hschema⟩

end Schema

end RpcSchema
