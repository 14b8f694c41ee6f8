import RpcSchema.Definition.Basic
import RpcSchema.Proofs.Document
import RpcSchema.Proofs.Schema.WireFormat

set_option autoImplicit false

/-!
# Definitions that are written and read

A definition that has been read has well-formed schemas, and a definition with well-formed schemas
is read from its document as it is: what the document leaves out is what reading puts in its place.

## Main results

* `RpcSchema.Procedure.ofJson_toJson` — procedures are read as they are written.
* `RpcSchema.Definition.wellFormed_of_ofJson` — the schemas of a definition that has been read.
* `RpcSchema.Definition.ofJson_toJson` — definitions with such schemas are read as they are written.
* `RpcSchema.Definition.ofJson_toJson_of_ofJson` — so are definitions that have been read.
-/

namespace RpcSchema

open Outcome (bind_eq_ok_iff mapError_eq_ok_iff)

/-! ## Procedures -/

theorem Method.ofName?_name (method : Method) : ofName? method.name = some method := by
  cases method <;> decide

theorem Transport.ofName?_name (transport : Transport) :
    ofName? transport.name = some transport := by
  cases transport <;> decide

namespace Procedure

/-- The names of methods and transports are read as what they stand for. -/
theorem read_method (method : Method) :
    Read.choice Record.methodNames Method.ofName? (.string method.name) = .ok method :=
  Read.choice_string method.ofName?_name

theorem read_transport (transport : Transport) :
    Read.choice Record.transportNames Transport.ofName? (.string transport.name) =
      .ok transport :=
  Read.choice_string transport.ofName?_name

/-- **Procedures are read as they are written.** What is left out of the document is what a draft
starts with. -/
theorem ofJson_toJson (procedure : Procedure) : ofJson procedure.toJson = .ok procedure := by
  obtain ⟨path, method, params, response, transport, isEventStream, description⟩ := procedure
  rw [ofJson, toJson, Record.read_object]
  · cases params <;> cases response <;> cases isEventStream <;> cases description <;>
      simp [textEntry, Draft.readField, read_method, read_transport, Read.text, Read.optional,
        Read.flag, Except.map, ReadError.locate, Draft.finish, bind, Except.bind, pure, Except.pure]
  · cases params <;> cases response <;> cases isEventStream <;> cases description <;>
      exact of_decide_eq_true rfl
  · cases params <;> cases response <;> cases isEventStream <;> cases description <;>
      exact of_decide_eq_true rfl

end Procedure

namespace Definition

/-! ## Parts of a definition -/

/-- What is said about an application is read as it is written. -/
theorem read_info (info : Info) :
    Read.optional readInfo (infoJson info) = .ok (some info) := by
  obtain ⟨title, description, version⟩ := info
  cases title <;> cases description <;> cases version <;> rfl

/-- Procedures are read under their keys. -/
theorem read_procedures (procedures : Entries Procedure) :
    Read.map Procedure.ofJson (.object (Entries.mapValues Procedure.toJson procedures)) =
      .ok procedures := by
  have h : Read.map Procedure.ofJson (.object (Entries.mapValues Procedure.toJson procedures)) =
      .ok (Entries.mapValues id procedures) :=
    Read.map_mapValues fun entry _ => Procedure.ofJson_toJson entry.2
  rw [h, Entries.mapValues]
  simp

/-- The keywords of models are taken in under their names. -/
theorem read_models (models : Models) :
    Read.map Keywords.read (.object (Schema.childEntries models)) =
      .ok (Entries.mapValues Keywords.ofSchema models) := by
  rw [Schema.childEntries_eq_mapValues]
  exact Read.map_mapValues fun entry _ => Keywords.read_toJson entry.2

/-- **The models that are read** are well-formed. -/
theorem wellFormed_of_readModels {keywords : Entries Keywords} {models : Models}
    (h : readModels keywords = .ok models) : ∀ model ∈ models, model.2.WellFormed := by
  induction keywords generalizing models with
  | nil =>
    cases h
    simp
  | cons entry rest ih =>
    obtain ⟨schema, hschema, h⟩ := bind_eq_ok_iff.mp h
    obtain ⟨others, hothers, h⟩ := bind_eq_ok_iff.mp h
    cases h
    exact List.forall_mem_cons.mpr
      ⟨Keywords.wellFormed_of_toSchema (mapError_eq_ok_iff.mp hschema), ih hothers⟩

/-- **Well-formed models** are read from their keywords as they are. -/
theorem readModels_ofSchema {models : Models} (h : ∀ model ∈ models, model.2.WellFormed) :
    readModels (Entries.mapValues Keywords.ofSchema models) = .ok models := by
  induction models with
  | nil => rfl
  | cons model rest ih =>
    obtain ⟨name, schema⟩ := model
    obtain ⟨hschema, hrest⟩ := List.forall_mem_cons.mp h
    refine bind_eq_ok_iff.mpr ⟨schema, ?_, bind_eq_ok_iff.mpr ⟨rest, ih hrest, rfl⟩⟩
    exact mapError_eq_ok_iff.mpr ((Keywords.toSchema_ofSchema_iff schema).mpr ⟨rfl, hschema⟩)

/-! ## Definitions -/

/-- Every schema of a definition keeps the rules. -/
structure WellFormed (definition : Definition) : Prop where
  models : ∀ model ∈ definition.models, model.2.WellFormed
  errors : definition.errors.WellFormed

/-- A definition is read when its fields are, and a draft of them can be finished. -/
theorem ofJson_eq_ok_iff {document : Json} {definition : Definition} :
    ofJson document = .ok definition ↔
      ∃ draft, Record.definition.read Draft.readField {} document = .ok draft ∧
        draft.finish = .ok definition := by
  unfold ofJson
  cases Record.definition.read Draft.readField {} document <;> simp

/-- **A definition that has been read** has well-formed schemas. -/
theorem wellFormed_of_ofJson {document : Json} {definition : Definition}
    (h : ofJson document = .ok definition) : definition.WellFormed := by
  obtain ⟨draft, -, h⟩ := ofJson_eq_ok_iff.mp h
  unfold Draft.finish at h
  split at h
  · obtain ⟨models, hmodels, h⟩ := bind_eq_ok_iff.mp h
    obtain ⟨errors, herrors, h⟩ := bind_eq_ok_iff.mp h
    cases h
    exact ⟨wellFormed_of_readModels hmodels,
      Keywords.wellFormed_of_toSchema (mapError_eq_ok_iff.mp herrors)⟩
  · cases h
  · cases h

/-- The fields of the document of a definition are taken in one by one. -/
theorem read_toJson (definition : Definition) :
    Record.definition.read Draft.readField {} definition.toJson =
      .ok { schemaVersion := some definition.schemaVersion
            info := definition.info
            procedures := definition.procedures
            models := Entries.mapValues Keywords.ofSchema definition.models
            errors := some (Keywords.ofSchema definition.errors) } := by
  obtain ⟨schemaVersion, info, procedures, models, errors⟩ := definition
  have herrors := Keywords.read_toJson errors
  rw [toJson, Record.read_object]
  · cases info <;>
      simp [Draft.readField, Read.text, read_info, read_procedures, read_models, herrors,
        Except.map, ReadError.locate, bind, Except.bind, pure, Except.pure]
  · cases info <;> exact of_decide_eq_true rfl
  · cases info <;> exact of_decide_eq_true rfl

/-- **Definitions with well-formed schemas are read as they are written.** -/
theorem ofJson_toJson {definition : Definition} (h : definition.WellFormed) :
    ofJson definition.toJson = .ok definition := by
  refine ofJson_eq_ok_iff.mpr ⟨_, read_toJson definition, ?_⟩
  refine bind_eq_ok_iff.mpr ⟨_, readModels_ofSchema h.models, bind_eq_ok_iff.mpr ⟨_, ?_, rfl⟩⟩
  exact mapError_eq_ok_iff.mpr ((Keywords.toSchema_ofSchema_iff _).mpr ⟨rfl, h.errors⟩)

/-- **A definition that has been read is read from its own document as it is**, and from its text if
this text is read as the document that it is written from. -/
theorem ofJson_toJson_of_ofJson {document : Json} {definition : Definition}
    (h : ofJson document = .ok definition) :
    ofJson definition.toJson = .ok definition ∧
      (Record.definition.ofText definition.text = .ok definition.toJson →
        ofText definition.text = .ok definition) := by
  have hread := ofJson_toJson (wellFormed_of_ofJson h)
  refine ⟨hread, fun htext => ?_⟩
  rw [ofText, htext]
  exact hread

/-- The case of a document in another order, with another name of a field and with defaults that
are spelled out. -/
theorem ofJson_toJson_of_ofJson_defaults :
    let metadata : Json := .object [("deprecated", .bool true)]
    let model : Json := .object [("optionalProperties", .object [("id", .object
      [("type", .string "string"), ("nullable", .bool false)])]), ("metadata", metadata)]
    let procedure : Json := .object [("method", .string "get"), ("path", .string "/a")]
    let document : Json := .object [("errors", .object [("properties", .object [])]),
      ("models", .object [("A", model)]), ("procedures", .object [("a", procedure)]),
      ("info", .null), ("arriSchemaVersion", .string "0.0.4")]
    let definition : Definition :=
      { schemaVersion := "0.0.4"
        info := none
        procedures := [("a", { path := "/a", method := .get })]
        models := [("A", (Schema.object.optionalProperty "id" (.scalar .string)).markDeprecated)]
        errors := Schema.object }
    ofJson document = .ok definition ∧ ofJson definition.toJson = .ok definition ∧
      (Record.definition.ofText definition.text = .ok definition.toJson →
        ofText definition.text = .ok definition) := by
  intro metadata model procedure document definition
  have hread : ofJson document = .ok definition := rfl
  exact ⟨hread, ofJson_toJson_of_ofJson hread⟩

end Definition

end RpcSchema
