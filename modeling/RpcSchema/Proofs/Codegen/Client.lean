import RpcSchema.Codegen.TypeScript.Client
import RpcSchema.Proofs.Codegen.Succeeding
import RpcSchema.Proofs.Procedure.Tree

set_option autoImplicit false

/-!
# Clients for checked definitions

The classes of a client are made from a tree of procedures, and the declarations from the models and
the errors. The first needs the models that procedures take and give, the second closed schemas.

## Main definitions

* `RpcSchema.Procedure.Resolves` — the models that a procedure takes and gives are there.
* `RpcSchema.TypeScript.namedTypes` — the named types that a client may declare.

## Main results

* `RpcSchema.TypeScript.exists_serviceClasses` — the classes of a client.
* `RpcSchema.TypeScript.succeeds_typeOutlines` — the outlines of its types.
-/

namespace RpcSchema

open Outcome (bind_eq_ok_iff exists_mapM)

/-- **The models that a procedure takes and gives** are there. -/
structure Procedure.Resolves (models : Models) (procedure : Procedure) : Prop where
  params : ∀ model, procedure.params = some model → model ∈ Entries.keys models
  response : ∀ model, procedure.response = some model → model ∈ Entries.keys models

namespace TypeScript

variable {scheme : NameScheme}

/-! ## Classes -/

/-- A model that is there has a type. -/
theorem exists_payloadType {payload : Option String}
    (h : ∀ model, payload = some model → model ∈ Entries.keys scheme.models) (key role : String) :
    ∃ type, payloadType scheme key role payload = .ok type := by
  cases payload with
  | none => exact ⟨none, rfl⟩
  | some model =>
    obtain ⟨schema, hschema⟩ := Entries.exists_lookup_iff.mpr (h model rfl)
    refine ⟨some (scheme.typeName schema.typeId model), ?_⟩
    rw [payloadType, NameScheme.modelTypeName?, hschema]
    rfl

theorem exists_clientMethod {procedure : Procedure} (h : procedure.Resolves scheme.models)
    (path : List String) (segment : String) :
    ∃ method, clientMethod scheme path segment procedure = .ok method := by
  obtain ⟨params, hparams⟩ :=
    exists_payloadType h.params (".".intercalate (path ++ [segment])) "params"
  obtain ⟨response, hresponse⟩ :=
    exists_payloadType h.response (".".intercalate (path ++ [segment])) "response"
  exact ⟨_, bind_eq_ok_iff.mpr ⟨params, hparams, bind_eq_ok_iff.mpr ⟨response, hresponse, rfl⟩⟩⟩

/-- The procedures of a level are among its entries. -/
theorem resolves_of_mem_procedures {children : List (String × Branch)}
    (h : Service.AllChildren (Procedure.Resolves scheme.models) children) :
    ∀ entry ∈ Service.procedures ⟨children⟩, entry.2.Resolves scheme.models := by
  intro entry hentry
  obtain ⟨⟨key, branch⟩, hchild, hprocedure⟩ := List.mem_filterMap.mp hentry
  have hbranch := Service.allChildren_iff.mp h _ hchild
  cases branch with
  | procedure procedure =>
    cases hprocedure
    exact hbranch
  | service service => cases hprocedure

mutual

/-- **The classes for a service** are given when the models of its procedures are there. -/
theorem exists_serviceClasses (client : String) : ∀ (service : Service) (name : String)
    (path : List String), service.All (Procedure.Resolves scheme.models) →
      ∃ classes, serviceClasses scheme client name path service = .ok classes
  | ⟨children⟩, name, path, h => by
    obtain ⟨methods, hmethods⟩ := exists_mapM fun entry hentry =>
      exists_clientMethod (resolves_of_mem_procedures h entry hentry) path entry.1
    obtain ⟨inner, hinner⟩ := exists_branchClasses client children path h
    rw [serviceClasses]
    exact ⟨_, bind_eq_ok_iff.mpr ⟨methods, hmethods, bind_eq_ok_iff.mpr ⟨inner, hinner, rfl⟩⟩⟩

/-- The classes for the services among entries. -/
theorem exists_branchClasses (client : String) : ∀ (children : List (String × Branch))
    (path : List String), Service.AllChildren (Procedure.Resolves scheme.models) children →
      ∃ classes, branchClasses scheme client path children = .ok classes
  | [], path, _ => ⟨[], by rw [branchClasses]; rfl⟩
  | (segment, .procedure procedure) :: rest, path, h => by
    rw [branchClasses]
    exact exists_branchClasses client rest path h.2
  | (segment, .service service) :: rest, path, h => by
    obtain ⟨classes, hclasses⟩ := exists_serviceClasses client service
      (className client (path ++ [segment])) (path ++ [segment]) h.1
    obtain ⟨further, hfurther⟩ := exists_branchClasses client rest path h.2
    rw [branchClasses]
    exact ⟨_, bind_eq_ok_iff.mpr
      ⟨classes, hclasses, bind_eq_ok_iff.mpr ⟨further, hfurther, rfl⟩⟩⟩

end

/-! ## Types -/

/-- The named types in the models of a definition and in its errors. -/
def typesOf (scheme : NameScheme) (definition : Definition) (client : String) :
    List (String × Schema) :=
  Models.namedTypes scheme definition.models ++
    (errorSchema definition client).namedTypes scheme "errors"

/-- **The named types that a client may declare**, under the names that they are given. -/
def namedTypes (config : GeneratorConfig) (options : GeneratorOptions) (definition : Definition) :
    List (String × Schema) :=
  typesOf ((backend config).scheme definition.models) definition
    (Naming.pascalPath options.clientName)

/-- Naming the schema of errors leaves it closed. -/
theorem closed_errorSchema {models : Models} {definition : Definition}
    (h : definition.errors.Closed models) (client : String) :
    (errorSchema definition client).Closed models := by
  unfold errorSchema
  split
  · exact h
  · exact h.withId (client ++ "Error")

/-- **The outlines of the types** of a definition with closed schemas. -/
theorem succeeds_typeOutlines {definition : Definition} {strict : Bool}
    (hmodels : ∀ model ∈ definition.models, model.2.Closed scheme.models)
    (herrors : definition.errors.Closed scheme.models) (client : String) :
    (typeOutlines scheme definition client).Succeeds (typesOf scheme definition client)
      strict := by
  have hmodelTypes : ∀ type ∈ Models.namedTypes scheme definition.models,
      type ∈ typesOf scheme definition client := fun _ => List.mem_append_left _
  have herrorTypes : ∀ type ∈ (errorSchema definition client).namedTypes scheme "errors",
      type ∈ typesOf scheme definition client := fun _ => List.mem_append_right _
  have herrors' := closed_errorSchema herrors client
  exact (Models.succeeds_outline definition.models hmodels hmodelTypes).bind fun _ =>
    (Schema.succeeds_outline _ herrors' herrorTypes).bind fun _ => .pure _

end TypeScript

end RpcSchema
