import RpcSchema.Proofs.Codegen.Client
import RpcSchema.Proofs.Definition.RoundTrip
import RpcSchema.Proofs.Program.Compiling

set_option autoImplicit false

/-!
# What a check of a definition is good for

A definition that has been read and passes its check has closed schemas, procedures whose models are
there, and a tree of procedures. Nothing that comes behind the check asks for more: its models and
errors compile, and it has a client unless there is nothing to call or a name is reused.

## Main definitions

* `RpcSchema.Definition.Ready` — what reading and checking say about a definition.

## Main results

* `RpcSchema.Definition.ready_of_check` — a definition that has been read and passes its check.
* `RpcSchema.Definition.Ready.exists_client` — the client for a definition that has procedures.
* `RpcSchema.Definition.compile_and_render_of_check` — both for a definition that passes its check.
-/

namespace RpcSchema

open Outcome (bind_eq_ok_iff mapError_eq_ok_iff forM_eq_ok_iff)

namespace Definition

/-! ## Checks -/

/-- References find their models if the check of a schema finds none that does not. -/
theorem resolves_of_checkReferences {models : Models} {place : Path} {schema : Schema}
    (h : checkReferences models place schema = .ok ()) :
    ∀ target ∈ schema.targets, target ∈ Entries.keys models := by
  unfold checkReferences at h
  split at h
  · cases h
  · rename_i hnone
    intro target htarget
    obtain ⟨⟨path, _⟩, hreference, rfl⟩ := List.mem_map.mp htarget
    have hcontains := List.find?_eq_none.mp hnone _ hreference
    simpa using hcontains

theorem resolves_of_checkModel {models : Models} {name : String} {place : Path} {schema : Schema}
    (h : checkModel models name place schema = .ok ()) :
    ∀ target ∈ schema.targets, target ∈ Entries.keys models := by
  unfold checkModel at h
  split at h
  · exact resolves_of_checkReferences h
  · cases h

theorem mem_keys_of_checkPayload {models : Models} {procedure role : String}
    {payload : Option String} (h : checkPayload models procedure role payload = .ok ()) :
    ∀ model, payload = some model → model ∈ Entries.keys models := by
  rintro model rfl
  rw [checkPayload] at h
  split at h
  · rename_i hcontains
    exact Entries.contains_eq_true_iff.mp hcontains
  · cases h

/-- **What reading and checking say about a definition.** -/
structure Ready (definition : Definition) : Prop where
  models : ∀ model ∈ definition.models, model.2.Closed definition.models
  errors : definition.errors.Closed definition.models
  procedures : ∀ entry ∈ definition.procedures, entry.2.Resolves definition.models
  check : definition.check = .ok ()
  tree : ∃ tree, Service.ofProcedures definition.procedures = .ok tree

/-- **A definition that has been read and passes its check** is ready. -/
theorem ready_of_check {document : Json} {definition : Definition}
    (hread : ofJson document = .ok definition) (hcheck : definition.check = .ok ()) :
    definition.Ready := by
  have hwellFormed := wellFormed_of_ofJson hread
  obtain ⟨_, hmodels, h⟩ := bind_eq_ok_iff.mp hcheck
  obtain ⟨_, herrors, h⟩ := bind_eq_ok_iff.mp h
  obtain ⟨_, hprocedures, h⟩ := bind_eq_ok_iff.mp h
  obtain ⟨tree, htree, -⟩ := bind_eq_ok_iff.mp h
  refine ⟨fun model hmodel => ⟨hwellFormed.models model hmodel, ?_⟩,
    ⟨hwellFormed.errors, resolves_of_checkModel herrors⟩, fun entry hentry => ?_, hcheck,
    ⟨tree, mapError_eq_ok_iff.mp htree⟩⟩
  · exact resolves_of_checkModel (forM_eq_ok_iff.mp hmodels model hmodel)
  · obtain ⟨_, hparams, hresponse⟩ :=
      bind_eq_ok_iff.mp (forM_eq_ok_iff.mp hprocedures entry hentry)
    exact ⟨mem_keys_of_checkPayload hparams, mem_keys_of_checkPayload hresponse⟩

namespace Ready

variable {definition : Definition} (h : definition.Ready)

include h

/-! ## Validators -/

/-- **A reference to a model** compiles. -/
theorem exists_compile_reference {name : String} (hname : name ∈ Entries.keys definition.models) :
    ∃ validator, Validator.compile (.reference name) definition.models = .ok validator := by
  refine Validator.exists_compile ⟨trivial, fun target htarget => ?_⟩ h.models
  cases List.mem_singleton.mp htarget
  exact hname

/-! ## Clients -/

open TypeScript

/-- **The client for a definition** that has procedures is given, unless the registry is strict and
a name is reused. -/
theorem exists_client {config : GeneratorConfig} {options : GeneratorOptions}
    (hoptions : options.check generatorId = .ok ()) (hprocedures : definition.procedures ≠ []) :
    (∃ result, client config options definition = .ok result) ∨
      (config.strictNames = true ∧ ∃ name place,
        client config options definition = .error (.nameConflict name place) ∧
        Reused (namedTypes config options definition) name) := by
  obtain ⟨tree, htree⟩ := h.tree
  have hserviceTree : definition.serviceTree = .ok tree := by rw [serviceTree, htree]; rfl
  let scheme := (backend config).scheme definition.models
  let name := Naming.pascalPath options.clientName
  obtain ⟨classes, hclasses⟩ := @exists_serviceClasses scheme name tree name []
    (Service.all_ofProcedures h.procedures htree)
  -- Nothing has been declared before, so no name is taken.
  have hwithin : PassState.Within (namedTypes config options definition) config.strictNames
      { registry := (backend config).registry } := ⟨rfl, fun _ _ hshape => by cases hshape⟩
  have htypes : (typeOutlines scheme definition name).Succeeds
      (namedTypes config options definition) config.strictNames :=
    succeeds_typeOutlines h.models h.errors name
  have hclient : client config options definition =
      (((typeOutlines scheme definition name).run { registry := (backend config).registry }).1 >>=
        fun types => serviceClasses scheme name name [] tree >>= fun classes => .ok
          { name
            imports := runtimeImports (Entries.values definition.procedures)
            classes
            declarations := types.flatMap fun outline =>
              (outline.render (backend config)).declarations }) := by
    have hempty : definition.procedures.isEmpty = false := by simpa using hprocedures
    rw [client, hoptions, hempty, h.check, hserviceTree]
    rfl
  rw [hclient]
  rcases htypes _ hwithin with
    ⟨types, final, hrun, -⟩ | ⟨hstrict, name, place, final, hrun, hreused⟩
  · rw [hrun]
    exact .inl ⟨_, bind_eq_ok_iff.mpr ⟨types, rfl, bind_eq_ok_iff.mpr ⟨classes, hclasses, rfl⟩⟩⟩
  · rw [hrun]
    exact .inr ⟨hstrict, name, place, rfl, hreused⟩

/-- **The file with the client** is given when the client is. -/
theorem exists_render {config : GeneratorConfig} {options : GeneratorOptions}
    (hoptions : options.check TypeScript.generatorId = .ok ())
    (hprocedures : definition.procedures ≠ []) :
    (∃ contents, TypeScript.render config options definition =
      .ok [⟨options.outputFile, contents⟩]) ∨
      (config.strictNames = true ∧ ∃ name place,
        TypeScript.render config options definition = .error (.nameConflict name place) ∧
        Reused (TypeScript.namedTypes config options definition) name) := by
  unfold TypeScript.render
  rcases h.exists_client hoptions hprocedures with
    ⟨client, hclient⟩ | ⟨hstrict, name, place, hclient, hreused⟩
  · rw [hclient]
    exact .inl ⟨client.text config, rfl⟩
  · rw [hclient]
    exact .inr ⟨hstrict, name, place, rfl, hreused⟩

/-- A registry that is not strict always gives **the file with the client**. -/
theorem exists_render_of_not_strict {config : GeneratorConfig} {options : GeneratorOptions}
    (hstrict : config.strictNames = false)
    (hoptions : options.check TypeScript.generatorId = .ok ())
    (hprocedures : definition.procedures ≠ []) :
    ∃ contents, TypeScript.render config options definition =
      .ok [⟨options.outputFile, contents⟩] := by
  rcases h.exists_render hoptions hprocedures with hrender | ⟨hstrict', -⟩
  · exact hrender
  · exact absurd (hstrict.symm.trans hstrict') (by decide)

end Ready

/-- Without procedures there is nothing to call. -/
theorem render_of_no_procedures {config : GeneratorConfig} {options : GeneratorOptions}
    {definition : Definition} (hoptions : options.check TypeScript.generatorId = .ok ())
    (hprocedures : definition.procedures = []) :
    TypeScript.render config options definition =
      .error (.noProcedures TypeScript.generatorId) := by
  rw [TypeScript.render, TypeScript.client, hoptions, hprocedures]
  rfl

/-! ## Both -/

/-- **A definition that has been read and passes its check** compiles: references to each of its
models and its schema of errors do. And it has a client for all options and settings that are taken,
unless it has no procedures, or the settings ask for strict names and a name is reused. -/
theorem compile_and_render_of_check {document : Json} {definition : Definition}
    (hread : ofJson document = .ok definition) (hcheck : definition.check = .ok ()) :
    (∀ name ∈ Entries.keys definition.models,
      ∃ validator, Validator.compile (.reference name) definition.models = .ok validator) ∧
    (∃ validator, Validator.compile definition.errors definition.models = .ok validator) ∧
    ∀ (config : GeneratorConfig) (options : GeneratorOptions),
      options.check TypeScript.generatorId = .ok () →
      (definition.procedures = [] →
        TypeScript.render config options definition =
          .error (.noProcedures TypeScript.generatorId)) ∧
      (definition.procedures ≠ [] →
        (∃ contents, TypeScript.render config options definition =
          .ok [⟨options.outputFile, contents⟩]) ∨
        (config.strictNames = true ∧ ∃ name place,
          TypeScript.render config options definition = .error (.nameConflict name place) ∧
          Reused (TypeScript.namedTypes config options definition) name)) := by
  have h := ready_of_check hread hcheck
  exact ⟨fun _ hname => h.exists_compile_reference hname,
    Validator.exists_compile h.errors h.models,
    fun _ _ hoptions => ⟨render_of_no_procedures hoptions, h.exists_render hoptions⟩⟩

/-- The case of models that refer to each other, with a union and an enumeration inside them. -/
theorem compile_and_render_of_check_mutual :
    let children : Json := .object [("elements", .object [("ref", .string "Tree")])]
    let leaf : Json := .object [("properties", .object [("colour", .object
      [("enum", .array [.string "red", .string "green"])])])]
    let inner : Json := .object [("properties", .object [("children", children)])]
    let union : Json := .object [("discriminator", .string "kind"),
      ("mapping", .object [("leaf", leaf), ("inner", inner)])]
    let procedure : Json := .object [("path", .string "/trees/grow"), ("method", .string "post"),
      ("params", .string "Tree"), ("response", .string "Tree")]
    let document : Json := .object [("arriSchemaVersion", .string "0.0.4"),
      ("procedures", .object [("trees.grow", procedure)]),
      ("models", .object [("Tree", .object [("properties", .object [("node", union)])])]),
      ("errors", .object [("properties", .object [("seen", .object [("ref", .string "Tree")])])])]
    ∃ definition, ofJson document = .ok definition ∧ definition.check = .ok () ∧
      (∃ validator, Validator.compile (.reference "Tree") definition.models = .ok validator) ∧
      (∃ validator, Validator.compile definition.errors definition.models = .ok validator) ∧
      ∃ contents, TypeScript.render {} ⟨"Example", "client.ts"⟩ definition =
        .ok [⟨"client.ts", contents⟩] := by
  intro children leaf inner union procedure document
  have hread : ∃ definition, ofJson document = .ok definition ∧
      definition.check = .ok () ∧ "Tree" ∈ Entries.keys definition.models ∧
      definition.procedures ≠ [] := ⟨_, rfl, rfl, List.mem_cons_self, by simp⟩
  obtain ⟨definition, hread, hcheck, hname, hprocedures⟩ := hread
  obtain ⟨hmodel, herrors, hrender⟩ := compile_and_render_of_check hread hcheck
  have hoptions : GeneratorOptions.check ⟨"Example", "client.ts"⟩ TypeScript.generatorId =
      .ok () := by
    simp [GeneratorOptions.check, Text.trim, Text.trimStart, Text.isBlank, Text.inRanges,
      Text.blankRanges]
  obtain ⟨-, hrender⟩ := hrender {} ⟨"Example", "client.ts"⟩ hoptions
  refine ⟨definition, hread, hcheck, hmodel "Tree" hname, herrors, ?_⟩
  rcases hrender hprocedures with hrender | ⟨hstrict, -⟩
  · exact hrender
  · cases hstrict

end Definition

end RpcSchema
