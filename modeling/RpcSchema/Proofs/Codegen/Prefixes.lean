import RpcSchema.Proofs.Codegen.UsedTypes

set_option autoImplicit false

/-!
# Prefixes of names

What is put in front of the names of types only renames them. Names are compared with each other and
with nothing else, so a pass that begins with other names, told apart like those before, takes the
same steps: it completes the same parts with the other names, takes the other names in the same order
for the same shapes, and succeeds or fails alike.

## Main definitions

* `RpcSchema.NameRegistry.rename`, `RpcSchema.PassState.rename`, `RpcSchema.CodegenError.rename` — the
  same with other names.
* `RpcSchema.NameScheme.Renames` — a scheme gives other names.
* `RpcSchema.Pass.Renames` — a pass takes the steps of another with other names.

## Main results

* `RpcSchema.Schema.renames_outline`, `RpcSchema.Models.renames_outlines` — passes under schemes that
  give other names.
* `RpcSchema.Models.outline_withPrefix` — passes with and without a prefix.
-/

namespace RpcSchema

variable {ρ : String → String}

/-! ## Other names -/

/-- A registry with other names. -/
def NameRegistry.rename (ρ : String → String) (registry : NameRegistry) : NameRegistry :=
  { registry with names := registry.names.map fun entry => (ρ entry.1, entry.2) }

/-- What a pass has done so far, with other names. -/
def PassState.rename (ρ : String → String) (state : PassState) : PassState :=
  ⟨state.registry.rename ρ, state.completed.map (Outline.rename ρ)⟩

/-- An error with other names. -/
def CodegenError.rename (ρ : String → String) : CodegenError → CodegenError
  | .nameConflict name place => .nameConflict (ρ name) place
  | error => error

/-- An outcome with other names. -/
def Pass.renameOutcome {α β : Type} (ρ : String → String) (f : α → β) :
    Except CodegenError α → Except CodegenError β
  | .ok a => .ok (f a)
  | .error error => .error (error.rename ρ)

/-- **A scheme gives other names**, told apart like those of another scheme. -/
structure NameScheme.Renames (ρ : String → String) (scheme scheme' : NameScheme) : Prop where
  injective : Function.Injective ρ
  models : scheme'.models = scheme.models
  typeName : ∀ id path, scheme'.typeName id path = ρ (scheme.typeName id path)

/-! ## Registries -/

namespace Entries

variable {α : Type} {entries : Entries α} {key : String}

theorem lookup_map_keys (hρ : Function.Injective ρ) :
    (entries.map fun entry => (ρ entry.1, entry.2)).lookup (ρ key) = entries.lookup key := by
  induction entries with
  | nil => rfl
  | cons entry rest ih =>
    obtain ⟨k, v⟩ := entry
    rw [List.map_cons, lookup_cons_ite, lookup_cons_ite, ih]
    simp only [hρ.eq_iff]

theorem insert_map_keys (hρ : Function.Injective ρ) (value : α) :
    insert (entries.map fun entry => (ρ entry.1, entry.2)) (ρ key) value =
      (insert entries key value).map fun entry => (ρ entry.1, entry.2) := by
  induction entries with
  | nil => rfl
  | cons entry rest ih =>
    obtain ⟨k, v⟩ := entry
    by_cases hk : k = key
    · simp [insert, hk]
    · simp [insert, hk, hρ.eq_iff, ih]

end Entries

/-- **A name is taken like the one that it stands for.** -/
theorem NameRegistry.registerShape_rename (hρ : Function.Injective ρ) (registry : NameRegistry)
    (name shape place : String) :
    (registry.rename ρ).registerShape (ρ name) shape place =
      match registry.registerShape name shape place with
      | .ok (isNew, registry) => .ok (isNew, registry.rename ρ)
      | .error error => .error (error.rename ρ) := by
  have htaken : ({ registry.rename ρ with
      names := Entries.insert (registry.rename ρ).names (ρ name) (some shape) } : NameRegistry) =
        ({ registry with names := Entries.insert registry.names name (some shape) } :
          NameRegistry).rename ρ := by
    rw [rename, rename, Entries.insert_map_keys hρ]
  have hlookup : (registry.rename ρ).names.lookup (ρ name) = registry.names.lookup name :=
    Entries.lookup_map_keys hρ
  rw [registerShape, registerShape, hlookup, htaken]
  rcases registry.names.lookup name with _ | _ | known
  · rfl
  · rfl
  · have hstrict : (registry.rename ρ).strict = registry.strict := rfl
    simp only [hstrict]
    split <;> rfl

/-! ## Passes -/

/-- **A pass takes the steps of another with other names**, and its result is got by a function. -/
def Pass.Renames {α β : Type} (ρ : String → String) (f : α → β) (pass : Pass α) (pass' : Pass β) :
    Prop :=
  ∀ state : PassState, pass'.run (state.rename ρ) =
    (Pass.renameOutcome ρ f (pass.run state).1, (pass.run state).2.rename ρ)

namespace Pass.Renames

variable {α α' β β' : Type} {f : α → α'} {g : β → β'}

theorem pure (f : α → α') (a : α) :
    Pass.Renames ρ f (Pure.pure a) (Pure.pure (f a)) :=
  fun _ => rfl

theorem throw {error : CodegenError} (h : error.rename ρ = error) :
    Pass.Renames ρ f (MonadExcept.throw error) (MonadExcept.throw error) := by
  intro state
  change (Except.error error, state.rename ρ) = (Except.error (error.rename ρ), state.rename ρ)
  rw [h]

/-- **One pass behind another.** -/
theorem bind {pass : Pass α} {pass' : Pass α'} {next : α → Pass β} {next' : α' → Pass β'}
    (h : Pass.Renames ρ f pass pass') (hnext : ∀ a, Pass.Renames ρ g (next a) (next' (f a))) :
    Pass.Renames ρ g (pass >>= next) (pass' >>= next') := by
  intro state
  rw [run_bind, run_bind, h state]
  rcases pass.run state with ⟨error | a, middle⟩
  · rfl
  · exact hnext a middle

theorem complete (part : Outline) :
    Pass.Renames ρ (Outline.rename ρ) (Pass.complete part) (Pass.complete (part.rename ρ)) := by
  intro state
  change (Except.ok (part.rename ρ), (state.rename ρ).finish (part.rename ρ)) =
    (Except.ok (part.rename ρ), (state.finish part).rename ρ)
  rw [PassState.finish, PassState.finish, PassState.rename, PassState.rename, List.map_append]
  rfl

/-- What is known without a pass. -/
theorem lift {result : Except CodegenError α} {result' : Except CodegenError α'}
    (h : result' = Pass.renameOutcome ρ f result) :
    Pass.Renames ρ f (liftM result) (liftM result') := by
  intro state
  change (result', state.rename ρ) = (Pass.renameOutcome ρ f result, state.rename ρ)
  rw [h]

theorem registerShape (hρ : Function.Injective ρ) (name shape place : String) :
    Pass.Renames ρ id (Pass.registerShape name shape place)
      (Pass.registerShape (ρ name) shape place) := by
  intro state
  have hregistry : (state.rename ρ).registry = state.registry.rename ρ := rfl
  rw [run_registerShape, run_registerShape, hregistry, NameRegistry.registerShape_rename hρ]
  rcases state.registry.registerShape name shape place with error | ⟨isNew, registry⟩ <;> rfl

/-- **A named type is declared or referred to** under the other name. -/
theorem of_registerShape (hρ : Function.Injective ρ) (context : NodeContext) (shape : String)
    {body body' : Pass Outline} (hbody : Pass.Renames ρ (Outline.rename ρ) body body') :
    Pass.Renames ρ (Outline.rename ρ)
      (Pass.registerShape context.typeName shape context.schemaPath >>= fun isNew =>
        if isNew = true then body else Pass.complete (.reference context))
      (Pass.registerShape (context.rename ρ).typeName shape (context.rename ρ).schemaPath >>=
        fun isNew => if isNew = true then body'
          else Pass.complete (.reference (context.rename ρ))) := by
  refine (registerShape hρ context.typeName shape context.schemaPath).bind fun isNew => ?_
  cases isNew with
  | true => exact hbody
  | false => exact complete (.reference context)

end Pass.Renames

/-! ## Schemas -/

theorem Outline.renameAll_append (outlines outlines' : List (String × Outline)) :
    renameAll ρ (outlines ++ outlines') = renameAll ρ outlines ++ renameAll ρ outlines' := by
  induction outlines with
  | nil => rfl
  | cons child rest ih =>
    rw [List.cons_append, renameAll, renameAll, ih, List.cons_append]

namespace Schema

variable {scheme scheme' : NameScheme}

/-- The name of a schema at a site is the other name. -/
theorem siteTypeName_renames (h : scheme.Renames ρ scheme') (site : Site) (form : Form)
    (metadata : Metadata) :
    siteTypeName scheme' site form metadata =
      Pass.renameOutcome ρ ρ (siteTypeName scheme site form metadata) := by
  cases form with
  | ref target =>
    rw [siteTypeName, siteTypeName, NameScheme.modelTypeName?, NameScheme.modelTypeName?, h.models]
    rcases scheme.models.lookup target with _ | model
    · rfl
    · exact congrArg Except.ok (h.typeName _ _)
  | _ => exact congrArg Except.ok (h.typeName _ _)

/-- The context of a variant has the other name. -/
theorem variantContext_renames (h : scheme.Renames ρ scheme') (context : NodeContext)
    (name : String) (metadata : Metadata) :
    variantContext scheme' (context.rename ρ) name metadata =
      (variantContext scheme context name metadata).rename ρ := by
  rw [variantContext, h.typeName]
  rfl

/-- **An object is outlined** with other names when its properties are. -/
theorem renames_object (hρ : Function.Injective ρ) {context : NodeContext} (shape : String)
    (tag : Option TagField) {required optional : List (String × Schema)}
    (hrequired : Pass.Renames ρ (Outline.renameAll ρ)
      (propertyOutlines scheme context "properties" required)
      (propertyOutlines scheme' (context.rename ρ) "properties" required))
    (hoptional : Pass.Renames ρ (Outline.renameAll ρ)
      (propertyOutlines scheme context "optionalProperties" optional)
      (propertyOutlines scheme' (context.rename ρ) "optionalProperties" optional)) :
    Pass.Renames ρ (Outline.rename ρ)
      (Pass.registerShape context.typeName shape context.schemaPath >>= fun isNew =>
        if isNew = true then do
          let present ← propertyOutlines scheme context "properties" required
          let further ← propertyOutlines scheme context "optionalProperties" optional
          Pass.complete (.object context tag (present ++ further))
        else Pass.complete (.reference context))
      (Pass.registerShape (context.rename ρ).typeName shape (context.rename ρ).schemaPath >>=
        fun isNew => if isNew = true then do
          let present ← propertyOutlines scheme' (context.rename ρ) "properties" required
          let further ← propertyOutlines scheme' (context.rename ρ) "optionalProperties" optional
          Pass.complete (.object (context.rename ρ) tag (present ++ further))
        else Pass.complete (.reference (context.rename ρ))) := by
  refine .of_registerShape hρ context shape (hrequired.bind fun present =>
    hoptional.bind fun further => ?_)
  rw [← Outline.renameAll_append]
  exact .complete (.object context tag (present ++ further))

mutual

/-- **A schema is outlined with other names** under a scheme that gives them. -/
theorem renames_outline (h : scheme.Renames ρ scheme') : ∀ (schema : Schema) (site : Site),
    Pass.Renames ρ (Outline.rename ρ) (schema.outline scheme site) (schema.outline scheme' site)
  | ⟨form, nullable, metadata⟩, site => by
    rw [outline, outline]
    exact (Pass.Renames.lift (siteTypeName_renames h site form metadata)).bind fun name =>
      renames_formOutline h (siteContext site nullable metadata name) _ form

/-- A form is outlined with other names. -/
theorem renames_formOutline (h : scheme.Renames ρ scheme') (context : NodeContext)
    (shape : String) : ∀ form : Form,
    Pass.Renames ρ (Outline.rename ρ) (formOutline scheme context shape form)
      (formOutline scheme' (context.rename ρ) shape form)
  | .scalar kind => .complete (.scalar context kind)
  | .enumeration values =>
    .of_registerShape h.injective context shape (.complete (.enumeration context values))
  | .object required optional _ =>
    renames_object h.injective shape none (renames_propertyOutlines h context _ required)
      (renames_propertyOutlines h context _ optional)
  | .array element => (renames_outline h element (context.partSite "Item" "elements")).bind
      fun element => .complete (.array context element)
  | .record value => (renames_outline h value (context.partSite "Value" "values")).bind
      fun value => .complete (.record context value)
  | .union tag variants =>
    .of_registerShape h.injective context shape <|
      (renames_variantOutlines h context tag variants).bind fun outlines =>
        .complete (.union context tag outlines)
  | .ref _ => .complete (.reference context)

/-- Properties are outlined with other names. -/
theorem renames_propertyOutlines (h : scheme.Renames ρ scheme') (context : NodeContext)
    (keyword : String) : ∀ children : List (String × Schema),
    Pass.Renames ρ (Outline.renameAll ρ) (propertyOutlines scheme context keyword children)
      (propertyOutlines scheme' (context.rename ρ) keyword children)
  | [] => .pure _ []
  | (key, schema) :: rest =>
    (renames_outline h schema (context.propertySite keyword key)).bind fun outline =>
      (renames_propertyOutlines h context keyword rest).bind fun outlines =>
        .pure (Outline.renameAll ρ) ((key, outline) :: outlines)

/-- Variants are outlined with other names. -/
theorem renames_variantOutlines (h : scheme.Renames ρ scheme') (context : NodeContext)
    (tag : String) : ∀ children : List (String × Schema),
    Pass.Renames ρ (Outline.renameAll ρ) (variantOutlines scheme context tag children)
      (variantOutlines scheme' (context.rename ρ) tag children)
  | [] => .pure _ []
  | (name, ⟨.object required optional strict, nullable, metadata⟩) :: rest => by
    by_cases htag : declares required optional tag = true
    · rw [variantOutlines, variantOutlines, if_pos htag, if_pos htag]
      exact fun state => rfl
    · rw [variantOutlines_cons htag, variantOutlines_cons htag]
      simp only [variantContext_renames h]
      exact (renames_object h.injective _ _ (renames_propertyOutlines h _ _ required)
        (renames_propertyOutlines h _ _ optional)).bind fun outline =>
          (renames_variantOutlines h context tag rest).bind fun outlines =>
            .pure (Outline.renameAll ρ) ((name, outline) :: outlines)
  | (_, ⟨.scalar _, _, _⟩) :: _ | (_, ⟨.enumeration _, _, _⟩) :: _ | (_, ⟨.array _, _, _⟩) :: _
  | (_, ⟨.record _, _, _⟩) :: _ | (_, ⟨.union _ _, _, _⟩) :: _ | (_, ⟨.ref _, _, _⟩) :: _ =>
    fun _ => rfl

end

end Schema

/-! ## Models -/

namespace Models

/-- **Models are outlined with other names** under a scheme that gives them. -/
theorem renames_outlines {scheme scheme' : NameScheme} (h : scheme.Renames ρ scheme') :
    ∀ models : List (String × Schema), Pass.Renames ρ (List.map (Outline.rename ρ))
      (outline scheme models) (outline scheme' models)
  | [] => .pure _ []
  | (name, schema) :: rest =>
    (schema.renames_outline h (.ofPaths name (Pointer.extend "/models" name))).bind
      fun outline => (renames_outlines h rest).bind fun outlines =>
        .pure (List.map (Outline.rename ρ)) (outline :: outlines)

end Models

/-- The same backend with another prefix. -/
def Backend.withPrefix (backend : Backend) (typePrefix : String) : Backend :=
  { backend with config := { backend.config with typePrefix } }

/-- Names behind a prefix are told apart like the names. -/
theorem NameScheme.renames_typePrefix (models : Models) (typePrefix : String) :
    Renames (typePrefix ++ ·) ⟨models, ""⟩ ⟨models, typePrefix⟩ where
  injective _ _ h := String.toList_inj.mp (by simpa using congrArg String.toList h)
  models := rfl
  typeName id path := by simp [typeName, Naming.typeName]

/-- **A prefix only renames.** With a prefix and without, a pass over models completes the same parts
one after the other, and their contexts differ only in that the prefix stands in front of the name of
every type; it takes the same names in the same order, behind the prefix; and either it gives the
same outlines but for the names or it fails with the same error, in which the prefix stands in front
of a name that is in conflict. -/
theorem Models.outline_withPrefix (backend : Backend) (models : Models) (typePrefix : String) :
    let run := fun typePrefix =>
      (outline ((backend.withPrefix typePrefix).scheme models) models).run
        { registry := (backend.withPrefix typePrefix).registry }
    (run typePrefix).2.completed =
        (run "").2.completed.map (Outline.rename (typePrefix ++ ·)) ∧
      (run typePrefix).2.completed.map Outline.context =
        (run "").2.completed.map (fun part =>
          { part.context with typeName := typePrefix ++ part.context.typeName }) ∧
      Entries.keys (run typePrefix).2.registry.names =
        (Entries.keys (run "").2.registry.names).map (typePrefix ++ ·) ∧
      (run typePrefix).1 =
        Pass.renameOutcome (typePrefix ++ ·) (List.map (Outline.rename (typePrefix ++ ·)))
          (run "").1 := by
  intro run
  have hrun : run typePrefix = (Pass.renameOutcome (typePrefix ++ ·)
      (List.map (Outline.rename (typePrefix ++ ·))) (run "").1,
        (run "").2.rename (typePrefix ++ ·)) :=
    renames_outlines (NameScheme.renames_typePrefix models typePrefix) models
      { registry := (backend.withPrefix "").registry }
  rw [hrun]
  refine ⟨rfl, ?_, ?_, rfl⟩
  · rw [PassState.rename, List.map_map]
    exact List.map_congr_left fun part _ => Outline.context_rename _ part
  · simp [PassState.rename, NameRegistry.rename, Entries.keys, Function.comp_def]

end RpcSchema
