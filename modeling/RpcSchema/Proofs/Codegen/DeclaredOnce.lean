import RpcSchema.Codegen.TypeScript.Declaration
import RpcSchema.Proofs.Codegen.Building

set_option autoImplicit false

/-!
# Named types are declared once

The parts of an outline are listed from the inside out, and the declarations that a backend writes
for the outline are those of its parts, in this order. So the code for a schema declares the names
that its outline has taken, each once, and what is inside a type before the type.

The names are taken the other way round, a type before what is inside it. That is why the names taken
and the names declared are the same up to order only.

## Main definitions

* `RpcSchema.Backend.DeclaresNamed` — a backend declares enumerations, objects and unions, and
  nothing else.
* `RpcSchema.Outline.inside` — the parts inside an outline.
* `RpcSchema.Backend.DeclaresOnce` — the code for outlines declares the names that have been taken.

## Main results

* `RpcSchema.Outline.declarations_render` — the declarations of an outline are those of its parts.
* `RpcSchema.Backend.declaresOnce_outline` — what the code for schemas and models declares.
-/

namespace RpcSchema

/-- **A backend declares named types**: it makes a declaration of enumerations, objects and unions,
and of nothing else. -/
structure Backend.DeclaresNamed (backend : Backend) : Prop where
  scalar (context : NodeContext) (kind : ScalarKind) :
    (backend.scalar context kind).declarations = []
  enumeration (context : NodeContext) (values : List String) :
    (backend.enumeration context values).declaration.isSome = true ∧
      (backend.enumeration context values).subDeclarations = []
  object (context : NodeContext) (properties : List Property) (tag : Option TagField) :
    (backend.object context properties tag).declaration.isSome = true
  array (context : NodeContext) (element : Bundle) :
    (backend.array context element).declaration = none
  record (context : NodeContext) (value : Bundle) :
    (backend.record context value).declaration = none
  union (context : NodeContext) (tag : String) (variants : List (String × Bundle)) :
    (backend.union context tag variants).declaration.isSome = true
  reference (context : NodeContext) : (backend.reference context).declarations = []

theorem TypeScript.declaresNamed_backend (config : GeneratorConfig) :
    (TypeScript.backend config).DeclaresNamed where
  enumeration _ _ := ⟨rfl, rfl⟩
  object _ _ _ := rfl
  union _ _ _ := rfl
  scalar context _ := by
    rcases h : context.nullable <;>
      simp [TypeScript.backend, TypeScript.scalar, TypeScript.withNullBranch, h,
        Bundle.declarations]
  array context _ := by
    rcases h : context.nullable <;>
      simp [TypeScript.backend, TypeScript.array, TypeScript.withNullBranch, h]
  record context _ := by
    rcases h : context.nullable <;>
      simp [TypeScript.backend, TypeScript.record, TypeScript.withNullBranch, h]
  reference _ := rfl

namespace Outline

/-! ## Parts inside an outline -/

/-- **The parts inside an outline**, which are all of its parts but itself. -/
def inside : Outline → List Outline
  | .object _ _ properties => childParts properties
  | .array _ element => element.parts
  | .record _ value => value.parts
  | .union _ _ variants => childParts variants
  | _ => []

theorem parts_eq (outline : Outline) : outline.parts = outline.inside ++ [outline] := by
  cases outline <;> rfl

/-- The parts of a part stand together, if they do for what is inside. -/
theorem isInfix_of_inside {outline part : Outline} (h : part ∈ outline.parts)
    (hinside : part ∈ outline.inside → part.parts <:+: outline.inside) :
    part.parts <:+: outline.parts := by
  rw [parts_eq, List.mem_append, List.mem_singleton] at h
  rcases h with h | rfl
  · rw [parts_eq outline]
    exact (hinside h).trans (List.prefix_append _ _).isInfix
  · exact List.infix_rfl

mutual

/-- **The parts of a part** stand together among the parts of an outline. -/
theorem parts_isInfix {part : Outline} : ∀ outline : Outline, part ∈ outline.parts →
    part.parts <:+: outline.parts
  | .scalar _ _, h => isInfix_of_inside h nofun
  | .enumeration _ _, h => isInfix_of_inside h nofun
  | .object _ _ properties, h => isInfix_of_inside h (childParts_isInfix properties)
  | .array _ element, h => isInfix_of_inside h (parts_isInfix element)
  | .record _ value, h => isInfix_of_inside h (parts_isInfix value)
  | .union _ _ variants, h => isInfix_of_inside h (childParts_isInfix variants)
  | .reference _, h => isInfix_of_inside h nofun

/-- The parts of a part stand together among the parts of the outlines of a list. -/
theorem childParts_isInfix {part : Outline} : ∀ outlines : List (String × Outline),
    part ∈ childParts outlines → part.parts <:+: childParts outlines
  | (_, outline) :: rest, h => by
    rcases List.mem_append.mp h with h | h
    · exact (parts_isInfix outline h).trans (List.prefix_append _ _).isInfix
    · exact (childParts_isInfix rest h).trans (List.suffix_append _ _).isInfix

end

/-! ## Declarations of outlines -/

/-- The declaration that a backend makes of a part. -/
def declarationOf (backend : Backend) (part : Outline) : Option String :=
  (part.render backend).declaration

theorem declarations_append (parts parts' : List Outline) :
    declarations (parts ++ parts') = declarations parts ++ declarations parts' :=
  List.filter_append ..

/-- The declarations of an outline are those of the parts inside, and then its own if it is a named
type. -/
theorem declarations_eq {backend : Backend} {outline : Outline}
    (hsome : (outline.render backend).declaration.isSome = outline.declaredTag?.isSome)
    (hinside : (outline.render backend).subDeclarations.map some =
      (declarations outline.inside).map (declarationOf backend)) :
    (outline.render backend).declarations.map some =
      (declarations outline.parts).map (declarationOf backend) := by
  have hown : (declarations [outline]).map (declarationOf backend) =
      (outline.render backend).declaration.toList.map some := by
    rw [declarations, List.filter_cons, ← hsome]
    cases h : (outline.render backend).declaration <;> simp [declarationOf, h]
  rw [parts_eq, declarations_append, List.map_append, hown, Bundle.declarations,
    List.map_append, hinside]

variable {backend : Backend}

mutual

/-- **The declarations of an outline** are those of its parts, from the inside out. -/
theorem declarations_render (hbackend : backend.DeclaresNamed) : ∀ outline : Outline,
    (outline.render backend).declarations.map some =
      (declarations outline.parts).map (declarationOf backend)
  | .scalar context kind => by
    rw [render, hbackend.scalar]
    rfl
  | .enumeration context values => by
    obtain ⟨hsome, hinside⟩ := hbackend.enumeration context values
    exact declarations_eq hsome (by rw [render, hinside]; rfl)
  | .object context tag properties =>
    declarations_eq (hbackend.object context _ tag)
      (declarations_renderProperties hbackend properties)
  | .array context element =>
    declarations_eq (by rw [render, Bundle.around, hbackend.array]; rfl)
      (by simpa [render, Bundle.around, inside] using declarations_render hbackend element)
  | .record context value =>
    declarations_eq (by rw [render, Bundle.around, hbackend.record]; rfl)
      (by simpa [render, Bundle.around, inside] using declarations_render hbackend value)
  | .union context tag variants =>
    declarations_eq (hbackend.union context tag _) (declarations_renderVariants hbackend variants)
  | .reference context => by
    rw [render, hbackend.reference]
    rfl

/-- The declarations of the properties of an object. -/
theorem declarations_renderProperties (hbackend : backend.DeclaresNamed) :
    ∀ properties : List (String × Outline),
      (((renderProperties backend properties).map Property.bundle).flatMap
          Bundle.declarations).map some =
        (declarations (childParts properties)).map (declarationOf backend)
  | [] => rfl
  | (key, outline) :: rest => by
    rw [renderProperties, List.map_cons, List.flatMap_cons, List.map_append,
      declarations_renderProperties hbackend rest, childParts, declarations_append,
      List.map_append, ← declarations_render hbackend outline]
    rfl

/-- The declarations of the variants of a union. -/
theorem declarations_renderVariants (hbackend : backend.DeclaresNamed) :
    ∀ variants : List (String × Outline),
      (((renderVariants backend variants).map Prod.snd).flatMap Bundle.declarations).map some =
        (declarations (childParts variants)).map (declarationOf backend)
  | [] => rfl
  | (name, outline) :: rest => by
    rw [renderVariants, List.map_cons, List.flatMap_cons, List.map_append,
      declarations_renderVariants hbackend rest, childParts, declarations_append,
      List.map_append, ← declarations_render hbackend outline]

end

end Outline

/-! ## Declared once -/

/-- The declarations in outlines. -/
def Outline.declaredIn (outlines : List Outline) : List Outline :=
  Outline.declarations (outlines.flatMap Outline.parts)

/-- **The code for outlines declares the names that have been taken**, each of them once: a
declaration has been written for every declaration in the outlines, with what is inside a type in
front of the type, and the names of these are the ones that were not taken before and are now. -/
structure Backend.DeclaresOnce (backend : Backend) (outlines : List Outline)
    (before after : NameRegistry) : Prop where
  texts : (outlines.flatMap fun outline => (outline.render backend).declarations).map some =
    (Outline.declaredIn outlines).map (Outline.declarationOf backend)
  names : ∃ taken, Entries.keys after.names = Entries.keys before.names ++ taken ∧
    taken.Perm ((Outline.declaredIn outlines).map Outline.typeName)
  once : ((Outline.declaredIn outlines).map Outline.typeName).Nodup
  new : ∀ part ∈ Outline.declaredIn outlines,
    part.typeName ∉ Entries.keys before.names
  inner_first : ∀ part ∈ Outline.declaredIn outlines, ∀ inner ∈ Outline.declarations part.inside,
    [inner.typeName, part.typeName].Sublist
      ((Outline.declaredIn outlines).map Outline.typeName)

/-- What is inside a type is declared before the type. -/
theorem Outline.inner_first_of_mem {outlines : List Outline} {part inner : Outline}
    (hpart : part ∈ declaredIn outlines) (hinner : inner ∈ declarations part.inside) :
    [inner, part].Sublist (declaredIn outlines) := by
  obtain ⟨hmem, hdeclared⟩ := List.mem_filter.mp hpart
  obtain ⟨outline, houtline, hmem⟩ := List.mem_flatMap.mp hmem
  have hparts : declarations part.parts = declarations part.inside ++ [part] := by
    rw [parts_eq, declarations_append]
    simp [declarations, hdeclared]
  have hhere : [inner, part].Sublist (declarations part.parts) := by
    rw [hparts]
    exact (List.singleton_sublist.mpr hinner).append_right [part]
  have houtlines : outline.parts.Sublist (outlines.flatMap parts) :=
    List.sublist_flatten_of_mem (List.mem_map_of_mem houtline)
  exact (hhere.trans ((parts_isInfix outline hmem).sublist.filter _)).trans (houtlines.filter _)

/-- The declarations of outlines are those of their parts. -/
theorem Outline.declarations_renderAll {backend : Backend} (hbackend : backend.DeclaresNamed)
    (outlines : List Outline) :
    (outlines.flatMap fun outline => (outline.render backend).declarations).map some =
      (declaredIn outlines).map (declarationOf backend) := by
  simp only [List.map_flatMap, declarations_render hbackend, declaredIn, declarations,
    List.filter_flatMap]

/-- **What the code for built outlines declares.** -/
theorem Builds.declaresOnce {backend : Backend} (hbackend : backend.DeclaresNamed)
    {scheme : NameScheme} {outlines : List Outline} {state final : PassState}
    (h : Builds scheme state (outlines.flatMap Outline.parts) final) :
    backend.DeclaresOnce outlines state.registry final.registry := by
  obtain ⟨taken, hkeys, hperm, hnodup, hnew⟩ := h.exists_taken
  exact
    { texts := Outline.declarations_renderAll hbackend outlines
      names := ⟨taken, hkeys, hperm⟩
      once := hperm.nodup_iff.mp hnodup
      new := fun part hpart => hnew _ (hperm.mem_iff.mpr (List.mem_map_of_mem hpart))
      inner_first := fun part hpart inner hinner =>
        (Outline.inner_first_of_mem hpart hinner).map Outline.typeName }

namespace Backend

/-- **Named types are declared once.** Whatever the registry holds when the outline of a schema is
made, the code for the outline declares the names that have been taken for it, each once and what is
inside a type first. When the outlines of models are made and no name was taken before, there is one
declaration for every name in the registry. -/
theorem declaresOnce_outline {backend : Backend} (hbackend : backend.DeclaresNamed)
    (models : Models) :
    (∀ (schema : Schema) (instancePath schemaPath : String) (registry : NameRegistry)
      (outline : Outline) (final : PassState),
      (schema.outline (backend.scheme models) (.ofPaths instancePath schemaPath)).run
        { registry } = (.ok outline, final) →
      backend.DeclaresOnce [outline] registry final.registry) ∧
    ∀ (registry : NameRegistry) (outlines : List Outline) (final : PassState),
      registry.names = [] →
      (Models.outline (backend.scheme models) models).run { registry } = (.ok outlines, final) →
      backend.DeclaresOnce outlines registry final.registry ∧
        (Entries.keys final.registry.names).Perm
          ((Outline.declaredIn outlines).map Outline.typeName) := by
  refine ⟨fun schema instancePath schemaPath registry outline final h => ?_,
    fun registry outlines final hfresh h => ?_⟩
  · have hbuilds := schema.builds_outline h
    rw [← List.flatMap_singleton Outline.parts] at hbuilds
    exact hbuilds.declaresOnce hbackend
  · have honce := (Models.builds_outlines models h).declaresOnce hbackend
    obtain ⟨taken, hkeys, hperm⟩ := honce.names
    rw [hfresh] at hkeys
    exact ⟨honce, hkeys ▸ hperm⟩

/-- The case of a model with a union whose variants share a type, when the name of another type
inside is already taken. -/
theorem declaresOnce_outline_shared_variant :
    let backend := TypeScript.backend {}
    let level := (Schema.enumeration ["LOW", "HIGH"]).withId "Level"
    let shared := (Schema.object.property "level" level).withId "P"
    let body := ((Schema.union "type").variant "A" shared).variant "B" shared
    let event := ((Schema.object.property "body" (body.withId "Body")).property "level"
      level).withId "Event"
    let models : Models := [("Event", event)]
    let taken : NameRegistry := { names := [("Level", none)] }
    (∃ outline final, (event.outline (backend.scheme models) (.ofPaths "Event" "")).run
        { registry := taken } = (.ok outline, final) ∧
      (Outline.declaredIn [outline]).map Outline.typeName = ["P", "Body", "Event"] ∧
      backend.DeclaresOnce [outline] taken final.registry) ∧
    ∃ outlines final, (Models.outline (backend.scheme models) models).run
        { registry := backend.registry } = (.ok outlines, final) ∧
      (Outline.declaredIn outlines).map Outline.typeName = ["Level", "P", "Body", "Event"] ∧
      backend.DeclaresOnce outlines backend.registry final.registry := by
  intro backend level shared body event models taken
  have honce := declaresOnce_outline (TypeScript.declaresNamed_backend {}) models
  obtain ⟨outline, final, h, hnames⟩ : ∃ outline final,
      (event.outline (backend.scheme models) (.ofPaths "Event" "")).run { registry := taken } =
        (.ok outline, final) ∧
      (Outline.declaredIn [outline]).map Outline.typeName = ["P", "Body", "Event"] :=
    ⟨_, _, rfl, by decide⟩
  obtain ⟨outlines, final', h', hnames'⟩ : ∃ outlines final,
      (Models.outline (backend.scheme models) models).run { registry := backend.registry } =
        (.ok outlines, final) ∧
      (Outline.declaredIn outlines).map Outline.typeName = ["Level", "P", "Body", "Event"] :=
    ⟨_, _, rfl, by decide⟩
  exact ⟨⟨outline, final, h, hnames, honce.1 event "Event" "" taken outline final h⟩,
    outlines, final', h', hnames', (honce.2 _ outlines final' rfl h').1⟩

end Backend

end RpcSchema
