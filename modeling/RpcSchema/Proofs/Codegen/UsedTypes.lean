import RpcSchema.Proofs.Codegen.Classes
import RpcSchema.Proofs.Codegen.DeclaredOnce

set_option autoImplicit false

/-!
# Types that are used are declared

The code for an outline mentions the types of its declarations and of its references, and no others.
A reference is made to a type whose name is taken, or to a model. The names taken are those of the
declarations, and models are objects, whose names are taken in any case. So every type that a client
mentions is declared in it.

## Main definitions

* `RpcSchema.Outline.Uses` — outlines use the name of a type.
* `RpcSchema.Outline.rename` — an outline with other names.
* `RpcSchema.TypeScript.DeclaresType` — a text declares a type and the methods that go with it.
* `RpcSchema.TypeScript.Client.Closed` — what a client uses is declared in it.

## Main results

* `RpcSchema.Outline.render_rename` — the code for an outline depends on the names that it uses.
* `RpcSchema.Builds.mem_names` — what is used is declared, or is a model.
* `RpcSchema.TypeScript.closed_of_render` — a client that has been rendered is closed.
-/

namespace RpcSchema

open Outcome (bind_eq_ok_iff forM_eq_ok_iff exists_of_forall₂_right)

/-! ## Names in use -/

namespace Outline

/-- **A part is mentioned by name**: it is a declaration, or a reference to one. -/
def IsNamed (part : Outline) : Prop := part.declaredTag?.isSome = true ∨ part.IsReference

/-- **Outlines use a name** if a declaration or a reference inside them has it. -/
def Uses (outlines : List Outline) (name : String) : Prop :=
  ∃ part ∈ outlines.flatMap parts, part.IsNamed ∧ part.typeName = name

end Outline

/-- The same context with another name. -/
def NodeContext.rename (ρ : String → String) (context : NodeContext) : NodeContext :=
  { context with typeName := ρ context.typeName }

theorem NodeContext.rename_eq_self {ρ : String → String} {context : NodeContext}
    (h : ρ context.typeName = context.typeName) : context.rename ρ = context := by
  rw [rename, h]

namespace Outline

mutual

/-- **An outline with other names**, whether they are mentioned or not. -/
def rename (ρ : String → String) : Outline → Outline
  | .scalar context kind => .scalar (context.rename ρ) kind
  | .enumeration context values => .enumeration (context.rename ρ) values
  | .object context tag properties => .object (context.rename ρ) tag (renameAll ρ properties)
  | .array context element => .array (context.rename ρ) (element.rename ρ)
  | .record context value => .record (context.rename ρ) (value.rename ρ)
  | .union context tag variants => .union (context.rename ρ) tag (renameAll ρ variants)
  | .reference context => .reference (context.rename ρ)

/-- The outlines of a list with other names. -/
def renameAll (ρ : String → String) : List (String × Outline) → List (String × Outline)
  | [] => []
  | (key, outline) :: rest => (key, outline.rename ρ) :: renameAll ρ rest

end

theorem context_rename (ρ : String → String) (outline : Outline) :
    (outline.rename ρ).context = outline.context.rename ρ := by
  cases outline <;> rfl

/-- Names are kept for what is mentioned by name among some parts. -/
abbrev Keeps (ρ : String → String) (parts : List Outline) : Prop :=
  ∀ part ∈ parts, part.IsNamed → ρ part.typeName = part.typeName

section

open TypeScript (backend)

variable {ρ : String → String} {config : GeneratorConfig}

mutual

/-- **The code for an outline depends on the names that it uses**: with others in place of the
remaining names it is the same. -/
theorem render_rename : ∀ outline : Outline, Keeps ρ outline.parts →
    (outline.rename ρ).render (backend config) = outline.render (backend config)
  | .scalar context kind, _ => rfl
  | .enumeration context values, h => by
    have hown : context.rename ρ = context :=
      NodeContext.rename_eq_self (h _ (List.mem_singleton_self _) (.inl rfl))
    rw [rename, hown]
  | .object context tag properties, h => by
    obtain ⟨hinside, hself⟩ := List.forall_mem_append.mp h
    have hown : context.rename ρ = context :=
      NodeContext.rename_eq_self (hself _ (List.mem_singleton_self _) (.inl rfl))
    rw [rename, hown, render, render, renderProperties_rename properties hinside]
  | .array context element, h => by
    have helement := render_rename element (List.forall_mem_append.mp h).1
    rw [rename, render, render, helement]
    rfl
  | .record context value, h => by
    have hvalue := render_rename value (List.forall_mem_append.mp h).1
    rw [rename, render, render, hvalue]
    rfl
  | .union context tag variants, h => by
    obtain ⟨hinside, hself⟩ := List.forall_mem_append.mp h
    have hown : context.rename ρ = context :=
      NodeContext.rename_eq_self (hself _ (List.mem_singleton_self _) (.inl rfl))
    rw [rename, hown, render, render, renderVariants_rename variants hinside]
  | .reference context, h => by
    have hown : context.rename ρ = context :=
      NodeContext.rename_eq_self (h _ (List.mem_singleton_self _) (.inr trivial))
    rw [rename, hown]

/-- The code for properties depends on the names that they use. -/
theorem renderProperties_rename : ∀ properties : List (String × Outline),
    Keeps ρ (childParts properties) →
      renderProperties (backend config) (renameAll ρ properties) =
        renderProperties (backend config) properties
  | [], _ => rfl
  | (key, outline) :: rest, h => by
    obtain ⟨hhere, hrest⟩ := List.forall_mem_append.mp h
    rw [renameAll, renderProperties, renderProperties, renderProperties_rename rest hrest,
      render_rename outline hhere, context_rename]
    rfl

/-- The code for variants depends on the names that they use. -/
theorem renderVariants_rename : ∀ variants : List (String × Outline),
    Keeps ρ (childParts variants) →
      renderVariants (backend config) (renameAll ρ variants) =
        renderVariants (backend config) variants
  | [], _ => rfl
  | (name, outline) :: rest, h => by
    obtain ⟨hhere, hrest⟩ := List.forall_mem_append.mp h
    rw [renameAll, renderVariants, renderVariants, renderVariants_rename rest hrest,
      render_rename outline hhere]

end

end

end Outline

/-- **What is mentioned by name** is written by its name and that of its methods. -/
theorem Outline.render_of_isNamed (config : GeneratorConfig) {part : Outline} (h : part.IsNamed) :
    ∃ declaration inner, part.render (TypeScript.backend config) =
      { TypeScript.named part.context with
        declaration := declaration, subDeclarations := inner } := by
  cases part with
  | enumeration | object | union | reference => exact ⟨_, _, rfl⟩
  | scalar | array | record => exact absurd h (by rintro (⟨⟨⟩⟩ | ⟨⟨⟩⟩))

/-! ## Names that are taken -/

namespace Builds

variable {scheme : NameScheme} {state final : PassState} {parts : List Outline}

/-- Names stay taken. -/
theorem keys_subset (h : Builds scheme state parts final) {name : String}
    (hname : name ∈ Entries.keys state.registry.names) :
    name ∈ Entries.keys final.registry.names := by
  obtain ⟨taken, hkeys, -⟩ := h.exists_taken
  exact hkeys ▸ List.mem_append_left _ hname

/-- **What is used** is taken, or is the name of a model. -/
theorem mem_names (h : Builds scheme state parts final) : ∀ part ∈ parts, part.IsNamed →
    part.typeName ∈ Entries.keys final.registry.names ∨
      ∃ target, scheme.modelTypeName? target = some part.typeName := by
  induction h with
  | nothing _ => nofun
  | trans _ second ih ih' =>
    intro part hpart hnamed
    rcases List.mem_append.mp hpart with hpart | hpart
    · exact (ih part hpart hnamed).imp_left second.keys_subset
    · exact ih' part hpart hnamed
  | finish plain unnamed _ ih =>
    intro part hpart hnamed
    rcases List.mem_append.mp hpart with hpart | hpart
    · exact ih part hpart hnamed
    · cases List.mem_singleton.mp hpart
      rw [Outline.IsNamed, plain] at hnamed
      exact absurd (hnamed.resolve_left Bool.false_ne_true) unnamed
  | declare declared new inside ih =>
    intro part hpart hnamed
    rcases List.mem_append.mp hpart with hpart | hpart
    · exact ih part hpart hnamed
    · cases List.mem_singleton.mp hpart
      obtain ⟨-, -, hregistry⟩ | ⟨⟨⟩, -⟩ := NameRegistry.keys_of_registerShape new
      refine .inl (inside.keys_subset ?_)
      rw [hregistry]
      exact List.mem_append_right _ (List.mem_singleton_self _)
  | refer known =>
    intro part hpart _
    cases List.mem_singleton.mp hpart
    obtain ⟨⟨⟩, -⟩ | ⟨-, htaken, hregistry⟩ := NameRegistry.keys_of_registerShape known
    exact .inl (hregistry ▸ htaken)
  | model known =>
    intro part hpart _
    cases List.mem_singleton.mp hpart
    exact .inr ⟨_, known⟩

end Builds

/-! ## Names of models -/

section

variable {scheme : NameScheme} {state final : PassState}

/-- A name is taken once it has been registered. -/
theorem NameRegistry.mem_keys_of_registerShape {registry registry' : NameRegistry}
    {name shape place : String} {isNew : Bool}
    (h : registry.registerShape name shape place = .ok (isNew, registry')) :
    name ∈ Entries.keys registry'.names := by
  obtain ⟨-, -, hkeys⟩ | ⟨-, htaken, hkeys⟩ := keys_of_registerShape h
  · exact hkeys ▸ List.mem_append_right _ (List.mem_singleton_self _)
  · exact hkeys ▸ htaken

/-- **The name of an object is taken** by its outline at the latest. -/
theorem Schema.mem_names_of_isObject {schema : Schema} (hobject : schema.isObject = true)
    {site : Site} {outline : Outline}
    (h : (schema.outline scheme site).run state = (.ok outline, final)) :
    scheme.typeName schema.typeId site.instancePath ∈ Entries.keys final.registry.names := by
  obtain ⟨_ | _ | ⟨required, optional, strict⟩, nullable, metadata⟩ := schema <;>
    try cases hobject
  obtain ⟨name, hname, h⟩ := Schema.outline_eq_ok_iff.mp h
  cases hname
  obtain ⟨isNew, middle, hregister, h⟩ := Pass.bind_eq_ok_iff.mp h
  obtain ⟨registry, hregistered, rfl⟩ := Pass.registerShape_eq_ok_iff.mp hregister
  have htaken := NameRegistry.mem_keys_of_registerShape hregistered
  cases isNew with
  | true =>
    obtain ⟨present, middle, hpresent, h⟩ := Pass.bind_eq_ok_iff.mp h
    obtain ⟨further, last, hfurther, h⟩ := Pass.bind_eq_ok_iff.mp h
    obtain ⟨rfl, rfl⟩ := Pass.complete_eq_ok_iff.mp h
    have hbuilds := (Schema.builds_propertyOutlines required hpresent).trans
      (Schema.builds_propertyOutlines optional hfurther)
    exact hbuilds.keys_subset htaken
  | false =>
    obtain ⟨rfl, rfl⟩ := Pass.complete_eq_ok_iff.mp h
    exact htaken

/-- **The names of models that are objects** are taken by the outlines of the models. -/
theorem Models.mem_names : ∀ (models : List (String × Schema)) {state final : PassState}
    {outlines : List Outline}, (∀ model ∈ models, model.2.isObject = true) →
    (Models.outline scheme models).run state = (.ok outlines, final) →
    ∀ model ∈ models,
      scheme.typeName model.2.typeId model.1 ∈ Entries.keys final.registry.names
  | [], _, _, _, _, _ => nofun
  | (name, schema) :: rest, state, final, outlines, hobjects, h => by
    obtain ⟨hobject, hrest⟩ := List.forall_mem_cons.mp hobjects
    obtain ⟨outline, middle, houtline, h⟩ := Pass.bind_eq_ok_iff.mp h
    obtain ⟨others, last, hothers, h⟩ := Pass.bind_eq_ok_iff.mp h
    obtain ⟨rfl, rfl⟩ := Pass.pure_eq_ok_iff.mp h
    have htaken := Schema.mem_names_of_isObject hobject houtline
    have hhere := (Models.builds_outlines rest hothers).keys_subset htaken
    exact List.forall_mem_cons.mpr ⟨hhere, Models.mem_names rest hrest hothers⟩

end

namespace Definition

theorem isObject_of_checkModel {models : Models} {name : String} {place : Path} {schema : Schema}
    (h : checkModel models name place schema = .ok ()) : schema.isObject = true := by
  unfold checkModel at h
  split at h
  · assumption
  · cases h

/-- The models of a definition that passes its check are objects. -/
theorem isObject_of_check {definition : Definition} (h : definition.check = .ok ()) :
    ∀ model ∈ definition.models, model.2.isObject = true := by
  obtain ⟨_, hmodels, -⟩ := bind_eq_ok_iff.mp h
  exact fun model hmodel => isObject_of_checkModel (forM_eq_ok_iff.mp hmodels model hmodel)

end Definition

namespace TypeScript

/-! ## Declarations -/

/-- **A text declares a type** under a name, and behind it the object with the methods that go with
the type. -/
def DeclaresType (config : GeneratorConfig) (name text : String) : Prop :=
  ∃ metadata type methods,
    text = docComment config metadata 0 ++ type ++ "\n" ++ helper config name methods ∧
      ∃ body, type = "export interface " ++ name ++ " \x7b\n" ++ body ++ "\x7d" ∨
        type = "export type " ++ name ++ " = " ++ body ++ ";"

/-- What is written for a declaration declares its type. -/
theorem declaresType_of_declared (config : GeneratorConfig) {part : Outline}
    (h : part.declaredTag?.isSome = true) :
    ∃ text, part.declarationOf (backend config) = some text ∧
      DeclaresType config part.typeName text := by
  cases part with
  | enumeration context values => exact ⟨_, rfl, context.metadata, _, _, rfl, _, .inr rfl⟩
  | object context tag properties => exact ⟨_, rfl, context.metadata, _, _, rfl, _, .inl rfl⟩
  | union context tag variants => exact ⟨_, rfl, context.metadata, _, _, rfl, _, .inr rfl⟩
  | scalar | array | record | reference => cases h

/-- **A client declares a type**: one of its declarations does, and stands in its text. -/
def Client.Declares (config : GeneratorConfig) (client : Client) (name : String) : Prop :=
  ∃ text ∈ client.declarations, DeclaresType config name text ∧
    StandsIn text (client.text config)

/-- A method with other names for the types of what its procedure takes and gives. -/
def ClientMethod.rename (ρ : String → String) (method : ClientMethod) : ClientMethod :=
  { method with params := method.params.map ρ, response := method.response.map ρ }

/-- A class with other names for the types in its methods. -/
def ClientClass.rename (ρ : String → String) (cls : ClientClass) : ClientClass :=
  { cls with methods := cls.methods.map (ClientMethod.rename ρ) }

/-- **A client with other names** for all its types. -/
def Client.rename (config : GeneratorConfig) (types : List Outline) (ρ : String → String)
    (client : Client) : Client :=
  { client with
    classes := client.classes.map (ClientClass.rename ρ)
    declarations := (types.map (Outline.rename ρ)).flatMap fun outline =>
      (outline.render (backend config)).declarations }

/-- **A client is closed**: it declares the types that are mentioned in its outlines and the types
that its methods take and give, and it has the classes that the fields of its classes hold. It
depends on no other names of types. -/
structure Client.Closed (config : GeneratorConfig) (types : List Outline) (client : Client) :
    Prop where
  mentioned : ∀ part ∈ types.flatMap Outline.parts, part.IsNamed →
    client.Declares config part.typeName ∧
      ∃ declaration inner, part.render (backend config) =
        { named part.context with declaration := declaration, subDeclarations := inner }
  methods : ∀ cls ∈ client.classes, ∀ method ∈ cls.methods, ∀ name,
    method.params = some name ∨ method.response = some name → client.Declares config name
  services : ∀ cls ∈ client.classes, ∀ field ∈ cls.services,
    ∃ inner ∈ client.classes, inner.name = field.className
  no_others : ∀ ρ : String → String, (∀ name, client.Declares config name → ρ name = name) →
    client.rename config types ρ = client

namespace Client.MadeFor

variable {config : GeneratorConfig} {options : GeneratorOptions} {definition : Definition}
  {tree : Service} {types : List Outline} {client : Client}

/-- A client declares the types of the declarations in its outlines. -/
theorem declares (h : client.MadeFor config options definition tree types) {part : Outline}
    (hpart : part ∈ Outline.declaredIn types) : client.Declares config part.typeName := by
  obtain ⟨text, htext, hdeclares⟩ :=
    declaresType_of_declared config (List.mem_filter.mp hpart).2
  have htexts := Outline.declarations_renderAll (declaresNamed_backend config) types
  rw [← h.declarations_eq] at htexts
  have hmem : text ∈ client.declarations := by
    have hsome : some text ∈ client.declarations.map some := by
      rw [htexts]
      exact List.mem_map.mpr ⟨part, hpart, htext⟩
    obtain ⟨_, hmem, heq⟩ := List.mem_map.mp hsome
    exact Option.some.inj heq ▸ hmem
  exact ⟨text, hmem, hdeclares, standsIn_text_of_mem (List.mem_append_right _ hmem)⟩

/-- **What the outlines of a client use**, and the type of every model, is declared. -/
theorem declares_of_uses (h : client.MadeFor config options definition tree types) {name : String}
    (hname : Outline.Uses types name ∨
      ∃ target, ((backend config).scheme definition.models).modelTypeName? target = some name) :
    client.Declares config name := by
  obtain ⟨final, htypes⟩ := h.types_ok
  obtain ⟨models, middle, hmodels, htypes⟩ := Pass.bind_eq_ok_iff.mp htypes
  obtain ⟨errors, last, herrors, htypes⟩ := Pass.bind_eq_ok_iff.mp htypes
  obtain ⟨rfl, rfl⟩ := Pass.pure_eq_ok_iff.mp htypes
  have hbuilds := (Models.builds_outlines _ hmodels).trans (Schema.builds_outline _ herrors)
  have hmodel : (∃ target,
      ((backend config).scheme definition.models).modelTypeName? target = some name) →
      name ∈ Entries.keys last.registry.names := by
    rintro ⟨target, htarget⟩
    obtain ⟨schema, hschema, rfl⟩ := Option.map_eq_some_iff.mp htarget
    refine (Schema.builds_outline _ herrors).keys_subset ?_
    exact Models.mem_names _ (Definition.isObject_of_check h.check_ok) hmodels _
      (Entries.mem_of_lookup hschema)
  have htaken : name ∈ Entries.keys last.registry.names := by
    rcases hname with ⟨part, hpart, hnamed, rfl⟩ | hname
    · rw [List.flatMap_append, List.flatMap_singleton] at hpart
      exact (hbuilds.mem_names part hpart hnamed).elim id hmodel
    · exact hmodel hname
  -- No name was taken before, so every name that is taken now has been declared.
  obtain ⟨taken, hkeys, hperm, -⟩ := hbuilds.exists_taken
  rw [hkeys] at htaken
  obtain ⟨part, hpart, rfl⟩ := List.mem_map.mp (hperm.mem_iff.mp htaken)
  refine h.declares ?_
  rwa [Outline.declaredIn, List.flatMap_append, List.flatMap_singleton]

/-- The types of models are declared, so what methods take and give is. -/
theorem declares_of_mem_methods (h : client.MadeFor config options definition tree types) :
    ∀ cls ∈ client.classes, ∀ method ∈ cls.methods, ∀ name,
      method.params = some name ∨ method.response = some name → client.Declares config name := by
  intro cls hcls method hmethod name hname
  have hresolved := resolved_of_serviceClasses h.classes_ok cls hcls method hmethod
  rw [hresolved.params, hresolved.response] at hname
  refine h.declares_of_uses (.inr ?_)
  rcases hname with hname | hname
  · obtain ⟨target, -, htarget⟩ := Option.bind_eq_some_iff.mp hname
    exact ⟨target, htarget⟩
  · obtain ⟨target, -, htarget⟩ := Option.bind_eq_some_iff.mp hname
    exact ⟨target, htarget⟩

/-- **A client depends on the names that it declares**: with others in place of the remaining names
it is the same. -/
theorem rename_eq_self (h : client.MadeFor config options definition tree types)
    {ρ : String → String} (hρ : ∀ name, client.Declares config name → ρ name = name) :
    client.rename config types ρ = client := by
  have hpayload {type : Option String} (htype : ∀ name, type = some name → ρ name = name) :
      type.map ρ = type := by
    cases type with
    | none => rfl
    | some name => exact congrArg some (htype name rfl)
  have hmethod {cls : ClientClass} (hcls : cls ∈ client.classes) {method : ClientMethod}
      (hmem : method ∈ cls.methods) : method.rename ρ = method := by
    have hdeclares := h.declares_of_mem_methods cls hcls method hmem
    rw [ClientMethod.rename, hpayload fun name hname => hρ name (hdeclares name (.inl hname)),
      hpayload fun name hname => hρ name (hdeclares name (.inr hname))]
  have hclass {cls : ClientClass} (hcls : cls ∈ client.classes) : cls.rename ρ = cls := by
    rw [ClientClass.rename, List.map_congr_left fun method hmem => hmethod hcls hmem, List.map_id']
  have hclasses : client.classes.map (ClientClass.rename ρ) = client.classes := by
    rw [List.map_congr_left fun cls hcls => hclass hcls, List.map_id']
  have hdeclarations : ((types.map (Outline.rename ρ)).flatMap fun outline =>
      (outline.render (backend config)).declarations) = client.declarations := by
    rw [h.declarations_eq, List.flatMap_map]
    refine List.flatMap_congr fun outline houtline => ?_
    rw [Outline.render_rename outline fun part hpart hnamed => hρ _ (h.declares_of_uses
      (.inl ⟨part, List.mem_flatMap.mpr ⟨outline, houtline, hpart⟩, hnamed, rfl⟩))]
  rw [Client.rename, hclasses, hdeclarations]

/-- **A client that is made for a definition** is closed. -/
theorem closed (h : client.MadeFor config options definition tree types) :
    client.Closed config types where
  mentioned part hpart hnamed := ⟨h.declares_of_uses (.inl ⟨part, hpart, hnamed, rfl⟩),
    Outline.render_of_isNamed config hnamed⟩
  methods := h.declares_of_mem_methods
  services := exists_class_of_mem_services h.classes_ok
  no_others _ hρ := h.rename_eq_self hρ

end Client.MadeFor

end TypeScript

end RpcSchema
