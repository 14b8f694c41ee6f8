import RpcSchema.Codegen.TypeScript.Declaration
import RpcSchema.Proofs.Codegen.Declarations
import RpcSchema.Proofs.Codegen.Located

set_option autoImplicit false

/-!
# Where the parts of outlines come from

Every part that a pass over models completes is made for one schema in them. The pointer that it
gets leads, through the document of the definition, to the document of this schema. If the pass
fails, the error points at the schema that it is about, in the same way.

## Main definitions

* `RpcSchema.Outline.MadeFor` — a part is made for a schema at its place.
* `RpcSchema.LocatedSchema.Offends` — a schema at its place is what an error is about.
* `RpcSchema.Pass.Visits` — the parts of a pass are made for some of a list of schemas, in order.

## Main results

* `RpcSchema.Schema.visits_outline`, `RpcSchema.Models.visits_outlines` — what passes over schemas
  and models make their parts for.
* `RpcSchema.Definition.schemaPaths_exact` — pointers lead to what parts are made for.
-/

namespace RpcSchema

/-! ## Parts and errors -/

/-- A form is declared as a type with a name. -/
def Form.IsNamed : Form → Prop
  | .enumeration _ | .object _ _ _ | .union _ _ => True
  | _ => False

/-- **A part has what a form says.** A named type whose name is taken is only referred to. -/
def Outline.Fits : Outline → Form → Prop
  | .scalar _ kind, .scalar kind' => kind = kind'
  | .enumeration _ values, .enumeration values' => values = values'
  | .object _ _ properties, .object required optional _ =>
    Entries.keys properties = Entries.keys required ++ Entries.keys optional
  | .array _ _, .array _ => True
  | .record _ _, .record _ => True
  | .union _ tag variants, .union tag' variants' =>
    tag = tag' ∧ Entries.keys variants = Entries.keys variants'
  | .reference _, .ref _ => True
  | .reference _, form => form.IsNamed
  | _, _ => False

/-- **A context is that of a schema at its place**, with the text of the pointer to it. -/
structure NodeContext.IsAt (context : NodeContext) (node : LocatedSchema) : Prop where
  schemaPath : context.schemaPath = Pointer.text node.pointer
  instancePath : context.instancePath = node.path
  metadata : context.metadata = node.schema.metadata

/-- **A part is made for a schema at its place.** -/
structure Outline.MadeFor (part : Outline) (node : LocatedSchema) : Prop where
  context : part.context.IsAt node
  form : part.Fits node.schema.form

/-- **A schema at its place is what an error is about**: it refers to a model that is missing, or its
name has been taken for another shape. -/
def LocatedSchema.Offends (scheme : NameScheme) (registry : NameRegistry) (node : LocatedSchema) :
    CodegenError → Prop
  | .unresolvedReference place target => place = Pointer.text node.pointer ∧
    node.schema.form = .ref target ∧ target ∉ Entries.keys scheme.models
  | .nameConflict name place => place = Pointer.text node.pointer ∧ node.schema.form.IsNamed ∧
    name = scheme.typeName node.schema.typeId node.path ∧
    ∃ shape, registry.names.lookup name = some (some shape) ∧
      shape ≠ NameRegistry.shapeOf node.schema
  | _ => False

/-! ## Keys of outlines -/

section

variable {scheme : NameScheme} {context : NodeContext} {children : List (String × Schema)}
  {outlines : List (String × Outline)}

/-- The outlines of properties are under the keys of the properties. -/
theorem Schema.keys_propertyOutlines {keyword : String} {state final : PassState}
    (h : (propertyOutlines scheme context keyword children).run state = (.ok outlines, final)) :
    Entries.keys outlines = Entries.keys children := by
  induction children generalizing state final outlines with
  | nil =>
    obtain ⟨rfl, -⟩ := Pass.pure_eq_ok_iff.mp h
    rfl
  | cons child rest ih =>
    obtain ⟨outline, middle, -, h⟩ := Pass.bind_eq_ok_iff.mp h
    obtain ⟨others, last, hothers, h⟩ := Pass.bind_eq_ok_iff.mp h
    obtain ⟨rfl, -⟩ := Pass.pure_eq_ok_iff.mp h
    exact congrArg (child.1 :: ·) (ih hothers)

/-- The outlines of variants are under the names of the variants. -/
theorem Schema.keys_variantOutlines {tag : String} {state final : PassState}
    (h : (variantOutlines scheme context tag children).run state = (.ok outlines, final)) :
    Entries.keys outlines = Entries.keys children := by
  induction children generalizing state final outlines with
  | nil =>
    obtain ⟨rfl, -⟩ := Pass.pure_eq_ok_iff.mp h
    rfl
  | cons child rest ih =>
    obtain ⟨name, form, nullable, metadata⟩ := child
    cases form with
    | object required optional strict =>
      by_cases htag : declares required optional tag = true
      · rw [variantOutlines, if_pos htag] at h
        exact absurd h Pass.throw_ne_ok
      · rw [variantOutlines_cons htag] at h
        obtain ⟨outline, middle, -, h⟩ := Pass.bind_eq_ok_iff.mp h
        obtain ⟨others, last, hothers, h⟩ := Pass.bind_eq_ok_iff.mp h
        obtain ⟨rfl, -⟩ := Pass.pure_eq_ok_iff.mp h
        exact congrArg (name :: ·) (ih hothers)
    | _ => exact absurd h Pass.throw_ne_ok

end

/-! ## Passes -/

/-- **A pass visits schemas**: the parts that it completes are made for some of them, in order, and
its error is about one of them. -/
def Pass.Visits {α : Type} (scheme : NameScheme) (nodes : List LocatedSchema) (pass : Pass α) :
    Prop :=
  ∀ state : PassState,
    (∃ added met, (pass.run state).2.completed = state.completed ++ added ∧ met.Sublist nodes ∧
      List.Forall₂ Outline.MadeFor added met) ∧
    ∀ error, (pass.run state).1 = .error error →
      ∃ node ∈ nodes, node.Offends scheme (pass.run state).2.registry error

namespace Pass.Visits

variable {α β : Type} {scheme : NameScheme} {nodes nodes' : List LocatedSchema}

theorem pure (a : α) : (Pure.pure a : Pass α).Visits scheme [] :=
  fun _ => ⟨⟨[], [], (List.append_nil _).symm, .slnil, .nil⟩, nofun⟩

theorem complete {part : Outline} {node : LocatedSchema} (h : part.MadeFor node) :
    (Pass.complete part).Visits scheme [node] :=
  fun _ => ⟨⟨[part], [node], rfl, List.Sublist.refl _, .cons h .nil⟩, nofun⟩

/-- **One pass behind another** visits what both visit. -/
theorem bind {pass : Pass α} {next : α → Pass β} (h : pass.Visits scheme nodes)
    (hnext : ∀ a, (∃ state final, pass.run state = (.ok a, final)) →
      (next a).Visits scheme nodes') :
    (pass >>= next).Visits scheme (nodes ++ nodes') := by
  intro state
  obtain ⟨⟨added, met, hcompleted, hmet, hadded⟩, herror⟩ := h state
  rw [run_bind]
  rcases hrun : pass.run state with ⟨error | a, middle⟩
  · rw [hrun] at hcompleted herror
    refine ⟨⟨added, met, hcompleted, hmet.trans (List.sublist_append_left _ _), hadded⟩, ?_⟩
    rintro _ ⟨⟩
    obtain ⟨node, hnode, hoffends⟩ := herror error rfl
    exact ⟨node, List.mem_append_left _ hnode, hoffends⟩
  · rw [hrun] at hcompleted
    obtain ⟨⟨added', met', hcompleted', hmet', hadded'⟩, herror'⟩ :=
      hnext a ⟨state, middle, hrun⟩ middle
    refine ⟨⟨added ++ added', met ++ met', ?_, hmet.append hmet',
      List.rel_append hadded hadded'⟩, ?_⟩
    · rw [hcompleted', hcompleted, List.append_assoc]
    · intro error h
      obtain ⟨node, hnode, hoffends⟩ := herror' error h
      exact ⟨node, List.mem_append_right _ hnode, hoffends⟩

/-- What is made of the result of a pass visits nothing more. -/
theorem map {pass : Pass α} (h : pass.Visits scheme nodes) (f : α → β) :
    (pass >>= fun a => Pure.pure (f a)).Visits scheme nodes := by
  have hdone := h.bind fun a _ => pure (f a)
  rwa [List.append_nil] at hdone

/-- The name of a schema is known, unless it refers to a model that is missing. -/
theorem of_siteTypeName {site : Site} {pointer : Pointer} {form : Form} {nullable : Bool}
    {metadata : Metadata} {body : String → Pass Outline}
    (hpath : site.schemaPath = Pointer.text pointer)
    (hnode : ⟨pointer, site.instancePath, ⟨form, nullable, metadata⟩⟩ ∈ nodes)
    (hbody : ∀ name, siteTypeName scheme site form metadata = .ok name →
      (body name).Visits scheme nodes) :
    ((siteTypeName scheme site form metadata : Except CodegenError String) >>= body :
      Pass Outline).Visits scheme nodes := by
  intro state
  rw [run_bind]
  have hlift : (liftM (siteTypeName scheme site form metadata) : Pass String).run state =
      (siteTypeName scheme site form metadata, state) := rfl
  rw [hlift]
  rcases hname : siteTypeName scheme site form metadata with error | name
  · refine ⟨⟨[], [], (List.append_nil _).symm, List.nil_sublist _, .nil⟩, ?_⟩
    rintro _ ⟨⟩
    refine ⟨_, hnode, ?_⟩
    -- Only the name of a model can be missing.
    unfold siteTypeName at hname
    split at hname
    · split at hname
      · cases hname
      · rename_i target hmissing
        cases hname
        exact ⟨hpath, rfl, Entries.lookup_eq_none_iff.mp (Option.map_eq_none_iff.mp hmissing)⟩
    · cases hname
  · exact hbody name hname state

/-- **A named type is declared or referred to**, unless its name stands for another shape. -/
theorem of_registerShape {context : NodeContext} {node : LocatedSchema} {body : Pass Outline}
    (hreference : (Outline.reference context).MadeFor node) (hnamed : node.schema.form.IsNamed)
    (hname : context.typeName = scheme.typeName node.schema.typeId node.path)
    (hbody : body.Visits scheme (nodes ++ [node])) :
    (Pass.registerShape context.typeName (NameRegistry.shapeOf node.schema) context.schemaPath >>=
      fun isNew => if isNew = true then body else Pass.complete (.reference context)).Visits scheme
        (nodes ++ [node]) := by
  intro state
  rw [run_bind, run_registerShape]
  rcases hregister : state.registry.registerShape context.typeName
    (NameRegistry.shapeOf node.schema) context.schemaPath with error | ⟨isNew, registry⟩
  · refine ⟨⟨[], [], (List.append_nil _).symm, List.nil_sublist _, .nil⟩, ?_⟩
    rintro _ ⟨⟩
    refine ⟨node, List.mem_append_right _ (List.mem_singleton_self _), ?_⟩
    unfold NameRegistry.registerShape at hregister
    dsimp only at hregister
    split at hregister
    · cases hregister
    · cases hregister
    · rename_i known hknown
      split at hregister
      · rename_i hconflict
        cases hregister
        exact ⟨hreference.context.schemaPath, hnamed, hname, known, hknown, hconflict.2⟩
      · cases hregister
  · cases isNew with
    | true => exact hbody { state with registry }
    | false =>
      exact ⟨⟨[_], [node], rfl, List.sublist_append_right _ _, .cons hreference .nil⟩, nofun⟩

/-- **An object is declared or referred to**, once its properties have been visited. -/
theorem of_object {context : NodeContext} {tag : Option TagField} {node : LocatedSchema}
    {required optional : List (String × Schema)} {strict : Bool} (hat : context.IsAt node)
    (hform : node.schema.form = .object required optional strict)
    (hname : context.typeName = scheme.typeName node.schema.typeId node.path)
    (hrequired : (Schema.propertyOutlines scheme context "properties" required).Visits scheme
      (Schema.childLocated (node.pointer ++ ["properties"]) node.path required))
    (hoptional :
      (Schema.propertyOutlines scheme context "optionalProperties" optional).Visits scheme
        (Schema.childLocated (node.pointer ++ ["optionalProperties"]) node.path optional)) :
    (Pass.registerShape context.typeName (NameRegistry.shapeOf node.schema) context.schemaPath >>=
      fun isNew => if isNew = true then do
        let present ← Schema.propertyOutlines scheme context "properties" required
        let further ← Schema.propertyOutlines scheme context "optionalProperties" optional
        Pass.complete (.object context tag (present ++ further))
      else Pass.complete (.reference context)).Visits scheme
        (node.schema.located node.pointer node.path) := by
  rw [Schema.located_eq]
  refine of_registerShape ⟨hat, ?_⟩ ?_ hname ?_
  · rw [hform]
    trivial
  · rw [hform]
    trivial
  rw [hform, Schema.formLocated, List.append_assoc]
  refine hrequired.bind ?_
  rintro present ⟨_, _, hpresent⟩
  refine hoptional.bind ?_
  rintro further ⟨_, _, hfurther⟩
  refine complete ⟨hat, ?_⟩
  rw [hform, Outline.Fits, Entries.keys, List.map_append]
  exact congrArg₂ (· ++ ·) (Schema.keys_propertyOutlines hpresent)
    (Schema.keys_propertyOutlines hfurther)

end Pass.Visits

/-! ## Sites -/

section

variable {context : NodeContext} {pointer : Pointer}

/-- The text of a pointer is extended by a token. -/
theorem Pointer.extend_text (pointer : Pointer) (token : String) :
    extend (text pointer) token = text (pointer ++ [token]) := by
  simp [extend, text]

theorem NodeContext.schemaPath_partSite (hpath : context.schemaPath = Pointer.text pointer)
    (segment keyword : String) :
    (context.partSite segment keyword).schemaPath = Pointer.text (pointer ++ [keyword]) := by
  rw [← Pointer.extend_text, ← hpath]
  rfl

theorem NodeContext.schemaPath_propertySite (hpath : context.schemaPath = Pointer.text pointer)
    (keyword key : String) :
    (context.propertySite keyword key).schemaPath =
      Pointer.text (pointer ++ [keyword] ++ [key]) := by
  rw [← Pointer.extend_text, ← Pointer.extend_text, ← hpath]
  rfl

end

/-! ## Schemas -/

namespace Schema

open Pass (Visits)

variable {scheme : NameScheme}

mutual

/-- **The pass over a schema** visits the schemas inside it. -/
theorem visits_outline : ∀ (schema : Schema) {site : Site} {pointer : Pointer},
    site.schemaPath = Pointer.text pointer → schema.WellFormed →
      (schema.outline scheme site).Visits scheme (schema.located pointer site.instancePath)
  | ⟨.scalar kind, nullable, metadata⟩, site, pointer, hpath, _ =>
    Visits.of_siteTypeName hpath mem_located_self fun name _ =>
      .complete ⟨⟨hpath, rfl, rfl⟩, rfl⟩
  | ⟨.enumeration values, nullable, metadata⟩, site, pointer, hpath, _ =>
    Visits.of_siteTypeName hpath mem_located_self fun name hname => by
      cases hname
      rw [located_eq]
      exact Visits.of_registerShape ⟨⟨hpath, rfl, rfl⟩, trivial⟩ trivial rfl
        (.complete ⟨⟨hpath, rfl, rfl⟩, rfl⟩)
  | ⟨.object required optional strict, nullable, metadata⟩, site, pointer, hpath,
      ⟨hrequired, hoptional⟩ =>
    Visits.of_siteTypeName hpath mem_located_self fun name hname => by
      cases hname
      have hat : NodeContext.IsAt
          (siteContext site nullable metadata (scheme.typeName metadata.id site.instancePath))
          ⟨pointer, site.instancePath, ⟨.object required optional strict, nullable, metadata⟩⟩ :=
        ⟨hpath, rfl, rfl⟩
      have hobject := @Visits.of_object _ _ none _ _ _ _ hat rfl rfl
        (visits_propertyOutlines required hat.schemaPath hrequired)
        (visits_propertyOutlines optional hat.schemaPath hoptional)
      rw [formOutline]
      exact hobject
  | ⟨.array element, nullable, metadata⟩, site, pointer, hpath, helement =>
    Visits.of_siteTypeName hpath mem_located_self fun name _ => by
      rw [formOutline, located_eq]
      exact Visits.bind (visits_outline element
        (NodeContext.schemaPath_partSite hpath "Item" "elements") helement) fun _ _ =>
          .complete ⟨⟨hpath, rfl, rfl⟩, trivial⟩
  | ⟨.record value, nullable, metadata⟩, site, pointer, hpath, hvalue =>
    Visits.of_siteTypeName hpath mem_located_self fun name _ => by
      rw [formOutline, located_eq]
      exact Visits.bind (visits_outline value
        (NodeContext.schemaPath_partSite hpath "Value" "values") hvalue) fun _ _ =>
          .complete ⟨⟨hpath, rfl, rfl⟩, trivial⟩
  | ⟨.union tag variants, nullable, metadata⟩, site, pointer, hpath, ⟨hvariants, htag⟩ =>
    Visits.of_siteTypeName hpath mem_located_self fun name hname => by
      cases hname
      have hat : NodeContext.IsAt
          (siteContext site nullable metadata (scheme.typeName metadata.id site.instancePath))
          ⟨pointer, site.instancePath, ⟨.union tag variants, nullable, metadata⟩⟩ :=
        ⟨hpath, rfl, rfl⟩
      have hvariants := visits_variantOutlines variants hat.schemaPath hvariants htag
      rw [formOutline, located_eq]
      refine Visits.of_registerShape ⟨hat, trivial⟩ trivial rfl (hvariants.bind ?_)
      rintro outlines ⟨_, _, houtlines⟩
      exact .complete ⟨hat, rfl, keys_variantOutlines houtlines⟩
  | ⟨.ref target, nullable, metadata⟩, site, pointer, hpath, _ =>
    Visits.of_siteTypeName hpath mem_located_self fun name _ =>
      .complete ⟨⟨hpath, rfl, rfl⟩, trivial⟩

/-- The pass over the properties of a section. -/
theorem visits_propertyOutlines {context : NodeContext} {pointer : Pointer} {keyword : String} :
    ∀ children : List (String × Schema), context.schemaPath = Pointer.text pointer →
      WellFormedChildren children →
      (propertyOutlines scheme context keyword children).Visits scheme
        (childLocated (pointer ++ [keyword]) context.instancePath children)
  | [], _, _ => .pure []
  | (key, schema) :: rest, hpath, ⟨hschema, hrest⟩ => by
    have hfirst := visits_outline schema (NodeContext.schemaPath_propertySite hpath keyword key)
      hschema
    exact hfirst.bind fun outline _ =>
      (visits_propertyOutlines rest hpath hrest).map ((key, outline) :: ·)

/-- The pass over the variants of a union, which are objects that leave the tag to it. -/
theorem visits_variantOutlines {context : NodeContext} {pointer : Pointer} {tag : String} :
    ∀ children : List (String × Schema), context.schemaPath = Pointer.text pointer →
      WellFormedChildren children → (∀ child ∈ children, IsVariant tag child.2) →
      (variantOutlines scheme context tag children).Visits scheme
        (childLocated (pointer ++ ["mapping"]) context.instancePath children)
  | [], _, _, _ => .pure []
  | (name, ⟨.object required optional strict, nullable, metadata⟩) :: rest, hpath,
      ⟨⟨hrequired, hoptional⟩, hrest⟩, htag => by
    obtain ⟨hfirst, htag⟩ := List.forall_mem_cons.mp htag
    have hundeclared : ¬ declares required optional tag = true :=
      Bool.eq_false_iff.mp hfirst
    rw [variantOutlines_cons hundeclared]
    have hinner : (variantContext scheme context name metadata).schemaPath =
        Pointer.text (pointer ++ ["mapping"] ++ [name]) :=
      NodeContext.schemaPath_propertySite hpath "mapping" name
    have hat : NodeContext.IsAt (variantContext scheme context name metadata)
        ⟨pointer ++ ["mapping"] ++ [name], joinNames context.instancePath name,
          ⟨.object required optional strict, nullable, metadata⟩⟩ := ⟨hinner, rfl, rfl⟩
    have hobject := @Visits.of_object _ _ (some ⟨tag, name⟩) _ _ _ _ hat rfl rfl
      (visits_propertyOutlines required hat.schemaPath hrequired)
      (visits_propertyOutlines optional hat.schemaPath hoptional)
    exact hobject.bind fun outline _ =>
      (visits_variantOutlines rest hpath hrest htag).map ((name, outline) :: ·)
  | (_, ⟨.scalar _, _, _⟩) :: _, _, _, htag
  | (_, ⟨.enumeration _, _, _⟩) :: _, _, _, htag
  | (_, ⟨.array _, _, _⟩) :: _, _, _, htag
  | (_, ⟨.record _, _, _⟩) :: _, _, _, htag
  | (_, ⟨.union _ _, _, _⟩) :: _, _, _, htag
  | (_, ⟨.ref _, _, _⟩) :: _, _, _, htag => (htag _ List.mem_cons_self).elim

end

end Schema

/-- **The pass over models** visits the schemas in them. -/
theorem Models.visits_outlines {scheme : NameScheme} : ∀ models : List (String × Schema),
    Schema.WellFormedChildren models →
      (Models.outline scheme models).Visits scheme (Models.located models)
  | [], _ => .pure []
  | (name, schema) :: rest, ⟨hschema, hrest⟩ => by
    have hpath : (Site.ofPaths name (Pointer.extend "/models" name)).schemaPath =
        Pointer.text (["models"] ++ [name]) := Pointer.extend_text ["models"] name
    exact (schema.visits_outline hpath hschema).bind fun outline _ =>
      (Models.visits_outlines rest hrest).map (outline :: ·)

/-! ## Definitions -/

/-- The place that an error of a schema is at. -/
def CodegenError.place? : CodegenError → Option String
  | .unresolvedReference place _ | .nameConflict _ place | .schema place _ => some place
  | _ => none

theorem LocatedSchema.Offends.place?_eq {scheme : NameScheme} {registry : NameRegistry}
    {node : LocatedSchema} {error : CodegenError} (h : node.Offends scheme registry error) :
    error.place? = some (Pointer.text node.pointer) := by
  cases error with
  | unresolvedReference place target => exact congrArg some h.1
  | nameConflict name place => exact congrArg some h.1
  | _ => exact h.elim

/-- Pointers are told apart by their texts. -/
theorem Pointer.eq_of_text_eq {pointer pointer' : Pointer} (h : text pointer = text pointer') :
    pointer = pointer' :=
  Option.some.inj ((ofText?_text pointer).symm.trans ((congrArg ofText? h).trans
    (ofText?_text pointer')))

namespace Definition

/-- **A text leads to a schema**: read as a pointer it names the document of the schema, in the
document of a definition. -/
def Leads (definition : Definition) (place : String) (schema : Schema) : Prop :=
  ∃ pointer, Pointer.ofText? place = some pointer ∧
    definition.toJson.resolve? pointer = some schema.toJson

/-- **Pointers lead to what parts are made for.** The parts that a pass over the models of a
definition completes are made for schemas in them, for each at most once and in order; the pointer of
a part leads to the document of its schema. Different schemas have different pointers. If the pass
fails, the error points at the schema that it is about. -/
theorem schemaPaths_exact {document : Json} {definition : Definition}
    (hformed : document.WellFormed) (hread : ofJson document = .ok definition) (backend : Backend)
    (registry : NameRegistry) :
    let scheme := backend.scheme definition.models
    let outcome := (Models.outline scheme definition.models).run { registry }
    (∃ met : List LocatedSchema, met.Sublist (Models.located definition.models) ∧
      List.Forall₂ (fun part node => part.MadeFor node ∧
        definition.Leads part.context.schemaPath node.schema) outcome.2.completed met) ∧
    (outcome.2.completed.map (·.context.schemaPath)).Nodup ∧
    (∀ node ∈ Models.located definition.models, ∀ node' ∈ Models.located definition.models,
      Pointer.text node.pointer = Pointer.text node'.pointer → node = node') ∧
    ∀ error, outcome.1 = .error error → ∃ node ∈ Models.located definition.models,
      node.Offends scheme outcome.2.registry error ∧
        ∃ place, error.place? = some place ∧ definition.Leads place node.schema := by
  intro scheme outcome
  obtain ⟨hdistinct, hmodels⟩ := listsOnce_of_ofJson hformed hread
  have hwellFormed := Schema.wellFormedChildren_iff.mpr (wellFormed_of_ofJson hread).models
  have hleads : ∀ node ∈ Models.located definition.models,
      definition.Leads (Pointer.text node.pointer) node.schema := fun node hnode =>
    ⟨node.pointer, Pointer.ofText?_text _,
      Models.resolve?_of_mem_located hdistinct hmodels node hnode⟩
  have hapart := Models.apart_located hdistinct hmodels
  obtain ⟨⟨added, met, hcompleted, hmet, hadded⟩, herror⟩ :=
    @Models.visits_outlines scheme definition.models hwellFormed { registry }
  obtain rfl : outcome.2.completed = added := hcompleted
  refine ⟨⟨met, hmet, ?_⟩, ?_, ?_, ?_⟩
  · refine Outcome.forall₂_of_right hadded fun node hnode part hmade => ⟨hmade, ?_⟩
    rw [hmade.context.schemaPath]
    exact hleads node (hmet.subset hnode)
  · have hpaths : outcome.2.completed.map (·.context.schemaPath) =
        (met.map LocatedSchema.pointer).map Pointer.text := by
      rw [List.map_map]
      exact Outcome.map_eq_map_of_forall₂ (hadded.imp fun _ _ h => h.context.schemaPath)
    rw [hpaths]
    exact (hapart.sublist (hmet.map _)).map fun _ _ => Pointer.eq_of_text_eq
  · intro node hnode node' hnode' h
    exact List.inj_on_of_nodup_map hapart hnode hnode' (Pointer.eq_of_text_eq h)
  · intro error h
    obtain ⟨node, hnode, hoffends⟩ := herror error h
    exact ⟨node, hnode, hoffends, _, hoffends.place?_eq, hleads node hnode⟩

/-- The case of keys with slashes and tildes, in a property and in a variant of a union. -/
theorem schemaPaths_exact_escaped_keys :
    let variant := Json.object [("properties", .object
      [("x~y", .object [("elements", .object [("ref", .string "a/b")])])])]
    let model := Json.object
      [("discriminator", .string "kind"), ("mapping", .object [("v/w", variant)])]
    let document := Json.object [("arriSchemaVersion", .string "0.0.4"),
      ("models", .object [("a/b", model)]), ("errors", .object [("type", .string "string")])]
    let definition := (ofErrors (.scalar .string)).withModel "a/b" <|
      (Schema.union "kind").variant "v/w" <|
        Schema.object.property "x~y" (.array (.reference "a/b"))
    let backend := TypeScript.backend {}
    let completed := ((Models.outline (backend.scheme definition.models) definition.models).run
      { registry := backend.registry }).2.completed
    (document.WellFormed ∧ ofJson document = .ok definition) ∧
      completed.map (·.context.schemaPath) =
        ["/models/a~1b/mapping/v~1w/properties/x~0y/elements",
          "/models/a~1b/mapping/v~1w/properties/x~0y", "/models/a~1b/mapping/v~1w",
          "/models/a~1b"] ∧
      (completed.map (·.context.schemaPath)).Nodup ∧
      ∀ part ∈ completed, ∃ schema, definition.Leads part.context.schemaPath schema := by
  intro variant model document definition backend completed
  have hformed : document.WellFormed := by
    simp [document, model, variant, Json.WellFormed, Json.WellFormedEntries, Entries.Distinct,
      Entries.keys]
  have hread : ofJson document = .ok definition := rfl
  obtain ⟨⟨met, -, hmade⟩, hnodup, -⟩ := schemaPaths_exact hformed hread backend backend.registry
  refine ⟨⟨hformed, hread⟩, by decide +kernel, hnodup, fun part hpart => ?_⟩
  obtain ⟨node, -, -, hleads⟩ := Outcome.exists_of_forall₂_right hmade.flip part hpart
  exact ⟨node.schema, hleads⟩

end Definition

end RpcSchema
