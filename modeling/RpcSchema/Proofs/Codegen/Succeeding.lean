import RpcSchema.Proofs.Codegen.Declarations
import RpcSchema.Proofs.Schema.Closed

set_option autoImplicit false

/-!
# Outlines of closed schemas

The outline of a closed schema is given whatever has been declared before, but for a strict registry
that meets a name again for another shape. The names that can be met are known beforehand: they
depend on the path of a schema and on the name that it gives itself only.

## Main definitions

* `RpcSchema.Schema.namedTypes` — the named types in a schema.
* `RpcSchema.Reused` — a name is given to types of different shapes.
* `RpcSchema.Pass.Succeeds` — a pass fails at most because a name is reused.

## Main results

* `RpcSchema.Schema.succeeds_outline`, `RpcSchema.Models.succeeds_outline` — outlines of closed
  schemas.
-/

namespace RpcSchema

/-! ## Named types -/

namespace Schema

mutual

/-- **The named types in a schema** on a path, under the names that they are given. -/
def namedTypes (scheme : NameScheme) (path : String) : Schema → List (String × Schema)
  | ⟨form, nullable, metadata⟩ =>
    formTypes scheme path (scheme.typeName metadata.id path, ⟨form, nullable, metadata⟩) form

/-- The named types in a form. -/
def formTypes (scheme : NameScheme) (path : String) (here : String × Schema) :
    Form → List (String × Schema)
  | .enumeration _ => [here]
  | .object required optional _ =>
    here :: (childTypes scheme path required ++ childTypes scheme path optional)
  | .array element => element.namedTypes scheme (joinNames path "Item")
  | .record value => value.namedTypes scheme (joinNames path "Value")
  | .union _ variants => here :: childTypes scheme path variants
  | _ => []

/-- The named types in the schemas of a map. -/
def childTypes (scheme : NameScheme) (path : String) :
    List (String × Schema) → List (String × Schema)
  | [] => []
  | (key, schema) :: rest =>
    schema.namedTypes scheme (joinNames path key) ++ childTypes scheme path rest

end

end Schema

/-- The named types in models. -/
def Models.namedTypes (scheme : NameScheme) (models : List (String × Schema)) :
    List (String × Schema) :=
  models.flatMap fun model => model.2.namedTypes scheme model.1

/-- **A name is reused** for types of different shapes. -/
def Reused (types : List (String × Schema)) (name : String) : Prop :=
  ∃ schema other, (name, schema) ∈ types ∧ (name, other) ∈ types ∧ ¬ schema.SameShape other

/-! ## Passes that succeed -/

/-- **Every name that is taken** is taken for one of some types. -/
structure PassState.Within (types : List (String × Schema)) (strict : Bool) (state : PassState) :
    Prop where
  strict : state.registry.strict = strict
  known : ∀ name shape, state.shape? name = some (some shape) →
    ∃ schema, (name, schema) ∈ types ∧ NameRegistry.shapeOf schema = shape

/-- **A pass succeeds** unless the registry is strict and a name is reused. -/
def Pass.Succeeds {α : Type} (types : List (String × Schema)) (strict : Bool) (pass : Pass α) :
    Prop :=
  ∀ state : PassState, state.Within types strict →
    (∃ a final, pass.run state = (.ok a, final) ∧ final.Within types strict) ∨
      (strict = true ∧ ∃ name place final,
        pass.run state = (.error (.nameConflict name place), final) ∧ Reused types name)

namespace Pass.Succeeds

variable {α β : Type} {types : List (String × Schema)} {strict : Bool}

theorem pure (a : α) : (Pure.pure a : Pass α).Succeeds types strict :=
  fun state h => .inl ⟨a, state, rfl, h⟩

/-- What is known without a pass is taken as it is. -/
theorem lift {result : Except CodegenError α} {a : α} (h : result = .ok a) :
    (liftM result : Pass α).Succeeds types strict :=
  fun state hstate => .inl ⟨a, state, lift_eq_ok_iff.mpr ⟨h, rfl⟩, hstate⟩

/-- **One pass behind another.** -/
theorem bind {pass : Pass α} {next : α → Pass β} (h : pass.Succeeds types strict)
    (hnext : ∀ a, (next a).Succeeds types strict) : (pass >>= next).Succeeds types strict := by
  intro state hstate
  rw [run_bind]
  rcases h state hstate with
    ⟨a, middle, hrun, hmiddle⟩ | ⟨hstrict, name, place, final, hrun, hreused⟩
  · rw [hrun]
    exact hnext a middle hmiddle
  · rw [hrun]
    exact .inr ⟨hstrict, name, place, final, rfl, hreused⟩

theorem complete (part : Outline) : (Pass.complete part).Succeeds types strict :=
  fun state h => .inl ⟨part, state.finish part, complete_eq_ok_iff.mpr ⟨rfl, rfl⟩,
    ⟨h.strict, h.known⟩⟩

/-- **A name is taken for a type**: if it is known for another shape, it is reused. -/
theorem registerShape {name : String} {schema : Schema} (h : (name, schema) ∈ types)
    (place : String) :
    (Pass.registerShape name (NameRegistry.shapeOf schema) place).Succeeds types strict := by
  intro state hstate
  rw [run_registerShape, NameRegistry.registerShape]
  have hlookup : state.registry.names.lookup name = state.shape? name := rfl
  -- The name is taken for the shape of the type, whether it was new or had no shape.
  have htaken : (state.take name (NameRegistry.shapeOf schema)).Within types strict := by
    refine ⟨hstate.strict, fun other shape hshape => ?_⟩
    rw [PassState.shape?_take] at hshape
    split at hshape
    · rename_i heq
      cases hshape
      exact ⟨schema, heq ▸ h, rfl⟩
    · exact hstate.known other shape hshape
  rw [hlookup]
  rcases hshape : state.shape? name with _ | _ | known
  · exact .inl ⟨true, _, rfl, htaken⟩
  · exact .inl ⟨false, _, rfl, htaken⟩
  · obtain ⟨other, hother, hknown⟩ := hstate.known name known hshape
    by_cases hconflict : state.registry.strict = true ∧ known ≠ NameRegistry.shapeOf schema
    · simp only [if_pos hconflict]
      have hdifferent : ¬ other.SameShape schema := fun hsame =>
        hconflict.2 (hknown ▸ congrArg Schema.fingerprint hsame)
      exact .inr ⟨hstate.strict ▸ hconflict.1, name, place, state, rfl,
        ⟨other, schema, hother, h, hdifferent⟩⟩
    · simp only [if_neg hconflict]
      exact .inl ⟨false, state, rfl, hstate⟩

/-- **A named type is declared or referred to.** -/
theorem declareOrRefer {context : NodeContext} {schema : Schema} {body : Pass Outline}
    (h : (context.typeName, schema) ∈ types) (hbody : body.Succeeds types strict) :
    (Pass.registerShape context.typeName (NameRegistry.shapeOf schema) context.schemaPath >>=
      fun isNew => if isNew = true then body else Pass.complete (.reference context)).Succeeds
        types strict := by
  refine (registerShape h _).bind fun isNew => ?_
  cases isNew with
  | true => exact hbody
  | false => exact complete _

/-- The outline of an object is given when those of its properties are. -/
theorem object {scheme : NameScheme} {context : NodeContext} {tag : Option TagField}
    {required optional : List (String × Schema)}
    (hrequired : (Schema.propertyOutlines scheme context "properties" required).Succeeds types
      strict)
    (hoptional : (Schema.propertyOutlines scheme context "optionalProperties" optional).Succeeds
      types strict) :
    (do
      let present ← Schema.propertyOutlines scheme context "properties" required
      let further ← Schema.propertyOutlines scheme context "optionalProperties" optional
      Pass.complete (.object context tag (present ++ further))).Succeeds types strict :=
  hrequired.bind fun _ => hoptional.bind fun _ => complete _

end Pass.Succeeds

/-! ## Outlines -/

section

variable {scheme : NameScheme} {types : List (String × Schema)} {strict : Bool}

/-- The outline of a schema is given when that of its form is, under the name that it has. -/
theorem Schema.succeeds_of_form {site : Site} {form : Form} {nullable : Bool} {metadata : Metadata}
    {name : String} (hname : siteTypeName scheme site form metadata = .ok name)
    (h : (Schema.formOutline scheme (siteContext site nullable metadata name)
      (NameRegistry.shapeOf ⟨form, nullable, metadata⟩) form).Succeeds types strict) :
    (Schema.outline scheme site ⟨form, nullable, metadata⟩).Succeeds types strict := by
  intro state hstate
  have hrun : (Schema.outline scheme site ⟨form, nullable, metadata⟩).run state =
      (Schema.formOutline scheme (siteContext site nullable metadata name)
        (NameRegistry.shapeOf ⟨form, nullable, metadata⟩) form).run state := by
    rw [Schema.outline, hname]
    rfl
  rw [hrun]
  exact h state hstate

mutual

/-- **The outline of a closed schema** is given, if the named types in it are among those that names
can be taken for. -/
theorem Schema.succeeds_outline : ∀ (schema : Schema) {site : Site},
    schema.Closed scheme.models →
    (∀ type ∈ schema.namedTypes scheme site.instancePath, type ∈ types) →
    (schema.outline scheme site).Succeeds types strict
  | ⟨.scalar kind, nullable, metadata⟩, site, _, _ =>
    Schema.succeeds_of_form rfl (.complete _)
  | ⟨.enumeration values, nullable, metadata⟩, site, _, htypes =>
    Schema.succeeds_of_form rfl (.declareOrRefer (htypes _ List.mem_cons_self) (.complete _))
  | ⟨.object required optional strict', nullable, metadata⟩, site, hclosed, htypes => by
    obtain ⟨hrequired, hoptional⟩ := hclosed.object
    obtain ⟨hhere, htypes⟩ := List.forall_mem_cons.mp htypes
    obtain ⟨hrequired', hoptional'⟩ := List.forall_mem_append.mp htypes
    exact Schema.succeeds_of_form rfl (.declareOrRefer hhere
      (.object (Schema.succeeds_propertyOutlines required hrequired hrequired')
        (Schema.succeeds_propertyOutlines optional hoptional hoptional')))
  | ⟨.array element, nullable, metadata⟩, site, hclosed, htypes =>
    Schema.succeeds_of_form rfl
      ((Schema.succeeds_outline element hclosed.array htypes).bind fun _ => .complete _)
  | ⟨.record value, nullable, metadata⟩, site, hclosed, htypes =>
    Schema.succeeds_of_form rfl
      ((Schema.succeeds_outline value hclosed.record htypes).bind fun _ => .complete _)
  | ⟨.union tag variants, nullable, metadata⟩, site, hclosed, htypes => by
    obtain ⟨hvariants, hcheck⟩ := hclosed.union
    obtain ⟨hhere, htypes⟩ := List.forall_mem_cons.mp htypes
    exact Schema.succeeds_of_form rfl (.declareOrRefer hhere
      ((Schema.succeeds_variantOutlines variants hvariants hcheck htypes).bind fun _ =>
        .complete _))
  | ⟨.ref target, nullable, metadata⟩, site, hclosed, _ => by
    obtain ⟨model, hmodel⟩ := Entries.exists_lookup_iff.mpr hclosed.ref
    have hname : siteTypeName scheme site (.ref target) metadata =
        .ok (scheme.typeName model.typeId target) := by
      rw [siteTypeName, NameScheme.modelTypeName?, hmodel]
      rfl
    exact Schema.succeeds_of_form hname (.complete _)

/-- The outlines of the properties of an object. -/
theorem Schema.succeeds_propertyOutlines {context : NodeContext} {keyword : String} :
    ∀ children : List (String × Schema), (∀ child ∈ children, child.2.Closed scheme.models) →
      (∀ type ∈ Schema.childTypes scheme context.instancePath children, type ∈ types) →
      (Schema.propertyOutlines scheme context keyword children).Succeeds types strict
  | [], _, _ => .pure _
  | (key, schema) :: rest, hclosed, htypes => by
    obtain ⟨hschema, hrest⟩ := List.forall_mem_cons.mp hclosed
    obtain ⟨htypes, htypes'⟩ := List.forall_mem_append.mp htypes
    exact (Schema.succeeds_outline schema hschema htypes).bind fun _ =>
      (Schema.succeeds_propertyOutlines rest hrest htypes').bind fun _ => .pure _

/-- The outlines of the variants of a union, which are objects that leave the tag to it. -/
theorem Schema.succeeds_variantOutlines {context : NodeContext} {tag : String} :
    ∀ children : List (String × Schema), (∀ child ∈ children, child.2.Closed scheme.models) →
      (∀ child ∈ children, Schema.IsVariant tag child.2) →
      (∀ type ∈ Schema.childTypes scheme context.instancePath children, type ∈ types) →
      (Schema.variantOutlines scheme context tag children).Succeeds types strict
  | [], _, _, _ => .pure _
  | (name, ⟨.object required optional strict', nullable, metadata⟩) :: rest, hclosed, hcheck,
      htypes => by
    obtain ⟨hschema, hrest⟩ := List.forall_mem_cons.mp hclosed
    obtain ⟨hdeclares, hcheck⟩ := List.forall_mem_cons.mp hcheck
    obtain ⟨htypes, htypes'⟩ := List.forall_mem_append.mp htypes
    obtain ⟨hhere, htypes⟩ := List.forall_mem_cons.mp htypes
    obtain ⟨hrequired', hoptional'⟩ := List.forall_mem_append.mp htypes
    obtain ⟨hrequired, hoptional⟩ := hschema.object
    have htag : ¬ Schema.declares required optional tag = true := Bool.eq_false_iff.mp hdeclares
    rw [Schema.variantOutlines_cons htag]
    exact Pass.Succeeds.bind (.declareOrRefer hhere
      (.object (Schema.succeeds_propertyOutlines required hrequired hrequired')
        (Schema.succeeds_propertyOutlines optional hoptional hoptional'))) fun _ =>
      (Schema.succeeds_variantOutlines rest hrest hcheck htypes').bind fun _ => .pure _
  | (_, ⟨.scalar _, _, _⟩) :: _, _, hcheck, _
  | (_, ⟨.enumeration _, _, _⟩) :: _, _, hcheck, _
  | (_, ⟨.array _, _, _⟩) :: _, _, hcheck, _
  | (_, ⟨.record _, _, _⟩) :: _, _, hcheck, _
  | (_, ⟨.union _ _, _, _⟩) :: _, _, hcheck, _
  | (_, ⟨.ref _, _, _⟩) :: _, _, hcheck, _ => (hcheck _ List.mem_cons_self).elim

end

/-- **The outlines of closed models** are given. -/
theorem Models.succeeds_outline : ∀ (models : List (String × Schema)),
    (∀ model ∈ models, model.2.Closed scheme.models) →
    (∀ type ∈ Models.namedTypes scheme models, type ∈ types) →
    (Models.outline scheme models).Succeeds types strict
  | [], _, _ => .pure _
  | (name, schema) :: rest, hclosed, htypes => by
    obtain ⟨hschema, hrest⟩ := List.forall_mem_cons.mp hclosed
    obtain ⟨htypes, htypes'⟩ := List.forall_mem_append.mp htypes
    exact (Schema.succeeds_outline schema hschema htypes).bind fun _ =>
      (Models.succeeds_outline rest hrest htypes').bind fun _ => .pure _

end

end RpcSchema
