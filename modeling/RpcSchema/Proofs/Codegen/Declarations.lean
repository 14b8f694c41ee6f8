import Mathlib.Data.List.Perm.Basic
import RpcSchema.Proofs.Codegen.Occurrences
import RpcSchema.Proofs.Codegen.Passes

set_option autoImplicit false

/-!
# What outlines declare

A pass over a schema takes the names of the types that it declares. What it does is told here by the
places that it meets and by the parts that it completes, for a registry that is strict: the names
taken are those of the declarations, every declaration is made at one of the places, and every name
that is met stands for the shape that the type has there.

## Main definitions

* `RpcSchema.Advances` — what a pass does to its state, by the places that it meets.

## Main results

* `RpcSchema.Schema.advances_outline` — what the outline of a schema does.
* `RpcSchema.Models.advances_outline` — what the outlines of models do.
-/

namespace RpcSchema

/-! ## What a pass does to its state -/

/-- An occurrence is a model, under the name that references to the model have for it. -/
def Occurrence.IsModel (scheme : NameScheme) (occurrence : Occurrence) : Prop :=
  ∃ target, scheme.models.lookup target = some occurrence.schema ∧
    occurrence.name = scheme.typeName occurrence.schema.typeId target

/-- **A pass goes on** from one state to another, meeting places and completing parts: the names it
takes are those of the declarations among the parts, and each declaration is made from one of the
places. A name keeps its shape. -/
structure Advances (scheme : NameScheme) (met : List Occurrence) (parts : List Outline)
    (state final : PassState) : Prop where
  ready : final.Ready
  completed : final.completed = state.completed ++ parts
  keeps : ∀ name shape, state.shape? name = some (some shape) →
    final.shape? name = some (some shape)
  names : (Entries.keys final.registry.names).Perm
    (Entries.keys state.registry.names ++ (Outline.declarations parts).map Outline.typeName)
  registered : ∀ occurrence ∈ met, occurrence.IsModel scheme ∨
    final.shape? occurrence.name = some (some (NameRegistry.shapeOf occurrence.schema))
  declared : ∀ part ∈ Outline.declarations parts,
    ∃ occurrence ∈ met, occurrence.outline = part ∧ part.declaredTag? = some occurrence.tag

namespace Advances

variable {scheme : NameScheme} {met met' : List Occurrence} {parts parts' : List Outline}
  {state middle final : PassState}

/-- A pass that does nothing. -/
theorem nothing (h : state.Ready) : Advances scheme [] [] state state where
  ready := h
  completed := (List.append_nil _).symm
  keeps _ _ h := h
  names := by simp [Outline.declarations]
  registered := by simp
  declared := by simp [Outline.declarations]

/-- **One pass behind another.** -/
theorem trans (h : Advances scheme met parts state middle)
    (h' : Advances scheme met' parts' middle final) :
    Advances scheme (met ++ met') (parts ++ parts') state final where
  ready := h'.ready
  completed := by rw [h'.completed, h.completed, List.append_assoc]
  keeps name shape hshape := h'.keeps name shape (h.keeps name shape hshape)
  names := by
    rw [Outline.declarations, List.filter_append, List.map_append, ← List.append_assoc]
    exact h'.names.trans (h.names.append_right _)
  registered occurrence hmem := by
    rcases List.mem_append.mp hmem with hmem | hmem
    · exact (h.registered occurrence hmem).imp_right (h'.keeps _ _)
    · exact h'.registered occurrence hmem
  declared part hpart := by
    rw [Outline.declarations, List.filter_append, List.mem_append] at hpart
    rcases hpart with hpart | hpart
    · obtain ⟨occurrence, hmem, hoccurrence⟩ := h.declared part hpart
      exact ⟨occurrence, List.mem_append_left _ hmem, hoccurrence⟩
    · obtain ⟨occurrence, hmem, hoccurrence⟩ := h'.declared part hpart
      exact ⟨occurrence, List.mem_append_right _ hmem, hoccurrence⟩

/-- A part that is no declaration is completed. -/
theorem finish {part : Outline} (h : Advances scheme met parts state final)
    (hpart : part.declaredTag? = none) :
    Advances scheme met (parts ++ [part]) state (final.finish part) where
  ready := h.ready.finish part
  completed := by rw [PassState.finish, h.completed, List.append_assoc]
  keeps := h.keeps
  names := by
    have hnames := h.names
    simpa [Outline.declarations, hpart] using hnames
  registered := h.registered
  declared declaration hdeclaration := by
    refine h.declared declaration ?_
    simpa [Outline.declarations, hpart] using hdeclaration

/-- **A type is declared**: its name is taken, what is inside is gone through, and the declaration
is completed. -/
theorem declare (here : Occurrence) (hnew : state.shape? here.name = none)
    (hdeclared : here.outline.declaredTag? = some here.tag)
    (h : Advances scheme met parts
      (state.take here.name (NameRegistry.shapeOf here.schema)) final) :
    Advances scheme (here :: met) (parts ++ [here.outline]) state (final.finish here.outline) where
  ready := h.ready.finish here.outline
  completed := by rw [PassState.finish, h.completed, List.append_assoc, PassState.take]
  keeps name shape hshape := by
    refine h.keeps name shape ?_
    rw [PassState.shape?_take, if_neg, hshape]
    rintro rfl
    rw [hnew] at hshape
    cases hshape
  names := by
    have hkey : here.name ∉ Entries.keys state.registry.names :=
      Entries.lookup_eq_none_iff.mp hnew
    have hnames := h.names
    simp only [PassState.take, Entries.keys_insert_of_not_mem hkey, Entries.keys, List.map_append,
      List.map_cons, List.map_nil] at hnames
    rw [Outline.declarations, List.filter_append, List.map_append]
    simp only [List.filter_cons, hdeclared, Option.isSome_some, ↓reduceIte, List.filter_nil,
      List.map_cons, List.map_nil]
    refine hnames.trans ?_
    rw [List.append_assoc]
    exact List.Perm.append_left _ List.perm_append_comm
  registered occurrence hmem := by
    rcases List.mem_cons.mp hmem with rfl | hmem
    · right
      exact h.keeps _ _ (by rw [PassState.shape?_take, if_pos rfl])
    · exact h.registered occurrence hmem
  declared part hpart := by
    rw [Outline.declarations, List.filter_append, List.mem_append] at hpart
    rcases hpart with hpart | hpart
    · obtain ⟨occurrence, hmem, hoccurrence⟩ := h.declared part hpart
      exact ⟨occurrence, List.mem_cons_of_mem _ hmem, hoccurrence⟩
    · obtain rfl := List.mem_singleton.mp (List.mem_filter.mp hpart).1
      exact ⟨here, List.mem_cons_self, rfl, hdeclared⟩

/-- **A type is referred to**, for its name is taken or it is a model. -/
theorem refer (here : Occurrence) (hready : state.Ready)
    (hreference : here.outline.declaredTag? = none)
    (hknown : here.IsModel scheme ∨
      state.shape? here.name = some (some (NameRegistry.shapeOf here.schema))) :
    Advances scheme [here] [here.outline] state (state.finish here.outline) := by
  have h : Advances scheme [] [here.outline] state (state.finish here.outline) :=
    (nothing hready).finish hreference
  exact
    { h with
      registered := by simpa using hknown
      declared := by simp_all [Outline.declarations] }

end Advances

/-! ## Outlines of schemas -/

section

variable {scheme : NameScheme} {state final : PassState} {outline : Outline}

/-- The outline of a schema is that of its form, under the name that it has there. -/
theorem Schema.outline_eq_ok_iff {site : Site} {form : Form} {nullable : Bool}
    {metadata : Metadata} :
    (Schema.outline scheme site ⟨form, nullable, metadata⟩).run state = (.ok outline, final) ↔
      ∃ name, siteTypeName scheme site form metadata = .ok name ∧
        (Schema.formOutline scheme (siteContext site nullable metadata name)
          (NameRegistry.shapeOf ⟨form, nullable, metadata⟩) form).run state =
            (.ok outline, final) := by
  rw [Schema.outline, Pass.bind_eq_ok_iff]
  constructor
  · rintro ⟨name, middle, hlift, h⟩
    obtain ⟨hname, rfl⟩ := Pass.lift_eq_ok_iff.mp hlift
    exact ⟨name, hname, h⟩
  · rintro ⟨name, hname, h⟩
    exact ⟨name, state, Pass.lift_eq_ok_iff.mpr ⟨hname, rfl⟩, h⟩

/-- A reference goes by the name of the type of its model. -/
theorem modelTypeName?_of_siteTypeName {site : Site} {target name : String} {metadata : Metadata}
    (h : siteTypeName scheme site (.ref target) metadata = .ok name) :
    scheme.modelTypeName? target = some name := by
  rw [siteTypeName] at h
  split at h
  · rename_i hmodel
    cases h
    exact hmodel
  · cases h

/-- **A named type is declared or referred to**: if its name is new the rest of the pass makes a
declaration of it. -/
theorem Advances.of_registerShape {schema : Schema} {tag : Option TagField} {context : NodeContext}
    {body : Pass Outline} (hready : state.Ready)
    (h : (Pass.registerShape context.typeName (NameRegistry.shapeOf schema) context.schemaPath >>=
      fun isNew => if isNew = true then body else Pass.complete (.reference context)).run state =
        (.ok outline, final))
    (hrefer : schema.occurrences scheme.models tag (.reference context) =
      [⟨schema, tag, .reference context⟩])
    (hbody : ∀ start : PassState, start.Ready → body.run start = (.ok outline, final) →
      ∃ inside parts last, Advances scheme inside parts start last ∧ final = last.finish outline ∧
        outline.typeName = context.typeName ∧ outline.declaredTag? = some tag ∧
        outline.parts = parts ++ [outline] ∧
        schema.occurrences scheme.models tag outline = ⟨schema, tag, outline⟩ :: inside) :
    Advances scheme (schema.occurrences scheme.models tag outline) outline.parts state final := by
  obtain ⟨isNew, middle, hregister, hrest⟩ := Pass.bind_eq_ok_iff.mp h
  rcases Pass.registerShape_cases hready hregister with ⟨rfl, hnew, rfl⟩ | ⟨rfl, hknown, rfl⟩
  · rw [if_pos rfl] at hrest
    obtain ⟨inside, parts, last, hinside, rfl, hname, htag, hparts, hmet⟩ :=
      hbody _ (hready.take _ _) hrest
    rw [hmet, hparts]
    rw [← hname] at hnew hinside
    exact Advances.declare ⟨schema, tag, outline⟩ hnew htag hinside
  · rw [if_neg Bool.false_ne_true] at hrest
    obtain ⟨rfl, rfl⟩ := Pass.complete_eq_ok_iff.mp hrest
    rw [hrefer]
    exact Advances.refer ⟨schema, tag, .reference context⟩ hready rfl (.inr hknown)

/-- **What the outlines of a list of schemas do**, and that there are as many. -/
abbrev AdvancesChildren (scheme : NameScheme) (tagOf : String → Option TagField)
    (children : List (String × Schema)) (pass : Pass (List (String × Outline))) : Prop :=
  ∀ {state final : PassState} {outlines : List (String × Outline)}, state.Ready →
    pass.run state = (.ok outlines, final) →
    outlines.length = children.length ∧
      Advances scheme (Schema.childOccurrences scheme.models tagOf children outlines)
        (Outline.childParts outlines) state final

/-- **What the outline of an object does**, when it is known what those of its properties do. -/
theorem Advances.of_object {context : NodeContext} {tag : Option TagField}
    {required optional : List (String × Schema)} {strict nullable : Bool} {metadata : Metadata}
    (hrequired : AdvancesChildren scheme (fun _ => none) required
      (Schema.propertyOutlines scheme context "properties" required))
    (hoptional : AdvancesChildren scheme (fun _ => none) optional
      (Schema.propertyOutlines scheme context "optionalProperties" optional))
    (hready : state.Ready)
    (h : (Pass.registerShape context.typeName
      (NameRegistry.shapeOf ⟨.object required optional strict, nullable, metadata⟩)
      context.schemaPath >>= fun isNew =>
        if isNew = true then do
          let present ← Schema.propertyOutlines scheme context "properties" required
          let further ← Schema.propertyOutlines scheme context "optionalProperties" optional
          Pass.complete (.object context tag (present ++ further))
        else Pass.complete (.reference context)).run state = (.ok outline, final)) :
    Advances scheme
      (Schema.occurrences scheme.models tag ⟨.object required optional strict, nullable, metadata⟩
        outline) outline.parts state final := by
  refine Advances.of_registerShape hready h rfl fun start hstart hbody => ?_
  obtain ⟨present, middle, hpresent, hbody⟩ := Pass.bind_eq_ok_iff.mp hbody
  obtain ⟨further, last, hfurther, hbody⟩ := Pass.bind_eq_ok_iff.mp hbody
  obtain ⟨rfl, rfl⟩ := Pass.complete_eq_ok_iff.mp hbody
  obtain ⟨hlength, hpresent⟩ := hrequired hstart hpresent
  obtain ⟨-, hfurther⟩ := hoptional hpresent.ready hfurther
  refine ⟨_, _, last, hpresent.trans hfurther, rfl, rfl, rfl, ?_, ?_⟩
  · rw [Outline.parts, Outline.childParts_append]
  · rw [Schema.occurrences, Schema.formOccurrences]
    simp only [Schema.childOccurrences_append hlength, List.drop_left' hlength]

/-- The outline of a variant comes before those of the other variants. -/
theorem Schema.variantOutlines_cons {context : NodeContext} {tag name : String}
    {required optional : List (String × Schema)} {strict nullable : Bool} {metadata : Metadata}
    {rest : List (String × Schema)}
    (htag : ¬ Schema.declares required optional tag = true) :
    Schema.variantOutlines scheme context tag
        ((name, ⟨.object required optional strict, nullable, metadata⟩) :: rest) = do
      let inner := variantContext scheme context name metadata
      let outline ← Pass.registerShape inner.typeName
        (NameRegistry.shapeOf ⟨.object required optional strict, nullable, metadata⟩)
        inner.schemaPath >>= fun isNew =>
          if isNew = true then do
            let present ← Schema.propertyOutlines scheme inner "properties" required
            let further ← Schema.propertyOutlines scheme inner "optionalProperties" optional
            Pass.complete (.object inner (some ⟨tag, name⟩) (present ++ further))
          else Pass.complete (.reference inner)
      let outlines ← Schema.variantOutlines scheme context tag rest
      return (name, outline) :: outlines := by
  rw [Schema.variantOutlines]
  simp only [htag, Bool.false_eq_true, ↓reduceIte, bind_assoc]
  refine bind_congr fun isNew => ?_
  cases isNew <;> simp

mutual

/-- **What the outline of a schema does**: it goes on, meeting the places in the schema and
completing the parts of the outline. -/
theorem Schema.advances_outline : ∀ (schema : Schema) {site : Site} {state final : PassState}
    {outline : Outline}, state.Ready →
    (schema.outline scheme site).run state = (.ok outline, final) →
    Advances scheme (schema.occurrences scheme.models none outline) outline.parts state final
  | ⟨.scalar kind, nullable, metadata⟩, site, state, final, outline, hready, h => by
    obtain ⟨name, -, h⟩ := Schema.outline_eq_ok_iff.mp h
    obtain ⟨rfl, rfl⟩ := Pass.complete_eq_ok_iff.mp h
    exact (Advances.nothing hready).finish rfl
  | ⟨.enumeration values, nullable, metadata⟩, site, state, final, outline, hready, h => by
    obtain ⟨name, -, h⟩ := Schema.outline_eq_ok_iff.mp h
    refine Advances.of_registerShape hready h rfl fun start hstart hbody => ?_
    obtain ⟨rfl, rfl⟩ := Pass.complete_eq_ok_iff.mp hbody
    exact ⟨[], [], start, .nothing hstart, rfl, rfl, rfl, rfl, rfl⟩
  | ⟨.object required optional strict, nullable, metadata⟩, site, state, final, outline, hready,
      h => by
    obtain ⟨name, -, h⟩ := Schema.outline_eq_ok_iff.mp h
    exact Advances.of_object (Schema.advances_propertyOutlines required)
      (Schema.advances_propertyOutlines optional) hready h
  | ⟨.array element, nullable, metadata⟩, site, state, final, outline, hready, h => by
    obtain ⟨name, -, h⟩ := Schema.outline_eq_ok_iff.mp h
    obtain ⟨inner, middle, hinner, h⟩ := Pass.bind_eq_ok_iff.mp h
    obtain ⟨rfl, rfl⟩ := Pass.complete_eq_ok_iff.mp h
    exact (Schema.advances_outline element hready hinner).finish rfl
  | ⟨.record value, nullable, metadata⟩, site, state, final, outline, hready, h => by
    obtain ⟨name, -, h⟩ := Schema.outline_eq_ok_iff.mp h
    obtain ⟨inner, middle, hinner, h⟩ := Pass.bind_eq_ok_iff.mp h
    obtain ⟨rfl, rfl⟩ := Pass.complete_eq_ok_iff.mp h
    exact (Schema.advances_outline value hready hinner).finish rfl
  | ⟨.union tag variants, nullable, metadata⟩, site, state, final, outline, hready, h => by
    obtain ⟨name, -, h⟩ := Schema.outline_eq_ok_iff.mp h
    refine Advances.of_registerShape hready h rfl fun start hstart hbody => ?_
    obtain ⟨outlines, last, houtlines, hbody⟩ := Pass.bind_eq_ok_iff.mp hbody
    obtain ⟨rfl, rfl⟩ := Pass.complete_eq_ok_iff.mp hbody
    obtain ⟨-, hadvances⟩ := Schema.advances_variantOutlines variants hstart houtlines
    exact ⟨_, _, last, hadvances, rfl, rfl, rfl, rfl, rfl⟩
  | ⟨.ref target, nullable, metadata⟩, site, state, final, outline, hready, h => by
    obtain ⟨name, hname, h⟩ := Schema.outline_eq_ok_iff.mp h
    obtain ⟨rfl, rfl⟩ := Pass.complete_eq_ok_iff.mp h
    rw [siteTypeName, NameScheme.modelTypeName?] at hname
    rcases hmodel : scheme.models.lookup target with _ | model
    · rw [hmodel] at hname
      cases hname
    · rw [hmodel] at hname
      cases hname
      rw [Schema.occurrences, Schema.formOccurrences, hmodel]
      exact Advances.refer ⟨model, none, _⟩ hready rfl (.inl ⟨target, hmodel, rfl⟩)

/-- What the outlines of properties do. -/
theorem Schema.advances_propertyOutlines {context : NodeContext} {keyword : String} :
    ∀ children : List (String × Schema), AdvancesChildren scheme (fun _ => none) children
      (Schema.propertyOutlines scheme context keyword children)
  | [], state, final, outlines, hready, h => by
    obtain ⟨rfl, rfl⟩ := Pass.pure_eq_ok_iff.mp h
    exact ⟨rfl, .nothing hready⟩
  | (key, schema) :: rest, state, final, outlines, hready, h => by
    obtain ⟨outline, middle, houtline, h⟩ := Pass.bind_eq_ok_iff.mp h
    obtain ⟨others, last, hothers, h⟩ := Pass.bind_eq_ok_iff.mp h
    obtain ⟨rfl, rfl⟩ := Pass.pure_eq_ok_iff.mp h
    have hfirst := Schema.advances_outline schema hready houtline
    obtain ⟨hlength, hrest⟩ := Schema.advances_propertyOutlines rest hfirst.ready hothers
    exact ⟨congrArg (· + 1) hlength, hfirst.trans hrest⟩

/-- What the outlines of variants do. -/
theorem Schema.advances_variantOutlines {context : NodeContext} {tag : String} :
    ∀ children : List (String × Schema),
      AdvancesChildren scheme (fun name => some ⟨tag, name⟩) children
        (Schema.variantOutlines scheme context tag children)
  | [], state, final, outlines, hready, h => by
    obtain ⟨rfl, rfl⟩ := Pass.pure_eq_ok_iff.mp h
    exact ⟨rfl, .nothing hready⟩
  | (name, ⟨.object required optional strict, nullable, metadata⟩) :: rest, state, final,
      outlines, hready, h => by
    by_cases htag : Schema.declares required optional tag = true
    · rw [Schema.variantOutlines, if_pos htag] at h
      exact absurd h Pass.throw_ne_ok
    · rw [Schema.variantOutlines_cons htag] at h
      obtain ⟨outline, middle, houtline, h⟩ := Pass.bind_eq_ok_iff.mp h
      obtain ⟨others, last, hothers, h⟩ := Pass.bind_eq_ok_iff.mp h
      obtain ⟨rfl, rfl⟩ := Pass.pure_eq_ok_iff.mp h
      have hfirst := Advances.of_object (Schema.advances_propertyOutlines required)
        (Schema.advances_propertyOutlines optional) hready houtline
      obtain ⟨hlength, hrest⟩ := Schema.advances_variantOutlines rest hfirst.ready hothers
      exact ⟨congrArg (· + 1) hlength, hfirst.trans hrest⟩
  | (name, ⟨.scalar _, nullable, metadata⟩) :: rest, state, final, outlines, hready, h
  | (name, ⟨.enumeration _, nullable, metadata⟩) :: rest, state, final, outlines, hready, h
  | (name, ⟨.array _, nullable, metadata⟩) :: rest, state, final, outlines, hready, h
  | (name, ⟨.record _, nullable, metadata⟩) :: rest, state, final, outlines, hready, h
  | (name, ⟨.union _ _, nullable, metadata⟩) :: rest, state, final, outlines, hready, h
  | (name, ⟨.ref _, nullable, metadata⟩) :: rest, state, final, outlines, hready, h =>
    absurd h Pass.throw_ne_ok

end

/-- **What the outlines of models do**, and that there are as many. -/
theorem Models.advances_outline : ∀ (models : List (String × Schema)) {state final : PassState}
    {outlines : List Outline}, state.Ready →
    (Models.outline scheme models).run state = (.ok outlines, final) →
    outlines.length = models.length ∧
      Advances scheme (Models.occurrences scheme.models models outlines)
        (outlines.flatMap Outline.parts) state final
  | [], state, final, outlines, hready, h => by
    obtain ⟨rfl, rfl⟩ := Pass.pure_eq_ok_iff.mp h
    exact ⟨rfl, .nothing hready⟩
  | (name, schema) :: rest, state, final, outlines, hready, h => by
    obtain ⟨outline, middle, houtline, h⟩ := Pass.bind_eq_ok_iff.mp h
    obtain ⟨others, last, hothers, h⟩ := Pass.bind_eq_ok_iff.mp h
    obtain ⟨rfl, rfl⟩ := Pass.pure_eq_ok_iff.mp h
    have hfirst := schema.advances_outline hready houtline
    obtain ⟨hlength, hrest⟩ := Models.advances_outline rest hfirst.ready hothers
    exact ⟨congrArg (· + 1) hlength, hfirst.trans hrest⟩

/-- **The name of an object stands for its shape** once its outline is given. -/
theorem Schema.shape?_outline {schema : Schema} {site : Site} (hobject : schema.isObject = true)
    (hready : state.Ready) (h : (schema.outline scheme site).run state = (.ok outline, final)) :
    final.shape? (scheme.typeName schema.typeId site.instancePath) =
      some (some (NameRegistry.shapeOf schema)) := by
  obtain ⟨form, nullable, metadata⟩ := schema
  cases form with
  | object required optional strict =>
    obtain ⟨_, ⟨⟩, h⟩ := Schema.outline_eq_ok_iff.mp h
    obtain ⟨isNew, middle, hregister, hbody⟩ := Pass.bind_eq_ok_iff.mp h
    rcases Pass.registerShape_cases hready hregister with ⟨rfl, -, rfl⟩ | ⟨rfl, hknown, rfl⟩
    · obtain ⟨present, next, hpresent, hbody⟩ := Pass.bind_eq_ok_iff.mp hbody
      obtain ⟨further, last, hfurther, hbody⟩ := Pass.bind_eq_ok_iff.mp hbody
      obtain ⟨-, rfl⟩ := Pass.complete_eq_ok_iff.mp hbody
      obtain ⟨-, hpresent⟩ := Schema.advances_propertyOutlines required (hready.take _ _) hpresent
      obtain ⟨-, hfurther⟩ := Schema.advances_propertyOutlines optional hpresent.ready hfurther
      refine (hpresent.trans hfurther).keeps _ _ ?_
      rw [PassState.shape?_take]
      exact if_pos rfl
    · obtain ⟨-, rfl⟩ := Pass.complete_eq_ok_iff.mp hbody
      exact hknown
  | _ => cases hobject

/-- The name that references to a model have stands for its shape. -/
theorem Models.shape?_outline {target : String} {model : Schema}
    (hobject : model.isObject = true) : ∀ {models : List (String × Schema)},
    (target, model) ∈ models → ∀ {state final : PassState} {outlines : List Outline}, state.Ready →
      (Models.outline scheme models).run state = (.ok outlines, final) →
      final.shape? (scheme.typeName model.typeId target) =
        some (some (NameRegistry.shapeOf model))
  | [], hmodel, _, _, _, _, _ => absurd hmodel List.not_mem_nil
  | (name, schema) :: rest, hmodel, state, final, outlines, hready, h => by
    obtain ⟨outline, middle, houtline, h⟩ := Pass.bind_eq_ok_iff.mp h
    obtain ⟨others, last, hothers, h⟩ := Pass.bind_eq_ok_iff.mp h
    obtain ⟨rfl, rfl⟩ := Pass.pure_eq_ok_iff.mp h
    have hmiddle := (schema.advances_outline hready houtline).ready
    rcases List.mem_cons.mp hmodel with hfirst | hrest
    · obtain ⟨rfl, rfl⟩ := Prod.mk.inj hfirst
      have hshape := Schema.shape?_outline hobject hready houtline
      have hkeeps := (Models.advances_outline rest hmiddle hothers).2.keeps
      exact hkeeps _ _ hshape
    · exact Models.shape?_outline hobject hrest hmiddle hothers

end

end RpcSchema
