import RpcSchema.Proofs.Codegen.Declarations

set_option autoImplicit false

/-!
# How outlines are built

What the outline of a schema does to its pass, whatever the registry holds when it begins, is put
together from few steps: a part is completed, a type is declared once its name has been taken, and a
type is referred to because its name is taken or because it is a model. What these steps keep is kept
by the outlines of all schemas.

## Main definitions

* `RpcSchema.Builds` — a pass goes from one state to another by such steps.

## Main results

* `RpcSchema.NameRegistry.keys_of_registerShape` — when a name is new, and what is taken then.
* `RpcSchema.Schema.builds_outline`, `RpcSchema.Models.builds_outlines` — the outlines of schemas and
  models are built.
* `RpcSchema.Builds.exists_taken` — the names taken are those of the declarations.
-/

namespace RpcSchema

/-! ## Names that are taken -/

/-- **A name is new** exactly when it is not taken, and then it is the one that is taken. -/
theorem NameRegistry.keys_of_registerShape {registry final : NameRegistry}
    {name shape place : String} {isNew : Bool}
    (h : registry.registerShape name shape place = .ok (isNew, final)) :
    (isNew = true ∧ name ∉ Entries.keys registry.names ∧
      Entries.keys final.names = Entries.keys registry.names ++ [name]) ∨
    (isNew = false ∧ name ∈ Entries.keys registry.names ∧
      Entries.keys final.names = Entries.keys registry.names) := by
  unfold registerShape at h
  rcases hfound : registry.names.lookup name with _ | _ | known
  · rw [hfound] at h
    cases h
    have hnew := Entries.lookup_eq_none_iff.mp hfound
    refine .inl ⟨rfl, hnew, ?_⟩
    rw [Entries.keys_insert_of_not_mem hnew]
    simp [Entries.keys]
  · rw [hfound] at h
    cases h
    have htaken := Entries.exists_lookup_iff.mp ⟨_, hfound⟩
    exact .inr ⟨rfl, htaken, Entries.keys_insert_of_mem htaken _⟩
  · rw [hfound] at h
    dsimp only at h
    split at h <;> cases h
    exact .inr ⟨rfl, Entries.exists_lookup_iff.mp ⟨_, hfound⟩, rfl⟩

/-- A name is taken, if that is possible; what has been completed stays. -/
theorem Pass.registerShape_eq_ok_iff {state final : PassState} {name shape place : String}
    {isNew : Bool} :
    (Pass.registerShape name shape place).run state = (.ok isNew, final) ↔
      ∃ registry, state.registry.registerShape name shape place = .ok (isNew, registry) ∧
        final = { state with registry } := by
  rw [Pass.run_registerShape]
  rcases state.registry.registerShape name shape place with error | ⟨known, registry⟩
  · simp
  · simp only [Prod.mk.injEq, Except.ok.injEq]
    constructor
    · rintro ⟨rfl, rfl⟩
      exact ⟨registry, ⟨rfl, rfl⟩, rfl⟩
    · rintro ⟨_, ⟨rfl, rfl⟩, rfl⟩
      exact ⟨rfl, rfl⟩

/-! ## Steps -/

/-- A part is a use of a type that is declared elsewhere. -/
def Outline.IsReference : Outline → Prop
  | .reference _ => True
  | _ => False

/-- **A pass builds parts** on its way from one state to another. -/
inductive Builds (scheme : NameScheme) : PassState → List Outline → PassState → Prop
  | nothing (state : PassState) : Builds scheme state [] state
  | trans {state middle final : PassState} {parts parts' : List Outline}
      (first : Builds scheme state parts middle) (second : Builds scheme middle parts' final) :
      Builds scheme state (parts ++ parts') final
  /-- A part that neither declares a type nor refers to one is completed. -/
  | finish {state final : PassState} {parts : List Outline} {part : Outline}
      (plain : part.declaredTag? = none) (unnamed : ¬ part.IsReference)
      (inside : Builds scheme state parts final) :
      Builds scheme state (parts ++ [part]) (final.finish part)
  /-- The name of a type is new and is taken, what is inside the type is built, and the declaration
  is completed. -/
  | declare {state final : PassState} {registry : NameRegistry} {parts : List Outline}
      {part : Outline} {shape place : String}
      (declared : part.declaredTag?.isSome = true)
      (new : state.registry.registerShape part.typeName shape place = .ok (true, registry))
      (inside : Builds scheme { state with registry } parts final) :
      Builds scheme state (parts ++ [part]) (final.finish part)
  /-- A type whose name is taken is referred to. -/
  | refer {state : PassState} {registry : NameRegistry} {context : NodeContext}
      {shape place : String}
      (known : state.registry.registerShape context.typeName shape place = .ok (false, registry)) :
      Builds scheme state [.reference context]
        ({ state with registry }.finish (.reference context))
  /-- A model is referred to. -/
  | model {state : PassState} {context : NodeContext} {target : String}
      (known : scheme.modelTypeName? target = some context.typeName) :
      Builds scheme state [.reference context] (state.finish (.reference context))

section

variable {scheme : NameScheme} {state final : PassState} {outline : Outline}

/-- **A named type is built**: if its name is new the rest of the pass makes a declaration of it. -/
theorem Builds.of_registerShape {context : NodeContext} {shape : String} {body : Pass Outline}
    (h : (Pass.registerShape context.typeName shape context.schemaPath >>=
      fun isNew => if isNew = true then body else Pass.complete (.reference context)).run state =
        (.ok outline, final))
    (hbody : ∀ start : PassState, body.run start = (.ok outline, final) →
      ∃ parts last, Builds scheme start parts last ∧ final = last.finish outline ∧
        outline.typeName = context.typeName ∧ outline.declaredTag?.isSome = true ∧
        outline.parts = parts ++ [outline]) :
    Builds scheme state outline.parts final := by
  obtain ⟨isNew, middle, hregister, hrest⟩ := Pass.bind_eq_ok_iff.mp h
  obtain ⟨registry, htaken, rfl⟩ := Pass.registerShape_eq_ok_iff.mp hregister
  cases isNew with
  | true =>
    obtain ⟨parts, last, hinside, rfl, hname, hdeclared, hparts⟩ := hbody _ hrest
    rw [hparts]
    exact .declare hdeclared (hname ▸ htaken) hinside
  | false =>
    obtain ⟨rfl, rfl⟩ := Pass.complete_eq_ok_iff.mp hrest
    exact .refer htaken

/-- The outlines of a list of schemas are built. -/
abbrev BuildsChildren (scheme : NameScheme) (pass : Pass (List (String × Outline))) : Prop :=
  ∀ {state final : PassState} {outlines : List (String × Outline)},
    pass.run state = (.ok outlines, final) →
    Builds scheme state (Outline.childParts outlines) final

/-- **The outline of an object is built**, when those of its properties are. -/
theorem Builds.of_object {context : NodeContext} {shape : String} {tag : Option TagField}
    {required optional : List (String × Schema)}
    (hrequired : BuildsChildren scheme
      (Schema.propertyOutlines scheme context "properties" required))
    (hoptional : BuildsChildren scheme
      (Schema.propertyOutlines scheme context "optionalProperties" optional))
    (h : (Pass.registerShape context.typeName shape context.schemaPath >>= fun isNew =>
        if isNew = true then do
          let present ← Schema.propertyOutlines scheme context "properties" required
          let further ← Schema.propertyOutlines scheme context "optionalProperties" optional
          Pass.complete (.object context tag (present ++ further))
        else Pass.complete (.reference context)).run state = (.ok outline, final)) :
    Builds scheme state outline.parts final := by
  refine Builds.of_registerShape h fun start hbody => ?_
  obtain ⟨present, middle, hpresent, hbody⟩ := Pass.bind_eq_ok_iff.mp hbody
  obtain ⟨further, last, hfurther, hbody⟩ := Pass.bind_eq_ok_iff.mp hbody
  obtain ⟨rfl, rfl⟩ := Pass.complete_eq_ok_iff.mp hbody
  refine ⟨_, last, (hrequired hpresent).trans (hoptional hfurther), rfl, rfl, rfl, ?_⟩
  rw [Outline.parts, Outline.childParts_append]

mutual

/-- **The outline of a schema is built** by the pass that gives it. -/
theorem Schema.builds_outline : ∀ (schema : Schema) {site : Site} {state final : PassState}
    {outline : Outline}, (schema.outline scheme site).run state = (.ok outline, final) →
    Builds scheme state outline.parts final
  | ⟨.scalar kind, nullable, metadata⟩, site, state, final, outline, h => by
    obtain ⟨name, -, h⟩ := Schema.outline_eq_ok_iff.mp h
    obtain ⟨rfl, rfl⟩ := Pass.complete_eq_ok_iff.mp h
    exact .finish rfl id (.nothing state)
  | ⟨.enumeration values, nullable, metadata⟩, site, state, final, outline, h => by
    obtain ⟨name, -, h⟩ := Schema.outline_eq_ok_iff.mp h
    refine Builds.of_registerShape h fun start hbody => ?_
    obtain ⟨rfl, rfl⟩ := Pass.complete_eq_ok_iff.mp hbody
    exact ⟨[], start, .nothing start, rfl, rfl, rfl, rfl⟩
  | ⟨.object required optional strict, nullable, metadata⟩, site, state, final, outline, h => by
    obtain ⟨name, -, h⟩ := Schema.outline_eq_ok_iff.mp h
    exact Builds.of_object (Schema.builds_propertyOutlines required)
      (Schema.builds_propertyOutlines optional) h
  | ⟨.array element, nullable, metadata⟩, site, state, final, outline, h => by
    obtain ⟨name, -, h⟩ := Schema.outline_eq_ok_iff.mp h
    obtain ⟨inner, middle, hinner, h⟩ := Pass.bind_eq_ok_iff.mp h
    obtain ⟨rfl, rfl⟩ := Pass.complete_eq_ok_iff.mp h
    exact .finish rfl id (Schema.builds_outline element hinner)
  | ⟨.record value, nullable, metadata⟩, site, state, final, outline, h => by
    obtain ⟨name, -, h⟩ := Schema.outline_eq_ok_iff.mp h
    obtain ⟨inner, middle, hinner, h⟩ := Pass.bind_eq_ok_iff.mp h
    obtain ⟨rfl, rfl⟩ := Pass.complete_eq_ok_iff.mp h
    exact .finish rfl id (Schema.builds_outline value hinner)
  | ⟨.union tag variants, nullable, metadata⟩, site, state, final, outline, h => by
    obtain ⟨name, -, h⟩ := Schema.outline_eq_ok_iff.mp h
    refine Builds.of_registerShape h fun start hbody => ?_
    obtain ⟨outlines, last, houtlines, hbody⟩ := Pass.bind_eq_ok_iff.mp hbody
    obtain ⟨rfl, rfl⟩ := Pass.complete_eq_ok_iff.mp hbody
    exact ⟨_, last, Schema.builds_variantOutlines variants houtlines, rfl, rfl, rfl, rfl⟩
  | ⟨.ref target, nullable, metadata⟩, site, state, final, outline, h => by
    obtain ⟨name, hname, h⟩ := Schema.outline_eq_ok_iff.mp h
    obtain ⟨rfl, rfl⟩ := Pass.complete_eq_ok_iff.mp h
    exact .model (modelTypeName?_of_siteTypeName hname)

/-- The outlines of properties are built. -/
theorem Schema.builds_propertyOutlines {context : NodeContext} {keyword : String} :
    ∀ children : List (String × Schema),
      BuildsChildren scheme (Schema.propertyOutlines scheme context keyword children)
  | [], state, final, outlines, h => by
    obtain ⟨rfl, rfl⟩ := Pass.pure_eq_ok_iff.mp h
    exact .nothing state
  | (key, schema) :: rest, state, final, outlines, h => by
    obtain ⟨outline, middle, houtline, h⟩ := Pass.bind_eq_ok_iff.mp h
    obtain ⟨others, last, hothers, h⟩ := Pass.bind_eq_ok_iff.mp h
    obtain ⟨rfl, rfl⟩ := Pass.pure_eq_ok_iff.mp h
    exact (Schema.builds_outline schema houtline).trans (Schema.builds_propertyOutlines rest hothers)

/-- The outlines of variants are built. -/
theorem Schema.builds_variantOutlines {context : NodeContext} {tag : String} :
    ∀ children : List (String × Schema),
      BuildsChildren scheme (Schema.variantOutlines scheme context tag children)
  | [], state, final, outlines, h => by
    obtain ⟨rfl, rfl⟩ := Pass.pure_eq_ok_iff.mp h
    exact .nothing state
  | (name, ⟨.object required optional strict, nullable, metadata⟩) :: rest, state, final,
      outlines, h => by
    by_cases htag : Schema.declares required optional tag = true
    · rw [Schema.variantOutlines, if_pos htag] at h
      exact absurd h Pass.throw_ne_ok
    · rw [Schema.variantOutlines_cons htag] at h
      obtain ⟨outline, middle, houtline, h⟩ := Pass.bind_eq_ok_iff.mp h
      obtain ⟨others, last, hothers, h⟩ := Pass.bind_eq_ok_iff.mp h
      obtain ⟨rfl, rfl⟩ := Pass.pure_eq_ok_iff.mp h
      exact (Builds.of_object (Schema.builds_propertyOutlines required)
        (Schema.builds_propertyOutlines optional) houtline).trans
          (Schema.builds_variantOutlines rest hothers)
  | (_, ⟨.scalar _, _, _⟩) :: _, _, _, _, h
  | (_, ⟨.enumeration _, _, _⟩) :: _, _, _, _, h
  | (_, ⟨.array _, _, _⟩) :: _, _, _, _, h
  | (_, ⟨.record _, _, _⟩) :: _, _, _, _, h
  | (_, ⟨.union _ _, _, _⟩) :: _, _, _, _, h
  | (_, ⟨.ref _, _, _⟩) :: _, _, _, _, h => absurd h Pass.throw_ne_ok

end

/-- **The outlines of models are built.** -/
theorem Models.builds_outlines : ∀ (models : List (String × Schema)) {state final : PassState}
    {outlines : List Outline}, (Models.outline scheme models).run state = (.ok outlines, final) →
    Builds scheme state (outlines.flatMap Outline.parts) final
  | [], state, final, outlines, h => by
    obtain ⟨rfl, rfl⟩ := Pass.pure_eq_ok_iff.mp h
    exact .nothing state
  | (name, schema) :: rest, state, final, outlines, h => by
    obtain ⟨outline, middle, houtline, h⟩ := Pass.bind_eq_ok_iff.mp h
    obtain ⟨others, last, hothers, h⟩ := Pass.bind_eq_ok_iff.mp h
    obtain ⟨rfl, rfl⟩ := Pass.pure_eq_ok_iff.mp h
    exact (schema.builds_outline houtline).trans (Models.builds_outlines rest hothers)

end

/-! ## What is taken -/

namespace Builds

variable {scheme : NameScheme} {state final : PassState} {parts : List Outline}

/-- **The names taken** are those of the declarations, each once, and none was taken before. -/
theorem exists_taken (h : Builds scheme state parts final) :
    ∃ taken, Entries.keys final.registry.names = Entries.keys state.registry.names ++ taken ∧
      taken.Perm ((Outline.declarations parts).map Outline.typeName) ∧ taken.Nodup ∧
      ∀ name ∈ taken, name ∉ Entries.keys state.registry.names := by
  induction h with
  | nothing state => exact ⟨[], by simp, by simp [Outline.declarations], by simp, by simp⟩
  | trans _ _ ih ih' =>
    obtain ⟨taken, hkeys, hperm, hnodup, hnew⟩ := ih
    obtain ⟨taken', hkeys', hperm', hnodup', hnew'⟩ := ih'
    rw [hkeys] at hkeys' hnew'
    refine ⟨taken ++ taken', by rw [hkeys', List.append_assoc], ?_, ?_, fun name hname => ?_⟩
    · rw [Outline.declarations, List.filter_append, List.map_append]
      exact hperm.append hperm'
    · refine List.nodup_append.mpr ⟨hnodup, hnodup', fun name hname other hother heq => ?_⟩
      exact hnew' other hother (heq ▸ List.mem_append_right _ hname)
    · rcases List.mem_append.mp hname with hname | hname
      · exact hnew name hname
      · exact fun hmem => hnew' name hname (List.mem_append_left _ hmem)
  | finish plain _ _ ih => simpa [Outline.declarations, plain] using ih
  | @declare state final registry parts part shape place declared new _ ih =>
    obtain ⟨taken, hkeys, hperm, hnodup, hnew⟩ := ih
    obtain ⟨-, hfree, hregistry⟩ | ⟨⟨⟩, -⟩ := NameRegistry.keys_of_registerShape new
    rw [hregistry] at hkeys hnew
    refine ⟨part.typeName :: taken, by simp [hkeys], ?_, ?_, fun name hname => ?_⟩
    · rw [Outline.declarations, List.filter_append, List.map_append]
      simp only [List.filter_cons, declared, ↓reduceIte, List.filter_nil, List.map_cons,
        List.map_nil]
      exact (hperm.cons _).trans (List.perm_append_singleton _ _).symm
    · refine List.nodup_cons.mpr ⟨fun hmem => hnew _ hmem ?_, hnodup⟩
      exact List.mem_append_right _ (List.mem_singleton_self _)
    · rcases List.mem_cons.mp hname with rfl | hname
      · exact hfree
      · exact fun hmem => hnew name hname (List.mem_append_left _ hmem)
  | refer known =>
    obtain ⟨⟨⟩, -⟩ | ⟨-, -, hregistry⟩ := NameRegistry.keys_of_registerShape known
    exact ⟨[], by simp [hregistry], by simp [Outline.declarations, Outline.declaredTag?], by simp,
      by simp⟩
  | model _ =>
    exact ⟨[], by simp, by simp [Outline.declarations, Outline.declaredTag?], by simp, by simp⟩

end Builds

end RpcSchema
