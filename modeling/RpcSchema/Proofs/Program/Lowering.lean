import RpcSchema.Proofs.Schema.Induction
import RpcSchema.Validator.Basic

set_option autoImplicit false

/-!
# How schemas are lowered

A lowering that succeeds consists of lowerings that succeed, one after the other, each going on
with the models that the one before has found.

## Main results

* `RpcSchema.Program.Discovery.bind_eq_ok_iff` — one step of a lowering after another.
* `RpcSchema.Program.lower_eq_ok_iff`, `RpcSchema.Program.lowerObject_eq_ok_iff`, … — what a
  lowering of each form consists of.
* `RpcSchema.Program.keys_of_lowerChildren` — lowering keeps the keys of properties.
-/

namespace RpcSchema.Program

/-! ## Steps -/

namespace Discovery

variable {α β : Type} {found found' : List String}

theorem bind_eq_ok_iff {step : Discovery α} {next : α → Discovery β} {b : β} :
    (step >>= next) found = .ok (b, found') ↔
      ∃ a between, step found = .ok (a, between) ∧ next a between = .ok (b, found') := by
  change (step found >>= fun pair => next pair.1 pair.2) = _ ↔ _
  constructor
  · intro h
    cases hstep : step found with
    | error error =>
      rw [hstep] at h
      cases h
    | ok pair =>
      rw [hstep] at h
      exact ⟨pair.1, pair.2, rfl, h⟩
  · rintro ⟨a, between, hstep, h⟩
    rw [hstep]
    exact h

theorem pure_eq_ok_iff {a b : α} :
    (pure a : Discovery α) found = .ok (b, found') ↔ b = a ∧ found' = found := by
  change Except.ok (a, found) = .ok (b, found') ↔ _
  rw [Except.ok.injEq, Prod.mk.injEq]
  exact and_congr eq_comm eq_comm

/-- A check finds nothing. -/
theorem lift_eq_ok_iff {check : Except SchemaError α} {a : α} :
    (liftM check : Discovery α) found = .ok (a, found') ↔ check = .ok a ∧ found' = found := by
  cases check with
  | error error =>
    constructor
    · intro h
      cases h
    · rintro ⟨h, -⟩
      cases h
  | ok b =>
    change Except.ok (b, found) = .ok (a, found') ↔ _
    rw [Except.ok.injEq, Except.ok.injEq, Prod.mk.injEq]
    exact and_congr Iff.rfl eq_comm

end Discovery

open Discovery (bind_eq_ok_iff pure_eq_ok_iff lift_eq_ok_iff)

/-! ## Forms -/

variable {models : Models} {place : Path} {found found' : List String}

theorem lower_eq_ok_iff {form : Form} {nullable : Bool} {metadata : Metadata} {node : Node} :
    lower models place ⟨form, nullable, metadata⟩ found = .ok (node, found') ↔
      ∃ kind, lowerForm models place form found = .ok (kind, found') ∧ node = ⟨kind, nullable⟩ := by
  rw [lower, bind_eq_ok_iff]
  constructor
  · rintro ⟨kind, between, hkind, h⟩
    obtain ⟨rfl, rfl⟩ := pure_eq_ok_iff.mp h
    exact ⟨kind, hkind, rfl⟩
  · rintro ⟨kind, hkind, rfl⟩
    exact ⟨kind, found', hkind, rfl⟩

theorem lowerObject_eq_ok_iff {required optional : List (String × Schema)} {strict : Bool}
    {kind : Kind} :
    lowerForm models place (.object required optional strict) found = .ok (kind, found') ↔
      ∃ required' between optional',
        lowerChildren models (place ++ [.key "properties"]) required found =
          .ok (required', between) ∧
        lowerChildren models (place ++ [.key "optionalProperties"]) optional between =
          .ok (optional', found') ∧
        kind = .object ⟨required', optional', strict⟩ := by
  rw [lowerForm, bind_eq_ok_iff]
  constructor
  · rintro ⟨required', between, hrequired, h⟩
    obtain ⟨optional', between', hoptional, h⟩ := bind_eq_ok_iff.mp h
    obtain ⟨rfl, rfl⟩ := pure_eq_ok_iff.mp h
    exact ⟨required', between, optional', hrequired, hoptional, rfl⟩
  · rintro ⟨required', between, optional', hrequired, hoptional, rfl⟩
    exact ⟨required', between, hrequired, bind_eq_ok_iff.mpr ⟨optional', found', hoptional, rfl⟩⟩

theorem lowerArray_eq_ok_iff {element : Schema} {kind : Kind} :
    lowerForm models place (.array element) found = .ok (kind, found') ↔
      ∃ node, lower models (place ++ [.key "elements"]) element found = .ok (node, found') ∧
        kind = .array node := by
  rw [lowerForm, bind_eq_ok_iff]
  constructor
  · rintro ⟨node, between, hnode, h⟩
    obtain ⟨rfl, rfl⟩ := pure_eq_ok_iff.mp h
    exact ⟨node, hnode, rfl⟩
  · rintro ⟨node, hnode, rfl⟩
    exact ⟨node, found', hnode, rfl⟩

theorem lowerRecord_eq_ok_iff {value : Schema} {kind : Kind} :
    lowerForm models place (.record value) found = .ok (kind, found') ↔
      ∃ node, lower models (place ++ [.key "values"]) value found = .ok (node, found') ∧
        kind = .record node := by
  rw [lowerForm, bind_eq_ok_iff]
  constructor
  · rintro ⟨node, between, hnode, h⟩
    obtain ⟨rfl, rfl⟩ := pure_eq_ok_iff.mp h
    exact ⟨node, hnode, rfl⟩
  · rintro ⟨node, hnode, rfl⟩
    exact ⟨node, found', hnode, rfl⟩

theorem lowerUnion_eq_ok_iff {tag : String} {variants : List (String × Schema)} {kind : Kind} :
    lowerForm models place (.union tag variants) found = .ok (kind, found') ↔
      checkVariants place tag variants = .ok () ∧
        ∃ shapes, lowerVariants models (place ++ [.key "mapping"]) variants found =
          .ok (shapes, found') ∧ kind = .union tag shapes := by
  rw [lowerForm, bind_eq_ok_iff]
  constructor
  · rintro ⟨_, between, hcheck, h⟩
    obtain ⟨hchecked, rfl⟩ := lift_eq_ok_iff.mp hcheck
    obtain ⟨shapes, between', hshapes, h⟩ := bind_eq_ok_iff.mp h
    obtain ⟨rfl, rfl⟩ := pure_eq_ok_iff.mp h
    exact ⟨hchecked, shapes, hshapes, rfl⟩
  · rintro ⟨hcheck, shapes, hshapes, rfl⟩
    exact ⟨(), found, lift_eq_ok_iff.mpr ⟨hcheck, rfl⟩,
      bind_eq_ok_iff.mpr ⟨shapes, found', hshapes, rfl⟩⟩

theorem lowerRef_eq_ok_iff {target : String} {kind : Kind} :
    lowerForm models place (.ref target) found = .ok (kind, found') ↔
      ∃ index, indexOf models place target found = .ok (index, found') ∧ kind = .ref index := by
  rw [lowerForm, bind_eq_ok_iff]
  constructor
  · rintro ⟨index, between, hindex, h⟩
    obtain ⟨rfl, rfl⟩ := pure_eq_ok_iff.mp h
    exact ⟨index, hindex, rfl⟩
  · rintro ⟨index, hindex, rfl⟩
    exact ⟨index, found', hindex, rfl⟩

/-- A form without parts is lowered as it is. -/
theorem lowerLeaf_eq_ok_iff {form : Form} {kind kind' : Kind}
    (h : lowerForm models place form = pure kind) :
    lowerForm models place form found = .ok (kind', found') ↔ kind' = kind ∧ found' = found := by
  rw [h, pure_eq_ok_iff]

/-! ## Lists -/

theorem lowerChildren_nil_iff {nodes : List (String × Node)} :
    lowerChildren models place [] found = .ok (nodes, found') ↔ nodes = [] ∧ found' = found := by
  rw [lowerChildren, pure_eq_ok_iff]

theorem lowerChildren_cons_iff {key : String} {schema : Schema} {rest : List (String × Schema)}
    {nodes : List (String × Node)} :
    lowerChildren models place ((key, schema) :: rest) found = .ok (nodes, found') ↔
      ∃ node between others, lower models (place ++ [.key key]) schema found = .ok (node, between) ∧
        lowerChildren models place rest between = .ok (others, found') ∧
        nodes = (key, node) :: others := by
  rw [lowerChildren, bind_eq_ok_iff]
  constructor
  · rintro ⟨node, between, hnode, h⟩
    obtain ⟨others, between', hothers, h⟩ := bind_eq_ok_iff.mp h
    obtain ⟨rfl, rfl⟩ := pure_eq_ok_iff.mp h
    exact ⟨node, between, others, hnode, hothers, rfl⟩
  · rintro ⟨node, between, others, hnode, hothers, rfl⟩
    exact ⟨node, between, hnode, bind_eq_ok_iff.mpr ⟨others, found', hothers, rfl⟩⟩

/-- What a variant adds to the shapes of a union. -/
def addShape (name : String) (kind : Kind) (shapes : List (String × Shape)) :
    List (String × Shape) :=
  match kind with
  | .object shape => (name, shape) :: shapes
  | _ => shapes

theorem lowerVariants_nil_iff {shapes : List (String × Shape)} :
    lowerVariants models place [] found = .ok (shapes, found') ↔
      shapes = [] ∧ found' = found := by
  rw [lowerVariants, pure_eq_ok_iff]

theorem lowerVariants_cons_iff {name : String} {schema : Schema} {rest : List (String × Schema)}
    {shapes : List (String × Shape)} :
    lowerVariants models place ((name, schema) :: rest) found = .ok (shapes, found') ↔
      ∃ kind between others,
        lowerForm models (place ++ [.key name]) schema.form found = .ok (kind, between) ∧
        lowerVariants models place rest between = .ok (others, found') ∧
        shapes = addShape name kind others := by
  obtain ⟨form, nullable, metadata⟩ := schema
  rw [lowerVariants, bind_eq_ok_iff]
  constructor
  · rintro ⟨kind, between, hkind, h⟩
    obtain ⟨others, between', hothers, h⟩ := bind_eq_ok_iff.mp h
    have hpure : (pure (addShape name kind others) : Discovery (List (String × Shape))) between' =
        .ok (shapes, found') := by
      cases kind <;> exact h
    obtain ⟨rfl, rfl⟩ := pure_eq_ok_iff.mp hpure
    exact ⟨kind, between, others, hkind, hothers, rfl⟩
  · rintro ⟨kind, between, others, hkind, hothers, rfl⟩
    refine ⟨kind, between, hkind, bind_eq_ok_iff.mpr ⟨others, found', hothers, ?_⟩⟩
    cases kind <;> rfl

/-- **Lowering keeps the keys** of properties. -/
theorem keys_of_lowerChildren :
    ∀ {children : List (String × Schema)} {nodes : List (String × Node)} {found : List String},
      lowerChildren models place children found = .ok (nodes, found') →
        Entries.keys nodes = Entries.keys children
  | [], nodes, found, h => by
    obtain ⟨rfl, -⟩ := lowerChildren_nil_iff.mp h
    rfl
  | (key, schema) :: rest, nodes, found, h => by
    obtain ⟨node, between, others, -, hothers, rfl⟩ := lowerChildren_cons_iff.mp h
    exact congrArg (key :: ·) (keys_of_lowerChildren hothers)

/-- Every property is lowered from one of the same key. -/
theorem exists_of_mem_lowerChildren :
    ∀ {children : List (String × Schema)} {nodes : List (String × Node)} {found : List String},
      lowerChildren models place children found = .ok (nodes, found') →
        ∀ property ∈ nodes, ∃ child ∈ children, ∃ place' before after,
          lower models place' child.2 before = .ok (property.2, after)
  | [], nodes, found, h => by
    obtain ⟨rfl, -⟩ := lowerChildren_nil_iff.mp h
    simp
  | (key, schema) :: rest, nodes, found, h => by
    obtain ⟨node, between, others, hnode, hothers, rfl⟩ := lowerChildren_cons_iff.mp h
    refine List.forall_mem_cons.mpr ⟨⟨_, List.mem_cons_self, _, _, _, hnode⟩, ?_⟩
    intro property hproperty
    obtain ⟨child, hchild, hlower⟩ := exists_of_mem_lowerChildren hothers property hproperty
    exact ⟨child, List.mem_cons_of_mem _ hchild, hlower⟩

/-- Every shape is lowered from the form of a variant. -/
theorem exists_of_mem_lowerVariants :
    ∀ {variants : List (String × Schema)} {shapes : List (String × Shape)} {found : List String},
      lowerVariants models place variants found = .ok (shapes, found') →
        ∀ variant ∈ shapes, ∃ child ∈ variants, ∃ place' before after,
          lowerForm models place' child.2.form before = .ok (.object variant.2, after)
  | [], shapes, found, h => by
    obtain ⟨rfl, -⟩ := lowerVariants_nil_iff.mp h
    simp
  | (name, schema) :: rest, shapes, found, h => by
    obtain ⟨kind, between, others, hkind, hothers, rfl⟩ := lowerVariants_cons_iff.mp h
    intro variant hvariant
    have hrest : variant ∈ others → ∃ child ∈ (name, schema) :: rest, ∃ place' before after,
        lowerForm models place' child.2.form before = .ok (.object variant.2, after) := by
      intro hmem
      obtain ⟨child, hchild, hlower⟩ := exists_of_mem_lowerVariants hothers variant hmem
      exact ⟨child, List.mem_cons_of_mem _ hchild, hlower⟩
    cases kind with
    | object shape =>
      rcases List.mem_cons.mp hvariant with rfl | hmem
      · exact ⟨_, List.mem_cons_self, _, _, _, hkind⟩
      · exact hrest hmem
    | _ => exact hrest hvariant

/-! ## Models -/

/-- A step of lowering models does nothing when none is left, and lowers the next one otherwise. -/
theorem lowerModels_succ_iff {steps : Nat} {done nodes : List Node} :
    lowerModels models (steps + 1) done found = .ok (nodes, found') ↔
      (found[done.length]? = none ∧ nodes = done ∧ found' = found) ∨
        ∃ name schema node between, found[done.length]? = some name ∧
          models.lookup name = some schema ∧
          lower models [.key "models", .key name] schema found = .ok (node, between) ∧
          lowerModels models steps (done ++ [node]) between = .ok (nodes, found') := by
  have hget : ∀ next : List String → Discovery (List Node),
      ((get : Discovery (List String)) >>= next) found = next found found := fun _ => rfl
  rw [lowerModels, hget]
  cases hname : found[done.length]? with
  | none =>
    simp [pure_eq_ok_iff]
  | some name =>
    simp only [reduceCtorEq, false_and, Option.some.injEq, false_or]
    cases hschema : models.lookup name with
    | none =>
      constructor
      · intro h
        cases h
      · rintro ⟨name', schema, node, between, rfl, hlookup, -⟩
        rw [hschema] at hlookup
        cases hlookup
    | some schema =>
      simp only [bind_eq_ok_iff]
      constructor
      · rintro ⟨node, between, hnode, h⟩
        exact ⟨name, schema, node, between, rfl, hschema, hnode, h⟩
      · rintro ⟨name', schema', node, between, rfl, hlookup, hnode, h⟩
        obtain rfl : schema = schema' := Option.some.inj (hschema.symm.trans hlookup)
        exact ⟨node, between, hnode, h⟩

/-- **A program is compiled** in two goes: the schema, and the models that are found. -/
theorem compile_eq_ok_iff {schema : Schema} {program : Program} :
    compile schema models = .ok program ↔
      ∃ found, lower models [] schema [] = .ok (program.root, found) ∧
        lowerModels models models.length [] found = .ok (program.models, program.modelNames) := by
  obtain ⟨root, nodes, names⟩ := program
  unfold compile
  constructor
  · intro h
    cases hroot : (lower models [] schema).run [] with
    | error error =>
      rw [hroot] at h
      cases h
    | ok pair =>
      obtain ⟨root', found⟩ := pair
      rw [hroot] at h
      change ((lowerModels models models.length []).run found >>= fun pair =>
        (.ok ⟨root', pair.1, pair.2⟩ : Except SchemaError Program)) = _ at h
      cases hmodels : (lowerModels models models.length []).run found with
      | error error =>
        rw [hmodels] at h
        cases h
      | ok pair =>
        rw [hmodels] at h
        cases h
        exact ⟨found, hroot, hmodels⟩
  · rintro ⟨found, hroot, hmodels⟩
    change ((lower models [] schema).run [] >>= fun pair =>
      (lowerModels models models.length []).run pair.2 >>= fun pair' =>
        (.ok ⟨pair.1, pair'.1, pair'.2⟩ : Except SchemaError Program)) = _
    rw [show (lower models [] schema).run [] = .ok (root, found) from hroot]
    change ((lowerModels models models.length []).run found >>= fun pair' =>
        (.ok ⟨root, pair'.1, pair'.2⟩ : Except SchemaError Program)) = _
    rw [show (lowerModels models models.length []).run found = .ok (nodes, names) from hmodels]
    rfl

end RpcSchema.Program

namespace RpcSchema.Validator

/-- A validator is compiled when its program is. -/
theorem compile_eq_ok_iff {schema : Schema} {models : Models} {validator : Validator} :
    compile schema models = .ok validator ↔
      Program.compile schema models = .ok validator.program := by
  unfold compile
  cases Program.compile schema models with
  | error error => simp
  | ok program =>
    obtain ⟨program'⟩ := validator
    simp

end RpcSchema.Validator
