import RpcSchema.Proofs.Program.Decoding
import RpcSchema.Proofs.Program.LenientWalk

set_option autoImplicit false

/-!
# Which validators always come to an end

A reference to a model that leads back to itself through references only asks for nothing of a
document, and no number of steps is enough to follow it. Every model of a compiled schema is reached
by some document, so that there is one on which the validator never comes to an end; without such
models all of its operations end, within a bound that is made of the depth of the input and the
number of models.

## Main definitions

* `RpcSchema.Schema.ListsVariantsOnce` — no union in a schema lists a variant twice.
* `RpcSchema.Program.Node.LeadsTo` — the walk along a node with a document comes to a reference.
* `RpcSchema.Validator.Operation` — the operations of a validator.
* `RpcSchema.Validator.EndsWithin` — an operation ends when so many references are followed inside
  each other at most.

## Main results

* `RpcSchema.Program.exists_decode_eq_none` — an endless model is reached by some document.
* `RpcSchema.Validator.endsWithin_iff` — validators that always come to an end, and within which
  bound they do.
-/

namespace RpcSchema

/-! ## Variants -/

namespace Schema

mutual

/-- **No union in a schema lists a variant twice.** -/
def ListsVariantsOnce : Schema → Prop
  | ⟨form, _, _⟩ => FormListsVariantsOnce form

/-- No union in a form lists a variant twice. -/
def FormListsVariantsOnce : Form → Prop
  | .object required optional _ =>
    ChildrenListVariantsOnce required ∧ ChildrenListVariantsOnce optional
  | .array element => element.ListsVariantsOnce
  | .record value => value.ListsVariantsOnce
  | .union _ variants => Entries.Distinct variants ∧ ChildrenListVariantsOnce variants
  | _ => True

/-- No union in the schemas of a map lists a variant twice. -/
def ChildrenListVariantsOnce : List (String × Schema) → Prop
  | [] => True
  | (_, schema) :: rest => schema.ListsVariantsOnce ∧ ChildrenListVariantsOnce rest

end

theorem childrenListVariantsOnce_iff {children : List (String × Schema)} :
    ChildrenListVariantsOnce children ↔ ∀ child ∈ children, child.2.ListsVariantsOnce := by
  induction children with
  | nil => simp [ChildrenListVariantsOnce]
  | cons child rest ih => rw [ChildrenListVariantsOnce, ih, List.forall_mem_cons]

end Schema

namespace Program

/-! ## Documents that lead to a reference -/

/-- **The walk along a node with a document comes to a reference** to a position, with a part of the
document. -/
inductive Node.LeadsTo (index : Nat) (part : Json) : Node → Json → Prop
  | here (nullable : Bool) : Node.LeadsTo index part ⟨.ref index, nullable⟩ part
  | property {shape : Shape} {nullable : Bool} {key : String} {inner : Node} {item : Json} :
    (key, inner) ∈ shape.properties → Node.LeadsTo index part inner item →
    Node.LeadsTo index part ⟨.object shape, nullable⟩ (.object [(key, item)])
  | element {element : Node} {nullable : Bool} {item : Json} :
    Node.LeadsTo index part element item →
    Node.LeadsTo index part ⟨.array element, nullable⟩ (.array [item])
  | value {value : Node} {nullable : Bool} {item : Json} : Node.LeadsTo index part value item →
    Node.LeadsTo index part ⟨.record value, nullable⟩ (.object [("", item)])
  | variant {tag name : String} {variants : List (String × Shape)} {nullable : Bool}
    {shape : Shape} {key : String} {inner : Node} {item : Json} :
    variants.lookup name = some shape → (key, inner) ∈ shape.properties → key ≠ tag →
    Node.LeadsTo index part inner item → Node.LeadsTo index part ⟨.union tag variants, nullable⟩
      (.object [(tag, .string name), (key, item)])

section

variable {models : Models} {place : Path} {found found' : List String}

/-- Every property of a lowered object is lowered from one of its properties. -/
theorem exists_of_mem_lowerObject {required optional : List (String × Schema)} {strict : Bool}
    {shape : Shape}
    (h : lowerForm models place (.object required optional strict) found =
      .ok (.object shape, found')) :
    ∀ property ∈ shape.properties, ∃ child ∈ required ++ optional, ∃ place' before after,
      lower models place' child.2 before = .ok (property.2, after) := by
  obtain ⟨required', between, optional', hrequired, hoptional, hshape⟩ :=
    lowerObject_eq_ok_iff.mp h
  obtain rfl := Kind.object.inj hshape
  rw [Shape.properties_mk]
  intro property hproperty
  rcases List.mem_append.mp hproperty with hproperty | hproperty
  · obtain ⟨child, hchild, hlower⟩ := exists_of_mem_lowerChildren hrequired property hproperty
    exact ⟨child, List.mem_append_left _ hchild, hlower⟩
  · obtain ⟨child, hchild, hlower⟩ := exists_of_mem_lowerChildren hoptional property hproperty
    exact ⟨child, List.mem_append_right _ hchild, hlower⟩

/-- The shapes of a union have the names of the variants, as all of these are objects. -/
theorem keys_of_lowerVariants : ∀ {variants : List (String × Schema)}
    {shapes : List (String × Shape)} {found : List String},
    (∀ child ∈ variants, ∃ required optional strict,
      child.2.form = .object required optional strict) →
    lowerVariants models place variants found = .ok (shapes, found') →
      Entries.keys shapes = Entries.keys variants
  | [], shapes, found, _, h => by
    obtain ⟨rfl, -⟩ := lowerVariants_nil_iff.mp h
    rfl
  | (name, schema) :: rest, shapes, found, hobject, h => by
    obtain ⟨⟨required, optional, strict, hform⟩, hobjects⟩ := List.forall_mem_cons.mp hobject
    obtain ⟨kind, between, others, hkind, hothers, rfl⟩ := lowerVariants_cons_iff.mp h
    rw [hform] at hkind
    obtain ⟨required', between', optional', -, -, rfl⟩ := lowerObject_eq_ok_iff.mp hkind
    exact congrArg (name :: ·) (keys_of_lowerVariants hobjects hothers)

/-- **Every position that a lowered schema mentions** is led to by some document.

**Proof sketch.** Induction on the schema. A document for a variant is one for its object with the
tag in front, which is none of the keys of the object; and the name under the tag leads to the
variant, as no other has it. -/
theorem exists_leadsTo_of_lower {schema : Schema} (part : Json) :
    ∀ {place : Path} {found found' : List String} {node : Node},
      lower models place schema found = .ok (node, found') → schema.ListsVariantsOnce →
      ∀ index, node.Mentions index → ∃ document, node.LeadsTo index part document := by
  induction schema using Schema.induct with
  | scalar kind nullable metadata =>
    intro place found found' node h _ index hindex
    obtain ⟨kind', hkind, rfl⟩ := lower_eq_ok_iff.mp h
    obtain ⟨rfl, -⟩ := (lowerLeaf_eq_ok_iff rfl).mp hkind
    exact absurd hindex Node.not_mentions_scalar
  | enumeration values nullable metadata =>
    intro place found found' node h _ index hindex
    obtain ⟨kind', hkind, rfl⟩ := lower_eq_ok_iff.mp h
    obtain ⟨rfl, -⟩ := (lowerLeaf_eq_ok_iff rfl).mp hkind
    exact absurd hindex Node.not_mentions_enumeration
  | object required optional strict nullable metadata ihRequired ihOptional =>
    intro place found found' node h honce index hindex
    obtain ⟨kind', hkind, rfl⟩ := lower_eq_ok_iff.mp h
    obtain ⟨required', between, optional', -, -, rfl⟩ := lowerObject_eq_ok_iff.mp hkind
    obtain ⟨property, hproperty, hindex⟩ := Node.mentions_object_iff.mp hindex
    obtain ⟨child, hchild, place', before, after, hlower⟩ :=
      exists_of_mem_lowerObject hkind property hproperty
    obtain ⟨honceRequired, honceOptional⟩ := honce
    rw [Schema.childrenListVariantsOnce_iff] at honceRequired honceOptional
    have hdocument : ∃ document, property.2.LeadsTo index part document :=
      (List.mem_append.mp hchild).elim
        (fun hmem => ihRequired child hmem hlower (honceRequired child hmem) index hindex)
        fun hmem => ihOptional child hmem hlower (honceOptional child hmem) index hindex
    obtain ⟨document, hdocument⟩ := hdocument
    exact ⟨_, .property hproperty hdocument⟩
  | array element nullable metadata ih =>
    intro place found found' node h honce index hindex
    obtain ⟨kind', hkind, rfl⟩ := lower_eq_ok_iff.mp h
    obtain ⟨inner, hinner, rfl⟩ := lowerArray_eq_ok_iff.mp hkind
    obtain ⟨document, hdocument⟩ := ih hinner honce index (Node.mentions_array_iff.mp hindex)
    exact ⟨_, .element hdocument⟩
  | record value nullable metadata ih =>
    intro place found found' node h honce index hindex
    obtain ⟨kind', hkind, rfl⟩ := lower_eq_ok_iff.mp h
    obtain ⟨inner, hinner, rfl⟩ := lowerRecord_eq_ok_iff.mp hkind
    obtain ⟨document, hdocument⟩ := ih hinner honce index (Node.mentions_record_iff.mp hindex)
    exact ⟨_, .value hdocument⟩
  | union tag variants nullable metadata ih =>
    intro place found found' node h honce index hindex
    obtain ⟨kind', hkind, rfl⟩ := lower_eq_ok_iff.mp h
    obtain ⟨hcheck, shapes, hshapes, rfl⟩ := lowerUnion_eq_ok_iff.mp hkind
    obtain ⟨hdistinct, honceVariants⟩ := honce
    rw [Schema.childrenListVariantsOnce_iff] at honceVariants
    obtain ⟨⟨name, shape⟩, hvariant, property, hproperty, hindex⟩ :=
      Node.mentions_union_iff.mp hindex
    obtain ⟨⟨name', form, nullable', metadata'⟩, hchild, place', before, after, hlower⟩ :=
      exists_of_mem_lowerVariants hshapes _ hvariant
    -- the hypothesis is about the variant as an object on its own
    have hinner : (⟨.object shape, nullable'⟩ : Node).Mentions index := .property hproperty hindex
    obtain ⟨document, hdocument⟩ := ih _ hchild (lower_eq_ok_iff.mpr ⟨_, hlower, rfl⟩)
      (honceVariants _ hchild) index hinner
    obtain ⟨required, optional, strict, hform, htag⟩ :=
      exists_object_of_checkVariants hcheck _ hchild
    have hkeys : Entries.keys shape.properties = Entries.keys (required ++ optional) := by
      rw [show form = .object required optional strict from hform] at hlower
      exact keys_of_lowerObject hlower
    have hlookup : shapes.lookup name = some shape := by
      refine Entries.lookup_of_mem ?_ hvariant
      rw [Entries.Distinct, keys_of_lowerVariants (form_of_checkVariants hcheck) hshapes]
      exact hdistinct
    cases hdocument with
    | @property _ _ key inner item hmem hitem =>
      refine ⟨_, .variant hlookup hmem ?_ hitem⟩
      rintro rfl
      exact htag (hkeys ▸ List.mem_map_of_mem hmem)
  | ref target nullable metadata =>
    intro place found found' node h _ index hindex
    obtain ⟨kind', hkind, rfl⟩ := lower_eq_ok_iff.mp h
    obtain ⟨other, -, rfl⟩ := lowerRef_eq_ok_iff.mp hkind
    obtain rfl := Node.mentions_ref_iff.mp hindex
    exact ⟨part, .here nullable⟩

end

/-! ## Walks that do not end -/

section

variable {reading : Reading} {follow : Nat → Json → Walk (Report Value)}

theorem decodeRequired_eq_none {entries : Entries Json} {key : String} {inner : Node} {item : Json}
    (hitem : entries.lookup key = some item) (hinner : inner.decode reading follow item = none) :
    ∀ {properties : List (String × Node)}, (key, inner) ∈ properties →
      decodeRequired reading follow entries properties = none
  | [], h => absurd h List.not_mem_nil
  | (key', node) :: rest, h => by
    simp only [decodeRequired]
    rcases List.mem_cons.mp h with heq | h
    · obtain ⟨rfl, rfl⟩ := Prod.mk.inj heq
      simp [hitem, hinner]
    · cases entries.lookup key' <;> simp [decodeRequired_eq_none hitem hinner h]

theorem decodeOptional_eq_none {entries : Entries Json} {key : String} {inner : Node} {item : Json}
    (hitem : entries.lookup key = some item) (hinner : inner.decode reading follow item = none) :
    ∀ {properties : List (String × Node)}, (key, inner) ∈ properties →
      decodeOptional reading follow entries properties = none
  | [], h => absurd h List.not_mem_nil
  | (key', node) :: rest, h => by
    simp only [decodeOptional]
    rcases List.mem_cons.mp h with heq | h
    · obtain ⟨rfl, rfl⟩ := Prod.mk.inj heq
      simp [hitem, hinner]
    · cases entries.lookup key' <;> simp [decodeOptional_eq_none hitem hinner h]

/-- Decoding along a shape comes past all properties that the object has, whatever is wrong with
others. -/
theorem Shape.decode_eq_none {shape : Shape} {tag : Option String} {entries : Entries Json}
    {key : String} {inner : Node} {item : Json} (hproperty : (key, inner) ∈ shape.properties)
    (hitem : entries.lookup key = some item) (hinner : inner.decode reading follow item = none) :
    shape.decode reading follow tag (.object entries) = none := by
  obtain ⟨required, optional, strict⟩ := shape
  simp only [Shape.decode]
  rcases List.mem_append.mp hproperty with hmem | hmem
  · simp [decodeRequired_eq_none hitem hinner hmem]
  · cases decodeRequired reading follow entries required <;>
      simp [decodeOptional_eq_none hitem hinner hmem]

theorem Node.LeadsTo.isNull_eq_false {index : Nat} {part : Json} {node : Node} {document : Json}
    (h : node.LeadsTo index part document) (hpart : part.isNull = false) :
    document.isNull = false := by
  cases h with
  | here nullable => exact hpart
  | _ => rfl

/-- **A walk that comes to a reference** does not end when following the reference does not. -/
theorem Node.LeadsTo.decode_eq_none {index : Nat} {part : Json} {node : Node} {document : Json}
    (h : node.LeadsTo index part document) (hpart : part.isNull = false)
    (hfollow : follow index part = none) : node.decode reading follow document = none := by
  induction h with
  | here nullable => simp [Node.decode, hpart, Kind.decode, hfollow]
  | property hproperty _ ih =>
    simp [Node.decode, Json.isNull, Kind.decode,
      Shape.decode_eq_none hproperty List.lookup_cons_self ih]
  | element _ ih | value _ ih => simp [Node.decode, Json.isNull, Kind.decode, ih]
  | @variant tag name variants nullable shape key inner item hlookup hproperty hkey _ ih =>
    have hitem : ([(tag, .string name), (key, item)] : Entries Json).lookup key = some item := by
      rw [Entries.lookup_cons_ite, if_neg hkey, List.lookup_cons_self]
    have hshape : shape.decode reading follow (some tag)
        (.object [(tag, .string name), (key, item)]) = none :=
      Shape.decode_eq_none hproperty hitem ih
    simp [Node.decode, Json.isNull, Kind.decode, decodeVariant_eq_lookup, hlookup, hshape]

end

variable {program : Program}

theorem Chain.trans {start middle stop : Nat} (h : Chain program start middle)
    (h' : Chain program middle stop) : Chain program start stop := by
  induction h with
  | one hnode htarget => exact .more hnode htarget h'
  | more hnode htarget _ ih => exact .more hnode htarget (ih h')

/-- An endless model is a reference to an endless model. -/
theorem Endless.exists_next {index : Nat} (h : program.Endless index) :
    ∃ node next, program.models[index]? = some node ∧ node.target? = some next ∧
      program.Endless next := by
  cases h with
  | @one _ _ node hnode htarget => exact ⟨node, index, hnode, htarget, .one hnode htarget⟩
  | @more _ next _ node hnode htarget hrest =>
    exact ⟨node, next, hnode, htarget, Chain.trans hrest (.one hnode htarget)⟩

/-- **No number of steps is enough** to follow a reference to an endless model. -/
theorem decodeModel_eq_none_of_endless {reading : Reading} {input : Json}
    (hinput : input.isNull = false) (steps : Nat) : ∀ {index : Nat}, program.Endless index →
      program.decodeModel reading steps index input = none := by
  induction steps with
  | zero => exact fun _ => rfl
  | succ steps ih =>
    intro index h
    obtain ⟨⟨kind, nullable⟩, next, hnode, htarget, hnext⟩ := h.exists_next
    cases kind <;> simp only [Node.target?, Option.some.injEq, reduceCtorEq] at htarget
    subst htarget
    rw [decodeModel, hnode]
    simp only [Node.decode, hinput, Bool.false_and, Bool.false_eq_true, ↓reduceIte, Kind.decode]
    exact ih hnext

/-- **An endless model is reached by some document**, on which decoding never ends.

**Proof sketch.** Going back from the model: it is mentioned at the root or at a model before it; in
the first case a document leads there from the root, in the second from the other model, and that is
reached by some document. -/
theorem exists_decode_eq_none {models : Models} {schema : Schema} {reading : Reading}
    (h : compile schema models = .ok program) (hschema : schema.ListsVariantsOnce)
    (hmodels : ∀ pair ∈ models, pair.2.ListsVariantsOnce) {index : Nat}
    (hendless : program.Endless index) :
    ∃ document, ∀ steps,
      program.root.decode reading (program.decodeModel reading steps) document = none := by
  obtain ⟨hlowered, hlength⟩ := lowered_of_compile h
  have hback : ∀ index < program.models.length, ∀ part, part.isNull = false →
      (∀ steps, program.decodeModel reading steps index part = none) →
      ∃ document, ∀ steps,
        program.root.decode reading (program.decodeModel reading steps) document = none := by
    intro index
    induction index using Nat.strong_induction_on with
    | _ index ih =>
      intro hindex part hpart hnone
      rcases hlowered.mentioned index (hlength ▸ hindex) with hmentions | ⟨earlier, hearlier, node,
        hnode, hmentions⟩
      · obtain ⟨after, hroot, -⟩ := hlowered.start
        obtain ⟨document, hdocument⟩ := exists_leadsTo_of_lower part hroot hschema index hmentions
        exact ⟨document, fun steps => hdocument.decode_eq_none hpart (hnone steps)⟩
      · obtain ⟨name, model, place, before, after, -, hmodel, hlower, -⟩ :=
          hlowered.node earlier node hnode
        obtain ⟨document, hdocument⟩ := exists_leadsTo_of_lower part hlower
          (hmodels _ (Entries.mem_of_lookup hmodel)) index hmentions
        refine ih earlier hearlier (hearlier.trans hindex) document
          (hdocument.isNull_eq_false hpart) fun steps => ?_
        cases steps with
        | zero => rfl
        | succ steps =>
          rw [decodeModel, hnode]
          exact hdocument.decode_eq_none hpart (hnone steps)
  obtain ⟨node, next, hnode, -, -⟩ := hendless.exists_next
  have hpart : (Json.bool true).isNull = false := rfl
  exact hback index (List.getElem?_eq_some_iff.mp hnode).1 _ hpart fun steps =>
    decodeModel_eq_none_of_endless hpart steps hendless

end Program

/-! ## Validators -/

namespace Validator

/-- **The operations of a validator** with what they are put to. -/
inductive Operation
  | decode (input : Json)
  | coerce (input : Json)
  | parseLenient (input : Json)
  | validate (value : Value)
  | encode (value : Value)

variable (validator : Validator)

/-- **An operation ends** when its walk follows so many references inside each other at most.
Between two references a walk goes down a node of the program, which is finite. -/
def EndsWithin (steps : Nat) : Operation → Prop
  | .decode input =>
    (validator.program.root.decode .strict (validator.program.decodeModel .strict steps)
      input).isSome = true
  | .coerce input =>
    (validator.program.root.decode .converting (validator.program.decodeModel .converting steps)
      input).isSome = true
  | .parseLenient input =>
    (validator.program.root.readLeniently (validator.program.readModelLeniently steps) 0
      (some input)).run.isSome = true
  | .validate value =>
    (validator.program.root.holds (validator.program.modelHolds steps) value).isSome = true
  | .encode value =>
    (validator.program.root.encode (validator.program.encodeModel steps) value).run.isSome = true

/-- **The bound on an operation**: how many references it follows inside each other at most. It is
made of the depth of what the operation is put to and the number of models. -/
def stepBound : Operation → Nat
  | .decode input => validator.program.budget input.depth
  | .coerce input => validator.program.budget input.depth
  | .parseLenient input =>
    validator.program.budget input.depth + validator.program.models.length + 2
  | .validate value => validator.program.budget value.depth
  | .encode value => validator.program.budget value.depth

/-- **An operation gives an answer.** -/
def Answers : Operation → Prop
  | .decode input => (validator.decode input).isSome = true
  | .coerce input => (validator.coerce input).isSome = true
  | .parseLenient input => (validator.parseLenient input).isSome = true
  | .validate value => (validator.validate value).isSome = true
  | .encode value => (validator.encode value).isSome = true

/-- The answers are those of the walks within the bound. -/
theorem answers_iff (operation : Operation) :
    validator.Answers operation ↔
      validator.EndsWithin (validator.stepBound operation) operation := by
  cases operation with
  | decode input | coerce input =>
    exact iff_of_eq (congrArg (· = true) Option.isSome_map)
  | _ => exact Iff.rfl

variable {validator}

/-- Along a program without endless models all operations end within the bound. -/
theorem endsWithin_stepBound (hclosed : validator.program.Closed)
    (hends : ∀ index, ¬ validator.program.Endless index) (operation : Operation) :
    validator.EndsWithin (validator.stepBound operation) operation := by
  cases operation with
  | decode input => exact Program.isSome_decode hclosed hends .strict input
  | coerce input => exact Program.isSome_decode hclosed hends .converting input
  | parseLenient input => exact Program.isSome_readLeniently hclosed hends input
  | validate value => exact Program.isSome_holds hclosed hends value
  | encode value => exact Program.isSome_encode hclosed hends value

/-- **A compiled validator always comes to an end**, whatever its operations are put to, exactly
when no model that is reached leads back to itself through references only; then all operations end
within the bound, and so give answers. -/
theorem endsWithin_iff {schema : Schema} {models : Models} {validator : Validator}
    (h : compile schema models = .ok validator) (hschema : schema.ListsVariantsOnce)
    (hmodels : ∀ pair ∈ models, pair.2.ListsVariantsOnce) :
    ((∀ operation, ∃ steps, validator.EndsWithin steps operation) ↔
        ∀ name, Program.Reaches models schema.targets name → ¬ Program.RefChain models name name) ∧
      ((∀ name, Program.Reaches models schema.targets name →
          ¬ Program.RefChain models name name) →
        ∀ operation, validator.EndsWithin (validator.stepBound operation) operation ∧
          validator.Answers operation) := by
  have hprogram := compile_eq_ok_iff.mp h
  have hloops := Program.exists_endless_iff hprogram
  have hends : (∀ name, Program.Reaches models schema.targets name →
      ¬ Program.RefChain models name name) →
      ∀ operation, validator.EndsWithin (validator.stepBound operation) operation := by
    intro hnone
    refine endsWithin_stepBound (Program.closed_of_compile hprogram) fun index hendless => ?_
    obtain ⟨name, hreaches, hchain⟩ := hloops.mp ⟨index, hendless⟩
    exact hnone name hreaches hchain
  refine ⟨⟨fun hall name hreaches hchain => ?_, fun hnone operation => ⟨_, hends hnone operation⟩⟩,
    fun hnone operation => ⟨hends hnone operation, ?_⟩⟩
  · obtain ⟨index, hendless⟩ := hloops.mpr ⟨name, hreaches, hchain⟩
    obtain ⟨document, hnone⟩ : ∃ document, ∀ steps, validator.program.root.decode .strict
        (validator.program.decodeModel .strict steps) document = none :=
      Program.exists_decode_eq_none hprogram hschema hmodels hendless
    obtain ⟨steps, hsteps⟩ := hall (.decode document)
    rw [EndsWithin, hnone steps] at hsteps
    cases hsteps
  · exact (validator.answers_iff operation).mpr (hends hnone operation)

/-- The case of lists of lists, whose model refers to itself for the items only. -/
theorem endsWithin_iff_nested_lists :
    let schema := Schema.reference "List"
    let models : Models := [("List", Schema.array (Schema.reference "List"))]
    let validator : Validator :=
      ⟨⟨⟨.ref 0, false⟩, [⟨.array ⟨.ref 0, false⟩, false⟩], ["List"]⟩⟩
    compile schema models = .ok validator ∧ schema.ListsVariantsOnce ∧
      (∀ pair ∈ models, pair.2.ListsVariantsOnce) ∧
      (∀ name, Program.Reaches models schema.targets name →
        ¬ Program.RefChain models name name) ∧
      (∀ operation, ∃ steps, validator.EndsWithin steps operation) ∧
      ∀ operation, validator.EndsWithin (validator.stepBound operation) operation ∧
        validator.Answers operation := by
  intro schema models validator
  have hcompile : compile schema models = .ok validator := rfl
  have hmodels : ∀ pair ∈ models, pair.2.ListsVariantsOnce := by
    intro pair hpair
    obtain rfl := List.mem_singleton.mp hpair
    trivial
  have hleaf : ∀ {name : String} {model : Schema}, models.lookup name = some model →
      model.target? = none := by
    intro name model hmodel
    have hpair := List.mem_singleton.mp (Entries.mem_of_lookup hmodel)
    rw [(Prod.mk.inj hpair).2]
    rfl
  have hnone : ∀ name, Program.Reaches models schema.targets name →
      ¬ Program.RefChain models name name := by
    intro name _ hchain
    cases hchain with
    | one hmodel htarget | more hmodel htarget =>
      rw [hleaf hmodel] at htarget
      cases htarget
  have hends := endsWithin_iff hcompile trivial hmodels
  exact ⟨hcompile, trivial, hmodels, hnone, hends.1.mpr hnone, hends.2 hnone⟩

/-- A model that is a reference to itself is compiled, and no operation ever comes to an end on a
text. -/
theorem not_endsWithin_self_reference :
    ∃ schema validator, Schema.ofJson (.object [("ref", .string "A")]) = .ok schema ∧
      compile schema [("A", schema)] = .ok validator ∧
      ∀ steps, ¬ validator.EndsWithin steps (.decode (.string "x")) ∧
        ¬ validator.EndsWithin steps (.coerce (.string "x")) ∧
        ¬ validator.EndsWithin steps (.parseLenient (.string "x")) ∧
        ¬ validator.EndsWithin steps (.validate (.string "x")) ∧
        ¬ validator.EndsWithin steps (.encode (.string "x")) := by
  refine ⟨Schema.reference "A", ⟨⟨⟨.ref 0, false⟩, [⟨.ref 0, false⟩], ["A"]⟩⟩, rfl, rfl, ?_⟩
  intro steps
  -- with one step more a walk is where it was
  induction steps with
  | zero => exact ⟨nofun, nofun, nofun, nofun, nofun⟩
  | succ steps ih => exact ih

end Validator

end RpcSchema
