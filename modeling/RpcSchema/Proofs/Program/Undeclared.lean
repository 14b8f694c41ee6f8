import RpcSchema.Proofs.Program.Accepting
import RpcSchema.Proofs.Program.Ending

set_option autoImplicit false

/-!
# The guard is the encoder, but for undeclared keys

The guard and the encoder put the same questions to a value, with one exception: the guard refuses
keys that a strict shape does not have, while the encoder leaves them out. So a value belongs to a
schema exactly when it can be encoded and no strict shape on the way meets such a key.

## Main definitions

* `RpcSchema.Program.Standing` — fields that stand for an object of a shape.
* `RpcSchema.Program.Meets` — the walk of a value along a node meets fields of a shape.
* `RpcSchema.Program.NothingUndeclared` — no strict shape that is met holds an undeclared key.

## Main results

* `RpcSchema.Program.holds_iff_encodes` — the guard along nodes.
* `RpcSchema.Validator.validate_iff_encode` — the same for validators.
-/

namespace RpcSchema

namespace Program

/-! ## Shapes that a walk meets -/

/-- **Fields that stand for an object of a shape**, beside a tag if they belong to an object that
stands for a variant of a union. -/
structure Standing where
  shape : Shape
  tag : Option String
  fields : Entries Value

/-- A strict shape has all the keys; the tag counts as one. -/
def Standing.Covered (standing : Standing) : Prop :=
  standing.shape.Admits standing.tag (Entries.keys standing.fields)

/-- The fields of a value and the shape that a node has for them. An object may stand for a variant
of a union, with its name under the tag; a variant does not hold the tag. -/
def Node.standing? (node : Node) (value : Value) : Option Standing :=
  match node.kind, value with
  | .object shape, .object fields => some ⟨shape, none, fields⟩
  | .union _ variants, .variant name fields =>
    (variants.lookup name).map fun shape => ⟨shape, none, fields⟩
  | .union tag variants, .object fields =>
    match fields.lookup tag with
    | some (.string name) => (variants.lookup name).map fun shape => ⟨shape, some tag, fields⟩
    | _ => none
  | _, _ => none

/-- **Walking a value along a node meets fields of a shape**, here or inside. -/
inductive Meets (program : Program) : Node → Value → Standing → Prop
  | here {node : Node} {value : Value} {standing : Standing} :
    node.standing? value = some standing → Meets program node value standing
  | field {node inner : Node} {value part : Value} {outer standing : Standing} {key : String} :
    node.standing? value = some outer → (key, inner) ∈ outer.shape.properties →
    outer.fields.lookup key = some part → Meets program inner part standing →
    Meets program node value standing
  | item {element : Node} {nullable : Bool} {items : List Value} {item : Value}
    {standing : Standing} :
    item ∈ items → Meets program element item standing →
    Meets program ⟨.array element, nullable⟩ (.array items) standing
  | entry {node : Node} {nullable : Bool} {fields : Entries Value} {key : String} {part : Value}
    {standing : Standing} :
    (key, part) ∈ fields → Meets program node part standing →
    Meets program ⟨.record node, nullable⟩ (.object fields) standing
  | model {index : Nat} {nullable : Bool} {model : Node} {value : Value} {standing : Standing} :
    value.isNull = false → program.models[index]? = some model →
    Meets program model value standing → Meets program ⟨.ref index, nullable⟩ value standing

/-- **No strict shape that is met holds an undeclared key.** -/
def NothingUndeclared (program : Program) (node : Node) (value : Value) : Prop :=
  ∀ standing, program.Meets node value standing → standing.Covered

variable {program : Program} {nullable : Bool}

theorem not_meets_null {node : Node} {standing : Standing} :
    ¬ program.Meets node .null standing := by
  obtain ⟨kind, nullable⟩ := node
  intro h
  cases h with
  | here hstanding | field hstanding => cases kind <;> cases hstanding
  | model hnull => cases hnull

theorem nothingUndeclared_null (node : Node) : program.NothingUndeclared node .null :=
  fun _ h => absurd h not_meets_null

/-- What is met at fields of a shape is met there or at a property. -/
theorem nothingUndeclared_iff_of_standing? {node : Node} {value : Value} {standing : Standing}
    (h : node.standing? value = some standing) :
    program.NothingUndeclared node value ↔ standing.Covered ∧
      ∀ property ∈ standing.shape.properties, ∀ part,
        standing.fields.lookup property.1 = some part →
        program.NothingUndeclared property.2 part := by
  constructor
  · intro hnode
    exact ⟨hnode standing (.here h), fun property hproperty part hpart inner hinner =>
      hnode inner (.field h hproperty hpart hinner)⟩
  · rintro ⟨hcovered, hproperties⟩ inner hinner
    cases hinner with
    | here hinner =>
      obtain rfl : standing = inner := Option.some.inj (h.symm.trans hinner)
      exact hcovered
    | @field _ _ _ part outer _ key houter hproperty hpart hinner =>
      obtain rfl : standing = outer := Option.some.inj (h.symm.trans houter)
      exact hproperties _ hproperty part hpart inner hinner
    | item | entry | model => cases h

theorem nothingUndeclared_scalar {kind : ScalarKind} {value : Value} :
    program.NothingUndeclared ⟨.scalar kind, nullable⟩ value := by
  intro standing h
  cases h with
  | here hstanding | field hstanding => cases hstanding

theorem nothingUndeclared_enumeration {values : List String} {value : Value} :
    program.NothingUndeclared ⟨.enumeration values, nullable⟩ value := by
  intro standing h
  cases h with
  | here hstanding | field hstanding => cases hstanding

theorem nothingUndeclared_array_iff {element : Node} {items : List Value} :
    program.NothingUndeclared ⟨.array element, nullable⟩ (.array items) ↔
      ∀ item ∈ items, program.NothingUndeclared element item := by
  constructor
  · exact fun h item hitem standing hmeets => h standing (.item hitem hmeets)
  · intro h standing hmeets
    cases hmeets with
    | here hstanding | field hstanding => cases hstanding
    | item hitem hmeets => exact h _ hitem standing hmeets

theorem nothingUndeclared_record_iff {node : Node} {fields : Entries Value} :
    program.NothingUndeclared ⟨.record node, nullable⟩ (.object fields) ↔
      ∀ field ∈ fields, program.NothingUndeclared node field.2 := by
  constructor
  · exact fun h field hfield standing hmeets =>
      h standing (.entry (show (field.1, field.2) ∈ fields from hfield) hmeets)
  · intro h standing hmeets
    cases hmeets with
    | here hstanding | field hstanding => cases hstanding
    | entry hentry hmeets => exact h _ hentry standing hmeets

theorem nothingUndeclared_ref_iff {index : Nat} {model : Node} {value : Value}
    (hmodel : program.models[index]? = some model) (hvalue : value.isNull = false) :
    program.NothingUndeclared ⟨.ref index, nullable⟩ value ↔
      program.NothingUndeclared model value := by
  constructor
  · exact fun h standing hmeets => h standing (.model hvalue hmodel hmeets)
  · intro h standing hmeets
    cases hmeets with
    | here hstanding | field hstanding => cases hstanding
    | model _ hmodel' hmeets =>
      obtain rfl := Option.some.inj (hmodel.symm.trans hmodel')
      exact h standing hmeets

/-! ## The guard and the encoder -/

/-- A property that a source has is present in it. -/
theorem Shape.mem_presentIn_of_lookup {α : Type} {shape : Shape} {source : Entries α}
    {property : String × Node} {part : α} (hproperty : property ∈ shape.properties)
    (hpart : source.lookup property.1 = some part) : property ∈ shape.presentIn source := by
  rw [Shape.mem_presentIn]
  rcases List.mem_append.mp hproperty with h | h
  · exact .inl h
  · exact .inr ⟨h, Entries.mem_keys_of_mem (Entries.mem_of_lookup hpart)⟩

/-- **Fields have a shape** exactly when they can be encoded along it and nothing undeclared is met,
provided that this holds for the properties. -/
theorem Shape.holds_iff_encodes {test : Nat → Value → Walk Bool}
    {follow : Nat → Value → Attempt Json} {shape : Shape} {tag : Option String}
    {fields : Entries Value}
    (ih : ∀ property ∈ shape.properties, ∀ value, property.2.Holds test value ↔
      (∃ document, property.2.Encodes follow value document) ∧
        program.NothingUndeclared property.2 value) :
    shape.holds test tag fields = some true ↔
      (∃ pairs, Matched (Node.Encodes follow) fields (shape.presentIn fields) pairs) ∧
        (⟨shape, tag, fields⟩ : Standing).Covered ∧
        ∀ property ∈ shape.properties, ∀ part, fields.lookup property.1 = some part →
          program.NothingUndeclared property.2 part := by
  rw [Shape.holds_iff, Matched.exists_iff]
  constructor
  · rintro ⟨hholds, hadmits⟩
    refine ⟨fun property hproperty => ?_, hadmits, fun property hproperty part hpart => ?_⟩
    · obtain ⟨value, hvalue, hvalueHolds⟩ := hholds property hproperty
      have hmem := Shape.mem_properties_of_mem_presentIn hproperty
      exact ⟨value, hvalue, ((ih property hmem value).mp hvalueHolds).1⟩
    · obtain ⟨value, hvalue, hvalueHolds⟩ :=
        hholds property (Shape.mem_presentIn_of_lookup hproperty hpart)
      obtain rfl : part = value := Option.some.inj (hpart.symm.trans hvalue)
      exact ((ih property hproperty part).mp hvalueHolds).2
  · rintro ⟨hencodes, hadmits, hparts⟩
    refine ⟨fun property hproperty => ?_, hadmits⟩
    obtain ⟨value, hvalue, hdocument⟩ := hencodes property hproperty
    have hmem := Shape.mem_properties_of_mem_presentIn hproperty
    exact ⟨value, hvalue,
      (ih property hmem value).mpr ⟨hdocument, hparts property hmem value hvalue⟩⟩

/-- A value other than `null` is encoded along what a node demands. -/
theorem Node.encodes_iff_of_not_null {follow : Nat → Value → Attempt Json} {kind : Kind}
    {value : Value} {document : Json} (h : value.isNull = false) :
    (⟨kind, nullable⟩ : Node).Encodes follow value document ↔
      kind.encode follow value = some (.ok document) := by
  rw [Node.Encodes, Node.encode, h]
  rfl

/-- What is refused by the guard is refused by the encoder. -/
theorem refused_iff {answer : Walk Bool} {attempt : Attempt Json} {error : ValueError} {p : Prop}
    (hanswer : answer = some false) (hattempt : attempt = some (.error error)) :
    answer = some true ↔ (∃ document, attempt = some (.ok document)) ∧ p := by
  subst hanswer hattempt
  refine iff_of_false (by simp) ?_
  rintro ⟨⟨document, h⟩, -⟩
  cases h

/-- What the guard does not answer is not answered by the encoder. -/
theorem unanswered_iff {answer : Walk Bool} {attempt : Attempt Json} {p : Prop}
    (hanswer : answer = none) (hattempt : attempt = none) :
    answer = some true ↔ (∃ document, attempt = some (.ok document)) ∧ p := by
  subst hanswer hattempt
  simp

/-- Fields that stand for the variant with a name belong to it exactly when they can be encoded as
it and nothing undeclared is met. -/
theorem variantHolds_iff_encodes {test : Nat → Value → Walk Bool}
    {follow : Nat → Value → Attempt Json} {tag name : String} {tag' : Option String}
    {variants : List (String × Shape)} {fields : Entries Value} {node : Node} {value : Value}
    (ih : ∀ variant ∈ variants, ∀ property ∈ variant.2.properties, ∀ value,
      property.2.Holds test value ↔ (∃ document, property.2.Encodes follow value document) ∧
        program.NothingUndeclared property.2 value)
    (hstanding : node.standing? value =
      (variants.lookup name).map fun shape => ⟨shape, tag', fields⟩) :
    variantHolds test tag' name variants fields = some true ↔
      (∃ document, encodeVariant follow tag name variants fields = some (.ok document)) ∧
        program.NothingUndeclared node value := by
  simp only [variantHolds_iff, encodeVariant_eq_ok_iff]
  cases hshape : variants.lookup name with
  | none => simp
  | some shape =>
    rw [hshape, Option.map_some] at hstanding
    rw [nothingUndeclared_iff_of_standing? hstanding]
    simp only [Option.some.injEq, exists_eq_left']
    rw [Shape.holds_iff_encodes (ih (name, shape) (Entries.mem_of_lookup hshape))]
    refine and_congr_left fun _ => ?_
    constructor
    · rintro ⟨pairs, hpairs⟩
      exact ⟨_, shape, pairs, rfl, hpairs, rfl⟩
    · rintro ⟨document, _, pairs, rfl, hpairs, -⟩
      exact ⟨pairs, hpairs⟩

/-- **A value belongs to a node exactly when it can be encoded** along it and no strict shape that
is met holds an undeclared key.

**Proof sketch.** Induction along the walk, which both take in the same steps. `null` is left to the
node by both, and scalars agree by `ScalarKind.holds_iff_write`; what holds of the parts of a value
holds of the whole, where the guard looks at the keys of objects in addition. -/
theorem holds_iff_encodes {steps : Nat} {node : Node} : ∀ (value : Value),
    node.Holds (program.modelHolds steps) value ↔
      (∃ document, node.Encodes (program.encodeModel steps) value document) ∧
        program.NothingUndeclared node value := by
  have hnull {steps : Nat} {kind : Kind} {nullable : Bool} :
      (⟨kind, nullable⟩ : Node).Holds (program.modelHolds steps) .null ↔
        (∃ document, (⟨kind, nullable⟩ : Node).Encodes (program.encodeModel steps) .null document) ∧
          program.NothingUndeclared ⟨kind, nullable⟩ .null := by
    rw [and_iff_left (nothingUndeclared_null _), Node.Holds, Node.holds_null, Option.some.injEq]
    simp [Node.Encodes, Node.encode_eq_ok_iff, Value.isNull]
  have hkind {steps : Nat} {kind : Kind} {nullable : Bool} {value : Value} {p : Prop}
      (hvalue : value.isNull = false)
      (h : kind.holds (program.modelHolds steps) value = some true ↔
        (∃ document, kind.encode (program.encodeModel steps) value = some (.ok document)) ∧ p) :
      (⟨kind, nullable⟩ : Node).Holds (program.modelHolds steps) value ↔
        (∃ document, (⟨kind, nullable⟩ : Node).Encodes (program.encodeModel steps) value document) ∧
          p := by
    simpa only [Node.Holds, Node.holds_of_not_null hvalue,
      Node.encodes_iff_of_not_null hvalue] using h
  induction steps, node using walkInduct program with
  | scalar steps kind nullable =>
    intro value
    cases hvalue : value.isNull with
    | true =>
      obtain rfl := Value.isNull_iff.mp hvalue
      exact hnull
    | false =>
      refine hkind hvalue ?_
      simp only [and_iff_left nothingUndeclared_scalar, Kind.holds, Option.some.injEq, Kind.encode,
        Attempt.ofScalar_eq_ok_iff]
      exact ScalarKind.holds_iff_write
  | enumeration steps values nullable =>
    intro value
    cases value with
    | null => exact hnull
    | string text =>
      refine hkind rfl ?_
      simp only [and_iff_left nothingUndeclared_enumeration, Kind.holds, Option.some.injEq,
        Kind.encode, encodeListed_eq_ok_iff, exists_and_left, exists_eq, and_true]
    | _ => exact refused_iff rfl rfl
  | object steps shape nullable ih =>
    intro value
    cases value with
    | null => exact hnull
    | object fields =>
      refine hkind rfl ?_
      rw [nothingUndeclared_iff_of_standing? rfl, Kind.holds, Shape.holds_iff_encodes ih]
      refine and_congr_left' ?_
      simp only [Kind.encode_object_iff]
      constructor
      · rintro ⟨pairs, hpairs⟩
        exact ⟨_, pairs, hpairs, rfl⟩
      · rintro ⟨document, pairs, hpairs, -⟩
        exact ⟨pairs, hpairs⟩
    | _ => exact refused_iff rfl rfl
  | array steps element nullable ih =>
    intro value
    cases value with
    | null => exact hnull
    | array items =>
      refine hkind rfl ?_
      rw [nothingUndeclared_array_iff, Kind.holds_array_iff]
      simp only [ih, Kind.encode_array_iff, forall₂_and]
      refine and_congr_left' ?_
      rw [← exists_forall₂_iff]
      constructor
      · rintro ⟨documents, hdocuments⟩
        exact ⟨_, documents, hdocuments, rfl⟩
      · rintro ⟨document, documents, hdocuments, -⟩
        exact ⟨documents, hdocuments⟩
    | _ => exact refused_iff rfl rfl
  | record steps node nullable ih =>
    intro value
    cases value with
    | null => exact hnull
    | object fields =>
      refine hkind rfl ?_
      rw [nothingUndeclared_record_iff, Kind.holds_record_iff]
      simp only [ih, Kind.encode_record_iff, forall₂_and]
      refine and_congr_left' ?_
      constructor
      · intro h
        obtain ⟨entries, hentries⟩ := exists_forall₂_iff.mpr fun field hfield => by
          obtain ⟨document, hdocument⟩ := h field hfield
          exact (⟨(field.1, document), rfl, hdocument⟩ : ∃ entry : String × Json,
            entry.1 = field.1 ∧ node.Encodes (program.encodeModel steps) field.2 entry.2)
        exact ⟨_, entries, hentries, rfl⟩
      · rintro ⟨document, entries, hentries, -⟩ field hfield
        obtain ⟨entry, -, hentry⟩ := exists_forall₂_iff.mp ⟨entries, hentries⟩ field hfield
        exact ⟨entry.2, hentry⟩
    | _ => exact refused_iff rfl rfl
  | union steps tag variants nullable ih =>
    intro value
    cases value with
    | null => exact hnull
    | variant name fields => exact hkind rfl (variantHolds_iff_encodes ih rfl)
    | object fields =>
      refine hkind rfl ?_
      cases htag : fields.lookup tag with
      | none =>
        simp only [Kind.holds, Kind.encode, htag]
        exact refused_iff rfl rfl
      | some value =>
        cases value with
        | string name =>
          simp only [Kind.holds, Kind.encode, htag]
          exact variantHolds_iff_encodes ih (by simp only [Node.standing?, htag])
        | _ =>
          simp only [Kind.holds, Kind.encode, htag]
          exact refused_iff rfl rfl
    | _ => exact refused_iff rfl rfl
  | stop index nullable =>
    intro value
    cases hvalue : value.isNull with
    | true =>
      obtain rfl := Value.isNull_iff.mp hvalue
      exact hnull
    | false => exact hkind hvalue (unanswered_iff rfl rfl)
  | step steps index nullable ih =>
    intro value
    cases hvalue : value.isNull with
    | true =>
      obtain rfl := Value.isNull_iff.mp hvalue
      exact hnull
    | false =>
      refine hkind hvalue ?_
      simp only [Kind.holds, Kind.encode, modelHolds, encodeModel]
      cases hmodel : program.models[index]? with
      | none => exact unanswered_iff rfl rfl
      | some model =>
        rw [nothingUndeclared_ref_iff hmodel hvalue]
        exact ih model hmodel value

end Program

namespace Validator

/-- **A value belongs to a schema exactly when it can be encoded** and no strict shape that it meets
on the way holds an undeclared key; both questions are answered, as long as no model leads back to
itself through references only. -/
theorem validate_iff_encode {schema : Schema} {models : Models} {validator : Validator}
    (h : compile schema models = .ok validator)
    (hloops : ∀ name, ¬ Program.RefChain models name name) (value : Value) :
    ∃ answer result, validator.validate value = some answer ∧
      validator.encode value = some result ∧
      (answer = true ↔ (∃ document, result = .ok document) ∧
        validator.program.NothingUndeclared validator.program.root value) := by
  have hprogram := compile_eq_ok_iff.mp h
  have hclosed := Program.closed_of_compile hprogram
  have hends : ∀ index, ¬ validator.program.Endless index := by
    intro index hendless
    obtain ⟨name, -, hchain⟩ := (Program.exists_endless_iff hprogram).mp ⟨index, hendless⟩
    exact hloops name hchain
  obtain ⟨answer, hanswer⟩ : ∃ answer, validator.validate value = some answer :=
    Option.isSome_iff_exists.mp (Program.isSome_holds hclosed hends value)
  obtain ⟨result, hresult⟩ : ∃ result, validator.encode value = some result :=
    Option.isSome_iff_exists.mp (Program.isSome_encode hclosed hends value)
  refine ⟨answer, result, hanswer, hresult, ?_⟩
  have hiff : validator.validate value = some true ↔
      (∃ document, validator.encode value = some (.ok document)) ∧
        validator.program.NothingUndeclared validator.program.root value :=
    Program.holds_iff_encodes value
  rw [hanswer, hresult] at hiff
  simpa only [Option.some.injEq] using hiff

/-- The case of a chain of objects with a key too many in the second: the guard refuses it, and the
encoder leaves the key out. -/
theorem validate_iff_encode_chained_objects :
    let model := Schema.object.property "next" (Schema.reference "Link").orNull
    let models : Models := [("Link", model)]
    let validator : Validator :=
      ⟨⟨⟨.ref 0, false⟩, [⟨.object ⟨[("next", ⟨.ref 0, true⟩)], [], true⟩, false⟩], ["Link"]⟩⟩
    let value : Value := .object [("next", .object [("next", .null), ("extra", .null)])]
    compile (Schema.reference "Link") models = .ok validator ∧
      (∀ name, ¬ Program.RefChain models name name) ∧
      validator.validate value = some false ∧
      validator.encode value = some (.ok (.object [("next", .object [("next", .null)])])) ∧
      ∃ answer result, validator.validate value = some answer ∧
        validator.encode value = some result ∧
        (answer = true ↔ (∃ document, result = .ok document) ∧
          validator.program.NothingUndeclared validator.program.root value) := by
  intro model models validator value
  have hcompile : compile (Schema.reference "Link") models = .ok validator := rfl
  have hloops : ∀ name, ¬ Program.RefChain models name name := by
    intro name hchain
    cases hchain with
    | one hmodel htarget | more hmodel htarget =>
      obtain ⟨-, rfl⟩ := Prod.mk.inj (List.mem_singleton.mp (Entries.mem_of_lookup hmodel))
      cases htarget
  exact ⟨hcompile, hloops, rfl, rfl, validate_iff_encode hcompile hloops value⟩

end Validator

end RpcSchema
