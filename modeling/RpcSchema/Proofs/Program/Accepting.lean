import RpcSchema.Proofs.Program.Asking
import RpcSchema.Proofs.Program.Encoding
import RpcSchema.Proofs.Program.Walks
import RpcSchema.Proofs.Scalar

set_option autoImplicit false

/-!
# Values that a node accepts

A node accepts a value when the value belongs to it and can be encoded along it. For a value with
parts this is a question about the parts.

## Main definitions

* `RpcSchema.Program.Accepts` — a node accepts a value.
* `RpcSchema.Program.AcceptsFields` — a shape accepts fields.

## Main results

* `RpcSchema.Program.accepts_object_iff`, `RpcSchema.Program.accepts_variant_iff`,
  `RpcSchema.Program.accepts_array_iff`, `RpcSchema.Program.accepts_record_iff`,
  `RpcSchema.Program.accepts_ref_iff` — what the forms accept.
-/

namespace RpcSchema

/-- Results can be chosen one by one. -/
theorem exists_forall₂_iff {α β : Type} {relation : α → β → Prop} :
    ∀ {list : List α},
      (∃ results, List.Forall₂ relation list results) ↔ ∀ a ∈ list, ∃ b, relation a b
  | [] => by simp
  | a :: rest => by
    rw [List.forall_mem_cons, ← exists_forall₂_iff]
    constructor
    · rintro ⟨results, h⟩
      obtain ⟨b, others, hb, hothers, rfl⟩ := List.forall₂_cons_left_iff.mp h
      exact ⟨⟨b, hb⟩, others, hothers⟩
    · rintro ⟨⟨b, hb⟩, others, hothers⟩
      exact ⟨b :: others, .cons hb hothers⟩

namespace Program

theorem Matched.exists_iff {α β : Type} {relation : Node → α → β → Prop} {source : Entries α}
    {properties : List (String × Node)} :
    (∃ pairs, Matched relation source properties pairs) ↔
      ∀ property ∈ properties, ∃ a, source.lookup property.1 = some a ∧
        ∃ b, relation property.2 a b := by
  unfold Matched
  rw [exists_forall₂_iff]
  refine forall₂_congr fun property _ => ?_
  constructor
  · rintro ⟨⟨key, b⟩, -, a, ha, hab⟩
    exact ⟨a, ha, b, hab⟩
  · rintro ⟨a, ha, b, hab⟩
    exact ⟨(property.1, b), rfl, a, ha, hab⟩

variable (program : Program)

/-- **A node accepts a value** that belongs to it and can be encoded along it. -/
def Accepts (node : Node) (value : Value) : Prop :=
  node.Holds program.holdsAt value ∧ ∃ document, node.Encodes program.encodeAt value document

/-- **A shape accepts fields** when each property that is present accepts the field of its key. -/
def AcceptsFields (shape : Shape) (fields : Entries Value) : Prop :=
  ∀ property ∈ shape.presentIn fields, ∃ value, fields.lookup property.1 = some value ∧
    program.Accepts property.2 value

variable {program} {nullable : Bool}

/-- `null` is accepted where it will do, whatever the node refers to. -/
theorem accepts_null_iff {kind : Kind} : program.Accepts ⟨kind, nullable⟩ .null ↔
    nullable = true := by
  unfold Accepts
  rw [Node.Holds, Node.holds_null, Option.some.injEq, and_iff_left_iff_imp]
  intro h
  exact ⟨.null, Node.encode_eq_ok_iff.mpr (.inl ⟨rfl, h, rfl⟩)⟩

/-- Other values are accepted when what the node demands accepts them. -/
theorem accepts_iff_of_not_null {kind : Kind} {value : Value} (h : value.isNull = false) :
    program.Accepts ⟨kind, nullable⟩ value ↔
      kind.holds program.holdsAt value = some true ∧
        ∃ document, kind.encode program.encodeAt value = some (.ok document) := by
  have hne : value ≠ .null := by
    rintro rfl
    cases h
  simp only [Accepts, Node.Holds, Node.Encodes, Node.holds_of_not_null h, Node.encode_eq_ok_iff,
    hne, h, false_and, true_and, false_or]

theorem acceptsFields_iff {shape : Shape} {fields : Entries Value} :
    program.AcceptsFields shape fields ↔
      (∀ property ∈ shape.presentIn fields, ∃ value, fields.lookup property.1 = some value ∧
        property.2.Holds program.holdsAt value) ∧
      ∃ pairs, Matched (Node.Encodes program.encodeAt) fields (shape.presentIn fields) pairs := by
  rw [Matched.exists_iff, ← forall₂_and]
  refine forall₂_congr fun property _ => ?_
  constructor
  · rintro ⟨value, hvalue, hholds, hencodes⟩
    exact ⟨⟨value, hvalue, hholds⟩, value, hvalue, hencodes⟩
  · rintro ⟨⟨value, hvalue, hholds⟩, value', hvalue', hencodes⟩
    obtain rfl : value = value' := Option.some.inj (hvalue.symm.trans hvalue')
    exact ⟨value, hvalue, hholds, hencodes⟩

theorem accepts_scalar_iff {kind : ScalarKind} {value : Value} (h : value.isNull = false) :
    program.Accepts ⟨.scalar kind, nullable⟩ value ↔ kind.holds value = true := by
  rw [accepts_iff_of_not_null h]
  simp only [Kind.holds, Option.some.injEq, Kind.encode, Attempt.ofScalar_eq_ok_iff,
    ← ScalarKind.holds_iff_write, and_self]

theorem accepts_enumeration_iff {values : List String} {text : String} :
    program.Accepts ⟨.enumeration values, nullable⟩ (.string text) ↔
      values.contains text = true := by
  rw [accepts_iff_of_not_null rfl]
  simp only [Kind.holds, Option.some.injEq, Kind.encode, encodeListed_eq_ok_iff, exists_and_left,
    exists_eq, and_true, and_self]

theorem accepts_object_iff {shape : Shape} {fields : Entries Value} :
    program.Accepts ⟨.object shape, nullable⟩ (.object fields) ↔
      program.AcceptsFields shape fields ∧ shape.Admits none (Entries.keys fields) := by
  rw [accepts_iff_of_not_null rfl, acceptsFields_iff]
  simp only [Kind.holds, Shape.holds_iff, Kind.encode_object_iff]
  constructor
  · rintro ⟨⟨hholds, hadmits⟩, document, pairs, hpairs, -⟩
    exact ⟨⟨hholds, pairs, hpairs⟩, hadmits⟩
  · rintro ⟨⟨hholds, pairs, hpairs⟩, hadmits⟩
    exact ⟨⟨hholds, hadmits⟩, _, pairs, hpairs, rfl⟩

theorem accepts_variant_iff {tag name : String} {variants : List (String × Shape)}
    {fields : Entries Value} :
    program.Accepts ⟨.union tag variants, nullable⟩ (.variant name fields) ↔
      ∃ shape, variants.lookup name = some shape ∧ program.AcceptsFields shape fields ∧
        shape.Admits none (Entries.keys fields) := by
  rw [accepts_iff_of_not_null rfl]
  simp only [acceptsFields_iff, Kind.holds, variantHolds_iff, Shape.holds_iff, Kind.encode,
    encodeVariant_eq_ok_iff]
  constructor
  · rintro ⟨⟨shape, hshape, hholds, hadmits⟩, document, shape', pairs, hshape', hpairs, -⟩
    obtain rfl : shape = shape' := Option.some.inj (hshape.symm.trans hshape')
    exact ⟨shape, hshape, ⟨hholds, pairs, hpairs⟩, hadmits⟩
  · rintro ⟨shape, hshape, ⟨hholds, pairs, hpairs⟩, hadmits⟩
    exact ⟨⟨shape, hshape, hholds, hadmits⟩, _, shape, pairs, hshape, hpairs, rfl⟩

theorem accepts_array_iff {element : Node} {items : List Value} :
    program.Accepts ⟨.array element, nullable⟩ (.array items) ↔
      ∀ item ∈ items, program.Accepts element item := by
  rw [accepts_iff_of_not_null rfl, Kind.holds_array_iff]
  simp only [Kind.encode_array_iff]
  unfold Accepts
  rw [forall₂_and, ← exists_forall₂_iff, and_congr_right_iff]
  intro _
  constructor
  · rintro ⟨document, documents, hdocuments, -⟩
    exact ⟨documents, hdocuments⟩
  · rintro ⟨documents, hdocuments⟩
    exact ⟨_, documents, hdocuments, rfl⟩

theorem accepts_record_iff {node : Node} {fields : Entries Value} :
    program.Accepts ⟨.record node, nullable⟩ (.object fields) ↔
      ∀ field ∈ fields, program.Accepts node field.2 := by
  rw [accepts_iff_of_not_null rfl, Kind.holds_record_iff]
  simp only [Kind.encode_record_iff]
  unfold Accepts
  rw [forall₂_and, and_congr_right_iff]
  intro _
  constructor
  · rintro ⟨document, entries, hentries, -⟩
    intro field hfield
    obtain ⟨entry, -, hentry⟩ := exists_forall₂_iff.mp ⟨entries, hentries⟩ field hfield
    exact ⟨entry.2, hentry⟩
  · intro h
    obtain ⟨entries, hentries⟩ := exists_forall₂_iff.mpr fun field hfield => by
      obtain ⟨document, hdocument⟩ := h field hfield
      exact (⟨(field.1, document), rfl, hdocument⟩ : ∃ entry : String × Json,
        entry.1 = field.1 ∧ node.Encodes program.encodeAt field.2 entry.2)
    exact ⟨_, entries, hentries, rfl⟩

/-- A reference accepts what its model accepts, but for `null`. -/
theorem accepts_ref_iff {index : Nat} {model : Node} {value : Value}
    (hmodel : program.models[index]? = some model) (h : value.isNull = false) :
    program.Accepts ⟨.ref index, nullable⟩ value ↔ program.Accepts model value := by
  rw [accepts_iff_of_not_null h]
  simp only [Kind.holds, Kind.encode, holdsAt_eq hmodel, encodeAt_eq hmodel]
  rfl

end Program

end RpcSchema
