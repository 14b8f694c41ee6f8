import RpcSchema.Proofs.Program.Matching
import RpcSchema.Proofs.Report
import RpcSchema.Validator.Encode

set_option autoImplicit false

/-!
# When encoding gives a document

One equivalence for each form of a node: what the value has to be, what its parts have to encode
to, and what document is made of them.

## Main definitions

* `RpcSchema.Program.Node.Encodes` — a node encodes a value as a document.

## Main results

* `RpcSchema.Program.Shape.encode_eq_ok_iff` — encoding along a shape.
* `RpcSchema.Program.Kind.encode_array_iff`, `RpcSchema.Program.Kind.encode_record_iff`,
  `RpcSchema.Program.encodeVariant_eq_ok_iff` — encoding along the other forms with parts.
* `RpcSchema.Program.Node.encode_eq_ok_iff` — encoding along a node.
-/

namespace RpcSchema.Program

variable {follow : Nat → Value → Attempt Json}

/-- **A node encodes a value as a document.** -/
abbrev Node.Encodes (follow : Nat → Value → Attempt Json) (node : Node) (value : Value)
    (document : Json) : Prop :=
  node.encode follow value = some (.ok document)

theorem encodeListed_eq_ok_iff {values : List String} {text : String} {document : Json} :
    encodeListed values text = some (.ok document) ↔
      values.contains text = true ∧ document = .string text := by
  unfold encodeListed
  split
  · rename_i h
    rw [Attempt.pure_eq_ok_iff]
    exact (and_iff_right h).symm
  · rename_i h
    exact ⟨fun hfail => absurd hfail Attempt.fail_ne_ok, fun hmem => absurd hmem.1 h⟩

theorem encodeRequired_eq_ok_iff {fields : Entries Value} :
    ∀ {properties : List (String × Node)} {pairs : List (String × Json)},
      encodeRequired follow fields properties = some (.ok pairs) ↔
        Matched (Node.Encodes follow) fields properties pairs
  | [], pairs => by
    rw [Matched.nil_left_iff, encodeRequired, Attempt.pure_eq_ok_iff]
  | (key, node) :: rest, pairs => by
    rw [Matched.cons_left_iff]
    cases hkey : fields.lookup key with
    | none => simp [encodeRequired, hkey]
    | some value =>
      simp only [encodeRequired, hkey, Attempt.bind_eq_ok_iff, Attempt.under_eq_ok_iff,
        Attempt.pure_eq_ok_iff, encodeRequired_eq_ok_iff]
      constructor
      · rintro ⟨item, hitem, pairs, hpairs, rfl⟩
        exact ⟨value, item, pairs, rfl, hitem, hpairs, rfl⟩
      · rintro ⟨value', item, pairs, hvalue, hitem, hpairs, rfl⟩
        cases hvalue
        exact ⟨item, hitem, pairs, hpairs, rfl⟩

theorem encodeOptional_eq_ok_iff {fields : Entries Value} :
    ∀ {properties : List (String × Node)} {pairs : List (String × Json)},
      encodeOptional follow fields properties = some (.ok pairs) ↔
        Matched (Node.Encodes follow) fields
          (properties.filter fun property => Entries.contains fields property.1) pairs
  | [], pairs => by
    rw [List.filter_nil, Matched.nil_left_iff, encodeOptional, Attempt.pure_eq_ok_iff]
  | (key, node) :: rest, pairs => by
    cases hkey : fields.lookup key with
    | none =>
      have hcontains : ¬ Entries.contains fields key = true := by
        rw [Entries.contains_eq_true_iff]
        exact Entries.lookup_eq_none_iff.mp hkey
      rw [List.filter_cons, if_neg hcontains, ← encodeOptional_eq_ok_iff]
      simp only [encodeOptional, hkey]
    | some value =>
      have hcontains : Entries.contains fields key = true := by
        rw [Entries.contains_eq_true_iff]
        exact Entries.mem_keys_of_mem (Entries.mem_of_lookup hkey)
      rw [List.filter_cons, if_pos hcontains, Matched.cons_left_iff]
      simp only [encodeOptional, hkey, Attempt.bind_eq_ok_iff, Attempt.under_eq_ok_iff,
        Attempt.pure_eq_ok_iff, encodeOptional_eq_ok_iff]
      constructor
      · rintro ⟨item, hitem, pairs, hpairs, rfl⟩
        exact ⟨value, item, pairs, rfl, hitem, hpairs, rfl⟩
      · rintro ⟨value', item, pairs, hvalue, hitem, hpairs, rfl⟩
        cases hvalue
        exact ⟨item, hitem, pairs, hpairs, rfl⟩

/-- **Encoding along a shape** gives the pairs made along the properties that are present. -/
theorem Shape.encode_eq_ok_iff {shape : Shape} {fields : Entries Value}
    {pairs : List (String × Json)} :
    shape.encode follow fields = some (.ok pairs) ↔
      Matched (Node.Encodes follow) fields (shape.presentIn fields) pairs := by
  obtain ⟨required, optional, strict⟩ := shape
  rw [Shape.presentIn, Matched.append_left_iff]
  simp only [Shape.encode, Attempt.bind_eq_ok_iff, Attempt.pure_eq_ok_iff,
    encodeRequired_eq_ok_iff, encodeOptional_eq_ok_iff]
  constructor
  · rintro ⟨pairs₁, h₁, pairs₂, h₂, rfl⟩
    exact ⟨pairs₁, pairs₂, h₁, h₂, rfl⟩
  · rintro ⟨pairs₁, pairs₂, h₁, h₂, rfl⟩
    exact ⟨pairs₁, h₁, pairs₂, h₂, rfl⟩

theorem Kind.encode_object_iff {shape : Shape} {fields : Entries Value} {document : Json} :
    Kind.encode follow (.object shape) (.object fields) = some (.ok document) ↔
      ∃ pairs, Matched (Node.Encodes follow) fields (shape.presentIn fields) pairs ∧
        document = .object (Entries.ofList pairs) := by
  simp only [Kind.encode, Attempt.bind_eq_ok_iff, Attempt.pure_eq_ok_iff, Shape.encode_eq_ok_iff]

theorem Kind.encode_array_iff {element : Node} {items : List Value} {document : Json} :
    Kind.encode follow (.array element) (.array items) = some (.ok document) ↔
      ∃ documents, List.Forall₂ (element.Encodes follow) items documents ∧
        document = .array documents := by
  simp only [Kind.encode, Attempt.bind_eq_ok_iff, Attempt.pure_eq_ok_iff, Attempt.mapM_eq_ok_iff,
    Attempt.under_eq_ok_iff]
  refine exists_congr fun documents => and_congr_left' ?_
  exact @forall₂_zipIdx_iff _ _ (element.Encodes follow) items documents

theorem Kind.encode_record_iff {node : Node} {fields : Entries Value} {document : Json} :
    Kind.encode follow (.record node) (.object fields) = some (.ok document) ↔
      ∃ entries, List.Forall₂ (fun field entry => entry.1 = field.1 ∧
        node.Encodes follow field.2 entry.2) fields entries ∧ document = .object entries := by
  simp only [Kind.encode, Attempt.bind_eq_ok_iff, Attempt.pure_eq_ok_iff, Attempt.mapM_eq_ok_iff,
    Attempt.under_eq_ok_iff]
  refine exists_congr fun entries => and_congr_left' ?_
  have hfield : ∀ (field : String × Value) (entry : String × Json),
      (∃ item, node.encode follow field.2 = some (.ok item) ∧ entry = (field.1, item)) ↔
        entry.1 = field.1 ∧ node.Encodes follow field.2 entry.2 := by
    rintro ⟨key, value⟩ ⟨key', item⟩
    simp only [Prod.mk.injEq]
    constructor
    · rintro ⟨item, hitem, rfl, rfl⟩
      exact ⟨rfl, hitem⟩
    · rintro ⟨rfl, hitem⟩
      exact ⟨item, hitem, rfl, rfl⟩
  constructor
  · exact fun h => h.imp fun field entry => (hfield field entry).mp
  · exact fun h => h.imp fun field entry => (hfield field entry).mpr

/-- Encoding a variant puts the tag in front of the pairs made along its shape. -/
theorem encodeVariant_eq_ok_iff {tag name : String} {fields : Entries Value} {document : Json} :
    ∀ {variants : List (String × Shape)},
      encodeVariant follow tag name variants fields = some (.ok document) ↔
        ∃ shape pairs, variants.lookup name = some shape ∧
          Matched (Node.Encodes follow) fields (shape.presentIn fields) pairs ∧
          document = .object (Entries.ofList ((tag, .string name) :: pairs))
  | [] => by simp [encodeVariant]
  | (other, shape) :: rest => by
    rw [encodeVariant, Entries.lookup_cons_ite]
    by_cases hname : name = other
    · subst hname
      simp only [BEq.rfl, ↓reduceIte, Attempt.bind_eq_ok_iff, Attempt.under_eq_ok_iff,
        Attempt.pure_eq_ok_iff, Shape.encode_eq_ok_iff, Option.some.injEq, exists_and_left,
        exists_eq_left']
    · rw [if_neg (by simpa using Ne.symm hname), if_neg hname]
      exact encodeVariant_eq_ok_iff

/-- **Encoding along a node**: `null` where it will do, and anything else along what the node
demands. -/
theorem Node.encode_eq_ok_iff {kind : Kind} {nullable : Bool} {value : Value} {document : Json} :
    (⟨kind, nullable⟩ : Node).encode follow value = some (.ok document) ↔
      (value = .null ∧ nullable = true ∧ document = .null) ∨
        (value.isNull = false ∧ kind.encode follow value = some (.ok document)) := by
  rw [Node.encode]
  cases hnull : value.isNull with
  | true =>
    obtain rfl := Value.isNull_iff.mp hnull
    cases nullable with
    | true => simp
    | false => simp
  | false =>
    have hne : value ≠ .null := by
      rintro rfl
      cases hnull
    simp [hne]

end RpcSchema.Program
