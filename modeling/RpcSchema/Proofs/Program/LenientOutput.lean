import RpcSchema.Proofs.Program.Agreement
import RpcSchema.Proofs.Program.Furnished
import RpcSchema.Proofs.Program.LenientParts
import RpcSchema.Proofs.Schema.WireFormat

set_option autoImplicit false

/-!
# What is read leniently belongs to the schema

Lenient reading mixes what the document says with defaults of every kind and with `null`. In a
furnished program whatever comes out belongs to the schema and can be encoded: each part fits the
node along which it is read, and what fits the parts fits the whole.

## Main results

* `RpcSchema.ScalarKind.holds_default` — a default is of its kind.
* `RpcSchema.Program.accepts_of_readLeniently` — what is read leniently is accepted.
* `RpcSchema.Validator.validate_and_encode_of_parseLenient` — the same for validators.
-/

namespace RpcSchema

/-! ## Scalars -/

namespace ScalarKind

variable {kind : ScalarKind}

/-- **A default is of its kind.** -/
theorem holds_default (kind : ScalarKind) : kind.holds kind.default = true := by
  cases kind <;> decide

/-- What is read freely is of the kind. -/
theorem holds_of_readFreely? {input : Json} {value : Value}
    (h : kind.readFreely? input = some value) : kind.holds value = true := by
  unfold readFreely? at h
  split at h
  · cases h
    exact holds_of_read ‹_›
  · split at h
    · obtain ⟨i, -, rfl⟩ := Option.map_eq_some_iff.mp h
      exact holds_int64 i
    · obtain ⟨u, -, rfl⟩ := Option.map_eq_some_iff.mp h
      exact holds_uint64 u
    · cases h

/-- No kind has `null`. -/
theorem isNull_of_holds {value : Value} (h : kind.holds value = true) : value.isNull = false := by
  cases value <;> first | rfl | cases h

end ScalarKind

namespace Program

/-- A scalar that is read leniently is of its kind, or it is what stands in for it. -/
theorem scalarOr_cases (fallback : Value) (kind : ScalarKind) (input : Option Json) :
    kind.holds (scalarOr fallback kind input) = true ∨ scalarOr fallback kind input = fallback := by
  unfold scalarOr
  cases hread : input.bind kind.readFreely? with
  | none => exact .inr rfl
  | some value =>
    obtain ⟨item, -, hvalue⟩ := Option.bind_eq_some_iff.mp hread
    exact .inl (ScalarKind.holds_of_readFreely? hvalue)

/-- A text that is read leniently is one of the list, or it is what stands in for it. -/
theorem listedOr_cases (fallback : Value) (values : List String) (input : Option Json) :
    (∃ text, values.contains text = true ∧ listedOr fallback values input = .string text) ∨
      listedOr fallback values input = fallback := by
  unfold listedOr
  split
  · split
    · exact .inl ⟨_, ‹_›, rfl⟩
    · exact .inr rfl
  · exact .inr rfl

/-! ## Shapes -/

variable {program : Program} {follow : Nat → Nat → Option Json → Attempt Value} {inside : Nat}

/-- When no key is listed twice, the fields that are read have the properties of the document. -/
theorem presentIn_of_readAs {shape : Shape} {entries : Entries Json}
    {pairs : List (String × Value)} (hdistinct : Entries.Distinct shape.properties)
    (hpairs : List.Forall₂ (ReadAs follow inside entries) (shape.presentIn entries) pairs) :
    shape.presentIn pairs = shape.presentIn entries := by
  refine Shape.presentIn_congr fun property hproperty => ?_
  rw [keys_of_readAs hpairs]
  constructor
  · intro hkey
    obtain ⟨other, hother, hsame⟩ := List.mem_map.mp hkey
    rcases Shape.mem_presentIn.mp hother with hother | ⟨-, hother⟩
    · -- then the key would be listed in both sections
      have hkeys : (Entries.keys shape.required ++ Entries.keys shape.optional).Nodup := by
        simpa [Entries.Distinct, Entries.keys, Shape.properties] using hdistinct
      have hrequired : property.1 ∈ Entries.keys shape.required :=
        hsame ▸ List.mem_map_of_mem hother
      exact absurd (List.mem_map_of_mem hproperty) (List.disjoint_of_nodup_append hkeys hrequired)
    · exact hsame ▸ hother
  · intro hkey
    exact List.mem_map_of_mem (Shape.mem_presentIn.mpr (.inr ⟨hproperty, hkey⟩))

/-- **The fields that are read along a shape are accepted** when what is read along its properties
is. -/
theorem acceptsFields_of_readAs {shape : Shape} {entries : Entries Json}
    {pairs : List (String × Value)} (hdistinct : Entries.Distinct shape.properties)
    (hpairs : List.Forall₂ (ReadAs follow inside entries) (shape.presentIn entries) pairs)
    (h : ∀ property ∈ shape.properties, ∀ input value,
      property.2.readLeniently follow inside input = some (.ok value) →
        program.Accepts property.2 value) :
    program.AcceptsFields shape (Entries.ofList pairs) ∧
      shape.Admits none (Entries.keys (Entries.ofList pairs)) := by
  have hkeys := keys_of_readAs hpairs
  have hpresent : Entries.Distinct (shape.presentIn entries) :=
    hdistinct.sublist ((shape.presentIn_sublist entries).map _)
  have hdistinct' : Entries.Distinct pairs := by
    rw [Entries.Distinct, hkeys]
    exact hpresent
  rw [Entries.ofList_of_distinct hdistinct']
  constructor
  · intro property hproperty
    rw [presentIn_of_readAs hdistinct hpairs] at hproperty
    obtain ⟨pair, hpair, hkey, hread⟩ :=
      Outcome.exists_of_forall₂_right hpairs.flip property hproperty
    refine ⟨pair.2, ?_, h _ (Shape.mem_properties_of_mem_presentIn hproperty) _ _ hread⟩
    rw [← hkey]
    exact Entries.lookup_of_mem hdistinct' hpair
  · intro _ key hkey
    rw [hkeys] at hkey
    obtain ⟨property, hproperty, rfl⟩ := List.mem_map.mp hkey
    exact .inl (Shape.declares_iff.mpr
      (List.mem_map_of_mem (Shape.mem_properties_of_mem_presentIn hproperty)))

/-! ## Nodes -/

/-- What is read along a node is `null`, where that will do, or read along what it demands. -/
theorem Node.readLeniently_cases {kind : Kind} {nullable : Bool} {input : Option Json}
    {value : Value}
    (h : (⟨kind, nullable⟩ : Node).readLeniently follow inside input = some (.ok value)) :
    nullable = true ∧ value = .null ∨
      kind.readLeniently follow inside nullable (given? input) = some (.ok value) := by
  rw [Node.readLeniently] at h
  split at h
  · rename_i hnull
    exact .inl ⟨(Bool.and_eq_true_iff.mp hnull).2, Attempt.pure_eq_ok_iff.mp h⟩
  · exact .inr h

/-- **What is read leniently is accepted**, and it is `null` only where the node allows it.

**Proof sketch.** Induction along the walk. Each form accepts what it reads from parts that are
accepted, and its default. A reference accepts what its model reads, since this is not `null`. -/
theorem accepts_of_readLeniently (hprogram : program.Furnished) {steps : Nat} {node : Node} :
    ∀ {inside : Nat} {input : Option Json} {value : Value}, node.Furnished →
      node.readLeniently (program.readModelLeniently steps) inside input = some (.ok value) →
        program.Accepts node value ∧ (node.nullable = false → value.isNull = false) := by
  have hnull {kind : Kind} {nullable : Bool} {value : Value} (hnullable : nullable = true)
      (hvalue : value = .null) : program.Accepts ⟨kind, nullable⟩ value ∧
        ((⟨kind, nullable⟩ : Node).nullable = false → value.isNull = false) := by
    subst hvalue hnullable
    exact ⟨accepts_null_iff.mpr rfl, nofun⟩
  induction steps, node using walkInduct program with
  | scalar steps kind nullable =>
    intro inside input value _ h
    rcases Node.readLeniently_cases h with ⟨hnullable, hvalue⟩ | hkind
    · exact hnull hnullable hvalue
    · obtain rfl := Attempt.pure_eq_ok_iff.mp hkind
      have hkind {value : Value} (hholds : kind.holds value = true) :
          program.Accepts ⟨.scalar kind, nullable⟩ value ∧
            (nullable = false → value.isNull = false) :=
        have hvalue := ScalarKind.isNull_of_holds hholds
        ⟨(accepts_scalar_iff hvalue).mpr hholds, fun _ => hvalue⟩
      rcases scalarOr_cases (if nullable then .null else kind.default) kind (given? input) with
        hholds | hfallback
      · exact hkind hholds
      · rw [hfallback]
        cases nullable with
        | true => exact hnull rfl rfl
        | false => exact hkind (ScalarKind.holds_default kind)
  | enumeration steps values nullable =>
    intro inside input value hnode h
    rcases Node.readLeniently_cases h with ⟨hnullable, hvalue⟩ | hkind
    · exact hnull hnullable hvalue
    · obtain rfl := Attempt.pure_eq_ok_iff.mp hkind
      rcases listedOr_cases (if nullable then .null else .string (values.head?.getD "")) values
        (given? input) with ⟨text, hmem, htext⟩ | hfallback
      · rw [htext]
        exact ⟨accepts_enumeration_iff.mpr hmem, fun _ => rfl⟩
      · rw [hfallback]
        cases nullable with
        | true => exact hnull rfl rfl
        | false =>
          obtain ⟨first, rest, rfl⟩ := List.exists_cons_of_ne_nil hnode.values_ne_nil
          exact ⟨accepts_enumeration_iff.mpr (by simp), fun _ => rfl⟩
  | object steps shape nullable ih =>
    intro inside input value hnode h
    rcases Node.readLeniently_cases h with ⟨hnullable, hvalue⟩ | hkind
    · exact hnull hnullable hvalue
    · obtain ⟨hnullable, -, hvalue⟩ | ⟨-, pairs, hpairs, rfl⟩ :=
        Kind.readLeniently_object_iff.mp hkind
      · exact hnull hnullable hvalue
      · refine ⟨accepts_object_iff.mpr (acceptsFields_of_readAs hnode.distinct hpairs ?_),
          fun _ => rfl⟩
        exact fun property hproperty _ _ hread =>
          (ih property hproperty (hnode.property hproperty) hread).1
  | array steps element nullable ih =>
    intro inside input value hnode h
    rcases Node.readLeniently_cases h with ⟨hnullable, hvalue⟩ | hkind
    · exact hnull hnullable hvalue
    · obtain ⟨items, values, -, hvalues, rfl⟩ | ⟨-, rfl⟩ := Kind.readLeniently_array_iff.mp hkind
      · refine ⟨accepts_array_iff.mpr fun value hvalue => ?_, fun _ => rfl⟩
        obtain ⟨item, -, hread⟩ := Outcome.exists_of_forall₂_right hvalues value hvalue
        exact (ih hnode.element hread).1
      · cases nullable with
        | true => exact hnull rfl rfl
        | false => exact ⟨accepts_array_iff.mpr (by simp), fun _ => rfl⟩
  | record steps node nullable ih =>
    intro inside input value hnode h
    rcases Node.readLeniently_cases h with ⟨hnullable, hvalue⟩ | hkind
    · exact hnull hnullable hvalue
    · obtain ⟨entries, fields, -, hfields, rfl⟩ | ⟨-, rfl⟩ :=
        Kind.readLeniently_record_iff.mp hkind
      · refine ⟨accepts_record_iff.mpr fun field hfield => ?_, fun _ => rfl⟩
        obtain ⟨entry, -, -, hread⟩ := Outcome.exists_of_forall₂_right hfields field hfield
        exact (ih hnode.value hread).1
      · cases nullable with
        | true => exact hnull rfl rfl
        | false => exact ⟨accepts_record_iff.mpr (by simp), fun _ => rfl⟩
  | union steps tag variants nullable ih =>
    intro inside input value hnode h
    rcases Node.readLeniently_cases h with ⟨hnullable, hvalue⟩ | hkind
    · exact hnull hnullable hvalue
    · obtain ⟨name, shape, pairs, -, hshape, hpairs, rfl⟩ := Kind.readLeniently_union_iff.mp hkind
      have hvariant : (name, shape) ∈ variants := Entries.mem_of_lookup hshape
      have hobject := hnode.variant hvariant
      refine ⟨accepts_variant_iff.mpr ⟨shape, hshape,
        acceptsFields_of_readAs hobject.distinct hpairs ?_⟩, fun _ => rfl⟩
      exact fun property hproperty _ _ hread =>
        (ih (name, shape) hvariant property hproperty (hobject.property hproperty) hread).1
  | stop index nullable =>
    intro inside input value _ h
    rcases Node.readLeniently_cases h with ⟨hnullable, hvalue⟩ | hkind
    · exact hnull hnullable hvalue
    · cases hkind
  | step steps index nullable ih =>
    intro inside input value _ h
    rcases Node.readLeniently_cases h with ⟨hnullable, hvalue⟩ | hkind
    · exact hnull hnullable hvalue
    · rw [Kind.readLeniently] at hkind
      cases hmodel : program.models[index]? with
      | none =>
        rw [readModelLeniently, hmodel] at hkind
        cases hkind
      | some model =>
        have hmem := List.mem_of_getElem? hmodel
        obtain ⟨inside', input', hread⟩ : ∃ inside' input',
            model.readLeniently (program.readModelLeniently steps) inside' input' =
              some (.ok value) := by
          rw [readModelLeniently_succ hmodel] at hkind
          split at hkind
          · exact ⟨_, _, hkind⟩
          · split at hkind
            · exact absurd hkind Attempt.fail_ne_ok
            · exact ⟨_, _, hkind⟩
        obtain ⟨haccepts, hnone⟩ := ih model hmodel (hprogram.models model hmem) hread
        have hvalue := hnone (hprogram.proper model hmem)
        exact ⟨(accepts_ref_iff hmodel hvalue).mpr haccepts, fun _ => hvalue⟩

end Program

namespace Validator

/-- What the root accepts belongs to the schema and can be encoded. -/
theorem validate_and_encode_of_accepts {validator : Validator} {value : Value}
    (h : validator.program.Accepts validator.program.root value) :
    validator.validate value = some true ∧
      ∃ document, validator.encode value = some (.ok document) := by
  obtain ⟨hholds, document, hencodes⟩ := h
  refine ⟨by rw [validate, Program.holds_eq]; exact hholds, document, ?_⟩
  rw [encode, Program.encode_eq]
  exact hencodes

/-- **What is read leniently belongs to the schema and can be encoded**, whatever mix of decoded
parts, defaults and `null` it is, when schema and models were read from documents, no model may be
`null` and no object lists a key twice. -/
theorem validate_and_encode_of_parseLenient {document : Json} {schema : Schema} {models : Models}
    {validator : Validator} {input : Json} {value : Value}
    (hschema : Schema.ofJson document = .ok schema)
    (hmodels : ∀ pair ∈ models, ∃ document, Schema.ofJson document = .ok pair.2)
    (hcompile : compile schema models = .ok validator)
    (hproper : ∀ pair ∈ models, pair.2.nullable = false) (honce : schema.ListsKeysOnce)
    (honces : ∀ pair ∈ models, pair.2.ListsKeysOnce)
    (h : validator.parseLenient input = some (.ok value)) :
    validator.validate value = some true ∧
      ∃ document, validator.encode value = some (.ok document) := by
  have hformed : ∀ pair ∈ models, pair.2.WellFormed := by
    intro pair hpair
    obtain ⟨source, hsource⟩ := hmodels pair hpair
    exact Schema.wellFormed_of_ofJson hsource
  have hprogram := Program.furnished_of_compile (compile_eq_ok_iff.mp hcompile)
    (Schema.wellFormed_of_ofJson hschema) hformed honce honces hproper
  exact validate_and_encode_of_accepts (Program.accepts_of_readLeniently hprogram hprogram.root h).1

/-- The case of a default behind a reference, the first value of an enumeration and `null`, beside
what is decoded. -/
theorem validate_and_encode_of_parseLenient_leaf :
    let document : Json := .object [("properties", .object [
      ("color", .object [("enum", .array [.string "red", .string "green"])]),
      ("leaf", .object [("ref", .string "Leaf")]),
      ("name", .object [("type", .string "string")]),
      ("note", .object [("type", .string "string"), ("nullable", .bool true)])])]
    let source : Json := .object [("properties", .object [
      ("size", .object [("type", .string "int32")])])]
    let leaf := Schema.object.property "size" (Schema.scalar .int32)
    let schema := (((Schema.object.property "color" (Schema.enumeration ["red", "green"])).property
      "leaf" (Schema.reference "Leaf")).property "name" (Schema.scalar .string)).property "note"
      (Schema.scalar .string).orNull
    let validator : Validator := ⟨⟨⟨.object ⟨[("color", ⟨.enumeration ["red", "green"], false⟩),
      ("leaf", ⟨.ref 0, false⟩), ("name", ⟨.scalar .string, false⟩),
      ("note", ⟨.scalar .string, true⟩)], [], true⟩, false⟩,
      [⟨.object ⟨[("size", ⟨.scalar .int32, false⟩)], [], true⟩, false⟩], ["Leaf"]⟩⟩
    let input : Json := .object [("color", .string "blue"), ("name", .string "a")]
    let value : Value := .object [("color", .string "red"), ("leaf", .object [("size", .int 0)]),
      ("name", .string "a"), ("note", .null)]
    Schema.ofJson document = .ok schema ∧ Schema.ofJson source = .ok leaf ∧
      compile schema [("Leaf", leaf)] = .ok validator ∧ leaf.nullable = false ∧
      schema.ListsKeysOnce ∧ leaf.ListsKeysOnce ∧
      validator.parseLenient input = some (.ok value) ∧ validator.validate value = some true ∧
      ∃ document, validator.encode value = some (.ok document) := by
  intro document source leaf schema validator input value
  have hschema : Schema.ofJson document = .ok schema := rfl
  have hleaf : Schema.ofJson source = .ok leaf := rfl
  have hcompile : compile schema [("Leaf", leaf)] = .ok validator := rfl
  have honce : schema.ListsKeysOnce :=
    ⟨by decide, ⟨trivial, trivial, trivial, trivial, trivial⟩, trivial⟩
  have hleafOnce : leaf.ListsKeysOnce := ⟨by decide, ⟨trivial, trivial⟩, trivial⟩
  have hread : validator.parseLenient input = some (.ok value) := rfl
  have hmodels : ∀ {p : String × Schema → Prop}, p ("Leaf", leaf) →
      ∀ pair ∈ [("Leaf", leaf)], p pair := by
    intro p h pair hpair
    rwa [List.mem_singleton.mp hpair]
  exact ⟨hschema, hleaf, hcompile, rfl, honce, hleafOnce, hread,
    validate_and_encode_of_parseLenient hschema (hmodels ⟨source, hleaf⟩) hcompile (hmodels rfl)
      honce (hmodels hleafOnce) hread⟩

end Validator

end RpcSchema
