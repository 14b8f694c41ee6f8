import RpcSchema.Proofs.Program.LenientWalk
import RpcSchema.Proofs.Program.Matching
import RpcSchema.Proofs.Report

set_option autoImplicit false

/-!
# Lenient reading and the parts of a document

Lenient reading along a node with parts gives something when it does along each of the parts, and
fails only where it does along one of them. For each form of a node there is an equivalence for the
former and an implication for the latter. An object is read along the properties that are present in
it: where one that has to be there is missing, lenient reading goes on without a document.

## Main definitions

* `RpcSchema.Program.ReadAs` — a property is read as a pair.

## Main results

* `RpcSchema.Program.Kind.readLeniently_object_iff`, `RpcSchema.Program.Kind.readLeniently_array_iff`,
  `RpcSchema.Program.Kind.readLeniently_record_iff`,
  `RpcSchema.Program.Kind.readLeniently_union_iff` — what is read along the forms with parts.
* `RpcSchema.Program.Kind.exists_of_fails_object`, … — where reading along them fails.
-/

namespace RpcSchema.Program

/-! ## Documents that are given -/

/-- Documents other than `null` are given. -/
theorem given?_some {input : Json} (h : input.isNull = false) :
    given? (some input) = some input := by
  simp [given?, h]

/-- A document is given, or it might as well not be there. -/
theorem given?_cases (input : Option Json) :
    given? input = none ∨ ∃ item, input = some item ∧ item.isNull = false := by
  cases hgiven : given? input with
  | none => exact .inl rfl
  | some item =>
    obtain ⟨hinput, hitem⟩ := Option.filter_eq_some_iff.mp hgiven
    exact .inr ⟨item, hinput, by simpa using hitem⟩

variable {follow : Nat → Nat → Option Json → Attempt Value} {inside : Nat} {nullable : Bool}

/-- `null` and nothing are the same to lenient reading. -/
theorem Node.readLeniently_given? (node : Node) (input : Option Json) :
    node.readLeniently follow inside (given? input) = node.readLeniently follow inside input := by
  have hgiven : given? (given? input) = given? input := by
    rw [given?, given?, Option.filter_filter]
    simp only [Bool.and_self]
  obtain ⟨kind, nullable⟩ := node
  simp only [Node.readLeniently, hgiven]

/-- Where no document is given, a node is read as if there were none. -/
theorem Node.readLeniently_of_given?_eq_none {node : Node} {input : Option Json}
    (h : given? input = none) :
    node.readLeniently follow inside input = node.readLeniently follow inside none := by
  rw [← Node.readLeniently_given?, h]

/-- Documents that are given are read along what a node demands. -/
theorem Node.readLeniently_of_given {kind : Kind} {item : Json} (h : item.isNull = false) :
    (⟨kind, nullable⟩ : Node).readLeniently follow inside (some item) =
      kind.readLeniently follow inside nullable (some item) := by
  simp [Node.readLeniently, given?_some h]

/-! ## Properties -/

/-- **A property is read as a pair** of its key and what is read from the entry of that key, if
there is one. -/
def ReadAs (follow : Nat → Nat → Option Json → Attempt Value) (inside : Nat)
    (entries : Entries Json) (property : String × Node) (pair : String × Value) : Prop :=
  pair.1 = property.1 ∧
    property.2.readLeniently follow inside (entries.lookup property.1) = some (.ok pair.2)

variable {entries : Entries Json}

/-- What properties are read as has their keys. -/
theorem keys_of_readAs {properties : List (String × Node)} {pairs : List (String × Value)}
    (h : List.Forall₂ (ReadAs follow inside entries) properties pairs) :
    Entries.keys pairs = Entries.keys properties :=
  (Outcome.map_eq_map_of_forall₂ (h.imp fun _ _ hpair => hpair.1.symm)).symm

theorem readRequiredLeniently_eq_ok_iff :
    ∀ {properties : List (String × Node)} {pairs : List (String × Value)},
      readRequiredLeniently follow inside entries properties = some (.ok pairs) ↔
        List.Forall₂ (ReadAs follow inside entries) properties pairs
  | [], pairs => by
    rw [readRequiredLeniently, Attempt.pure_eq_ok_iff, List.forall₂_nil_left_iff]
  | (key, node) :: rest, pairs => by
    simp only [readRequiredLeniently, Attempt.bind_eq_ok_iff, Attempt.under_eq_ok_iff,
      Attempt.pure_eq_ok_iff, readRequiredLeniently_eq_ok_iff, List.forall₂_cons_left_iff]
    constructor
    · rintro ⟨value, hvalue, fields, hfields, rfl⟩
      exact ⟨(key, value), fields, ⟨rfl, hvalue⟩, hfields, rfl⟩
    · rintro ⟨⟨_, value⟩, fields, ⟨rfl, hvalue⟩, hfields, rfl⟩
      exact ⟨value, hvalue, fields, hfields, rfl⟩

theorem readOptionalLeniently_eq_ok_iff :
    ∀ {properties : List (String × Node)} {pairs : List (String × Value)},
      readOptionalLeniently follow inside entries properties = some (.ok pairs) ↔
        List.Forall₂ (ReadAs follow inside entries)
          (properties.filter fun property => Entries.contains entries property.1) pairs
  | [], pairs => by
    rw [readOptionalLeniently, Attempt.pure_eq_ok_iff, List.filter_nil, List.forall₂_nil_left_iff]
  | (key, node) :: rest, pairs => by
    cases hitem : entries.lookup key with
    | none =>
      have hcontains : ¬ Entries.contains entries key = true := by
        rw [Entries.contains_eq_true_iff]
        exact Entries.lookup_eq_none_iff.mp hitem
      rw [readOptionalLeniently, List.filter_cons, if_neg hcontains]
      simp only [hitem]
      exact readOptionalLeniently_eq_ok_iff
    | some item =>
      have hcontains : Entries.contains entries key = true :=
        Entries.contains_eq_true_iff.mpr (Entries.mem_keys_of_mem (Entries.mem_of_lookup hitem))
      rw [readOptionalLeniently, List.filter_cons, if_pos hcontains]
      simp only [hitem, Attempt.bind_eq_ok_iff, Attempt.under_eq_ok_iff, Attempt.pure_eq_ok_iff,
        readOptionalLeniently_eq_ok_iff, List.forall₂_cons_left_iff]
      constructor
      · rintro ⟨value, hvalue, fields, hfields, rfl⟩
        exact ⟨(key, value), fields, ⟨rfl, hitem ▸ hvalue⟩, hfields, rfl⟩
      · rintro ⟨⟨_, value⟩, fields, ⟨rfl, hvalue⟩, hfields, rfl⟩
        exact ⟨value, hitem ▸ hvalue, fields, hfields, rfl⟩

/-- **Along a shape** the properties that are present are read. -/
theorem Shape.readLeniently_eq_ok_iff {shape : Shape} {fields : Entries Value} :
    shape.readLeniently follow inside entries = some (.ok fields) ↔
      ∃ pairs, List.Forall₂ (ReadAs follow inside entries) (shape.presentIn entries) pairs ∧
        fields = Entries.ofList pairs := by
  obtain ⟨required, optional, strict⟩ := shape
  simp only [Shape.readLeniently, Attempt.bind_eq_ok_iff, Attempt.pure_eq_ok_iff,
    readRequiredLeniently_eq_ok_iff, readOptionalLeniently_eq_ok_iff, Shape.presentIn]
  constructor
  · rintro ⟨present, hpresent, further, hfurther, rfl⟩
    exact ⟨present ++ further, List.rel_append hpresent hfurther, rfl⟩
  · rintro ⟨pairs, hpairs, rfl⟩
    refine ⟨pairs.take required.length, ?_, pairs.drop required.length, ?_, ?_⟩
    · exact (List.forall₂_take_append pairs required _ hpairs.flip).flip
    · exact (List.forall₂_drop_append pairs required _ hpairs.flip).flip
    · rw [List.take_append_drop]

theorem exists_of_fails_readRequired :
    ∀ {properties : List (String × Node)},
      (readRequiredLeniently follow inside entries properties).Fails →
        ∃ property ∈ properties,
          (property.2.readLeniently follow inside (entries.lookup property.1)).Fails
  | [], h => absurd h Attempt.not_fails_pure
  | (key, node) :: rest, h => by
    rw [readRequiredLeniently] at h
    rcases Attempt.fails_bind_iff.mp h with h | ⟨value, -, h⟩
    · exact ⟨(key, node), List.mem_cons_self, Attempt.fails_under_iff.mp h⟩
    · rcases Attempt.fails_bind_iff.mp h with h | ⟨fields, -, h⟩
      · obtain ⟨property, hproperty, h⟩ := exists_of_fails_readRequired h
        exact ⟨property, List.mem_cons_of_mem _ hproperty, h⟩
      · exact absurd h Attempt.not_fails_pure

theorem exists_of_fails_readOptional :
    ∀ {properties : List (String × Node)},
      (readOptionalLeniently follow inside entries properties).Fails →
        ∃ property ∈ properties, property.1 ∈ Entries.keys entries ∧
          (property.2.readLeniently follow inside (entries.lookup property.1)).Fails
  | [], h => absurd h Attempt.not_fails_pure
  | (key, node) :: rest, h => by
    rw [readOptionalLeniently] at h
    have hrest (h : (readOptionalLeniently follow inside entries rest).Fails) :
        ∃ property ∈ (key, node) :: rest, property.1 ∈ Entries.keys entries ∧
          (property.2.readLeniently follow inside (entries.lookup property.1)).Fails := by
      obtain ⟨property, hproperty, h⟩ := exists_of_fails_readOptional h
      exact ⟨property, List.mem_cons_of_mem _ hproperty, h⟩
    cases hitem : entries.lookup key with
    | none =>
      simp only [hitem] at h
      exact hrest h
    | some item =>
      simp only [hitem] at h
      rcases Attempt.fails_bind_iff.mp h with h | ⟨value, -, h⟩
      · refine ⟨(key, node), List.mem_cons_self, ?_, ?_⟩
        · exact Entries.mem_keys_of_mem (Entries.mem_of_lookup hitem)
        · rw [hitem]
          exact Attempt.fails_under_iff.mp h
      · rcases Attempt.fails_bind_iff.mp h with h | ⟨fields, -, h⟩
        · exact hrest h
        · exact absurd h Attempt.not_fails_pure

/-- **Reading along a shape fails** only where it does along a property that is present. -/
theorem Shape.exists_of_fails {shape : Shape}
    (h : (shape.readLeniently follow inside entries).Fails) :
    ∃ property ∈ shape.presentIn entries,
      (property.2.readLeniently follow inside (entries.lookup property.1)).Fails := by
  obtain ⟨required, optional, strict⟩ := shape
  rw [Shape.readLeniently] at h
  rcases Attempt.fails_bind_iff.mp h with h | ⟨present, -, h⟩
  · obtain ⟨property, hproperty, h⟩ := exists_of_fails_readRequired h
    exact ⟨property, Shape.mem_presentIn.mpr (.inl hproperty), h⟩
  · rcases Attempt.fails_bind_iff.mp h with h | ⟨further, -, h⟩
    · obtain ⟨property, hproperty, hkey, h⟩ := exists_of_fails_readOptional h
      exact ⟨property, Shape.mem_presentIn.mpr (.inr ⟨hproperty, hkey⟩), h⟩
    · exact absurd h Attempt.not_fails_pure

/-! ## Variants -/

theorem readVariantLeniently_eq_ok_iff {tag name : String} {value : Value} :
    ∀ {variants : List (String × Shape)},
      readVariantLeniently follow inside tag name variants entries = some (.ok value) ↔
        ∃ shape fields, variants.lookup name = some shape ∧
          shape.readLeniently follow inside entries = some (.ok fields) ∧
          value = .variant name fields
  | [] => by simp [readVariantLeniently]
  | (other, shape) :: rest => by
    rw [readVariantLeniently, Entries.lookup_cons_ite]
    by_cases hname : name = other
    · subst hname
      simp only [BEq.rfl, ↓reduceIte, Attempt.bind_eq_ok_iff, Attempt.under_eq_ok_iff,
        Attempt.pure_eq_ok_iff, Option.some.injEq, exists_and_left, exists_eq_left']
    · rw [if_neg hname, if_neg (by simpa using Ne.symm hname)]
      exact readVariantLeniently_eq_ok_iff

theorem exists_of_fails_readVariant {tag name : String} :
    ∀ {variants : List (String × Shape)},
      (readVariantLeniently follow inside tag name variants entries).Fails →
        ∀ {shape : Shape}, variants.lookup name = some shape →
          (shape.readLeniently follow inside entries).Fails
  | [], _, shape, hshape => by cases hshape
  | (other, shape') :: rest, h, shape, hshape => by
    rw [readVariantLeniently] at h
    rw [Entries.lookup_cons_ite] at hshape
    by_cases hname : name = other
    · subst hname
      rw [if_pos rfl, Option.some.injEq] at hshape
      subst hshape
      simp only [BEq.rfl, ↓reduceIte] at h
      rcases Attempt.fails_bind_iff.mp h with h | ⟨fields, -, h⟩
      · exact Attempt.fails_under_iff.mp h
      · exact absurd h Attempt.not_fails_pure
    · rw [if_neg hname] at hshape
      rw [if_neg (by simpa using Ne.symm hname)] at h
      exact exists_of_fails_readVariant h hshape

/-! ## Forms with parts -/

namespace Kind

variable {input : Option Json} {value : Value}

/-- **An object** is read along the properties that are present, unless `null` will do. -/
theorem readLeniently_object_iff {shape : Shape} :
    (Kind.object shape).readLeniently follow inside nullable input = some (.ok value) ↔
      nullable = true ∧ isObjectGiven input = false ∧ value = .null ∨
        (nullable = true → isObjectGiven input = true) ∧
          ∃ pairs, List.Forall₂ (ReadAs follow inside (entriesOf input))
            (shape.presentIn (entriesOf input)) pairs ∧
            value = .object (Entries.ofList pairs) := by
  rw [Kind.readLeniently]
  have hfields : (shape.readLeniently follow inside (entriesOf input) >>= fun fields =>
      pure (.object fields) : Attempt Value) = some (.ok value) ↔
        ∃ pairs, List.Forall₂ (ReadAs follow inside (entriesOf input))
          (shape.presentIn (entriesOf input)) pairs ∧ value = .object (Entries.ofList pairs) := by
    simp only [Attempt.bind_eq_ok_iff, Attempt.pure_eq_ok_iff, Shape.readLeniently_eq_ok_iff]
    constructor
    · rintro ⟨_, ⟨pairs, hpairs, rfl⟩, rfl⟩
      exact ⟨pairs, hpairs, rfl⟩
    · rintro ⟨pairs, hpairs, rfl⟩
      exact ⟨_, ⟨pairs, hpairs, rfl⟩, rfl⟩
  by_cases hnull : (nullable && !isObjectGiven input) = true
  · have hcases : nullable = true ∧ isObjectGiven input = false := by simpa using hnull
    rw [if_pos hnull, Attempt.pure_eq_ok_iff]
    simp [hcases.1, hcases.2]
  · have hcases : nullable = true → isObjectGiven input = true := by simpa using hnull
    rw [if_neg hnull, hfields]
    constructor
    · exact fun h => .inr ⟨hcases, h⟩
    · rintro (⟨hnullable, hinput, -⟩ | ⟨-, h⟩)
      · rw [hcases hnullable] at hinput
        cases hinput
      · exact h

/-- **A list** is read when each of its members is. -/
theorem readLeniently_array_iff {element : Node} :
    (Kind.array element).readLeniently follow inside nullable input = some (.ok value) ↔
      (∃ items values, input = some (.array items) ∧ List.Forall₂ (fun item value =>
        element.readLeniently follow inside (some item) = some (.ok value)) items values ∧
        value = .array values) ∨
      (∀ items, input ≠ some (.array items)) ∧
        value = if nullable then .null else .array [] := by
  unfold Kind.readLeniently
  split
  · rename_i items
    simp only [Attempt.bind_eq_ok_iff, Attempt.pure_eq_ok_iff, Attempt.mapM_eq_ok_iff,
      Attempt.under_eq_ok_iff]
    constructor
    · rintro ⟨values, hvalues, rfl⟩
      exact .inl ⟨items, values, rfl, forall₂_zipIdx_iff.mp hvalues, rfl⟩
    · rintro (⟨_, values, ⟨⟩, hvalues, rfl⟩ | ⟨hnone, -⟩)
      · exact ⟨values, forall₂_zipIdx_iff.mpr hvalues, rfl⟩
      · exact absurd rfl (hnone items)
  · rename_i hnone
    rw [Attempt.pure_eq_ok_iff]
    constructor
    · exact fun h => .inr ⟨hnone, h⟩
    · rintro (⟨items, -, rfl, -⟩ | ⟨-, h⟩)
      · exact absurd rfl (hnone items)
      · exact h

/-- **A map** is read when each of its members is. -/
theorem readLeniently_record_iff {node : Node} :
    (Kind.record node).readLeniently follow inside nullable input = some (.ok value) ↔
      (∃ entries fields, input = some (.object entries) ∧ List.Forall₂ (fun entry field =>
        field.1 = entry.1 ∧
          node.readLeniently follow inside (some entry.2) = some (.ok field.2)) entries fields ∧
        value = .object fields) ∨
      (∀ entries, input ≠ some (.object entries)) ∧
        value = if nullable then .null else .object [] := by
  unfold Kind.readLeniently
  split
  · rename_i entries
    have hpair (entry : String × Json) (field : String × Value) :
        (∃ value, node.readLeniently follow inside (some entry.2) = some (.ok value) ∧
            field = (entry.1, value)) ↔
          field.1 = entry.1 ∧
            node.readLeniently follow inside (some entry.2) = some (.ok field.2) := by
      constructor
      · rintro ⟨value, hvalue, rfl⟩
        exact ⟨rfl, hvalue⟩
      · rintro ⟨hkey, hvalue⟩
        exact ⟨field.2, hvalue, by rw [← hkey]⟩
    simp only [Attempt.bind_eq_ok_iff, Attempt.pure_eq_ok_iff, Attempt.mapM_eq_ok_iff,
      Attempt.under_eq_ok_iff, hpair]
    constructor
    · rintro ⟨fields, hfields, rfl⟩
      exact .inl ⟨entries, fields, rfl, hfields, rfl⟩
    · rintro (⟨_, fields, ⟨⟩, hfields, rfl⟩ | ⟨hnone, -⟩)
      · exact ⟨fields, hfields, rfl⟩
      · exact absurd rfl (hnone entries)
  · rename_i hnone
    rw [Attempt.pure_eq_ok_iff]
    constructor
    · exact fun h => .inr ⟨hnone, h⟩
    · rintro (⟨entries, -, rfl, -⟩ | ⟨-, h⟩)
      · exact absurd rfl (hnone entries)
      · exact h

/-- **A union** is read along the variant that the text under the tag names. -/
theorem readLeniently_union_iff {tag : String} {variants : List (String × Shape)} :
    (Kind.union tag variants).readLeniently follow inside nullable input = some (.ok value) ↔
      ∃ name shape pairs, (entriesOf input).lookup tag = some (.string name) ∧
        variants.lookup name = some shape ∧
        List.Forall₂ (ReadAs follow inside (entriesOf input)) (shape.presentIn (entriesOf input))
          pairs ∧ value = .variant name (Entries.ofList pairs) := by
  unfold Kind.readLeniently
  split
  · rename_i name htag
    simp only [readVariantLeniently_eq_ok_iff, Shape.readLeniently_eq_ok_iff]
    constructor
    · rintro ⟨shape, _, hshape, ⟨pairs, hpairs, rfl⟩, rfl⟩
      exact ⟨name, shape, pairs, htag, hshape, hpairs, rfl⟩
    · rintro ⟨name', shape, pairs, htag', hshape, hpairs, rfl⟩
      obtain rfl : name = name' := by simpa using htag.symm.trans htag'
      exact ⟨shape, _, hshape, ⟨pairs, hpairs, rfl⟩, rfl⟩
  · rename_i hnone
    constructor
    · exact fun h => absurd h Attempt.fail_ne_ok
    · rintro ⟨name, -, -, htag, -⟩
      exact absurd htag (hnone name)

/-- **Reading an object fails** only along a property that is present. -/
theorem exists_of_fails_object {shape : Shape}
    (h : ((Kind.object shape).readLeniently follow inside nullable input).Fails) :
    ∃ property ∈ shape.presentIn (entriesOf input),
      (property.2.readLeniently follow inside ((entriesOf input).lookup property.1)).Fails := by
  rw [Kind.readLeniently] at h
  split at h
  · exact absurd h Attempt.not_fails_pure
  · rcases Attempt.fails_bind_iff.mp h with h | ⟨fields, -, h⟩
    · exact Shape.exists_of_fails h
    · exact absurd h Attempt.not_fails_pure

/-- **Reading a list fails** only at a member. -/
theorem exists_of_fails_array {element : Node}
    (h : ((Kind.array element).readLeniently follow inside nullable input).Fails) :
    ∃ items, input = some (.array items) ∧ ∃ item ∈ items,
      (element.readLeniently follow inside (some item)).Fails := by
  unfold Kind.readLeniently at h
  split at h
  · rename_i items
    rcases Attempt.fails_bind_iff.mp h with h | ⟨values, -, h⟩
    · obtain ⟨⟨item, i⟩, hitem, h⟩ := Attempt.exists_of_fails_mapM h
      exact ⟨items, rfl, item, List.fst_mem_of_mem_zipIdx hitem, Attempt.fails_under_iff.mp h⟩
    · exact absurd h Attempt.not_fails_pure
  · exact absurd h Attempt.not_fails_pure

/-- **Reading a map fails** only at a member. -/
theorem exists_of_fails_record {node : Node}
    (h : ((Kind.record node).readLeniently follow inside nullable input).Fails) :
    ∃ entries, input = some (.object entries) ∧ ∃ entry ∈ entries,
      (node.readLeniently follow inside (some entry.2)).Fails := by
  unfold Kind.readLeniently at h
  split at h
  · rename_i entries
    rcases Attempt.fails_bind_iff.mp h with h | ⟨fields, -, h⟩
    · obtain ⟨entry, hentry, h⟩ := Attempt.exists_of_fails_mapM h
      rcases Attempt.fails_bind_iff.mp h with h | ⟨value, -, h⟩
      · exact ⟨entries, rfl, entry, hentry, Attempt.fails_under_iff.mp h⟩
      · exact absurd h Attempt.not_fails_pure
    · exact absurd h Attempt.not_fails_pure
  · exact absurd h Attempt.not_fails_pure

/-- **Reading a union fails** along a property of the variant, when the text under the tag names
one. -/
theorem exists_of_fails_union {tag name : String} {variants : List (String × Shape)} {shape : Shape}
    (h : ((Kind.union tag variants).readLeniently follow inside nullable input).Fails)
    (htag : (entriesOf input).lookup tag = some (.string name))
    (hshape : variants.lookup name = some shape) :
    ∃ property ∈ shape.presentIn (entriesOf input),
      (property.2.readLeniently follow inside ((entriesOf input).lookup property.1)).Fails := by
  simp only [Kind.readLeniently, htag] at h
  exact Shape.exists_of_fails (exists_of_fails_readVariant h hshape)

end Kind

end RpcSchema.Program
