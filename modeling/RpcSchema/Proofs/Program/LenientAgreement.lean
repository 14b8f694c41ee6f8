import RpcSchema.Proofs.Program.Agreement
import RpcSchema.Proofs.Program.Swapping

set_option autoImplicit false

/-!
# Lenient reading agrees with decoding

What is decoded is read leniently as the same value, with its fields in the same order, and nothing
is put in the place of what the document says: the value stays the same however defaults are
swapped. The one thing that decoding and lenient reading look at in different ways is `null` at a
reference. Lenient reading takes it for a missing document and counts the models that it goes on to.
Decoding gives a value only if it comes to a model that allows `null`, and does so within as many
models as there are; thus lenient reading comes there within its bound.

## Main results

* `RpcSchema.Program.reads_of_decodes_null` — `null` is read within the bound where it is decoded.
* `RpcSchema.Program.reads_of_decodes` — what is decoded is read leniently.
* `RpcSchema.Validator.parseLenient_of_decode` — the same for validators.
-/

namespace RpcSchema

/-! ## Scalars -/

/-- What is decoded strictly is spelled as the kind spells it. -/
theorem Program.read_of_decodeScalar {kind : ScalarKind} {input : Json} {value : Value}
    (h : Program.decodeScalar .strict kind input = .ok value) : kind.read input = .ok value := by
  unfold Program.decodeScalar at h
  split at h
  · rename_i hread
    rw [Report.ok_inj] at h
    rw [hread, h]
  · exact absurd h Report.fail_ne_ok
  · rw [if_neg (fun hconverting => nomatch hconverting.1)] at h
    split at h <;> exact absurd h Report.fail_ne_ok

/-- What is spelled as the kind spells it is also read freely. -/
theorem ScalarKind.readFreely?_of_read {kind : ScalarKind} {input : Json} {value : Value}
    (h : kind.read input = .ok value) : kind.readFreely? input = some value := by
  simp only [readFreely?, h]

namespace Program

/-! ## Reading the forms with parts -/

section

variable {swap : Attempt Value → Attempt Value} {follow : Nat → Nat → Option Json → Attempt Value}
  {inside : Nat}

/-- **A node reads a document leniently as a value.** -/
abbrev Node.Reads (swap : Attempt Value → Attempt Value)
    (follow : Nat → Nat → Option Json → Attempt Value) (inside : Nat) (node : Node) (input : Json)
    (value : Value) : Prop :=
  node.readSwapping swap follow inside (some input) = some (.ok value)

/-- Documents other than `null` are read along what a node demands. -/
theorem Node.reads_iff {kind : Kind} {nullable : Bool} {input : Json} {value : Value}
    (h : input.isNull = false) :
    Node.Reads swap follow inside ⟨kind, nullable⟩ input value ↔
      kind.readSwapping swap follow inside nullable (some input) = some (.ok value) := by
  cases input with
  | null => cases h
  | _ => cases nullable <;> exact Iff.rfl

theorem readRequiredSwapping_of_matched {entries : Entries Json} :
    ∀ {properties : List (String × Node)} {pairs : List (String × Value)},
      Matched (Node.Reads swap follow inside) entries properties pairs →
      readRequiredSwapping swap follow inside entries properties = some (.ok pairs)
  | [], pairs, h => by
    rw [Matched.nil_left_iff] at h
    rw [h]
    rfl
  | (key, node) :: rest, pairs, h => by
    obtain ⟨item, value, others, hitem, hvalue, hothers, rfl⟩ := Matched.cons_left_iff.mp h
    simp only [readRequiredSwapping, hitem, Attempt.bind_eq_ok_iff, Attempt.under_eq_ok_iff,
      Attempt.pure_eq_ok_iff]
    exact ⟨value, hvalue, others, readRequiredSwapping_of_matched hothers, rfl⟩

theorem readOptionalSwapping_of_matched {entries : Entries Json} :
    ∀ {properties : List (String × Node)} {pairs : List (String × Value)},
      Matched (Node.Reads swap follow inside) entries
        (properties.filter fun property => Entries.contains entries property.1) pairs →
      readOptionalSwapping swap follow inside entries properties = some (.ok pairs)
  | [], pairs, h => by
    rw [List.filter_nil, Matched.nil_left_iff] at h
    rw [h]
    rfl
  | (key, node) :: rest, pairs, h => by
    rw [List.filter_cons] at h
    split at h
    · obtain ⟨item, value, others, hitem, hvalue, hothers, rfl⟩ := Matched.cons_left_iff.mp h
      simp only [readOptionalSwapping, hitem, Attempt.bind_eq_ok_iff, Attempt.under_eq_ok_iff,
        Attempt.pure_eq_ok_iff]
      exact ⟨value, hvalue, others, readOptionalSwapping_of_matched hothers, rfl⟩
    · rename_i hcontains
      have hnone : entries.lookup key = none := by
        rw [Entries.lookup_eq_none_iff, ← Entries.contains_eq_true_iff]
        exact hcontains
      simp only [readOptionalSwapping, hnone]
      exact readOptionalSwapping_of_matched h

/-- **Reading along a shape** gives the map made from what is read along the properties that are
present, when those that have to be there are. -/
theorem Shape.readSwapping_of_matched {shape : Shape} {entries : Entries Json}
    {pairs : List (String × Value)}
    (h : Matched (Node.Reads swap follow inside) entries (shape.presentIn entries) pairs) :
    shape.readSwapping swap follow inside entries = some (.ok (Entries.ofList pairs)) := by
  obtain ⟨required, optional, strict⟩ := shape
  obtain ⟨pairs₁, pairs₂, h₁, h₂, rfl⟩ := Matched.append_left_iff.mp h
  simp only [Shape.readSwapping, Attempt.bind_eq_ok_iff, Attempt.pure_eq_ok_iff]
  exact ⟨pairs₁, readRequiredSwapping_of_matched h₁, pairs₂,
    readOptionalSwapping_of_matched h₂, rfl⟩

theorem readVariantSwapping_of_lookup {tag name : String} {shape : Shape} {entries : Entries Json}
    {fields : Entries Value} (hfields : shape.readSwapping swap follow inside entries =
      some (.ok fields)) : ∀ {variants : List (String × Shape)}, variants.lookup name = some shape →
      readVariantSwapping swap follow inside tag name variants entries =
        some (.ok (.variant name fields))
  | [], h => by cases h
  | (other, shape') :: rest, h => by
    rw [Entries.lookup_cons_ite] at h
    rw [readVariantSwapping]
    by_cases hname : name = other
    · rw [if_pos hname, Option.some.injEq] at h
      subst h hname
      simp only [BEq.rfl, ↓reduceIte, Attempt.bind_eq_ok_iff, Attempt.under_eq_ok_iff,
        Attempt.pure_eq_ok_iff]
      exact ⟨fields, hfields, rfl⟩
    · rw [if_neg hname] at h
      rw [if_neg (by simpa using Ne.symm hname)]
      exact readVariantSwapping_of_lookup hfields h

end

/-! ## `null` behind references -/

variable {program : Program}

/-- Only at a reference `null` may be decoded along what a node demands. -/
theorem Kind.exists_ref_of_decode_null {reading : Reading}
    {follow : Nat → Json → Walk (Report Value)} {kind : Kind} {value : Value}
    (h : kind.decode reading follow .null = some (.ok value)) :
    ∃ index, kind = .ref index ∧ follow index .null = some (.ok value) := by
  cases kind with
  | ref index => exact ⟨index, rfl, h⟩
  | scalar kind =>
    obtain ⟨-, hnull⟩ := decodeScalar_eq_ok (Option.some.inj h)
    cases hnull
  | object shape =>
    obtain ⟨required, optional, strict⟩ := shape
    cases h
  | _ => cases h

/-- **`null` is decoded along a node** that allows it, or refers to a model along which it is
decoded with one step less. -/
theorem decodes_null_cases {reading : Reading} {steps : Nat} {kind : Kind} {nullable : Bool}
    {value : Value}
    (h : Node.Decodes reading (program.decodeModel reading steps) ⟨kind, nullable⟩ .null value) :
    nullable = true ∨ nullable = false ∧ ∃ index model fewer, kind = .ref index ∧
      steps = fewer + 1 ∧ program.models[index]? = some model ∧
      model.Decodes reading (program.decodeModel reading fewer) .null value := by
  rcases Node.decode_eq_ok_iff.mp h with ⟨-, hnullable, -⟩ | ⟨hneither, hkind⟩
  · exact .inl hnullable
  · obtain ⟨index, rfl, hfollow⟩ := Kind.exists_ref_of_decode_null hkind
    refine .inr ⟨by simpa using hneither, index, ?_⟩
    cases steps with
    | zero => cases hfollow
    | succ fewer =>
      rw [decodeModel] at hfollow
      split at hfollow
      · exact ⟨_, fewer, rfl, rfl, ‹_›, hfollow⟩
      · cases hfollow

variable {swap : Attempt Value → Attempt Value}

/-- **Where `null` is decoded it is read leniently**, if the models that decoding takes for it may
still be counted.

**Proof sketch.** Induction on the steps. A node that allows `null` reads it; one that refers to a
model hands it on, with one model more in the count and one step less to go. -/
theorem reads_of_decodes_null {steps : Nat} : ∀ {node : Node} {value : Value},
    node.Decodes .strict (program.decodeModel .strict steps) .null value →
    ∀ {steps' inside : Nat}, steps ≤ steps' → inside + steps ≤ program.models.length →
      node.Reads swap (program.readModelSwapping swap steps') inside .null .null := by
  induction steps with
  | zero =>
    rintro ⟨kind, nullable⟩ value h steps' inside _ _
    rcases decodes_null_cases h with rfl | ⟨-, index, model, fewer, -, hfewer, -⟩
    · rfl
    · omega
  | succ steps ih =>
    rintro ⟨kind, nullable⟩ value h steps' inside hsteps hinside
    rcases decodes_null_cases h with rfl | ⟨rfl, index, model, fewer, rfl, hfewer, hmodel, hdecodes⟩
    · rfl
    · obtain rfl : steps = fewer := by omega
      obtain ⟨steps', rfl⟩ : ∃ fewer', steps' = fewer' + 1 := ⟨steps' - 1, by omega⟩
      change program.readModelSwapping swap (steps' + 1) index inside (some .null) = _
      rw [readModelSwapping, hmodel]
      simp only [given?, Json.isNull, Option.filter, Bool.not_true, Bool.false_eq_true, ↓reduceIte,
        Option.isSome_none]
      rw [if_neg (by omega)]
      exact ih hdecodes (by omega) (by omega)

/-- Whether `null` is decoded shows within as many steps as there are models. -/
theorem decodes_null_of_length {reading : Reading} {steps : Nat} {node : Node} {value : Value}
    (h : node.Decodes reading (program.decodeModel reading steps) .null value) :
    node.Decodes reading (program.decodeModel reading program.models.length) .null value := by
  have hbudget : program.budget Json.null.depth ≤ program.models.length := by
    simp [budget, Json.depth]
  rw [Node.Decodes, (program.isWalk_decode reading).walk_settled node hbudget]
  exact h.settled

/-! ## Other documents -/

/-- **What is decoded is read leniently**, with steps for the models behind `null` to spare.

**Proof sketch.** Induction along the decoding walk. `null` is read by `reads_of_decodes_null`. Any
other document is not looked at by the bound, and each of its parts that is decoded is given, so
that lenient reading goes down to it as decoding does. -/
theorem reads_of_decodes {steps : Nat} {node : Node} : ∀ {input : Json} {value : Value},
    node.Decodes .strict (program.decodeModel .strict steps) input value →
    ∀ {steps' : Nat}, steps + program.models.length ≤ steps' →
      node.Reads swap (program.readModelSwapping swap steps') 0 input value := by
  have hfollow := followsProperly_decodeModel program .strict
  have hnull {steps : Nat} {node : Node} {input : Json} {value : Value}
      (h : node.Decodes .strict (program.decodeModel .strict steps) input value)
      (hinput : input.isNull = true) {steps' : Nat}
      (hsteps : steps + program.models.length ≤ steps') :
      node.Reads swap (program.readModelSwapping swap steps') 0 input value := by
    have hvalue := (isNull_of_decodes h).trans hinput
    obtain rfl := Json.isNull_iff.mp hinput
    obtain rfl := Value.isNull_iff.mp hvalue
    exact reads_of_decodes_null (decodes_null_of_length h) (by omega) (by omega)
  have hkind {steps : Nat} {kind : Kind} {nullable : Bool} {input : Json} {value : Value}
      (h : Node.Decodes .strict (program.decodeModel .strict steps) ⟨kind, nullable⟩ input value)
      {steps' : Nat} (hsteps : steps + program.models.length ≤ steps')
      (hrest : input.isNull = false →
        kind.decode .strict (program.decodeModel .strict steps) input = some (.ok value) →
        kind.readSwapping swap (program.readModelSwapping swap steps') 0 nullable (some input) =
          some (.ok value)) :
      Node.Reads swap (program.readModelSwapping swap steps') 0 ⟨kind, nullable⟩ input value := by
    cases hinput : input.isNull with
    | true => exact hnull h hinput hsteps
    | false =>
      rw [Node.reads_iff hinput]
      rcases Node.decode_eq_ok_iff.mp h with ⟨rfl, -, -⟩ | ⟨-, hdecode⟩
      · cases hinput
      · exact hrest hinput hdecode
  induction steps, node using walkInduct program with
  | scalar steps kind nullable =>
    intro input value h steps' hsteps
    refine hkind h hsteps fun hinput hdecode => ?_
    have hread := ScalarKind.readFreely?_of_read (read_of_decodeScalar (Option.some.inj hdecode))
    simp only [Kind.readSwapping, given?_some hinput, Option.bind_some, hread]
    rfl
  | enumeration steps values nullable =>
    intro input value h steps' hsteps
    refine hkind h hsteps fun hinput hdecode => ?_
    obtain ⟨text, rfl, hmem, rfl⟩ := decodeListed_eq_ok_iff.mp (Option.some.inj hdecode)
    simp only [Kind.readSwapping, given?_some hinput, hmem, ↓reduceIte]
    rfl
  | object steps shape nullable ih =>
    intro input value h steps' hsteps
    refine hkind h hsteps fun hinput hdecode => ?_
    obtain ⟨fields, hfields, rfl⟩ := Kind.decode_object_iff.mp hdecode
    obtain ⟨entries, pairs, rfl, -, hpairs, rfl⟩ :=
      (Shape.decode_eq_ok_iff (hfollow steps)).mp hfields
    have hreads := hpairs.imp fun property hproperty item value h =>
      ih property (Shape.mem_properties_of_mem_presentIn hproperty) h hsteps
    simp only [Kind.readSwapping, given?_some hinput, isObjectGiven, entriesOf, ↓reduceIte,
      Attempt.bind_eq_ok_iff, Attempt.pure_eq_ok_iff]
    exact ⟨_, Shape.readSwapping_of_matched hreads, rfl⟩
  | array steps element nullable ih =>
    intro input value h steps' hsteps
    refine hkind h hsteps fun hinput hdecode => ?_
    obtain ⟨items, values, rfl, hvalues, rfl⟩ := (Kind.decode_array_iff (hfollow steps)).mp hdecode
    simp only [Kind.readSwapping, given?_some hinput, Attempt.bind_eq_ok_iff,
      Attempt.pure_eq_ok_iff, Attempt.mapM_eq_ok_iff, Attempt.under_eq_ok_iff]
    refine ⟨values, ?_, rfl⟩
    exact forall₂_zipIdx_iff.mpr (hvalues.imp fun item value h => ih h hsteps)
  | record steps node nullable ih =>
    intro input value h steps' hsteps
    refine hkind h hsteps fun hinput hdecode => ?_
    obtain ⟨entries, fields, rfl, hfields, rfl⟩ :=
      (Kind.decode_record_iff (hfollow steps)).mp hdecode
    simp only [Kind.readSwapping, given?_some hinput, Attempt.bind_eq_ok_iff,
      Attempt.pure_eq_ok_iff, Attempt.mapM_eq_ok_iff, Attempt.under_eq_ok_iff]
    refine ⟨fields, hfields.imp ?_, rfl⟩
    rintro ⟨key, item⟩ ⟨_, value⟩ ⟨rfl, h⟩
    exact ⟨value, ih h hsteps, rfl⟩
  | union steps tag variants nullable ih =>
    intro input value h steps' hsteps
    refine hkind h hsteps fun hinput hdecode => ?_
    obtain ⟨entries, name, shape, fields, rfl, htag, hshape, hfields, rfl⟩ :=
      Kind.decode_union_iff.mp hdecode
    obtain ⟨_, pairs, hentries, -, hpairs, rfl⟩ :=
      (Shape.decode_eq_ok_iff (hfollow steps)).mp hfields
    cases hentries
    have hreads := hpairs.imp fun property hproperty item value h =>
      ih (name, shape) (Entries.mem_of_lookup hshape) property
        (Shape.mem_properties_of_mem_presentIn hproperty) h hsteps
    simp only [Kind.readSwapping, given?_some hinput, entriesOf, htag]
    exact readVariantSwapping_of_lookup (Shape.readSwapping_of_matched hreads) hshape
  | stop index nullable =>
    intro input value h steps' hsteps
    refine hkind h hsteps fun hinput hdecode => ?_
    cases hdecode
  | step steps index nullable ih =>
    intro input value h steps' hsteps
    refine hkind h hsteps fun hinput hdecode => ?_
    rw [Kind.decode, decodeModel] at hdecode
    split at hdecode
    · rename_i model hmodel
      obtain ⟨fewer, rfl⟩ : ∃ fewer, steps' = fewer + 1 := ⟨steps' - 1, by omega⟩
      rw [Kind.readSwapping, readModelSwapping, hmodel]
      simp only [given?_some hinput, Option.isSome_some, ↓reduceIte]
      exact ih model hmodel hdecode (by omega)
    · cases hdecode

/-- **A program reads leniently what it decodes**, however defaults are swapped. -/
theorem readSwapping_of_decode {input : Json} {value : Value}
    (h : program.decode .strict input = some (.ok value)) (swap : Attempt Value → Attempt Value) :
    program.readSwapping swap input = some (.ok value) :=
  reads_of_decodes h (by omega)

end Program

namespace Validator

/-- **What is decoded is read leniently as the same value**, with the same fields in the same order.
Nothing is put in the place of what the document says, and the bound on defaults is not met: the
value is the same whatever is taken instead of the defaults and of the error at the bound. -/
theorem parseLenient_of_decode {validator : Validator} {input : Json} {value : Value}
    (h : validator.decode input = some (.ok value)) :
    validator.parseLenient input = some (.ok value) ∧
      ∀ swap : Attempt Value → Attempt Value,
        (validator.program.readSwapping swap input).run = some (.ok value) := by
  have hdecodes : validator.reads .strict input = some (.ok value) := h
  have hreads := Program.readSwapping_of_decode (decodes_of_reads hdecodes)
  refine ⟨?_, hreads⟩
  rw [parseLenient, ← Program.readSwapping_id]
  exact hreads id

/-- The case of `null` behind two references, in an object. -/
theorem parseLenient_of_decode_null_behind_references :
    let validator : Validator :=
      ⟨⟨⟨.object ⟨[("a", ⟨.ref 0, false⟩)], [], true⟩, false⟩,
        [⟨.ref 1, false⟩, ⟨.scalar .string, true⟩], ["A", "B"]⟩⟩
    let input : Json := .object [("a", .null)]
    let value : Value := .object [("a", .null)]
    validator.decode input = some (.ok value) ∧ validator.parseLenient input = some (.ok value) ∧
      ∀ swap : Attempt Value → Attempt Value,
        (validator.program.readSwapping swap input).run = some (.ok value) :=
  ⟨rfl, parseLenient_of_decode rfl⟩

end Validator

end RpcSchema
