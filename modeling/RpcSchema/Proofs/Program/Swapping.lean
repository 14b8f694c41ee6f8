import RpcSchema.Proofs.Program.LenientParts

set_option autoImplicit false

/-!
# Lenient reading with other defaults

Where a document does not fit, lenient reading puts something of its own in the place of it. Here it
reads as before, but takes whatever it is told to take instead. So nothing is put in the place of
what a document says when what is read is the same for every way of swapping.

What a missing value is read as counts as a default as well, while `null` for `null` does not. This
is why the document is handed on to models as it stands; to lenient reading `null` and nothing are
the same there.

## Main definitions

* `RpcSchema.Program.Node.readSwapping` — lenient reading along a node, with defaults swapped.
* `RpcSchema.Program.readSwapping` — lenient reading along a program, with defaults swapped.

## Main results

* `RpcSchema.Program.readSwapping_id` — with its own defaults it is lenient reading.
-/

namespace RpcSchema.Program

section

variable (swap : Attempt Value → Attempt Value)

mutual

/-- **Reads along a node** leniently, with `swap` applied to whatever is put in the place of the
document. -/
def Node.readSwapping (follow : Nat → Nat → Option Json → Attempt Value) (inside : Nat) :
    Node → Option Json → Attempt Value
  | ⟨kind, nullable⟩, input =>
    match nullable, input with
    | true, none => swap (pure .null)
    | true, some .null => pure .null
    | nullable, input => kind.readSwapping follow inside nullable input

/-- Reads what a node demands. -/
def Kind.readSwapping (follow : Nat → Nat → Option Json → Attempt Value) (inside : Nat)
    (nullable : Bool) : Kind → Option Json → Attempt Value
  | .scalar kind, input =>
    match (given? input).bind kind.readFreely? with
    | some value => pure value
    | none => swap (pure (if nullable then .null else kind.default))
  | .enumeration values, input =>
    let fallback := swap (pure (if nullable then .null else .string (values.head?.getD "")))
    match given? input with
    | some (.string text) => if values.contains text then pure (.string text) else fallback
    | _ => fallback
  | .object shape, input =>
    let fields := do
      let fields ← shape.readSwapping follow inside (entriesOf (given? input))
      return .object fields
    if isObjectGiven (given? input) then fields
    else swap (if nullable then pure .null else fields)
  | .array element, input =>
    match given? input with
    | some (.array items) => do
      let values ← items.zipIdx.mapM fun (item, i) =>
        (element.readSwapping follow inside (some item)).under [toString i] ["elements"]
      return .array values
    | _ => swap (pure (if nullable then .null else .array []))
  | .record node, input =>
    match given? input with
    | some (.object entries) => do
      let fields ← entries.mapM fun (key, item) => do
        let value ← (node.readSwapping follow inside (some item)).under [key] ["values"]
        return (key, value)
      return .object fields
    | _ => swap (pure (if nullable then .null else .object []))
  | .union tag variants, input =>
    match (entriesOf (given? input)).lookup tag with
    | some (.string name) =>
      readVariantSwapping follow inside tag name variants (entriesOf (given? input))
    | _ => .fail [tag] ["discriminator"] (.missingTag tag)
  | .ref index, input => follow index inside input

/-- Reads the fields of a shape. -/
def Shape.readSwapping (follow : Nat → Nat → Option Json → Attempt Value) (inside : Nat) :
    Shape → Entries Json → Attempt (Entries Value)
  | ⟨required, optional, _⟩, entries => do
    let present ← readRequiredSwapping follow inside entries required
    let further ← readOptionalSwapping follow inside entries optional
    return Entries.ofList (present ++ further)

/-- Reads the properties that have to be there. -/
def readRequiredSwapping (follow : Nat → Nat → Option Json → Attempt Value) (inside : Nat)
    (entries : Entries Json) : List (String × Node) → Attempt (List (String × Value))
  | [] => return []
  | (key, node) :: rest => do
    let value ← (node.readSwapping follow inside (entries.lookup key)).under [key]
      ["properties", key]
    let fields ← readRequiredSwapping follow inside entries rest
    return (key, value) :: fields

/-- Reads the properties that may be there. -/
def readOptionalSwapping (follow : Nat → Nat → Option Json → Attempt Value) (inside : Nat)
    (entries : Entries Json) : List (String × Node) → Attempt (List (String × Value))
  | [] => return []
  | (key, node) :: rest =>
    match entries.lookup key with
    | some item => do
      let value ← (node.readSwapping follow inside (some item)).under [key]
        ["optionalProperties", key]
      let fields ← readOptionalSwapping follow inside entries rest
      return (key, value) :: fields
    | none => readOptionalSwapping follow inside entries rest

/-- Reads along the variant with a name. -/
def readVariantSwapping (follow : Nat → Nat → Option Json → Attempt Value) (inside : Nat)
    (tag name : String) : List (String × Shape) → Entries Json → Attempt Value
  | [], _ => .fail [tag] ["mapping"] (.unknownVariant name none)
  | (other, shape) :: rest, entries =>
    if other == name then do
      let fields ← (shape.readSwapping follow inside entries).under [] ["mapping", name]
      return .variant name fields
    else readVariantSwapping follow inside tag name rest entries

end

/-- Reads along the model at a position. The error at the bound on defaults is swapped like a
default. -/
def readModelSwapping (program : Program) : Nat → Nat → Nat → Option Json → Attempt Value
  | 0, _, _, _ => ExceptT.mk none
  | steps + 1, index, inside, input =>
    match program.models[index]? with
    | none => ExceptT.mk none
    | some node =>
      if (given? input).isSome then
        node.readSwapping swap (readModelSwapping program steps) inside input
      else if program.models.length < inside then
        swap (.fail [] [] (.endlessDefault (program.modelNames[index]?.getD "")))
      else node.readSwapping swap (readModelSwapping program steps) (inside + 1) input

/-- **Reads along a program** leniently, with `swap` applied to whatever is put in the place of what
the document says. -/
def readSwapping (program : Program) (input : Json) : Attempt Value :=
  let steps := program.budget input.depth + program.models.length + 2
  program.root.readSwapping swap (readModelSwapping swap program steps) 0 (some input)

end

/-- A flag where a text is demanded is read as what the empty text is swapped for. -/
example (swap : Attempt Value → Attempt Value)
    (follow : Nat → Nat → Option Json → Attempt Value) :
    Node.readSwapping swap follow 0 ⟨.scalar .string, false⟩ (some (.bool true)) =
      swap (pure (.string "")) := rfl

/-! ## With its own defaults it is lenient reading -/

section

variable {f g : Nat → Nat → Option Json → Attempt Value} {inside : Nat}

theorem readRequiredSwapping_id {entries : Entries Json} :
    ∀ {properties : List (String × Node)},
      (∀ property ∈ properties, ∀ input,
        property.2.readSwapping id f inside input = property.2.readLeniently g inside input) →
      readRequiredSwapping id f inside entries properties =
        readRequiredLeniently g inside entries properties
  | [], _ => rfl
  | (key, node) :: rest, h => by
    rw [List.forall_mem_cons] at h
    rw [readRequiredSwapping, readRequiredLeniently, h.1, readRequiredSwapping_id h.2]

theorem readOptionalSwapping_id {entries : Entries Json} :
    ∀ {properties : List (String × Node)},
      (∀ property ∈ properties, ∀ input,
        property.2.readSwapping id f inside input = property.2.readLeniently g inside input) →
      readOptionalSwapping id f inside entries properties =
        readOptionalLeniently g inside entries properties
  | [], _ => rfl
  | (key, node) :: rest, h => by
    rw [List.forall_mem_cons] at h
    rw [readOptionalSwapping, readOptionalLeniently, readOptionalSwapping_id h.2]
    cases entries.lookup key with
    | none => rfl
    | some item => simp only [h.1]

theorem Shape.readSwapping_id {shape : Shape} {entries : Entries Json}
    (h : ∀ property ∈ shape.properties, ∀ input,
      property.2.readSwapping id f inside input = property.2.readLeniently g inside input) :
    shape.readSwapping id f inside entries = shape.readLeniently g inside entries := by
  obtain ⟨required, optional, strict⟩ := shape
  have hrequired : ∀ property ∈ required, _ := fun p hp => h p (List.mem_append_left _ hp)
  have hoptional : ∀ property ∈ optional, _ := fun p hp => h p (List.mem_append_right _ hp)
  rw [Shape.readSwapping, Shape.readLeniently, readRequiredSwapping_id hrequired,
    readOptionalSwapping_id hoptional]

theorem readVariantSwapping_id {tag name : String} {entries : Entries Json} :
    ∀ {variants : List (String × Shape)},
      (∀ variant ∈ variants, ∀ property ∈ variant.2.properties, ∀ input,
        property.2.readSwapping id f inside input = property.2.readLeniently g inside input) →
      readVariantSwapping id f inside tag name variants entries =
        readVariantLeniently g inside tag name variants entries
  | [], _ => rfl
  | (other, shape) :: rest, h => by
    rw [List.forall_mem_cons] at h
    rw [readVariantSwapping, readVariantLeniently, Shape.readSwapping_id h.1,
      readVariantSwapping_id h.2]

/-- **With its own defaults** a node is read leniently, when this holds for following references:
there the one is told of `null` and the other is not. -/
theorem Node.readSwapping_id
    (hfollow : ∀ index input, f index inside input = g index inside (given? input)) (node : Node) :
    ∀ input, node.readSwapping id f inside input = node.readLeniently g inside input := by
  have hnode {kind : Kind} {nullable : Bool} {input : Option Json}
      (h : kind.readSwapping id f inside nullable input =
        kind.readLeniently g inside nullable (given? input)) :
      (⟨kind, nullable⟩ : Node).readSwapping id f inside input =
        (⟨kind, nullable⟩ : Node).readLeniently g inside input := by
    unfold Node.readSwapping Node.readLeniently
    split
    · rfl
    · rfl
    · rename_i hmissing hnull
      rw [h, if_neg]
      intro hneither
      rw [Bool.and_eq_true, Option.isNone_iff_eq_none] at hneither
      rcases input with _ | (_ | _ | _ | _ | _ | _)
      · exact hmissing hneither.2 rfl
      · exact hnull hneither.2 rfl
      all_goals cases hneither.1
  induction node using Node.induct with
  | scalar kind nullable =>
    intro input
    refine hnode ?_
    rw [Kind.readSwapping, Kind.readLeniently, scalarOr]
    cases (given? input).bind kind.readFreely? <;> rfl
  | enumeration values nullable =>
    intro input
    refine hnode ?_
    rw [Kind.readSwapping, Kind.readLeniently]
    rcases given? input with _ | (_ | _ | _ | text | _ | _) <;> try rfl
    simp only [listedOr, id_eq]
    split <;> rfl
  | object shape nullable ih =>
    intro input
    refine hnode ?_
    rw [Kind.readSwapping, Kind.readLeniently, Shape.readSwapping_id ih]
    cases isObjectGiven (given? input) <;> cases nullable <;> rfl
  | array element nullable ih =>
    intro input
    refine hnode ?_
    simp only [Kind.readSwapping, Kind.readLeniently, ih]
    rcases given? input with _ | (_ | _ | _ | _ | items | _) <;> rfl
  | record node nullable ih =>
    intro input
    refine hnode ?_
    simp only [Kind.readSwapping, Kind.readLeniently, ih]
    rcases given? input with _ | (_ | _ | _ | _ | _ | entries) <;> rfl
  | union tag variants nullable ih =>
    intro input
    refine hnode ?_
    unfold Kind.readSwapping Kind.readLeniently
    rcases (entriesOf (given? input)).lookup tag with _ | (_ | _ | _ | name | _ | _)
    case some.string => exact readVariantSwapping_id ih
    all_goals rfl
  | ref index nullable =>
    intro input
    exact hnode (hfollow index input)

end

/-- Along the models as well. -/
theorem readModelSwapping_id (program : Program) (steps : Nat) :
    ∀ (index inside : Nat) (input : Option Json),
      program.readModelSwapping id steps index inside input =
        program.readModelLeniently steps index inside (given? input) := by
  induction steps with
  | zero =>
    intro index inside input
    rfl
  | succ steps ih =>
    intro index inside input
    rw [readModelSwapping, readModelLeniently]
    cases program.models[index]? with
    | none => rfl
    | some node =>
      have hnode (inside : Nat) :
          node.readSwapping id (program.readModelSwapping id steps) inside input =
            node.readLeniently (program.readModelLeniently steps) inside (given? input) := by
        rw [Node.readSwapping_id fun index => ih index inside, Node.readLeniently_given?]
      simp only [hnode, id_eq]

/-- **With its own defaults** lenient reading with defaults swapped is lenient reading. -/
theorem readSwapping_id (program : Program) (input : Json) :
    program.readSwapping id input = program.readLeniently input :=
  Node.readSwapping_id (fun index => program.readModelSwapping_id _ index 0) _ _

end RpcSchema.Program
