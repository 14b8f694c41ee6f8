import RpcSchema.Proofs.Entries
import RpcSchema.Validator.Decode
import RpcSchema.Validator.Encode
import RpcSchema.Validator.Guard

set_option autoImplicit false

/-!
# Walks are compositional

What a walk gives at a node hangs on the form of the node and on what it gives at the nodes inside,
but not on the nodes inside themselves; and at a reference it gives what following gives. So nodes
may be exchanged for others along which the walk gives the same, and a reference to a model without
`null` may be exchanged for what the model demands.

## Main definitions

* `RpcSchema.Program.Alike` — two nodes have the same form, and their parts correspond.
* `RpcSchema.Program.Compositional` — the two laws of a walk.

## Main results

* `RpcSchema.Program.compositional_decode`, `RpcSchema.Program.compositional_holds`,
  `RpcSchema.Program.compositional_encode` — decoding, asking and encoding are compositional.
-/

namespace RpcSchema.Program

/-! ## Nodes that are alike -/

/-- The same key, with things under it that correspond. -/
def Under {α : Type} (same : α → α → Prop) (entry entry' : String × α) : Prop :=
  entry.1 = entry'.1 ∧ same entry.2 entry'.2

/-- The same keys in the same order, with things under them that correspond. -/
abbrev Aligned {α : Type} (same : α → α → Prop) :
    List (String × α) → List (String × α) → Prop :=
  List.Forall₂ (Under same)

/-- Induction along two lists that correspond. -/
theorem Aligned.induct {α : Type} {same : α → α → Prop}
    {motive : ∀ list list' : List (String × α), Aligned same list list' → Prop}
    (nil : motive [] [] .nil)
    (cons : ∀ (key : String) {a a' : α} {rest rest' : List (String × α)} (hfirst : same a a')
      (hrest : Aligned same rest rest'), motive rest rest' hrest →
      motive ((key, a) :: rest) ((key, a') :: rest') (.cons ⟨rfl, hfirst⟩ hrest))
    {list list' : List (String × α)} (h : Aligned same list list') : motive list list' h := by
  induction h with
  | nil => exact nil
  | @cons entry entry' rest rest' hentry hrest ih =>
    obtain ⟨key, a⟩ := entry
    obtain ⟨key', a'⟩ := entry'
    obtain rfl : key = key' := hentry.1
    exact cons key hentry.2 hrest ih

/-- **Two shapes are alike** if they have the same keys in the same order, with nodes under them
that correspond. -/
structure Shape.Alike (same : Node → Node → Prop) (shape shape' : Shape) : Prop where
  required : Aligned same shape.required shape'.required
  optional : Aligned same shape.optional shape'.optional
  strict : shape.strict = shape'.strict

/-- **Two nodes are alike** if they have the same form, the nodes inside them correspond, and
references lead to corresponding models. -/
inductive Alike (same : Node → Node → Prop) (leads : Nat → Nat → Prop) : Node → Node → Prop
  | scalar (kind : ScalarKind) (nullable : Bool) :
    Alike same leads ⟨.scalar kind, nullable⟩ ⟨.scalar kind, nullable⟩
  | enumeration (values : List String) (nullable : Bool) :
    Alike same leads ⟨.enumeration values, nullable⟩ ⟨.enumeration values, nullable⟩
  | object {shape shape' : Shape} (nullable : Bool) : shape.Alike same shape' →
    Alike same leads ⟨.object shape, nullable⟩ ⟨.object shape', nullable⟩
  | array {element element' : Node} (nullable : Bool) : same element element' →
    Alike same leads ⟨.array element, nullable⟩ ⟨.array element', nullable⟩
  | record {value value' : Node} (nullable : Bool) : same value value' →
    Alike same leads ⟨.record value, nullable⟩ ⟨.record value', nullable⟩
  | union (tag : String) {variants variants' : List (String × Shape)} (nullable : Bool) :
    Aligned (Shape.Alike same) variants variants' →
    Alike same leads ⟨.union tag variants, nullable⟩ ⟨.union tag variants', nullable⟩
  | ref {index index' : Nat} (nullable : Bool) : leads index index' →
    Alike same leads ⟨.ref index, nullable⟩ ⟨.ref index', nullable⟩

section

variable {X R : Type} (walk : (Nat → X → R) → Node → X → R) (follow follow' : Nat → X → R)

/-- A walk gives the same along two nodes, each with its own way of following references. -/
abbrev SameAlong (node node' : Node) : Prop := walk follow node = walk follow' node'

/-- Two nodes are alike as far as a walk can tell. -/
abbrev AlikeAlong : Node → Node → Prop :=
  Alike (SameAlong walk follow follow') fun index index' => follow index = follow' index'

end

/-- **The laws of a walk**: along nodes that are alike it gives the same, and along a reference the
same as along what is referred to. -/
structure Compositional {X R : Type} (walk : (Nat → X → R) → Node → X → R) : Prop where
  alike : ∀ {follow follow' : Nat → X → R} {node node' : Node},
    AlikeAlong walk follow follow' node node' → SameAlong walk follow follow' node node'
  inline : ∀ {follow : Nat → X → R} {index : Nat} {kind : Kind},
    follow index = walk follow ⟨kind, false⟩ →
    ∀ nullable, walk follow ⟨.ref index, nullable⟩ = walk follow ⟨kind, nullable⟩

/-- What corresponds has the same keys. -/
theorem keys_eq_of_aligned {α : Type} {same : α → α → Prop} {list list' : List (String × α)}
    (h : Aligned same list list') : Entries.keys list = Entries.keys list' := by
  induction h using Aligned.induct with
  | nil => rfl
  | cons key _ _ ih => exact congrArg (key :: ·) ih

/-- Shapes that are alike declare the same keys. -/
theorem Shape.Alike.declares_eq {same : Node → Node → Prop} {shape shape' : Shape}
    (h : shape.Alike same shape') (key : String) : shape.declares key = shape'.declares key := by
  rw [Bool.eq_iff_iff, Shape.declares, Shape.declares, Bool.or_eq_true, Bool.or_eq_true,
    Entries.contains_eq_true_iff, Entries.contains_eq_true_iff, Entries.contains_eq_true_iff,
    Entries.contains_eq_true_iff, keys_eq_of_aligned h.required, keys_eq_of_aligned h.optional]

/-! ## Decoding -/

section Decode

variable {reading : Reading} {follow follow' : Nat → Json → Walk (Report Value)}

theorem decodeRequired_congr {properties properties' : List (String × Node)}
    (h : Aligned (SameAlong (Node.decode reading) follow follow') properties properties')
    (entries : Entries Json) : decodeRequired reading follow entries properties =
      decodeRequired reading follow' entries properties' := by
  induction h using Aligned.induct with
  | nil => rfl
  | @cons key node node' rest rest' hnode _ ih =>
    rw [decodeRequired, decodeRequired, ih, show node.decode reading follow = _ from hnode]

theorem decodeOptional_congr {properties properties' : List (String × Node)}
    (h : Aligned (SameAlong (Node.decode reading) follow follow') properties properties')
    (entries : Entries Json) : decodeOptional reading follow entries properties =
      decodeOptional reading follow' entries properties' := by
  induction h using Aligned.induct with
  | nil => rfl
  | @cons key node node' rest rest' hnode _ ih =>
    rw [decodeOptional, decodeOptional, ih, show node.decode reading follow = _ from hnode]

theorem Shape.decode_congr {shape shape' : Shape}
    (h : shape.Alike (SameAlong (Node.decode reading) follow follow') shape')
    (tag : Option String) :
    shape.decode reading follow tag = shape'.decode reading follow' tag := by
  have hundeclared : ∀ entries,
      undeclaredReports shape tag entries = undeclaredReports shape' tag entries := by
    intro entries
    simp only [undeclaredReports, h.strict, h.declares_eq]
  obtain ⟨required, optional, strict⟩ := shape
  obtain ⟨required', optional', strict'⟩ := shape'
  funext input
  cases input with
  | object entries =>
    simp only [Shape.decode, decodeRequired_congr h.required, decodeOptional_congr h.optional,
      hundeclared]
  | _ => rfl

theorem decodeVariant_congr {variants variants' : List (String × Shape)}
    (h : Aligned (Shape.Alike (SameAlong (Node.decode reading) follow follow')) variants variants')
    (tag name : String) (input : Json) : decodeVariant reading follow tag name variants input =
      decodeVariant reading follow' tag name variants' input := by
  induction h using Aligned.induct with
  | nil => rfl
  | cons other hshape _ ih => rw [decodeVariant, decodeVariant, ih, Shape.decode_congr hshape]

/-- **Decoding is compositional.** -/
theorem compositional_decode (reading : Reading) : Compositional (Node.decode reading) where
  alike {follow follow' node node'} h := by
    funext input
    cases h with
    | scalar | enumeration => rfl
    | object nullable hshape =>
      simp only [Node.decode, Kind.decode, Shape.decode_congr hshape]
    | array nullable helement =>
      simp only [Node.decode, Kind.decode, helement]
    | record nullable hvalue =>
      simp only [Node.decode, Kind.decode, hvalue]
    | union tag nullable hvariants =>
      simp only [Node.decode, Kind.decode, decodeVariant_congr hvariants,
        keys_eq_of_aligned hvariants]
    | ref nullable hleads =>
      simp only [Node.decode, Kind.decode, hleads]
  inline {follow index kind} h nullable := by
    funext input
    rw [Node.decode, Node.decode, Kind.decode, h, Node.decode, Bool.and_false]
    rfl

end Decode

/-! ## Asking -/

section Holds

variable {follow follow' : Nat → Value → Walk Bool}

theorem requiredHold_congr {properties properties' : List (String × Node)}
    (h : Aligned (SameAlong Node.holds follow follow') properties properties')
    (fields : Entries Value) :
    requiredHold follow fields properties = requiredHold follow' fields properties' := by
  induction h using Aligned.induct with
  | nil => rfl
  | @cons key node node' rest rest' hnode _ ih =>
    rw [requiredHold, requiredHold, ih, show node.holds follow = _ from hnode]

theorem optionalHold_congr {properties properties' : List (String × Node)}
    (h : Aligned (SameAlong Node.holds follow follow') properties properties')
    (fields : Entries Value) :
    optionalHold follow fields properties = optionalHold follow' fields properties' := by
  induction h using Aligned.induct with
  | nil => rfl
  | @cons key node node' rest rest' hnode _ ih =>
    rw [optionalHold, optionalHold, ih, show node.holds follow = _ from hnode]

theorem Shape.holds_congr {shape shape' : Shape}
    (h : shape.Alike (SameAlong Node.holds follow follow') shape') (tag : Option String) :
    shape.holds follow tag = shape'.holds follow' tag := by
  have hcovers : ∀ fields, shape.coversKeys tag fields = shape'.coversKeys tag fields := by
    intro fields
    simp only [Shape.coversKeys, h.strict, h.declares_eq]
  obtain ⟨required, optional, strict⟩ := shape
  obtain ⟨required', optional', strict'⟩ := shape'
  funext fields
  simp only [Shape.holds, requiredHold_congr h.required, optionalHold_congr h.optional, hcovers]

theorem variantHolds_congr {variants variants' : List (String × Shape)}
    (h : Aligned (Shape.Alike (SameAlong Node.holds follow follow')) variants variants')
    (tag : Option String) (name : String) (fields : Entries Value) :
    variantHolds follow tag name variants fields =
      variantHolds follow' tag name variants' fields := by
  induction h using Aligned.induct with
  | nil => rfl
  | cons other hshape _ ih => rw [variantHolds, variantHolds, ih, Shape.holds_congr hshape]

/-- **Asking is compositional.** -/
theorem compositional_holds : Compositional Node.holds where
  alike {follow follow' node node'} h := by
    funext value
    cases h with
    | scalar | enumeration => cases value <;> rfl
    | object nullable hshape =>
      cases value <;> simp only [Node.holds, Kind.holds, Shape.holds_congr hshape]
    | array nullable helement =>
      cases value <;> simp only [Node.holds, Kind.holds, helement]
    | record nullable hvalue =>
      cases value <;> simp only [Node.holds, Kind.holds, hvalue]
    | union tag nullable hvariants =>
      cases value <;> simp only [Node.holds, Kind.holds, variantHolds_congr hvariants]
    | ref nullable hleads =>
      simp only [Node.holds, Kind.holds, hleads]
  inline {follow index kind} h nullable := by
    funext value
    cases hnull : value.isNull with
    | true => simp only [Node.holds, hnull, if_true]
    | false => simp only [Node.holds, Kind.holds, h, hnull, Bool.false_eq_true, if_false]

end Holds

/-! ## Encoding -/

section Encode

variable {follow follow' : Nat → Value → Attempt Json}

theorem encodeRequired_congr {properties properties' : List (String × Node)}
    (h : Aligned (SameAlong Node.encode follow follow') properties properties')
    (fields : Entries Value) :
    encodeRequired follow fields properties = encodeRequired follow' fields properties' := by
  induction h using Aligned.induct with
  | nil => rfl
  | @cons key node node' rest rest' hnode _ ih =>
    rw [encodeRequired, encodeRequired, ih, show node.encode follow = _ from hnode]

theorem encodeOptional_congr {properties properties' : List (String × Node)}
    (h : Aligned (SameAlong Node.encode follow follow') properties properties')
    (fields : Entries Value) :
    encodeOptional follow fields properties = encodeOptional follow' fields properties' := by
  induction h using Aligned.induct with
  | nil => rfl
  | @cons key node node' rest rest' hnode _ ih =>
    rw [encodeOptional, encodeOptional, ih, show node.encode follow = _ from hnode]

theorem Shape.encode_congr {shape shape' : Shape}
    (h : shape.Alike (SameAlong Node.encode follow follow') shape') :
    shape.encode follow = shape'.encode follow' := by
  obtain ⟨required, optional, strict⟩ := shape
  obtain ⟨required', optional', strict'⟩ := shape'
  funext fields
  simp only [Shape.encode, encodeRequired_congr h.required, encodeOptional_congr h.optional]

theorem encodeVariant_congr {variants variants' : List (String × Shape)}
    (h : Aligned (Shape.Alike (SameAlong Node.encode follow follow')) variants variants')
    (tag name : String) (fields : Entries Value) :
    encodeVariant follow tag name variants fields =
      encodeVariant follow' tag name variants' fields := by
  induction h using Aligned.induct with
  | nil => rfl
  | cons other hshape _ ih => rw [encodeVariant, encodeVariant, ih, Shape.encode_congr hshape]

/-- **Encoding is compositional.** -/
theorem compositional_encode : Compositional Node.encode where
  alike {follow follow' node node'} h := by
    funext value
    cases h with
    | scalar | enumeration => cases value <;> rfl
    | object nullable hshape =>
      cases value <;>
        simp only [Node.encode, Kind.encode, Shape.encode_congr hshape, Kind.refusal]
    | array nullable helement =>
      cases value <;> simp only [Node.encode, Kind.encode, helement, Kind.refusal]
    | record nullable hvalue =>
      cases value <;> simp only [Node.encode, Kind.encode, hvalue, Kind.refusal]
    | union tag nullable hvariants =>
      cases value <;>
        simp only [Node.encode, Kind.encode, encodeVariant_congr hvariants, Kind.refusal]
    | ref nullable hleads =>
      simp only [Node.encode, Kind.encode, hleads]
  inline {follow index kind} h nullable := by
    funext value
    cases hnull : value.isNull with
    | true => simp only [Node.encode, hnull, if_true]
    | false => simp only [Node.encode, Kind.encode, h, hnull, Bool.false_eq_true, if_false]

end Encode

end RpcSchema.Program
