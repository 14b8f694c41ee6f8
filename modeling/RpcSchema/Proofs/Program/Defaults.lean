import Mathlib.Data.Finset.Card
import Mathlib.Order.Monotone.Basic
import RpcSchema.Proofs.Program.LenientParts

set_option autoImplicit false

/-!
# Nodes with a default

Where a document is missing, lenient reading makes a default, unless the default would have to
contain itself. Which nodes have a default is a least fixpoint: an object has one when the
properties do that it has to have, and a reference when its model does. Lenient reading stops a
default with more models inside each other than there are models. This is the right bound: the nodes
with a default in which so many models are inside each other grow with that number, until it is the
number of models at the latest.

## Main definitions

* `RpcSchema.Program.Defaultable` — a node has a default.
* `RpcSchema.Program.Node.Defaults` — a node has a default, given which models do.
* `RpcSchema.Program.readyWithin` — a model has a default with so many models inside each other.

## Main results

* `RpcSchema.Program.readyWithin_length` — no default takes more models inside each other than there
  are.
* `RpcSchema.Program.defaultable_iff` — the least fixpoint is reached by then.
* `RpcSchema.Program.readLeniently_missing` — lenient reading makes a default where there is one, and
  fails elsewhere.
-/

namespace RpcSchema.Program

/-! ## The least fixpoint -/

/-- **A node has a default**: it may be `null`; it is a scalar, an enumeration, a list or a map; it
is an object, and the properties that have to be there have defaults; or it refers to a model that
has one. A union that may not be `null` has none. -/
inductive Defaultable (program : Program) : Node → Prop
  | null (kind : Kind) : Defaultable program ⟨kind, true⟩
  | scalar (kind : ScalarKind) (nullable : Bool) : Defaultable program ⟨.scalar kind, nullable⟩
  | enumeration (values : List String) (nullable : Bool) :
    Defaultable program ⟨.enumeration values, nullable⟩
  | object {shape : Shape} {nullable : Bool} :
    (∀ property ∈ shape.required, Defaultable program property.2) →
    Defaultable program ⟨.object shape, nullable⟩
  | array (element : Node) (nullable : Bool) : Defaultable program ⟨.array element, nullable⟩
  | record (value : Node) (nullable : Bool) : Defaultable program ⟨.record value, nullable⟩
  | ref {index : Nat} {nullable : Bool} {model : Node} : program.models[index]? = some model →
    Defaultable program model → Defaultable program ⟨.ref index, nullable⟩

/-- **A node has a default, given which models do.** -/
inductive Node.Defaults (ready : Nat → Prop) : Node → Prop
  | null (kind : Kind) : Node.Defaults ready ⟨kind, true⟩
  | scalar (kind : ScalarKind) (nullable : Bool) : Node.Defaults ready ⟨.scalar kind, nullable⟩
  | enumeration (values : List String) (nullable : Bool) :
    Node.Defaults ready ⟨.enumeration values, nullable⟩
  | object {shape : Shape} {nullable : Bool} :
    (∀ property ∈ shape.required, Node.Defaults ready property.2) →
    Node.Defaults ready ⟨.object shape, nullable⟩
  | array (element : Node) (nullable : Bool) : Node.Defaults ready ⟨.array element, nullable⟩
  | record (value : Node) (nullable : Bool) : Node.Defaults ready ⟨.record value, nullable⟩
  | ref {index : Nat} {nullable : Bool} : ready index → Node.Defaults ready ⟨.ref index, nullable⟩

/-- More models with defaults give more nodes with defaults. -/
theorem Node.Defaults.mono {ready ready' : Nat → Prop} {node : Node} (h : node.Defaults ready)
    (hready : ∀ index, ready index → ready' index) : node.Defaults ready' := by
  induction h with
  | null kind => exact .null kind
  | scalar kind nullable => exact .scalar kind nullable
  | enumeration values nullable => exact .enumeration values nullable
  | object _ ih => exact .object ih
  | array element nullable => exact .array element nullable
  | record value nullable => exact .record value nullable
  | ref hindex => exact .ref (hready _ hindex)

variable {program : Program}

/-- **A model has a default with so many models inside each other**, itself among them. -/
def readyWithin (program : Program) : Nat → Nat → Prop
  | 0, _ => False
  | bound + 1, index => ∃ model, program.models[index]? = some model ∧
      model.Defaults (readyWithin program bound)

/-! ## The bound -/

theorem readyWithin_succ {bound : Nat} : ∀ {index : Nat}, program.readyWithin bound index →
    program.readyWithin (bound + 1) index := by
  induction bound with
  | zero => exact fun h => h.elim
  | succ bound ih =>
    rintro index ⟨model, hmodel, h⟩
    exact ⟨model, hmodel, h.mono fun _ => ih⟩

theorem readyWithin_mono {bound bound' : Nat} (hle : bound ≤ bound') {index : Nat}
    (h : program.readyWithin bound index) : program.readyWithin bound' index := by
  induction hle with
  | refl => exact h
  | step _ ih => exact readyWithin_succ ih

theorem lt_of_readyWithin {bound index : Nat} (h : program.readyWithin bound index) :
    index < program.models.length := by
  cases bound with
  | zero => exact h.elim
  | succ bound =>
    obtain ⟨model, hmodel, -⟩ := h
    exact (List.getElem?_eq_some_iff.mp hmodel).1

section

open Classical

/-- The models with a default that takes so many models inside each other. -/
private noncomputable def readyModels (program : Program) (bound : Nat) : Finset Nat :=
  (Finset.range program.models.length).filter (program.readyWithin bound)

private theorem mem_readyModels {bound index : Nat} :
    index ∈ readyModels program bound ↔ program.readyWithin bound index := by
  rw [readyModels, Finset.mem_filter, Finset.mem_range]
  exact and_iff_right_of_imp lt_of_readyWithin

private theorem card_readyModels_le (bound : Nat) :
    (readyModels program bound).card ≤ program.models.length :=
  (Finset.card_filter_le _ _).trans_eq (Finset.card_range _)

end

private theorem readyModels_mono {bound bound' : Nat} (hle : bound ≤ bound') :
    readyModels program bound ⊆ readyModels program bound' := by
  intro index hindex
  rw [mem_readyModels] at hindex ⊢
  exact readyWithin_mono hle hindex

/-- **No default takes more models inside each other than there are.**

**Proof sketch.** The models with a default grow with the bound, and once they do not grow they
never do again, since the next ones hang on these only. There are only so many models, so they have
stopped growing when the bound is the number of models. -/
theorem readyWithin_length {bound index : Nat} (h : program.readyWithin bound index) :
    program.readyWithin program.models.length index := by
  rcases Nat.le_total bound program.models.length with hle | hle
  · exact readyWithin_mono hle h
  let count (bound : Nat) : Nat := (readyModels program bound).card
  have hmono : Monotone count := fun _ _ hle => Finset.card_le_card (readyModels_mono hle)
  have heq {small large : Nat} (hle : small ≤ large) (hsame : count small = count large) :
      readyModels program small = readyModels program large :=
    Finset.eq_of_subset_of_card_le (readyModels_mono hle) hsame.ge
  have hstays : ∀ bound, count bound = count (bound + 1) →
      count (bound + 1) = count (bound + 2) := by
    intro bound hsame
    have hready := heq (Nat.le_succ bound) hsame
    refine congrArg Finset.card (Finset.Subset.antisymm (readyModels_mono (Nat.le_succ _)) ?_)
    intro other hother
    rw [mem_readyModels] at hother ⊢
    obtain ⟨model, hmodel, hdefaults⟩ := hother
    refine ⟨model, hmodel, hdefaults.mono fun inner hinner => ?_⟩
    rwa [← mem_readyModels, hready, mem_readyModels]
  have hsame := Nat.stabilises_of_monotone hmono card_readyModels_le hstays hle
  rwa [← mem_readyModels, heq hle hsame.symm, mem_readyModels]

/-- What has a default, given models that have one, has a default. -/
theorem Node.Defaults.defaultable {ready : Nat → Prop} {node : Node} (h : node.Defaults ready)
    (hready : ∀ index, ready index →
      ∃ model, program.models[index]? = some model ∧ program.Defaultable model) :
    program.Defaultable node := by
  induction h with
  | null kind => exact .null kind
  | scalar kind nullable => exact .scalar kind nullable
  | enumeration values nullable => exact .enumeration values nullable
  | object _ ih => exact .object ih
  | array element nullable => exact .array element nullable
  | record value nullable => exact .record value nullable
  | ref hindex =>
    obtain ⟨model, hmodel, hdefaultable⟩ := hready _ hindex
    exact .ref hmodel hdefaultable

theorem exists_defaultable_of_readyWithin {bound : Nat} : ∀ {index : Nat},
    program.readyWithin bound index →
      ∃ model, program.models[index]? = some model ∧ program.Defaultable model := by
  induction bound with
  | zero => exact fun h => h.elim
  | succ bound ih =>
    rintro index ⟨model, hmodel, h⟩
    exact ⟨model, hmodel, h.defaultable fun _ => ih⟩

/-- **A node has a default** exactly when it has one with no more models inside each other than
there are. -/
theorem defaultable_iff {node : Node} :
    program.Defaultable node ↔ node.Defaults (program.readyWithin program.models.length) := by
  refine ⟨fun h => ?_, fun h => h.defaultable fun _ => exists_defaultable_of_readyWithin⟩
  induction h with
  | null kind => exact .null kind
  | scalar kind nullable => exact .scalar kind nullable
  | enumeration values nullable => exact .enumeration values nullable
  | object _ ih => exact .object ih
  | array element nullable => exact .array element nullable
  | record value nullable => exact .record value nullable
  | @ref index nullable model hmodel _ ih =>
    have hready : program.readyWithin (program.models.length + 1) index := ⟨model, hmodel, ih⟩
    exact .ref (readyWithin_length hready)

/-! ## What lenient reading makes of a missing document -/

section

variable {follow : Nat → Nat → Option Json → Attempt Value} {inside : Nat} {ready : Nat → Prop}

/-- **Where lenient reading makes a default there is one.** -/
theorem Node.defaults_of_readLeniently
    (hfollow : ∀ index value, follow index inside none = some (.ok value) → ready index)
    (node : Node) : ∀ value, node.readLeniently follow inside none = some (.ok value) →
      node.Defaults ready := by
  have hnull {kind : Kind} {nullable : Bool}
      (h : nullable = false → (⟨kind, nullable⟩ : Node).Defaults ready) :
      (⟨kind, nullable⟩ : Node).Defaults ready := by
    cases nullable with
    | true => exact .null kind
    | false => exact h rfl
  induction node using Node.induct with
  | scalar kind nullable => exact fun _ _ => .scalar kind nullable
  | enumeration values nullable => exact fun _ _ => .enumeration values nullable
  | array element nullable => exact fun _ _ => .array element nullable
  | record value nullable => exact fun _ _ => .record value nullable
  | object shape nullable ih =>
    intro value h
    refine hnull ?_
    rintro rfl
    have hkind : (Kind.object shape).readLeniently follow inside false none = some (.ok value) := h
    obtain ⟨hnullable, -⟩ | ⟨-, pairs, hpairs, -⟩ := Kind.readLeniently_object_iff.mp hkind
    · cases hnullable
    · refine .object fun property hproperty => ?_
      have hpresent : property ∈ shape.presentIn (entriesOf none) :=
        Shape.mem_presentIn.mpr (.inl hproperty)
      obtain ⟨pair, -, -, hpair⟩ := Outcome.exists_of_forall₂_right hpairs.flip property hpresent
      exact ih property (List.mem_append_left _ hproperty) _ hpair
  | union tag variants nullable ih =>
    intro value h
    refine hnull ?_
    rintro rfl
    -- Nothing is found under the tag, so that reading along the union fails.
    exact absurd h (Attempt.fails_fail.ne_ok value)
  | ref index nullable =>
    intro value h
    refine hnull ?_
    rintro rfl
    exact .ref (hfollow index value h)

/-- **Where there is a default lenient reading does not fail.** -/
theorem Node.Defaults.not_fails {node : Node} (h : node.Defaults ready)
    (hfollow : ∀ index, ready index → ¬ (follow index inside none).Fails) :
    ¬ (node.readLeniently follow inside none).Fails := by
  have hnull {kind : Kind} {nullable : Bool}
      (h : ¬ (kind.readLeniently follow inside false none).Fails) :
      ¬ ((⟨kind, nullable⟩ : Node).readLeniently follow inside none).Fails := by
    cases nullable with
    | true => exact Attempt.not_fails_pure
    | false => exact h
  induction h with
  | null kind => exact Attempt.not_fails_pure
  | scalar | enumeration | array | record => exact hnull Attempt.not_fails_pure
  | object hrequired ih =>
    refine hnull fun hfails => ?_
    obtain ⟨property, hproperty, hfails⟩ := Kind.exists_of_fails_object hfails
    rcases Shape.mem_presentIn.mp hproperty with hproperty | ⟨-, hkey⟩
    · exact ih property hproperty hfails
    · cases hkey
  | ref hindex => exact hnull (hfollow _ hindex)

end

/-- A default that is made of a model takes no more models inside each other than references are
followed. -/
theorem readyWithin_of_readModelLeniently (steps : Nat) : ∀ (index inside : Nat) (value : Value),
    program.readModelLeniently steps index inside none = some (.ok value) →
      program.readyWithin steps index := by
  induction steps with
  | zero => nofun
  | succ steps ih =>
    intro index inside value h
    cases hmodel : program.models[index]? with
    | none =>
      rw [readModelLeniently, hmodel] at h
      cases h
    | some model =>
      rw [readModelLeniently_succ hmodel] at h
      simp only [Option.isSome_none, Bool.false_eq_true, ↓reduceIte] at h
      split at h
      · exact absurd h Attempt.fail_ne_ok
      · exact ⟨model, hmodel, Node.defaults_of_readLeniently
          (fun other value => ih other (inside + 1) value) model value h⟩

/-- **The bound does not reject a default** that takes no more models inside each other than there
may still be.

**Proof sketch.** Induction on the models of the default. One model more inside is one that the rest
of the default takes less. -/
theorem not_fails_of_readyWithin (bound : Nat) : ∀ (steps index inside : Nat),
    program.readyWithin bound index → inside + bound ≤ program.models.length + 1 →
      ¬ (program.readModelLeniently steps index inside none).Fails := by
  induction bound with
  | zero => exact fun _ _ _ h => h.elim
  | succ bound ih =>
    rintro (_ | steps) index inside ⟨model, hmodel, h⟩ hinside
    · nofun
    · rw [readModelLeniently_succ hmodel]
      simp only [Option.isSome_none, Bool.false_eq_true, ↓reduceIte]
      rw [if_neg (by omega)]
      exact h.not_fails fun other hother => ih steps other (inside + 1) hother (by omega)

/-- Lenient reading does not fail without a document where a node has a default. -/
theorem Defaultable.not_fails {node : Node} (h : program.Defaultable node) (steps : Nat) :
    ¬ (node.readLeniently (program.readModelLeniently steps) 0 none).Fails :=
  (defaultable_iff.mp h).not_fails fun index hindex =>
    not_fails_of_readyWithin _ steps index 0 hindex (by omega)

/-- A node that is read without a document has a default. -/
theorem defaultable_of_readLeniently {node : Node} {steps inside : Nat} {value : Value}
    (h : node.readLeniently (program.readModelLeniently steps) inside none = some (.ok value)) :
    program.Defaultable node :=
  (Node.defaults_of_readLeniently (readyWithin_of_readModelLeniently steps · inside) node value
    h).defaultable fun _ => exists_defaultable_of_readyWithin

/-- **Lenient reading without a document** ends, and makes a default exactly where there is one.

**Proof sketch.** It does not fail where there is a default (`Defaultable.not_fails`), and ends, since
the bound cuts off every default that would go on. What it makes is a default. -/
theorem readLeniently_missing (hclosed : program.Closed) {node : Node}
    (hnode : ∀ index, node.Mentions index → index < program.models.length) {steps : Nat}
    (hsteps : program.models.length + 1 < steps) :
    ∃ outcome, node.readLeniently (program.readModelLeniently steps) 0 none = some outcome ∧
      ((∃ value, outcome = .ok value) ↔ program.Defaultable node) := by
  have hmissing : ∀ index, index < program.models.length →
      (program.readModelLeniently steps index 0 none).isSome = true := fun index hindex =>
    isSome_readModelLeniently_none hclosed steps 0 index hindex (Nat.zero_le _) (by omega)
  have hends : Option.isSome
      (node.readLeniently (program.readModelLeniently steps) 0 none) = true := by
    refine Node.readLeniently_rel .ends (f := program.readModelLeniently steps) node none ⟨?_, ?_, ?_⟩
    · exact fun index hindex => hmissing index (hnode index hindex)
    · nofun
    · exact fun index hindex => hmissing index (hnode index (Node.mentions_of_target? hindex))
  obtain ⟨outcome, houtcome⟩ := Option.isSome_iff_exists.mp hends
  refine ⟨outcome, houtcome, ?_, fun h => ?_⟩
  · rintro ⟨value, rfl⟩
    exact defaultable_of_readLeniently houtcome
  · obtain ⟨value, hvalue⟩ := Attempt.exists_ok_of_not_fails hends (h.not_fails steps)
    exact ⟨value, Option.some.inj (houtcome.symm.trans hvalue)⟩

end RpcSchema.Program
