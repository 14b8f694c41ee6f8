import RpcSchema.Proofs.Program.Positions
import RpcSchema.Proofs.Program.Walks

set_option autoImplicit false

/-!
# Walks without endless models end

A reference hands its input on, so that neither the input nor the node gets smaller there. What gets
smaller is the number of models to which references alone still lead, as long as no model leads back
to itself. This *rank* and the depth of the input together bound the references that a walk follows
inside each other.

## Main definitions

* `RpcSchema.Program.rank` — the number of models to which references alone lead.

## Main results

* `RpcSchema.Program.rank_lt_of_target?` — a reference leads to a model of lesser rank.
* `RpcSchema.Program.IsWalk.isSome_run` — walks end within a bound made of depth and rank.
* `RpcSchema.Program.isSome_holds`, `RpcSchema.Program.isSome_encode`,
  `RpcSchema.Program.isSome_decode` — asking, encoding and decoding end.
-/

namespace RpcSchema.Program

/-! ## Rank -/

open scoped Classical in
/-- **The rank of a model**: how many models references alone lead to from it. -/
noncomputable def rank (program : Program) (index : Nat) : Nat :=
  ((Finset.range program.models.length).filter (Chain program index)).card

variable {program : Program}

/-- A model that does not lead back to itself has a rank below the number of models. -/
theorem rank_lt_length (hends : ∀ index, ¬ program.Endless index) {index : Nat}
    (hindex : index < program.models.length) : program.rank index < program.models.length := by
  classical
  refine (Finset.card_lt_card ?_).trans_eq (Finset.card_range _)
  refine (Finset.ssubset_iff_of_subset (Finset.filter_subset _ _)).mpr ⟨index, ?_, ?_⟩
  · exact Finset.mem_range.mpr hindex
  · exact fun hmem => hends index (Finset.mem_filter.mp hmem).2

/-- **A reference leads to a model of lesser rank**, as the model itself is one of those to which it
leads. -/
theorem rank_lt_of_target? (hends : ∀ index, ¬ program.Endless index) {start stop : Nat}
    {node : Node} (hnode : program.models[start]? = some node) (hstop : node.target? = some stop)
    (hlt : stop < program.models.length) : program.rank stop < program.rank start := by
  classical
  refine Finset.card_lt_card ((Finset.ssubset_iff_of_subset ?_).mpr ⟨stop, ?_, ?_⟩)
  · intro index hindex
    simp only [Finset.mem_filter] at hindex ⊢
    exact ⟨hindex.1, .more hnode hstop hindex.2⟩
  · exact Finset.mem_filter.mpr ⟨Finset.mem_range.mpr hlt, .one hnode hstop⟩
  · exact fun hmem => hends stop (Finset.mem_filter.mp hmem).2

/-! ## Walks -/

section

variable {X R : Type} {size : X → Nat} {walk : (Nat → X → Walk R) → Node → X → Walk R}
  {run : Nat → Nat → X → Walk R}

/-- The bound for a lesser input is not above the bound for any model and the input itself. -/
theorem bound_lt {count size size' rank' : Nat} (hlt : size' < size)
    (hrank : rank' < count) : size' * count + rank' < size * count := by
  have hmul : (size' + 1) * count ≤ size * count := Nat.mul_le_mul_right count hlt
  rw [Nat.add_mul, Nat.one_mul] at hmul
  omega

theorem budget_eq (program : Program) (depth : Nat) :
    program.budget depth = depth * program.models.length + program.models.length := by
  rw [budget, Nat.add_mul, Nat.one_mul]

section

variable (h : IsWalk program size walk run) (hclosed : program.Closed)
  (hends : ∀ index, ¬ program.Endless index)
  (hwalk : ∀ (f : Nat → X → Walk R) (node : Node) (x : X),
    Follows .ends size node x f f → (walk f node x).isSome = true)

include h hclosed hends hwalk

/-- **A walk along a model ends** within the bound made of the depth of the input and the rank of
the model.

**Proof sketch.** Induction on the steps. The parts of the input have a lesser depth, and every rank
is below the number of models; a reference keeps the input and leads to a lesser rank. -/
theorem IsWalk.isSome_run (steps : Nat) : ∀ (x : X) (index : Nat), index < program.models.length →
    size x * program.models.length + program.rank index < steps →
    (run steps index x).isSome = true := by
  induction steps with
  | zero =>
    intro x index _ hbound
    omega
  | succ steps ih =>
    intro x index hindex hbound
    have hnode := List.getElem?_eq_getElem hindex
    have hmentions := hclosed.models _ (List.mem_of_getElem? hnode)
    rw [h.run_succ, hnode]
    refine hwalk (run steps) _ x ⟨fun other y hother hy => ?_, fun other hother => ?_⟩
    · have hlt := hmentions other hother
      have := bound_lt hy (rank_lt_length hends hlt)
      exact ih y other hlt (by omega)
    · have hlt := hmentions other (Node.mentions_of_target? hother)
      have := rank_lt_of_target? hends hnode hother hlt
      exact ih x other hlt (by omega)

/-- **A walk along a node ends** within the budget. -/
theorem IsWalk.isSome_walk {node : Node}
    (hnode : ∀ index, node.Mentions index → index < program.models.length) (x : X) :
    (walk (run (program.budget (size x))) node x).isSome = true := by
  have hbudget := program.budget_eq (size x)
  refine hwalk _ node x ⟨fun index y hindex hy => ?_, fun index hindex => ?_⟩
  · have hlt := hnode index hindex
    have := bound_lt hy (rank_lt_length hends hlt)
    exact h.isSome_run hclosed hends hwalk _ y index hlt (by omega)
  · have hlt := hnode index (Node.mentions_of_target? hindex)
    have := rank_lt_length hends hlt
    exact h.isSome_run hclosed hends hwalk _ x index hlt (by omega)

end

end

section

variable (hclosed : program.Closed) (hends : ∀ index, ¬ program.Endless index)

include hclosed hends

theorem isSome_holds (value : Value) : (program.holds value).isSome = true :=
  program.isWalk_holds.isSome_walk hclosed hends
    (fun _ node value => node.holds_rel .ends value) hclosed.root value

theorem isSome_encode (value : Value) : (program.encode value).isSome = true :=
  program.isWalk_encode.isSome_walk hclosed hends
    (fun _ node value => node.encode_rel .ends value) hclosed.root value

theorem isSome_decode (reading : Reading) (input : Json) :
    (program.decode reading input).isSome = true :=
  (program.isWalk_decode reading).isSome_walk hclosed hends
    (fun _ node input => node.decode_rel .ends input) hclosed.root input

end

end RpcSchema.Program
