import Mathlib.Data.Finset.Card
import RpcSchema.Validator.Program
import RpcSchema.Validator.Report

set_option autoImplicit false

/-!
# The budget of a walk is enough

The walks of this library stop following references when their steps are used up. What a walk
gives does not hang on the number of steps as long as it covers the *budget* of the program: at
every depth of the input a walk either passes through each model once at most, or never ends.

## Main definitions

* `RpcSchema.Walk.Le` — a walk does not end, or it is the other one.
* `RpcSchema.Walk.Comparison` — comparisons of walks, of which this is one.
* `RpcSchema.Program.IsWalk` — the rules that a walk along a program keeps.
* `RpcSchema.Program.settled` — following a reference with as many steps as the budget gives.

## Main results

* `RpcSchema.Program.IsWalk.run_of_budget_le` — beyond the budget steps change nothing.
* `RpcSchema.Program.IsWalk.walk_settled`, `RpcSchema.Program.IsWalk.settled_eq` — a walk within the
  budget is a walk that follows references for good.
-/

namespace RpcSchema

namespace Walk

variable {α β : Type}

/-- One walk does not end, or it is the other. -/
def Le (a b : Walk α) : Prop := a = none ∨ a = b

@[simp] theorem Le.refl (a : Walk α) : Le a a := .inr rfl

@[simp] theorem Le.none (b : Walk α) : Le (.none : Walk α) b := .inl rfl

theorem Le.trans {a b c : Walk α} (hab : Le a b) (hbc : Le b c) : Le a c := by
  rcases hab with rfl | rfl
  · exact .none c
  · exact hbc

/-- An outcome of the lesser walk is one of the greater. -/
theorem Le.eq_some {a b : Walk α} (h : Le a b) {outcome : α} (ha : a = some outcome) :
    b = some outcome := by
  rcases h with rfl | rfl
  · cases ha
  · exact ha

theorem Le.antisymm {a b : Walk α} (hab : Le a b) (hba : Le b a) : a = b := by
  rcases hab with rfl | rfl
  · rcases hba with rfl | rfl <;> rfl
  · rfl

/-- Going on from greater walks with greater walks gives greater walks. -/
theorem Le.bind {a b : Walk α} {f g : α → Walk β} (hab : Le a b) (hfg : ∀ x, Le (f x) (g x)) :
    Le (a >>= f) (b >>= g) := by
  rcases hab with rfl | rfl
  · exact .none _
  · cases a with
    | none => exact .none _
    | some x => exact hfg x

/-! ## Comparing walks -/

/-- **A comparison of walks** holds of equal outcomes, and is kept when walks that compare go on
with walks that compare. -/
structure Comparison where
  rel : ∀ {α : Type}, Walk α → Walk α → Prop
  outcome : ∀ {α : Type} (a : α), rel (some a) (some a)
  bind : ∀ {α β : Type} {a b : Walk α} {f g : α → Walk β}, rel a b → (∀ x, rel (f x) (g x)) →
    rel (a >>= f) (b >>= g)

namespace Comparison

/-- The first walk does not end, or it is the second. -/
def le : Comparison where
  rel := Le
  outcome _ := .refl _
  bind := Le.bind

/-- The second walk ends, whatever the first is. -/
def ends : Comparison where
  rel _ b := b.isSome = true
  outcome _ := rfl
  bind {α β a b f g} hb hg := by
    obtain ⟨x, rfl⟩ := Option.isSome_iff_exists.mp hb
    exact hg x

variable (c : Comparison)

theorem map {a b : Walk α} (h : c.rel a b) (f : α → β) : c.rel (a.map f) (b.map f) := by
  rw [Option.map_eq_bind, Option.map_eq_bind]
  exact c.bind h fun x => c.outcome (f x)

/-- Walks along the members of a list. -/
theorem mapM {γ : Type} {f g : γ → Walk β} :
    ∀ {list : List γ}, (∀ x ∈ list, c.rel (f x) (g x)) → c.rel (list.mapM f) (list.mapM g)
  | [], _ => c.outcome []
  | x :: rest, h => by
    rw [List.mapM_cons, List.mapM_cons]
    refine c.bind (h x List.mem_cons_self) fun y => ?_
    exact c.bind (mapM fun z hz => h z (List.mem_cons_of_mem x hz)) fun ys => c.outcome _

/-- Attempts go on from what they give and stop at an error. -/
theorem attemptBind {a b : Attempt α} {f g : α → Attempt β} (hab : c.rel a b)
    (hfg : ∀ x, c.rel (f x) (g x)) : c.rel (a >>= f : Attempt β) (b >>= g : Attempt β) := by
  refine c.bind hab fun result => ?_
  cases result with
  | error error => exact c.outcome _
  | ok x => exact hfg x

theorem attemptMapM {γ : Type} {f g : γ → Attempt β} :
    ∀ {list : List γ}, (∀ x ∈ list, c.rel (f x) (g x)) →
      c.rel (list.mapM f : Attempt (List β)) (list.mapM g : Attempt (List β))
  | [], _ => c.outcome _
  | x :: rest, h => by
    rw [List.mapM_cons, List.mapM_cons]
    refine c.attemptBind (h x List.mem_cons_self) fun y => ?_
    exact c.attemptBind (attemptMapM fun z hz => h z (List.mem_cons_of_mem x hz)) fun ys =>
      c.outcome _

theorem attemptUnder {a b : Attempt α} (inInstance inSchema : Pointer) (h : c.rel a b) :
    c.rel (a.under inInstance inSchema) (b.under inInstance inSchema) := by
  unfold Attempt.under
  exact c.map h _

end Comparison

end Walk

namespace Program

open Walk (Le)

variable {X R : Type}

/-- **The rules of a walk.** Without a step left it does not end at a reference; with one it goes on
along the model. What it gives at a node hangs only on what following gives for lesser inputs, and,
at a reference, for the same input and the model that is referred to. -/
structure IsWalk (program : Program) (size : X → Nat)
    (walk : (Nat → X → Walk R) → Node → X → Walk R) (run : Nat → Nat → X → Walk R) : Prop where
  run_zero : ∀ index x, run 0 index x = none
  run_succ : ∀ steps index x, run (steps + 1) index x =
    match program.models[index]? with
    | some node => walk (run steps) node x
    | none => none
  walk_le : ∀ {f g : Nat → X → Walk R} (node : Node) (x : X),
    (∀ index y, size y < size x → Le (f index y) (g index y)) →
    (∀ index, node.target? = some index → Le (f index x) (g index x)) →
    Le (walk f node x) (walk g node x)

/-- **Following a reference** with as many steps as the budget gives. -/
def settled (program : Program) (size : X → Nat) (run : Nat → Nat → X → Walk R) :
    Nat → X → Walk R :=
  fun index x => run (program.budget (size x)) index x

namespace IsWalk

variable {program : Program} {size : X → Nat} {walk : (Nat → X → Walk R) → Node → X → Walk R}
  {run : Nat → Nat → X → Walk R}

/-- A position beyond the table leads nowhere. -/
theorem run_eq_none (h : IsWalk program size walk run) {index : Nat}
    (hindex : program.models.length ≤ index) (steps : Nat) (x : X) :
    run steps index x = none := by
  cases steps with
  | zero => exact h.run_zero index x
  | succ steps => rw [h.run_succ, List.getElem?_eq_none hindex]

/-- One step more. -/
theorem run_le_succ (h : IsWalk program size walk run) (steps : Nat) :
    ∀ index x, Le (run steps index x) (run (steps + 1) index x) := by
  induction steps with
  | zero => intro index x; rw [h.run_zero]; exact .none _
  | succ steps ih =>
    intro index x
    rw [h.run_succ, h.run_succ]
    cases program.models[index]? with
    | none => exact .refl _
    | some node => exact h.walk_le node x (fun i y _ => ih i y) fun i _ => ih i x

/-- **More steps** keep what was given. -/
theorem run_mono (h : IsWalk program size walk run) {steps steps' : Nat} (hle : steps ≤ steps')
    (index : Nat) (x : X) : Le (run steps index x) (run steps' index x) := by
  induction hle with
  | refl => exact .refl _
  | step _ ih => exact ih.trans (h.run_le_succ _ index x)

/-- If one step more changes nothing for an input, and nothing for lesser ones, then neither do
further steps. -/
theorem run_stays (h : IsWalk program size walk run) {x : X} {start : Nat}
    (hless : ∀ steps ≥ start, ∀ index y, size y < size x →
      run (steps + 1) index y = run steps index y)
    {steps : Nat} (hstart : start ≤ steps)
    (hsame : ∀ index, run (steps + 1) index x = run steps index x) :
    ∀ more index, run (steps + more) index x = run steps index x := by
  have hstep : ∀ more index, run (steps + more + 1) index x = run (steps + more) index x := by
    intro more
    induction more with
    | zero => exact hsame
    | succ more ih =>
      intro index
      rw [h.run_succ, ← Nat.add_assoc, h.run_succ (steps + more)]
      cases program.models[index]? with
      | none => rfl
      | some node =>
        refine Walk.Le.antisymm ?_ ?_
        · refine h.walk_le node x (fun i y hy => ?_) fun i _ => ?_
          · rw [hless _ (by omega) i y hy]; exact .refl _
          · rw [ih i]; exact .refl _
        · exact h.walk_le node x (fun i y _ => h.run_le_succ _ i y) fun i _ => h.run_le_succ _ i x
  intro more
  induction more with
  | zero => intro index; rfl
  | succ more ih => intro index; rw [← Nat.add_assoc, hstep, ih]

/-- The models that give something for an input within so many steps. -/
private def answered (program : Program) (run : Nat → Nat → X → Walk R) (x : X) (steps : Nat) :
    Finset Nat :=
  (Finset.range program.models.length).filter fun index => (run steps index x).isSome

/-- If one step more changes something for an input, then a further model gives something. -/
private theorem card_answered_lt (h : IsWalk program size walk run) {x : X} {steps : Nat}
    (hchange : ∃ index, run (steps + 1) index x ≠ run steps index x) :
    (answered program run x steps).card < (answered program run x (steps + 1)).card := by
  obtain ⟨index, hindex⟩ := hchange
  have hle := h.run_le_succ steps
  have hnone : run steps index x = none := (hle index x).resolve_right fun e => hindex e.symm
  have hsome : (run (steps + 1) index x).isSome := by
    rw [Option.isSome_iff_ne_none, ← hnone]; exact hindex
  have hlt : index < program.models.length := by
    by_contra hlt
    rw [h.run_eq_none (Nat.le_of_not_lt hlt)] at hsome
    cases hsome
  refine Finset.card_lt_card (Finset.ssubset_iff_of_subset ?_ |>.mpr ⟨index, ?_, ?_⟩)
  · intro i hi
    simp only [answered, Finset.mem_filter] at hi ⊢
    obtain ⟨r, hr⟩ := Option.isSome_iff_exists.mp hi.2
    exact ⟨hi.1, by rw [(hle i x).eq_some hr]; rfl⟩
  · simp [answered, hlt, hsome]
  · simp [answered, hnone]

/-- Within as many steps as there are models there is one that changes nothing for an input, once
nothing changes for lesser ones.

**Proof sketch.** Every step that changes something lets a further model give something, and there
are only so many models. -/
private theorem exists_idle (h : IsWalk program size walk run) (x : X) (start : Nat) :
    ∃ steps, start ≤ steps ∧ steps ≤ start + program.models.length ∧
      ∀ index, run (steps + 1) index x = run steps index x := by
  by_contra hnone
  push Not at hnone
  have hcard : ∀ more ≤ program.models.length + 1,
      more ≤ (answered program run x (start + more)).card := by
    intro more
    induction more with
    | zero => intro _; exact Nat.zero_le _
    | succ more ih =>
      intro hmore
      have hlt := card_answered_lt h (hnone (start + more) (by omega) (by omega))
      have := ih (by omega)
      rw [← Nat.add_assoc]
      omega
  have hbound : (answered program run x (start + (program.models.length + 1))).card ≤
      program.models.length :=
    (Finset.card_filter_le _ _).trans_eq (Finset.card_range _)
  have := hcard _ le_rfl
  omega

/-- **Beyond the budget** steps change nothing.

**Proof sketch.** Induction on a bound of the input. By the time nothing changes any more for lesser
inputs, as many steps more as there are models are enough to come to one that changes nothing
(`exists_idle`), and then nothing changes any more (`run_stays`). -/
private theorem run_of_size_le (h : IsWalk program size walk run) (bound : Nat) :
    ∀ x, size x ≤ bound → ∀ steps, program.budget bound ≤ steps →
      ∀ index, run steps index x = run (program.budget bound) index x := by
  induction bound with
  | zero =>
    intro x hx steps hsteps index
    obtain ⟨idle, -, hidle, hsame⟩ := exists_idle h x 0
    have hstays := h.run_stays (fun _ (_ : _ ≥ 0) _ y hy => by omega) (Nat.zero_le idle) hsame
    have hbudget : idle ≤ program.budget 0 := by simpa [budget] using hidle
    rw [show steps = idle + (steps - idle) by omega, hstays,
      show program.budget 0 = idle + (program.budget 0 - idle) by omega, hstays]
  | succ bound ih =>
    intro x hx steps hsteps index
    have hless : ∀ steps ≥ program.budget bound, ∀ index y, size y < size x →
        run (steps + 1) index y = run steps index y := by
      intro steps hsteps index y hy
      rw [ih y (by omega) (steps + 1) (by omega), ih y (by omega) steps hsteps]
    obtain ⟨idle, hstart, hidle, hsame⟩ := exists_idle h x (program.budget bound)
    have hstays := h.run_stays hless hstart hsame
    have hbudget : idle ≤ program.budget (bound + 1) := by
      simp only [budget, Nat.succ_mul] at hidle ⊢
      omega
    rw [show steps = idle + (steps - idle) by omega, hstays,
      show program.budget (bound + 1) = idle + (program.budget (bound + 1) - idle) by omega,
      hstays]

theorem run_of_budget_le (h : IsWalk program size walk run) {x : X} {steps : Nat}
    (hsteps : program.budget (size x) ≤ steps) (index : Nat) :
    run steps index x = run (program.budget (size x)) index x :=
  h.run_of_size_le (size x) x le_rfl steps hsteps index

/-- Lesser inputs have a lesser budget. -/
theorem budget_le {size size' : Nat} (hle : size ≤ size') :
    program.budget size ≤ program.budget size' :=
  Nat.mul_le_mul_right _ (by omega)

/-- **A walk within the budget** follows references for good. -/
theorem walk_settled (h : IsWalk program size walk run) (node : Node) {x : X} {steps : Nat}
    (hsteps : program.budget (size x) ≤ steps) :
    walk (run steps) node x = walk (settled program size run) node x := by
  have hsame : ∀ index y, size y ≤ size x →
      run steps index y = settled program size run index y := fun index y hy =>
    h.run_of_budget_le ((budget_le hy).trans hsteps) index
  refine Walk.Le.antisymm (h.walk_le node x ?_ ?_) (h.walk_le node x ?_ ?_)
  all_goals intros
  all_goals rw [hsame _ _ (by omega)]; exact .refl _

/-- With more steps than the budget a walk gives the same. -/
theorem walk_of_budget_le (h : IsWalk program size walk run) (node : Node) {x : X} {steps : Nat}
    (hsteps : program.budget (size x) ≤ steps) :
    walk (run (program.budget (size x))) node x = walk (run steps) node x :=
  (h.walk_settled node le_rfl).trans (h.walk_settled node hsteps).symm

/-- Following a reference for good is walking along its model. -/
theorem settled_eq (h : IsWalk program size walk run) (index : Nat) (x : X) :
    settled program size run index x =
      match program.models[index]? with
      | some node => walk (settled program size run) node x
      | none => none := by
  rw [settled, ← h.run_of_budget_le (Nat.le_succ _), h.run_succ]
  cases program.models[index]? with
  | none => rfl
  | some node => exact h.walk_settled node le_rfl

/-- What is given within some steps is what is given for good. -/
theorem walk_run_le (h : IsWalk program size walk run) (node : Node) (x : X) (steps : Nat) :
    Le (walk (run steps) node x) (walk (settled program size run) node x) := by
  rw [← h.walk_settled node (Nat.le_max_right steps (program.budget (size x)))]
  exact h.walk_le node x (fun i y _ => h.run_mono (Nat.le_max_left ..) i y)
    fun i _ => h.run_mono (Nat.le_max_left ..) i x

end IsWalk

end Program

end RpcSchema
