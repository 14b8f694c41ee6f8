import RpcSchema.Codegen.Outline
import RpcSchema.Proofs.Effect
import RpcSchema.Proofs.Entries

set_option autoImplicit false

/-!
# What passes do

A pass that succeeds has made all of its steps, one after the other. What a step does to the names
that are taken and to the parts that are completed is said here once, for a registry that is strict
and in which every name that is taken stands for a shape.

## Main definitions

* `RpcSchema.PassState.Ready` — the registry is strict and every name stands for a shape.
* `RpcSchema.PassState.take` — the state once a new name is taken.
* `RpcSchema.PassState.finish` — the state once a part is completed.

## Main results

* `RpcSchema.Pass.bind_eq_ok_iff` — a pass behind another.
* `RpcSchema.Pass.registerShape_cases` — a name is new, or known with the same shape.
-/

namespace RpcSchema

/-! ## Passes one behind the other -/

namespace Pass

variable {α β : Type}

/-- A pass behind another begins where the other ends, unless that is an error. -/
theorem run_bind (pass : Pass α) (next : α → Pass β) (state : PassState) :
    (pass >>= next).run state = match pass.run state with
      | (.ok a, middle) => (next a).run middle
      | (.error error, middle) => (.error error, middle) := by
  change (ExceptT.bindCont next (pass state).1 (pass state).2) = _
  change _ = match pass state with
    | (.ok a, middle) => (next a).run middle
    | (.error error, middle) => (.error error, middle)
  rcases pass state with ⟨_ | a, middle⟩ <;> rfl

theorem bind_eq_ok_iff {pass : Pass α} {next : α → Pass β} {state final : PassState} {b : β} :
    (pass >>= next).run state = (.ok b, final) ↔
      ∃ a middle, pass.run state = (.ok a, middle) ∧ (next a).run middle = (.ok b, final) :=
  Effect.bind_eq_ok_iff

theorem pure_eq_ok_iff {a b : α} {state final : PassState} :
    (pure a : Pass α).run state = (.ok b, final) ↔ a = b ∧ state = final :=
  Effect.pure_eq_ok_iff

theorem throw_ne_ok {error : CodegenError} {state final : PassState} {a : α} :
    (throw error : Pass α).run state ≠ (.ok a, final) :=
  Effect.throw_ne_ok

/-- What is known without a pass is taken as it is. -/
theorem lift_eq_ok_iff {result : Except CodegenError α} {state final : PassState} {a : α} :
    (liftM result : Pass α).run state = (.ok a, final) ↔ result = .ok a ∧ state = final :=
  Effect.lift_except_eq_ok_iff

end Pass

/-! ## Names and parts -/

namespace PassState

/-- The fingerprint of the shape for which a name is taken. -/
def shape? (state : PassState) (name : String) : Option (Option String) :=
  state.registry.names.lookup name

/-- **The registry is strict**, and every name that is taken stands for a shape. -/
structure Ready (state : PassState) : Prop where
  strict : state.registry.strict = true
  distinct : Entries.Distinct state.registry.names
  shaped : ∀ name, state.shape? name ≠ some none

/-- The state once a new name is taken for a shape. -/
def take (state : PassState) (name shape : String) : PassState :=
  { state with
    registry := { state.registry with
      names := Entries.insert state.registry.names name (some shape) } }

/-- The state once a part is completed. -/
def finish (state : PassState) (part : Outline) : PassState :=
  { state with completed := state.completed ++ [part] }

variable {state : PassState}

@[simp] theorem registry_finish (part : Outline) :
    (state.finish part).registry = state.registry := rfl

@[simp] theorem shape?_finish (part : Outline) (name : String) :
    (state.finish part).shape? name = state.shape? name := rfl

theorem shape?_take (name shape other : String) :
    (state.take name shape).shape? other =
      if other = name then some (some shape) else state.shape? other :=
  Entries.lookup_insert _ _ _ _

theorem Ready.take (h : state.Ready) (name shape : String) : (state.take name shape).Ready where
  strict := h.strict
  distinct := Entries.distinct_insert h.distinct _ _
  shaped other := by
    rw [shape?_take]
    split
    · simp
    · exact h.shaped other

theorem Ready.finish (h : state.Ready) (part : Outline) : (state.finish part).Ready :=
  ⟨h.strict, h.distinct, h.shaped⟩

end PassState

namespace Pass

theorem run_registerShape (state : PassState) (name shape place : String) :
    (registerShape name shape place).run state =
      match state.registry.registerShape name shape place with
      | .ok (isNew, registry) => (.ok isNew, { state with registry })
      | .error error => (.error error, state) := by
  change ExceptT.run (do
    match state.registry.registerShape name shape place with
    | .ok (isNew, registry) => do
      modify fun state => { state with registry }
      return isNew
    | .error error => throw error : Pass Bool) state = _
  cases state.registry.registerShape name shape place <;> rfl

/-- **A strict registry takes a name** that is new, or knows it for the same shape. -/
theorem registerShape_cases {state final : PassState} {name shape place : String} {isNew : Bool}
    (hready : state.Ready)
    (h : (registerShape name shape place).run state = (.ok isNew, final)) :
    (isNew = true ∧ state.shape? name = none ∧ final = state.take name shape) ∨
      (isNew = false ∧ state.shape? name = some (some shape) ∧ final = state) := by
  rw [run_registerShape, NameRegistry.registerShape] at h
  have hlookup : state.registry.names.lookup name = state.shape? name := rfl
  rw [hlookup] at h
  rcases hshape : state.shape? name with _ | _ | known
  · rw [hshape] at h
    cases h
    exact .inl ⟨rfl, rfl, rfl⟩
  · exact absurd hshape (hready.shaped name)
  · rw [hshape] at h
    simp only [hready.strict, true_and] at h
    split at h
    · rename_i heq
      split at heq <;> cases heq
      cases h
      rename_i hsame
      exact .inr ⟨rfl, by rw [not_not.mp hsame], rfl⟩
    · cases h

theorem complete_eq_ok_iff {state final : PassState} {part outline : Outline} :
    (complete part).run state = (.ok outline, final) ↔
      outline = part ∧ final = state.finish part := by
  change (Except.ok part, state.finish part) = (Except.ok outline, final) ↔ _
  simp only [Prod.mk.injEq, Except.ok.injEq]
  exact and_congr eq_comm eq_comm

end Pass

end RpcSchema
