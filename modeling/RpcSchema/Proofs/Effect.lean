set_option autoImplicit false

/-!
# Computations with errors and a state

A computation that succeeds has made all of its steps, one after the other, each from the state in
which the one before ended.

## Main results

* `RpcSchema.Effect.bind_eq_ok_iff` — a computation behind another.
* `RpcSchema.Effect.lift_eq_ok_iff`, `RpcSchema.Effect.lift_except_eq_ok_iff` — a step that cannot
  fail, and one that leaves the state as it is.
-/

namespace RpcSchema.Effect

variable {ε ε' σ α β : Type} {state final : σ}

/-- A computation behind another begins where the other ends, unless that is an error. -/
theorem run_bind (action : ExceptT ε (StateM σ) α) (next : α → ExceptT ε (StateM σ) β)
    (state : σ) :
    (action >>= next).run state = match action.run state with
      | (.ok a, middle) => (next a).run middle
      | (.error error, middle) => (.error error, middle) := by
  change (ExceptT.bindCont next (action state).1 (action state).2) = _
  change _ = match action state with
    | (.ok a, middle) => (next a).run middle
    | (.error error, middle) => (.error error, middle)
  rcases action state with ⟨_ | a, middle⟩ <;> rfl

theorem bind_eq_ok_iff {action : ExceptT ε (StateM σ) α} {next : α → ExceptT ε (StateM σ) β}
    {b : β} :
    (action >>= next).run state = (.ok b, final) ↔
      ∃ a middle, action.run state = (.ok a, middle) ∧ (next a).run middle = (.ok b, final) := by
  rw [run_bind]
  rcases action.run state with ⟨error | a, middle⟩
  · exact iff_of_false nofun fun ⟨_, _, h, _⟩ => nomatch h
  · constructor
    · exact fun h => ⟨a, middle, rfl, h⟩
    · rintro ⟨_, _, h, hnext⟩
      cases h
      exact hnext

theorem pure_eq_ok_iff {a b : α} :
    (pure a : ExceptT ε (StateM σ) α).run state = (.ok b, final) ↔ a = b ∧ state = final := by
  change (Except.ok a, state) = (Except.ok b, final) ↔ _
  simp

theorem throw_ne_ok {error : ε} {a : α} :
    (throw error : ExceptT ε (StateM σ) α).run state ≠ (.ok a, final) := by
  intro h
  cases h

/-- What is known without the state is taken as it is. -/
theorem lift_except_eq_ok_iff {result : Except ε α} {a : α} :
    (liftM result : ExceptT ε (StateM σ) α).run state = (.ok a, final) ↔
      result = .ok a ∧ state = final := by
  change (result, state) = _ ↔ _
  simp

/-- A step on the state does not fail. -/
theorem lift_eq_ok_iff {action : StateM σ α} {a : α} :
    (liftM action : ExceptT ε (StateM σ) α).run state = (.ok a, final) ↔
      action.run state = (a, final) := by
  change (Except.ok (action state).1, (action state).2) = (Except.ok a, final) ↔
    action state = (a, final)
  rcases action state with ⟨a', middle⟩
  constructor <;> (intro h; cases h; rfl)

/-- A step whose error is passed on has succeeded. -/
theorem exists_ok_of_lift {action : StateM σ (Except ε' α)}
    {next : Except ε' α → ExceptT ε (StateM σ) β} {b : β}
    (h : (liftM action >>= next).run state = (.ok b, final))
    (hthrow : ∀ error middle, (next (.error error)).run middle ≠ (.ok b, final)) :
    ∃ a middle, action.run state = (.ok a, middle) ∧
      (next (.ok a)).run middle = (.ok b, final) := by
  obtain ⟨result, middle, haction, h⟩ := bind_eq_ok_iff.mp h
  cases result with
  | error error => exact absurd h (hthrow error middle)
  | ok a => exact ⟨a, middle, lift_eq_ok_iff.mp haction, h⟩

/-- An error in other words is an error still. -/
theorem adapt_eq_ok_iff {action : ExceptT ε (StateM σ) α} {words : ε → ε'} {a : α} :
    (action.adapt words).run state = (.ok a, final) ↔ action.run state = (.ok a, final) := by
  change ((action state).1.mapError words, (action state).2) = _ ↔ action state = _
  rcases action state with ⟨_ | a', middle⟩
  · exact iff_of_false nofun nofun
  · constructor <;> (intro h; cases h; rfl)

/-- What an outcome is that is known to be a success. -/
theorem eq_of_toOption {outcome : Except ε α × σ} {a : α} (h : outcome.1.toOption = some a) :
    outcome = (.ok a, outcome.2) := by
  obtain ⟨result, final⟩ := outcome
  cases result <;> cases h
  rfl

end RpcSchema.Effect
