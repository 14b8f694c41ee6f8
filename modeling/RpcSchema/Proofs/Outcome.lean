import Mathlib.Data.List.Forall2

set_option autoImplicit false

/-!
# Outcomes of steps that can fail

When one step after another, a changed result or a changed error is a success.

## Main results

* `RpcSchema.Outcome.bind_eq_ok_iff` — one step after another.
* `RpcSchema.Outcome.forM_eq_ok_iff`, `RpcSchema.Outcome.mapM_eq_ok_iff` — a check or a step for
  every member of a list.
-/

namespace RpcSchema.Outcome

variable {ε ε' α β : Type}

theorem bind_eq_ok_iff {step : Except ε α} {next : α → Except ε β} {b : β} :
    (step >>= next) = .ok b ↔ ∃ a, step = .ok a ∧ next a = .ok b := by
  cases step with
  | error error =>
    constructor
    · intro h
      cases h
    · rintro ⟨a, h, -⟩
      cases h
  | ok a =>
    constructor
    · exact fun h => ⟨a, rfl, h⟩
    · rintro ⟨a', ha, h⟩
      cases ha
      exact h

theorem bind_eq_error_iff {step : Except ε α} {next : α → Except ε β} {error : ε} :
    (step >>= next) = .error error ↔
      step = .error error ∨ ∃ a, step = .ok a ∧ next a = .error error := by
  cases step with
  | error other =>
    constructor
    · exact fun h => .inl (congrArg Except.error (Except.error.inj h))
    · rintro (h | ⟨a, h, -⟩)
      · exact congrArg Except.error (Except.error.inj h)
      · cases h
  | ok a =>
    constructor
    · exact fun h => .inr ⟨a, rfl, h⟩
    · rintro (h | ⟨a', ha, h⟩)
      · cases h
      · cases ha
        exact h

theorem eq_ok_of_toOption {step : Except ε α} {a : α} (h : step.toOption = some a) :
    step = .ok a := by
  cases step <;> cases h
  rfl

theorem map_eq_ok_iff {step : Except ε α} {f : α → β} {b : β} :
    step.map f = .ok b ↔ ∃ a, step = .ok a ∧ f a = b := by
  cases step <;> simp [Except.map]

theorem map_eq_error_iff {step : Except ε α} {f : α → β} {error : ε} :
    step.map f = .error error ↔ step = .error error := by
  cases step <;> simp [Except.map]

theorem mapError_eq_error_iff {step : Except ε α} {f : ε → ε'} {error' : ε'} :
    step.mapError f = .error error' ↔ ∃ error, step = .error error ∧ f error = error' := by
  cases step <;> simp [Except.mapError]

theorem mapError_eq_ok_iff {step : Except ε α} {f : ε → ε'} {a : α} :
    step.mapError f = .ok a ↔ step = .ok a := by
  cases step <;> simp [Except.mapError]

/-- What does not succeed fails. -/
theorem exists_error_iff {outcome : Except ε α} :
    (∃ error, outcome = .error error) ↔ ∀ a, outcome ≠ .ok a := by
  cases outcome <;> simp

/-- **A check of every member of a list** succeeds when each of them does. -/
theorem forM_eq_ok_iff {check : α → Except ε Unit} {list : List α} :
    list.forM check = .ok () ↔ ∀ a ∈ list, check a = .ok () := by
  induction list with
  | nil => exact iff_of_true rfl fun a h => absurd h List.not_mem_nil
  | cons a rest ih =>
    have hcons : (a :: rest).forM check = (check a >>= fun _ => rest.forM check) := rfl
    rw [hcons, bind_eq_ok_iff, List.forall_mem_cons, ih]
    constructor
    · rintro ⟨_, ha, hrest⟩
      exact ⟨ha, hrest⟩
    · rintro ⟨ha, hrest⟩
      exact ⟨(), ha, hrest⟩

/-- **A step for every member of a list** gives what it gives for each of them. -/
theorem mapM_eq_ok_iff {step : α → Except ε β} : ∀ {list : List α} {bs : List β},
    list.mapM step = .ok bs ↔ List.Forall₂ (fun a b => step a = .ok b) list bs
  | [], bs => by
    rw [List.mapM_nil, List.forall₂_nil_left_iff]
    exact ⟨fun h => by cases h; rfl, fun h => by rw [h]; rfl⟩
  | a :: rest, bs => by
    rw [List.mapM_cons, List.forall₂_cons_left_iff, bind_eq_ok_iff]
    constructor
    · rintro ⟨b, hb, h⟩
      obtain ⟨bs, hbs, h⟩ := bind_eq_ok_iff.mp h
      cases h
      exact ⟨b, bs, hb, mapM_eq_ok_iff.mp hbs, rfl⟩
    · rintro ⟨b, bs, hb, hbs, rfl⟩
      exact ⟨b, hb, bind_eq_ok_iff.mpr ⟨bs, mapM_eq_ok_iff.mpr hbs, rfl⟩⟩

/-- **A step for every member of a list** succeeds when each of them does. -/
theorem exists_mapM {step : α → Except ε β} {list : List α} (h : ∀ a ∈ list, ∃ b, step a = .ok b) :
    ∃ bs, list.mapM step = .ok bs := by
  induction list with
  | nil => exact ⟨[], rfl⟩
  | cons a rest ih =>
    obtain ⟨⟨b, hb⟩, hrest⟩ := List.forall_mem_cons.mp h
    obtain ⟨bs, hbs⟩ := ih hrest
    refine ⟨b :: bs, ?_⟩
    rw [List.mapM_cons, hb, hbs]
    rfl

/-- **What every step of a run keeps** holds at its end. -/
theorem keeps_of_foldlM {p : β → Prop} {step : β → α → Except ε β} {list : List α}
    (hstep : ∀ a ∈ list, ∀ b b', p b → step b a = .ok b' → p b') {start result : β}
    (hstart : p start) (h : list.foldlM step start = .ok result) : p result := by
  induction list generalizing start with
  | nil =>
    cases h
    exact hstart
  | cons a rest ih =>
    obtain ⟨hfirst, hrest⟩ := List.forall_mem_cons.mp hstep
    rw [List.foldlM_cons] at h
    obtain ⟨b, hb, h⟩ := bind_eq_ok_iff.mp h
    exact ih hrest (hfirst _ _ hstart hb) h

/-- A member on the right has one on the left. -/
theorem exists_of_forall₂_right {relation : α → β → Prop} {list : List α}
    {results : List β} (h : List.Forall₂ relation list results) :
    ∀ b ∈ results, ∃ a ∈ list, relation a b := by
  induction h with
  | nil => simp
  | @cons a b rest results hab _ ih =>
    refine List.forall_mem_cons.mpr ⟨⟨a, List.mem_cons_self, hab⟩, fun b' hb' => ?_⟩
    obtain ⟨a', ha', hab'⟩ := ih b' hb'
    exact ⟨a', List.mem_cons_of_mem _ ha', hab'⟩

/-- Lists that match do so by more when the members on the right say more. -/
theorem forall₂_of_right {relation relation' : α → β → Prop} {list : List α} {results : List β}
    (h : List.Forall₂ relation list results)
    (hmore : ∀ b ∈ results, ∀ a, relation a b → relation' a b) :
    List.Forall₂ relation' list results := by
  induction h with
  | nil => exact .nil
  | cons hfirst _ ih =>
    obtain ⟨hb, hrest⟩ := List.forall_mem_cons.mp hmore
    exact .cons (hb _ hfirst) (ih hrest)

/-- Lists that match by what two functions give are the same under the functions. -/
theorem map_eq_map_of_forall₂ {γ : Type} {f : α → γ} {g : β → γ} {list : List α} {results : List β}
    (h : List.Forall₂ (fun a b => f a = g b) list results) : list.map f = results.map g := by
  have heq : List.Forall₂ (· = ·) (list.map f) (results.map g) := by
    rwa [List.forall₂_map_left_iff, List.forall₂_map_right_iff]
  rwa [List.forall₂_eq_eq_eq] at heq

/-- Lists match when they are of one length and their members at each position match. -/
theorem forall₂_iff_getElem? {relation : α → β → Prop} {list : List α} {results : List β} :
    List.Forall₂ relation list results ↔ list.length = results.length ∧
      ∀ (i : Nat) (a : α) (b : β), list[i]? = some a → results[i]? = some b → relation a b := by
  rw [List.forall₂_iff_get]
  refine and_congr_right fun _ => ⟨fun h i a b ha hb => ?_, fun h i hi hi' => ?_⟩
  · obtain ⟨hi, rfl⟩ := List.getElem?_eq_some_iff.mp ha
    obtain ⟨hi', rfl⟩ := List.getElem?_eq_some_iff.mp hb
    exact h i hi hi'
  · exact h i _ _ (List.getElem?_eq_getElem hi) (List.getElem?_eq_getElem hi')

/-- Lists are the same under a function that gives the same for their members at each position. -/
theorem map_zipIdx_eq_of_forall₂ {f : α × Nat → β} {list list' : List α}
    (h : List.Forall₂ (fun a a' => ∀ i, f (a, i) = f (a', i)) list list') (start : Nat) :
    (list.zipIdx start).map f = (list'.zipIdx start).map f := by
  induction h generalizing start with
  | nil => rfl
  | cons hfirst _ ih =>
    rw [List.zipIdx_cons, List.zipIdx_cons, List.map_cons, List.map_cons, hfirst, ih]

end RpcSchema.Outcome
