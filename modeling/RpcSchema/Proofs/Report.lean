import RpcSchema.Proofs.Outcome
import RpcSchema.Validator.Report

set_option autoImplicit false

/-!
# When reports and attempts succeed

A walk over the members of a list succeeds when it does for each of them, and so does the report on
a whole that is gathered from the reports on its parts. For the latter no part may stay silent: a
report that finds nothing wrong gives something.

## Main definitions

* `RpcSchema.Attempt.Fails` — an attempt that ends with an error.
* `RpcSchema.Report.Proper` — a report that gives something unless it finds something wrong.
* `RpcSchema.Report.Exact` — a report that does so, and gives nothing otherwise.

## Main results

* `RpcSchema.Attempt.mapM_eq_ok_iff` — attempts at the members of a list.
* `RpcSchema.Report.gather_eq_ok_iff` — the report on a whole.
-/

namespace RpcSchema

/-! ## Walks -/

theorem Walk.mapM_eq_some_iff {α β : Type} {f : α → Walk β} :
    ∀ {list : List α} {results : List β},
      list.mapM f = some results ↔ List.Forall₂ (fun a b => f a = some b) list results
  | [], results => by simp [eq_comm]
  | a :: rest, results => by
    rw [List.mapM_cons, List.forall₂_cons_left_iff]
    simp only [Option.bind_eq_bind, Option.bind_eq_some_iff, Option.pure_def, Option.some.injEq,
      Walk.mapM_eq_some_iff]
    constructor
    · rintro ⟨b, hb, bs, hbs, rfl⟩
      exact ⟨b, bs, hb, hbs, rfl⟩
    · rintro ⟨b, bs, hb, hbs, rfl⟩
      exact ⟨b, hb, bs, hbs, rfl⟩

/-- Members with their positions match as the members do. -/
theorem forall₂_zipIdx_iff {α β : Type} {relation : α → β → Prop} {list : List α}
    {results : List β} :
    List.Forall₂ (fun pair b => relation pair.1 b) list.zipIdx results ↔
      List.Forall₂ relation list results := by
  rw [← List.forall₂_map_left_iff, List.zipIdx_map_fst]

/-! ## Attempts -/

namespace Attempt

variable {α β : Type}

@[simp] theorem pure_eq_ok_iff {a b : α} :
    (pure a : Attempt α) = some (.ok b) ↔ b = a := by
  constructor
  · intro h
    cases h
    rfl
  · rintro rfl
    rfl

@[simp] theorem fail_ne_ok {inInstance inSchema : Pointer} {fault : ValueFault} {b : α} :
    (fail inInstance inSchema fault : Attempt α) ≠ some (.ok b) := by
  intro h
  cases h

theorem bind_eq_ok_iff {a : Attempt α} {f : α → Attempt β} {b : β} :
    (a >>= f : Attempt β) = some (.ok b) ↔ ∃ x, a = some (.ok x) ∧ f x = some (.ok b) := by
  constructor
  · intro h
    rcases a with _ | _ | x
    · cases h
    · cases h
    · exact ⟨x, rfl, h⟩
  · rintro ⟨x, rfl, h⟩
    exact h

@[simp] theorem under_eq_ok_iff {a : Attempt α} {inInstance inSchema : Pointer} {b : α} :
    a.under inInstance inSchema = some (.ok b) ↔ a = some (.ok b) := by
  rcases a with _ | _ | x
  · exact Iff.rfl
  · constructor <;> intro h <;> cases h
  · exact Iff.rfl

@[simp] theorem ofScalar_eq_ok_iff {outcome : Except ValueFault α} {b : α} :
    ofScalar outcome = some (.ok b) ↔ outcome = .ok b := by
  cases outcome with
  | error fault => simp [ofScalar]
  | ok a => rw [ofScalar, pure_eq_ok_iff, Except.ok.injEq, eq_comm]

theorem mapM_eq_ok_iff {f : α → Attempt β} :
    ∀ {list : List α} {results : List β}, (list.mapM f : Attempt (List β)) = some (.ok results) ↔
      List.Forall₂ (fun a b => f a = some (.ok b)) list results
  | [], results => by
    rw [List.mapM_nil, pure_eq_ok_iff, List.forall₂_nil_left_iff]
  | a :: rest, results => by
    rw [List.mapM_cons, List.forall₂_cons_left_iff, bind_eq_ok_iff]
    constructor
    · rintro ⟨b, hb, h⟩
      obtain ⟨bs, hbs, h⟩ := bind_eq_ok_iff.mp h
      exact ⟨b, bs, hb, mapM_eq_ok_iff.mp hbs, pure_eq_ok_iff.mp h⟩
    · rintro ⟨b, bs, hb, hbs, rfl⟩
      exact ⟨b, hb, bind_eq_ok_iff.mpr ⟨bs, mapM_eq_ok_iff.mpr hbs, pure_eq_ok_iff.mpr rfl⟩⟩

/-- **An attempt fails** when it ends with an error. -/
def Fails (a : Attempt α) : Prop := ∃ error, a = some (.error error)

@[simp] theorem not_fails_pure {a : α} : ¬ (pure a : Attempt α).Fails := nofun

@[simp] theorem fails_fail {inInstance inSchema : Pointer} {fault : ValueFault} :
    (fail inInstance inSchema fault : Attempt α).Fails := ⟨_, rfl⟩

/-- What ends gives something unless it fails. -/
theorem exists_ok_of_not_fails {a : Attempt α} (hends : Option.isSome a = true)
    (h : ¬ a.Fails) : ∃ b, a = some (.ok b) := by
  rcases a with _ | error | b
  · cases hends
  · exact absurd ⟨error, rfl⟩ h
  · exact ⟨b, rfl⟩

/-- What fails gives nothing. -/
theorem Fails.ne_ok {a : Attempt α} (h : a.Fails) (b : α) : a ≠ some (.ok b) := by
  obtain ⟨error, rfl⟩ := h
  nofun

/-- Going on fails when the first attempt fails, or the one that goes on from what it gives. -/
theorem fails_bind_iff {a : Attempt α} {f : α → Attempt β} :
    (a >>= f : Attempt β).Fails ↔ a.Fails ∨ ∃ x, a = some (.ok x) ∧ (f x).Fails := by
  constructor
  · rintro ⟨error, h⟩
    rcases a with _ | other | x
    · cases h
    · exact .inl ⟨other, rfl⟩
    · exact .inr ⟨x, rfl, error, h⟩
  · rintro (⟨error, rfl⟩ | ⟨x, rfl, h⟩)
    · exact ⟨error, rfl⟩
    · exact h

@[simp] theorem fails_under_iff {a : Attempt α} {inInstance inSchema : Pointer} :
    (a.under inInstance inSchema).Fails ↔ a.Fails := by
  rcases a with _ | error | x
  · exact Iff.rfl
  · exact iff_of_true ⟨_, rfl⟩ ⟨error, rfl⟩
  · exact iff_of_false nofun nofun

/-- Attempts at the members of a list fail only where one of them does. -/
theorem exists_of_fails_mapM {f : α → Attempt β} :
    ∀ {list : List α}, (list.mapM f : Attempt (List β)).Fails → ∃ a ∈ list, (f a).Fails
  | [], h => absurd h not_fails_pure
  | a :: rest, h => by
    rw [List.mapM_cons] at h
    rcases fails_bind_iff.mp h with h | ⟨b, -, h⟩
    · exact ⟨a, List.mem_cons_self, h⟩
    · rcases fails_bind_iff.mp h with h | ⟨bs, -, h⟩
      · obtain ⟨other, hother, h⟩ := exists_of_fails_mapM h
        exact ⟨other, List.mem_cons_of_mem a hother, h⟩
      · exact absurd h not_fails_pure

end Attempt

/-! ## Reports -/

namespace Report

variable {α β : Type}

/-- **A proper report** gives something unless it finds something wrong. -/
def Proper (report : Report α) : Prop := report.errors = [] → ∃ value, report = ok value

theorem proper_ok (value : α) : (ok value).Proper := fun _ => ⟨value, rfl⟩

theorem proper_fail (inInstance inSchema : Pointer) (fault : ValueFault) :
    (fail inInstance inSchema fault : Report α).Proper := fun h => by cases h

@[simp] theorem fail_ne_ok {inInstance inSchema : Pointer} {fault : ValueFault} {value : α} :
    (fail inInstance inSchema fault : Report α) ≠ ok value := by
  intro h
  cases h

@[simp] theorem ok_inj {value value' : α} : ok value = ok value' ↔ value = value' := by
  simp [ok]

theorem map_eq_ok_iff {report : Report α} {f : α → β} {value : β} :
    report.map f = ok value ↔ ∃ a, report = ok a ∧ f a = value := by
  obtain ⟨value?, errors⟩ := report
  cases value? with
  | none => simp [map, ok]
  | some a => simp [map, ok, and_comm]

@[simp] theorem under_eq_ok_iff {report : Report α} {inInstance inSchema : Pointer} {value : α} :
    report.under inInstance inSchema = ok value ↔ report = ok value := by
  obtain ⟨value?, errors⟩ := report
  simp [under, ok]

theorem Proper.map {report : Report α} (h : report.Proper) (f : α → β) : (report.map f).Proper := by
  intro herrors
  obtain ⟨a, rfl⟩ := h herrors
  exact ⟨f a, rfl⟩

theorem Proper.under {report : Report α} (h : report.Proper) (inInstance inSchema : Pointer) :
    (report.under inInstance inSchema).Proper := by
  intro herrors
  obtain ⟨a, rfl⟩ := h (List.map_eq_nil_iff.mp herrors)
  exact ⟨a, rfl⟩

theorem proper_gather (parts : List (Report α)) : (gather parts).Proper := by
  intro herrors
  have hempty : (parts.flatMap (·.errors)) = [] := herrors
  exact ⟨parts.filterMap (·.value?), by simp [gather, hempty, ok]⟩

/-- **An exact report** gives something if and only if it finds nothing wrong. -/
def Exact (report : Report α) : Prop := report.value?.isSome = true ↔ report.errors = []

theorem exact_ok (value : α) : (ok value).Exact := by simp [Exact, ok]

theorem exact_fail (inInstance inSchema : Pointer) (fault : ValueFault) :
    (fail inInstance inSchema fault : Report α).Exact := by simp [Exact, fail]

theorem exact_gather (parts : List (Report α)) : (gather parts).Exact := by
  by_cases h : parts.flatMap (·.errors) = [] <;> simp [Exact, gather, h]

@[simp] theorem exact_map_iff {report : Report α} {f : α → β} :
    (report.map f).Exact ↔ report.Exact := by simp [Exact, map]

@[simp] theorem exact_under_iff {report : Report α} {inInstance inSchema : Pointer} :
    (report.under inInstance inSchema).Exact ↔ report.Exact := by simp [Exact, under]

theorem Exact.proper {report : Report α} (h : report.Exact) : report.Proper := by
  intro herrors
  obtain ⟨value, hvalue⟩ := Option.isSome_iff_exists.mp (h.mpr herrors)
  obtain ⟨value?, errors⟩ := report
  exact ⟨value, by simp_all [ok]⟩

/-- **The report on a whole** gives what the reports on its parts give. -/
theorem gather_eq_ok_iff {parts : List (Report α)} (h : ∀ part ∈ parts, part.Proper)
    {values : List α} : gather parts = ok values ↔ parts = values.map ok := by
  constructor
  · intro hgather
    have herrors : parts.flatMap (·.errors) = [] := congrArg Report.errors hgather
    have hvalues : parts.filterMap (·.value?) = values := by
      have := congrArg Report.value? hgather
      simpa [gather, herrors, ok] using this
    subst hvalues
    clear hgather
    induction parts with
    | nil => rfl
    | cons part rest ih =>
      simp only [List.flatMap_cons, List.append_eq_nil_iff] at herrors
      obtain ⟨value, rfl⟩ := h part List.mem_cons_self herrors.1
      have hrest := ih (fun p hp => h p (List.mem_cons_of_mem _ hp)) herrors.2
      rw [List.filterMap_cons_some (by rfl), List.map_cons, ← hrest]
  · rintro rfl
    have herrors : (values.map ok).flatMap (fun part : Report α => part.errors) = [] := by
      simp [List.flatMap_map, ok]
    have hvalues : (values.map ok).filterMap (fun part : Report α => part.value?) = values := by
      simp [List.filterMap_map, ok, Function.comp_def]
    simp [gather, herrors, hvalues, ok]

/-- **The report on a list** that is walked along, when all the reports on its members are
proper. -/
theorem gather_mapM_eq_ok_iff {f : α → Walk (Report β)} {list : List α}
    (h : ∀ a report, f a = some report → report.Proper) {values : List β} :
    (∃ reports, list.mapM f = some reports ∧ gather reports = ok values) ↔
      List.Forall₂ (fun a value => f a = some (ok value)) list values := by
  constructor
  · rintro ⟨reports, hreports, hvalues⟩
    rw [Walk.mapM_eq_some_iff] at hreports
    have hproper : ∀ report ∈ reports, report.Proper := by
      intro report hreport
      obtain ⟨a, -, ha⟩ := Outcome.exists_of_forall₂_right hreports report hreport
      exact h a report ha
    rw [gather_eq_ok_iff hproper] at hvalues
    rwa [hvalues, List.forall₂_map_right_iff] at hreports
  · intro hvalues
    refine ⟨values.map ok, ?_, ?_⟩
    · rwa [Walk.mapM_eq_some_iff, List.forall₂_map_right_iff]
    · rw [gather_eq_ok_iff]
      intro report hreport
      obtain ⟨value, -, rfl⟩ := List.mem_map.mp hreport
      exact proper_ok value

/-- What is given is the result when nothing is wrong. -/
theorem result_eq_ok_iff {report : Report α} {value : α} :
    report.result = .ok value ↔ report = ok value := by
  obtain ⟨value?, errors⟩ := report
  cases value? <;> cases errors <;> simp [result, ok]

end Report

end RpcSchema
