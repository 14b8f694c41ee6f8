import RpcSchema.Proofs.Program.Pieces

set_option autoImplicit false

/-!
# Collecting errors in one list

A report says what is wrong with one part, and the reports on the parts are put together. Instead,
one list of errors may be handed from part to part, each of which adds to it at the end; a whole is
then known to be right by the length of the list before its parts and after them. Both come to the
same.

## Main definitions

* `RpcSchema.Collector` — a computation that is handed a list of errors and adds to it.
* `RpcSchema.Collector.each`, `RpcSchema.Collector.whole` — what the parts give, and whether it
  makes a whole.
* `RpcSchema.Collector.Exact` — errors are added, and something is given unless there are any.
* `RpcSchema.Collector.Follows` — a collector does what a walk to a report does.

## Main results

* `RpcSchema.Collector.Follows.exact` — a collector that follows a walk is exact.
* `RpcSchema.Collector.FollowAll.whole` — counting errors decides as gathering reports does.
-/

namespace RpcSchema

variable {α β γ : Type}

/-! ## Reports -/

namespace Report

theorem map_under (report : Report α) (f : α → β) (inInstance inSchema : Pointer) :
    (report.map f).under inInstance inSchema = (report.under inInstance inSchema).map f := rfl

theorem under_nil (report : Report α) : report.under [] [] = report := by
  simp [under, ValueError.under_nil]

theorem under_under (report : Report α) (place rule place' rule' : Pointer) :
    (report.under place rule).under place' rule' =
      report.under (place' ++ place) (rule' ++ rule) := by
  simp [under, ValueError.under_under]

/-- The parts may be seen from outside before they are gathered. -/
theorem under_gather (parts : List (Report α)) (inInstance inSchema : Pointer) :
    (gather parts).under inInstance inSchema =
      gather (parts.map (·.under inInstance inSchema)) := by
  simp [gather, under, List.map_flatMap, List.flatMap_map, List.filterMap_map]

end Report

/-! ## Collectors -/

/-- **A collector** is handed the errors found so far and adds its own to them. -/
abbrev Collector (α : Type) : Type := StateT (List ValueError) Walk α

namespace Collector

/-- Adds the errors of a report and gives what it gives. -/
def ofReport (report : Report α) : Collector (Option α) := do
  modify (· ++ report.errors)
  return report.value?

/-- Adds one error, and nothing is given. -/
def fail (place rule : Pointer) (fault : ValueFault) : Collector (Option α) :=
  ofReport (.fail place rule fault)

/-- **What the parts give**, one after the other; a part that gives nothing is left out. -/
def each : List (Collector (Option α)) → Collector (List α)
  | [] => return []
  | part :: parts => do
    let value? ← part
    let values ← each parts
    return value?.toList ++ values

/-- **The whole** of some parts is given when there are as many errors after them as before. -/
def whole (parts : List (Collector (Option α))) : Collector (Option (List α)) := do
  let before ← get
  let values ← each parts
  let after ← get
  return if after.length = before.length then some values else none

/-- **Errors are kept exactly**: whatever the errors were, more are only ever added to them, and
something is given if and only if none were added. -/
def Exact (collector : Collector (Option α)) : Prop :=
  ∀ errors value? after, collector.run errors = some (value?, after) →
    ∃ added, after = errors ++ added ∧ (value?.isSome = true ↔ added = [])

/-- Exact parts that add no error give a value each. -/
theorem exists_added_of_each : ∀ {parts : List (Collector (Option α))} {errors : List ValueError}
    {values : List α} {after : List ValueError}, (∀ part ∈ parts, part.Exact) →
      (each parts).run errors = some (values, after) →
        ∃ added, after = errors ++ added ∧ (added = [] →
          List.Forall₂ (fun part value => part.run errors = some (some value, errors)) parts values)
  | [], errors, values, after, _, hrun => by
    cases hrun
    exact ⟨[], by simp, fun _ => .nil⟩
  | part :: parts, errors, values, after, hexact, hrun => by
    obtain ⟨hpart, hparts⟩ := List.forall_mem_cons.mp hexact
    simp only [each, StateT.run_bind, Option.bind_eq_bind, Option.bind_eq_some_iff] at hrun
    obtain ⟨⟨value?, middle⟩, hfirst, ⟨rest, last⟩, hrest, hlast⟩ := hrun
    cases hlast
    obtain ⟨added, rfl, hvalue⟩ := hpart errors value? middle hfirst
    obtain ⟨added', rfl, hvalues⟩ := exists_added_of_each hparts hrest
    refine ⟨added ++ added', List.append_assoc .., fun hnone => ?_⟩
    obtain ⟨rfl, rfl⟩ := List.append_eq_nil_iff.mp hnone
    obtain ⟨value, rfl⟩ := Option.isSome_iff_exists.mp (hvalue.mpr rfl)
    rw [List.append_nil] at hfirst hvalues
    exact .cons hfirst (hvalues rfl)

/-- **Nothing is left out of a whole** that is given: each of its exact parts gives a value. -/
theorem forall₂_of_whole {parts : List (Collector (Option α))} {errors after : List ValueError}
    {values : List α} (hexact : ∀ part ∈ parts, part.Exact)
    (hrun : (whole parts).run errors = some (some values, after)) :
    List.Forall₂ (fun part value => part.run errors = some (some value, errors)) parts values := by
  simp only [whole, StateT.run_bind, StateT.run_get, Option.bind_eq_bind, Option.pure_def,
    Option.bind_some, Option.bind_eq_some_iff] at hrun
  obtain ⟨⟨values', after'⟩, hparts, hlast⟩ := hrun
  obtain ⟨added, rfl, hvalues⟩ := exists_added_of_each hexact hparts
  have hgiven : (if (errors ++ added).length = errors.length then some values' else none) =
      some values := congrArg Prod.fst (Option.some.inj hlast)
  rw [Option.ite_none_right_eq_some, List.length_append, Nat.add_eq_left,
    List.length_eq_zero_iff, Option.some.injEq] at hgiven
  obtain ⟨hnone, rfl⟩ := hgiven
  exact hvalues hnone

/-! ## Following walks -/

/-- **A collector follows a walk** to an exact report: it adds the errors of the report, and gives
what the report gives. -/
structure Follows (collector : Collector (Option α)) (walk : Walk (Report α)) : Prop where
  run : ∀ errors,
    collector.run errors = walk.map fun report => (report.value?, errors ++ report.errors)
  proper : ∀ report, walk = some report → report.Exact

/-- A collector that follows a walk is exact. -/
theorem Follows.exact {collector : Collector (Option α)} {walk : Walk (Report α)}
    (h : collector.Follows walk) : collector.Exact := by
  intro errors value? after hrun
  rw [h.run, Option.map_eq_some_iff] at hrun
  obtain ⟨report, hreport, heq⟩ := hrun
  cases heq
  exact ⟨report.errors, rfl, h.proper report hreport⟩

theorem follows_ofReport {report : Report α} (h : report.Exact) :
    (ofReport report).Follows (some report) where
  run _ := rfl
  proper _ hreport := Option.some.inj hreport ▸ h

/-- What never ends follows what never ends. -/
theorem follows_none : Follows (StateT.lift none : Collector (Option α)) none where
  run _ := rfl
  proper := nofun

theorem follows_pure (value : α) :
    (pure (some value) : Collector (Option α)).Follows (some (.ok value)) where
  run errors := by simp [Report.ok]
  proper _ hreport := Option.some.inj hreport ▸ Report.exact_ok value

theorem follows_fail (place rule : Pointer) (fault : ValueFault) :
    (fail place rule fault : Collector (Option α)).Follows (some (.fail place rule fault)) :=
  follows_ofReport (Report.exact_fail place rule fault)

theorem Follows.map {collector : Collector (Option α)} {walk : Walk (Report α)}
    (h : collector.Follows walk) (f : α → β) :
    (Option.map f <$> collector).Follows (walk.map (Report.map f)) where
  run errors := by
    rw [StateT.run_map, h.run, Option.map_eq_map, Option.map_map, Option.map_map]
    rfl
  proper report hreport := by
    obtain ⟨inner, hinner, rfl⟩ := Option.map_eq_some_iff.mp hreport
    exact Report.exact_map_iff.mpr (h.proper inner hinner)

/-- **Collectors follow a walk** to reports, one for each of them: one after the other they add the
errors of the reports, and give what the reports give. -/
structure FollowAll (parts : List (Collector (Option α))) (walk : Walk (List (Report α))) :
    Prop where
  run : ∀ errors, (each parts).run errors = walk.map fun reports =>
    (reports.filterMap (·.value?), errors ++ reports.flatMap (·.errors))

theorem followAll_nil : FollowAll ([] : List (Collector (Option α))) (some []) where
  run errors := by simp [each]

theorem Follows.cons {part : Collector (Option α)} {parts : List (Collector (Option α))}
    {walk : Walk (Report α)} {walks : Walk (List (Report α))} (hpart : part.Follows walk)
    (hparts : FollowAll parts walks) :
    FollowAll (part :: parts) (do return (← walk) :: (← walks)) where
  run errors := by
    rw [each, StateT.run_bind, hpart.run]
    cases walk with
    | none => rfl
    | some report =>
      simp only [Option.map_some, Option.bind_eq_bind, Option.bind_some, StateT.run_bind,
        hparts.run]
      cases walks with
      | none => rfl
      | some reports => cases hvalue : report.value? <;> simp [hvalue]

theorem each_append (first second : List (Collector (Option α))) :
    each (first ++ second) = do return (← each first) ++ (← each second) := by
  induction first with
  | nil => simp [each]
  | cons part parts ih =>
    simp only [List.cons_append, each, ih, bind_assoc, pure_bind, List.append_assoc]

theorem FollowAll.append {first second : List (Collector (Option α))}
    {walk walk' : Walk (List (Report α))} (hfirst : FollowAll first walk)
    (hsecond : FollowAll second walk') :
    FollowAll (first ++ second) (do return (← walk) ++ (← walk')) where
  run errors := by
    rw [each_append, StateT.run_bind, hfirst.run]
    cases walk with
    | none => rfl
    | some reports =>
      simp only [Option.map_some, Option.bind_eq_bind, Option.bind_some, StateT.run_bind,
        hsecond.run]
      cases walk' with
      | none => rfl
      | some reports' => simp

/-- A part for each member of a list, whose reports are changed by a function. -/
theorem followAll_map {f : β → Collector (Option α)} {walk : β → Walk (Report α)}
    {change : Report α → Report α} :
    ∀ (list : List β), (∀ b ∈ list, (f b).Follows ((walk b).map change)) →
      FollowAll (list.map f) ((list.mapM walk).map (List.map change))
  | [], _ => followAll_nil
  | b :: list, h => by
    obtain ⟨hfirst, hrest⟩ := List.forall_mem_cons.mp h
    have hall := hfirst.cons (followAll_map list hrest)
    rw [List.map_cons, List.mapM_cons]
    cases hreport : walk b <;> cases hreports : list.mapM walk <;>
      · rw [hreport, hreports] at hall
        exact hall

/-- **Counting the errors** before the parts and after them decides as gathering the reports on
them does. -/
theorem FollowAll.whole {parts : List (Collector (Option α))} {walk : Walk (List (Report α))}
    (h : FollowAll parts walk) : (Collector.whole parts).Follows (walk.map Report.gather) where
  run errors := by
    simp only [Collector.whole, StateT.run_bind, StateT.run_get, h.run]
    cases walk with
    | none => rfl
    | some reports =>
      have hcount : (errors ++ reports.flatMap (·.errors)).length = errors.length ↔
          (reports.flatMap (·.errors)).isEmpty = true := by
        rw [List.length_append, Nat.add_eq_left, List.isEmpty_iff, List.length_eq_zero_iff]
      have hvalue := if_congr hcount (Eq.refl (some (reports.filterMap (·.value?)))) (Eq.refl none)
      exact congrArg (fun value? => some (value?, errors ++ reports.flatMap (·.errors))) hvalue
  proper report hreport := by
    obtain ⟨reports, -, rfl⟩ := Option.map_eq_some_iff.mp hreport
    exact Report.exact_gather reports

end Collector

end RpcSchema
