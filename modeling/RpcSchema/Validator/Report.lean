import RpcSchema.Validator.ValueError

set_option autoImplicit false

/-!
# Reports and attempts

A walk through a document or a value follows references without moving on in it, so that it may
never come to an end. A walk gives `none` in that case, and only then.

A walk that collects every error gives a *report*; one that stops at the first is an *attempt*.

## Main definitions

* `RpcSchema.Walk` — the outcome of a walk, `none` if it does not end.
* `RpcSchema.Report` — what a part of a document gave, and everything that is wrong with it.
* `RpcSchema.Attempt` — a walk that gives something or the first error.
-/

namespace RpcSchema

/-- **The outcome of a walk**; an endless one has none. -/
abbrev Walk : Type → Type := Option

/-- **A report**: what a part of a document gave, if anything, and what is wrong with it. -/
structure Report (α : Type) where
  value? : Option α
  errors : List ValueError

namespace Report

variable {α β : Type}

/-- Nothing is wrong. -/
def ok (value : α) : Report α := ⟨some value, []⟩

/-- One thing is wrong, and nothing was given. -/
def fail (instancePath schemaPath : Pointer) (fault : ValueFault) : Report α :=
  ⟨none, [⟨instancePath, schemaPath, fault⟩]⟩

/-- The same report with what was given changed. -/
def map (f : α → β) (report : Report α) : Report β := ⟨report.value?.map f, report.errors⟩

/-- The same report seen from an enclosing value and an enclosing schema. -/
def under (inInstance inSchema : Pointer) (report : Report α) : Report α :=
  { report with errors := report.errors.map (·.under inInstance inSchema) }

/-- **The report on a whole** from those on its parts: it is given when nothing is wrong with any
of them. -/
def gather (parts : List (Report α)) : Report (List α) :=
  let errors := parts.flatMap (·.errors)
  ⟨if errors.isEmpty then some (parts.filterMap (·.value?)) else none, errors⟩

/-- What was given, or what is wrong. -/
def result (report : Report α) : Except (List ValueError) α :=
  match report.value?, report.errors with
  | some value, [] => .ok value
  | _, errors => .error errors

end Report

/-- **An attempt** gives something or stops at the first error, if it ends. -/
abbrev Attempt : Type → Type := ExceptT ValueError Walk

namespace Attempt

variable {α : Type}

/-- Stops with an error. -/
def fail (instancePath schemaPath : Pointer) (fault : ValueFault) : Attempt α :=
  ExceptT.mk (some (.error ⟨instancePath, schemaPath, fault⟩))

/-- The same attempt seen from an enclosing value and an enclosing schema. -/
def under (inInstance inSchema : Pointer) (attempt : Attempt α) : Attempt α :=
  ExceptT.mk (attempt.run.map (·.mapError (·.under inInstance inSchema)))

/-- An attempt with an outcome of a scalar, whose rule is the keyword of its kind. -/
def ofScalar (outcome : Except ValueFault α) : Attempt α :=
  match outcome with
  | .ok value => pure value
  | .error fault => fail [] ["type"] fault

end Attempt

end RpcSchema
