import Mathlib.Data.List.Induction
import RpcSchema.Proofs.Codegen.StrictNames
import RpcSchema.Proofs.Effect

set_option autoImplicit false

/-!
# What a strict registry answers

A registry goes through calls that take names, some of them for schemas. A name is free until it is
taken, may be taken without a shape, and gets the shape of the first schema that it is taken for.
From then on it stands for this shape, and a call for a schema of another shape is a conflict, which
changes nothing.

## Main definitions

* `RpcSchema.NameRegistry.Call`, `RpcSchema.NameRegistry.Call.make` — calls, and how they are made.
* `RpcSchema.NameRegistry.answer`, `RpcSchema.NameRegistry.run` — the answer to a call, and the
  registry after calls.
* `RpcSchema.NameRegistry.Answered` — what a call can do.
* `RpcSchema.NameRegistry.Accepted` — a call for a name and a schema has been answered without an
  error.
* `RpcSchema.NameRegistry.Tracks` — the invariant of a registry.

## Main results

* `RpcSchema.NameRegistry.answered_answer` — a strict registry does nothing else.
* `RpcSchema.NameRegistry.tracks_run` — the invariant holds after any calls.
* `RpcSchema.NameRegistry.keeps_names_and_shapes` — names are taken once and in order, stand for one
  shape each, and are not changed by conflicts.
-/

namespace RpcSchema.NameRegistry

/-! ## Shapes -/

theorem shapeOf_eq_iff {schema other : Schema} :
    shapeOf schema = shapeOf other ↔ schema.SameShape other :=
  ⟨sameShape_of_shapeOf_eq, congrArg Schema.fingerprint⟩

/-! ## Calls -/

/-- **A call** on a registry. -/
inductive Call
  /-- Takes a name. -/
  | take (name : String)
  /-- Takes a name for a schema met at a place. -/
  | takeFor (name : String) (schema : Schema) (place : String)

namespace Call

/-- The name that a call takes. -/
def name : Call → String
  | .take name => name
  | .takeFor name _ _ => name

/-- The shape that a call takes its name for, if any. -/
def shape? : Call → Option String
  | .take _ => none
  | .takeFor _ schema _ => some (shapeOf schema)

/-- **Makes a call** on the registry at hand. What it has done before an error stays done. -/
def make : Call → ExceptT CodegenError (StateM NameRegistry) Bool
  | .take name => modifyGet (·.register name)
  | .takeFor name schema place => do
    let (isNew, registry) ←
      ((← get).registerSchema name schema place : Except CodegenError (Bool × NameRegistry))
    set registry
    return isNew

end Call

/-- **The answer to a call**, and the registry after it. -/
def answer (registry : NameRegistry) (call : Call) : Except CodegenError Bool × NameRegistry :=
  call.make.run registry

/-- **The strict registry after calls**, from the one without names on. -/
def run (calls : List Call) : NameRegistry :=
  calls.foldl (fun registry call => (registry.answer call).2) { strict := true }

theorem run_concat (calls : List Call) (call : Call) :
    run (calls ++ [call]) = ((run calls).answer call).2 := by
  rw [run, run, List.foldl_append]
  rfl

/-! ## One answer -/

/-- The registry with a name and the shape that it stands for, if any. -/
def record (registry : NameRegistry) (name : String) (shape? : Option String) : NameRegistry :=
  { registry with names := Entries.insert registry.names name shape? }

/-- **What a call does** to a strict registry. -/
inductive Answered (registry : NameRegistry) :
    Call → Except CodegenError Bool × NameRegistry → Prop
  /-- The name is free and is taken. -/
  | free {call : Call} (new : registry.names.lookup call.name = none) :
      Answered registry call (.ok true, registry.record call.name call.shape?)
  /-- The name is taken without a shape and gets that of the call. -/
  | settled {call : Call} (unsettled : registry.names.lookup call.name = some none) :
      Answered registry call (.ok false, registry.record call.name call.shape?)
  /-- The name stands for a shape, and the call asks for no other. -/
  | known {call : Call} {shape : String}
      (taken : registry.names.lookup call.name = some (some shape))
      (agrees : ∀ asked, call.shape? = some asked → asked = shape) :
      Answered registry call (.ok false, registry)
  /-- The name stands for another shape. -/
  | conflict {name place shape : String} {schema : Schema}
      (taken : registry.names.lookup name = some (some shape)) (differs : shape ≠ shapeOf schema) :
      Answered registry (.takeFor name schema place) (.error (.nameConflict name place), registry)

section

variable {registry : NameRegistry}

theorem answer_take (name : String) :
    registry.answer (.take name) =
      (.ok (registry.register name).1, (registry.register name).2) := rfl

theorem answer_takeFor (name : String) (schema : Schema) (place : String) :
    registry.answer (.takeFor name schema place) =
      match registry.registerSchema name schema place with
      | .ok (isNew, after) => (.ok isNew, after)
      | .error error => (.error error, registry) := by
  rw [answer, Call.make, Effect.run_bind]
  change (liftM (registry.registerSchema name schema place) >>= fun taken => do
    set taken.2
    return taken.1 : ExceptT CodegenError (StateM NameRegistry) Bool).run registry = _
  cases registry.registerSchema name schema place <;> rfl

theorem mem_keys_of_lookup {name : String} {shape? : Option String}
    (h : registry.names.lookup name = some shape?) : name ∈ Entries.keys registry.names :=
  Entries.exists_lookup_iff.mp ⟨_, h⟩

/-- **A strict registry does nothing else** at a call. -/
theorem answered_answer (hstrict : registry.strict = true) (call : Call) :
    Answered registry call (registry.answer call) := by
  cases call with
  | take name =>
    rw [answer_take, register]
    have hcontains : registry.contains name = true ↔ name ∈ Entries.keys registry.names :=
      Entries.contains_eq_true_iff
    rcases hfound : registry.names.lookup name with _ | _ | shape
    · rw [if_neg (mt hcontains.mp (Entries.lookup_eq_none_iff.mp hfound))]
      exact .free hfound
    · rw [if_pos (hcontains.mpr (mem_keys_of_lookup hfound))]
      -- To record once more that the name has no shape changes nothing.
      have hsame : registry.record name none = registry := by
        rw [record, Entries.insert_eq_self hfound]
      have hsettled : Answered registry (.take name) (.ok false, registry.record name none) :=
        .settled hfound
      rwa [hsame] at hsettled
    · rw [if_pos (hcontains.mpr (mem_keys_of_lookup hfound))]
      exact .known hfound nofun
  | takeFor name schema place =>
    rw [answer_takeFor, registerSchema, registerShape]
    rcases hfound : registry.names.lookup name with _ | _ | shape
    · exact .free hfound
    · exact .settled hfound
    · by_cases hshape : shape = shapeOf schema
      · simp only [hshape, ne_eq, not_true_eq_false, and_false, if_false]
        exact .known hfound fun asked hasked => hshape ▸ (Option.some.inj hasked).symm
      · simp only [hstrict, ne_eq, hshape, not_false_eq_true, and_self, if_true]
        exact .conflict hfound hshape

/-- What is recorded for a name that stood for no shape is the only shape that is new. -/
theorem lookup_record_eq_iff {taken : String} {shape? : Option String}
    (hnone : ∀ known, registry.names.lookup taken ≠ some (some known)) {name shape : String} :
    (registry.record taken shape?).names.lookup name = some (some shape) ↔
      registry.names.lookup name = some (some shape) ∨ name = taken ∧ shape? = some shape := by
  rw [record, Entries.lookup_insert]
  by_cases hname : name = taken
  · subst hname
    simp [hnone]
  · simp [hname]

end

namespace Answered

variable {registry : NameRegistry} {call : Call}
  {outcome : Except CodegenError Bool × NameRegistry}

theorem strict_eq (h : Answered registry call outcome) :
    outcome.2.strict = registry.strict := by
  cases h <;> rfl

/-- A call adds its name behind the others unless it is taken. -/
theorem keys_eq (h : Answered registry call outcome) :
    Entries.keys outcome.2.names =
      if call.name ∈ Entries.keys registry.names then Entries.keys registry.names
      else Entries.keys registry.names ++ [call.name] := by
  cases h with
  | free new => exact Entries.keys_insert _ _ _
  | settled unsettled => exact Entries.keys_insert _ _ _
  | known taken agrees => exact (if_pos (mem_keys_of_lookup taken)).symm
  | conflict taken differs => exact (if_pos (mem_keys_of_lookup taken)).symm

/-- **A name stands for a shape** after a call if it did before, or if the call asks for the shape
and is not answered with an error. -/
theorem lookup_eq_iff (h : Answered registry call outcome) {name shape : String} :
    outcome.2.names.lookup name = some (some shape) ↔
      registry.names.lookup name = some (some shape) ∨
        name = call.name ∧ call.shape? = some shape ∧ ∃ isNew, outcome.1 = .ok isNew := by
  cases h with
  | free new =>
    rw [lookup_record_eq_iff fun known hknown => by simp [new] at hknown]
    simp
  | settled unsettled =>
    rw [lookup_record_eq_iff fun known hknown => by simp [unsettled] at hknown]
    simp
  | known taken agrees =>
    refine ⟨.inl, ?_⟩
    rintro (hbefore | ⟨rfl, hasked, -⟩)
    · exact hbefore
    · rw [agrees shape hasked, taken]
  | conflict taken differs =>
    refine ⟨.inl, ?_⟩
    rintro (hbefore | ⟨-, -, isNew, hanswer⟩)
    · exact hbefore
    · cases hanswer

theorem eq_true_iff (h : Answered registry call outcome) :
    outcome.1 = .ok true ↔ registry.names.lookup call.name = none := by
  cases h with
  | free new => simp [new]
  | settled unsettled => simp [unsettled]
  | known taken agrees => simp [taken]
  | conflict taken differs => simp [Call.name, taken]

/-- **Only a conflict is an error**, and only a name that stands for another shape is a conflict. -/
theorem eq_error_iff (h : Answered registry call outcome) {error : CodegenError} :
    outcome.1 = .error error ↔ ∃ name schema place shape,
      call = .takeFor name schema place ∧ error = .nameConflict name place ∧
        registry.names.lookup name = some (some shape) ∧ shape ≠ shapeOf schema := by
  constructor
  · intro herror
    cases h with
    | conflict taken differs =>
      cases herror
      exact ⟨_, _, _, _, rfl, rfl, taken, differs⟩
    | _ => cases herror
  · rintro ⟨name, schema, place, shape, rfl, rfl, hfound, hdiffers⟩
    cases h with
    | free new => simp [Call.name, hfound] at new
    | settled unsettled => simp [Call.name, hfound] at unsettled
    | known taken agrees =>
      obtain rfl : shape = _ := by simpa [Call.name, hfound] using taken
      exact absurd (agrees _ rfl).symm hdiffers
    | conflict taken differs => rfl

/-- An error changes nothing. -/
theorem eq_of_error (h : Answered registry call outcome) {error : CodegenError}
    (herror : outcome.1 = .error error) : outcome.2 = registry := by
  cases h with
  | conflict taken differs => rfl
  | _ => cases herror

end Answered

/-! ## Any calls -/

/-- **A call for a name and a schema has been answered** without an error. -/
def Accepted (calls : List Call) (name : String) (schema : Schema) : Prop :=
  ∃ before place after isNew, calls = before ++ .takeFor name schema place :: after ∧
    ((run before).answer (.takeFor name schema place)).1 = .ok isNew

/-- What has been accepted is accepted before the last call or by it. -/
theorem accepted_concat_iff {calls : List Call} {call : Call} {name : String} {schema : Schema} :
    Accepted (calls ++ [call]) name schema ↔ Accepted calls name schema ∨
      ∃ place isNew, call = .takeFor name schema place ∧
        ((run calls).answer call).1 = .ok isNew := by
  constructor
  · rintro ⟨before, place, after, isNew, heq, hanswer⟩
    rcases List.eq_nil_or_concat after with rfl | ⟨after, last, rfl⟩
    · obtain ⟨rfl, hcall⟩ := List.append_inj' heq rfl
      obtain rfl := List.singleton_inj.mp hcall
      exact .inr ⟨place, isNew, rfl, hanswer⟩
    · rw [List.concat_eq_append, ← List.cons_append, ← List.append_assoc] at heq
      obtain ⟨rfl, -⟩ := List.append_inj' heq rfl
      exact .inl ⟨before, place, after, isNew, rfl, hanswer⟩
  · rintro (⟨before, place, after, isNew, rfl, hanswer⟩ | ⟨place, isNew, rfl, hanswer⟩)
    · exact ⟨before, place, after ++ [call], isNew, by simp, hanswer⟩
    · exact ⟨calls, place, [], isNew, rfl, hanswer⟩

/-- **The invariant of a strict registry**: it lists the names that calls have taken, each in the
place of the first, and they stand for the shapes of the schemas accepted for them. -/
structure Tracks (calls : List Call) (registry : NameRegistry) : Prop where
  strict : registry.strict = true
  keys : Entries.keys registry.names = (calls.map Call.name).eraseDups
  shapes : ∀ name shape, registry.names.lookup name = some (some shape) ↔
    ∃ schema, Accepted calls name schema ∧ shapeOf schema = shape

/-- A last name is listed if it is none of those before. -/
theorem eraseDups_concat (names : List String) (name : String) :
    (names ++ [name]).eraseDups =
      if name ∈ names then names.eraseDups else names.eraseDups ++ [name] := by
  rw [List.eraseDups_append]
  by_cases hmem : name ∈ names
  · simp [hmem, List.removeAll]
  · simp [hmem, List.removeAll, List.eraseDups_cons]

theorem not_accepted_nil {name : String} {schema : Schema} : ¬ Accepted [] name schema := by
  rintro ⟨before, place, after, isNew, heq, -⟩
  simp at heq

theorem tracks_run_nil : Tracks [] (run []) where
  strict := rfl
  keys := rfl
  shapes name shape := by
    simp [run, not_accepted_nil]

/-- **A call keeps the invariant.** -/
theorem Tracks.concat {calls : List Call} (h : Tracks calls (run calls)) (call : Call) :
    Tracks (calls ++ [call]) (run (calls ++ [call])) := by
  have hanswered := answered_answer h.strict call
  rw [run_concat]
  refine ⟨hanswered.strict_eq.trans h.strict, ?_, fun name shape => ?_⟩
  · rw [hanswered.keys_eq, h.keys, List.map_append, List.map_singleton, eraseDups_concat]
    simp only [List.mem_eraseDups]
  · rw [hanswered.lookup_eq_iff, h.shapes]
    simp only [accepted_concat_iff, or_and_right, exists_or]
    refine or_congr_right ?_
    constructor
    · rintro ⟨rfl, hshape, isNew, hanswer⟩
      cases call with
      | take name => cases hshape
      | takeFor name schema place =>
        exact ⟨schema, ⟨place, isNew, rfl, hanswer⟩, Option.some.inj hshape⟩
    · rintro ⟨schema, ⟨place, isNew, rfl, hanswer⟩, rfl⟩
      exact ⟨rfl, rfl, isNew, hanswer⟩

/-- **The invariant holds after any calls.** -/
theorem tracks_run (calls : List Call) : Tracks calls (run calls) := by
  induction calls using List.reverseRecOn with
  | nil => exact tracks_run_nil
  | append_singleton calls call ih => exact ih.concat call

/-! ## What a registry keeps -/

section

variable {calls : List Call}

/-- A name is taken for schemas of one shape only. -/
theorem sameShape_of_accepted {name : String} {schema other : Schema}
    (hschema : Accepted calls name schema) (hother : Accepted calls name other) :
    schema.SameShape other := by
  have hshapes := (tracks_run calls).shapes name
  have hlookup := (hshapes _).mpr ⟨schema, hschema, rfl⟩
  rw [(hshapes _).mpr ⟨other, hother, rfl⟩] at hlookup
  exact shapeOf_eq_iff.mp (Option.some.inj (Option.some.inj hlookup)).symm

/-- A name stands for another shape if it has been taken for a schema of another shape. -/
theorem exists_shape_ne_iff {name : String} {schema : Schema} :
    (∃ shape, (run calls).names.lookup name = some (some shape) ∧ shape ≠ shapeOf schema) ↔
      ∃ other, Accepted calls name other ∧ ¬ other.SameShape schema := by
  have hshapes := (tracks_run calls).shapes name
  constructor
  · rintro ⟨shape, hlookup, hdiffers⟩
    obtain ⟨other, hother, rfl⟩ := (hshapes shape).mp hlookup
    exact ⟨other, hother, mt shapeOf_eq_iff.mpr hdiffers⟩
  · rintro ⟨other, hother, hdiffers⟩
    exact ⟨_, (hshapes _).mpr ⟨other, hother, rfl⟩, mt shapeOf_eq_iff.mp hdiffers⟩

end

/-- **A strict registry keeps names and shapes.** After any calls it lists each name that has been
used once, in the order of first use, and only the first call for a name is told that it was free.
The schemas for which one name has been accepted have one shape, whether or not the name was taken
without a schema first; a call for another shape, and no other call, is answered with a conflict,
which changes nothing.

**Proof sketch.** A name stands for a shape after a call if it did before, or if the call has been
accepted and asks for the shape. So by induction names stand for the shapes of what has been
accepted, and a conflict, which needs a name that stands for another shape, needs a schema of this
shape. -/
theorem keeps_names_and_shapes (calls : List Call) :
    Entries.keys (run calls).names = (calls.map Call.name).eraseDups ∧
    (∀ call, ((run calls).answer call).1 = .ok true ↔ call.name ∉ calls.map Call.name) ∧
    (∀ name schema other, Accepted calls name schema → Accepted calls name other →
      schema.SameShape other) ∧
    (∀ call error, ((run calls).answer call).1 = .error error ↔ ∃ name schema place,
      call = .takeFor name schema place ∧ error = .nameConflict name place ∧
        ∃ other, Accepted calls name other ∧ ¬ other.SameShape schema) ∧
    (∀ call error, ((run calls).answer call).1 = .error error →
      ((run calls).answer call).2 = run calls) := by
  have htracks := tracks_run calls
  have hanswered := answered_answer htracks.strict
  refine ⟨htracks.keys, fun call => ?_, fun _ _ _ => sameShape_of_accepted, fun call error => ?_,
    fun call error => (hanswered call).eq_of_error⟩
  · rw [(hanswered call).eq_true_iff, Entries.lookup_eq_none_iff, htracks.keys, List.mem_eraseDups]
  · rw [(hanswered call).eq_error_iff]
    simp only [exists_and_left, exists_shape_ne_iff]

/-- A name that is taken without a schema, then for an object, then for the object or `null`, and
then for a text, which is a conflict. -/
theorem keeps_names_and_shapes_taken_first :
    let user := Schema.object.property "id" (.scalar .string)
    let orNull := { user with nullable := true }
    let calls : List Call :=
      [.take "User", .takeFor "User" user "/models/User", .takeFor "User" orNull "/models/Post"]
    let conflicting := Call.takeFor "User" (.scalar .string) "/models/Name"
    Entries.keys (run calls).names = ["User"] ∧
      Accepted calls "User" user ∧ Accepted calls "User" orNull ∧ user.SameShape orNull ∧
      ((run calls).answer conflicting).1 = .error (.nameConflict "User" "/models/Name") ∧
      ((run calls).answer conflicting).2 = run calls := by
  intro user orNull calls conflicting
  obtain ⟨hkeys, -, hshapes, hconflict, hkept⟩ := keeps_names_and_shapes calls
  have huser : Accepted calls "User" user := ⟨[.take "User"], "/models/User", _, false, rfl, rfl⟩
  have horNull : Accepted calls "User" orNull :=
    ⟨[.take "User", .takeFor "User" user "/models/User"], "/models/Post", [], false, rfl, rfl⟩
  have herror : ((run calls).answer conflicting).1 = .error (.nameConflict "User" "/models/Name") :=
    (hconflict conflicting _).mpr ⟨_, _, _, rfl, rfl, user, huser, nofun⟩
  exact ⟨hkeys.trans (by decide), huser, horNull, hshapes _ _ _ huser horNull, herror,
    hkept _ _ herror⟩

end RpcSchema.NameRegistry
