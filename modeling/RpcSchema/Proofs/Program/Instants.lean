import RpcSchema.Proofs.Program.Agreement
import RpcSchema.Proofs.Program.Lowering
import RpcSchema.Proofs.Timestamp

set_option autoImplicit false

/-!
# Instants that are decoded and encoded

Every instant that is decoded or coerced can be encoded, whatever its year. The text is decoded to
the instant at its last whole millisecond when the year has four digits, and refused otherwise: an
offset from UTC, a sign in front of the year or a number of milliseconds can lead to a year that is
written behind a sign.

## Main results

* `RpcSchema.Program.decode_instant_text` — what decoding makes of the text of an instant.
* `RpcSchema.Validator.decode_encode_instant` — an instant that is read, its text, and what is read
  from it.
-/

namespace RpcSchema

namespace ScalarKind

/-- The values of the kind of instants are instants. -/
theorem exists_timestamp_of_holds {value : Value} (h : timestamp.holds value = true) :
    ∃ t, value = .timestamp t := by
  cases value with
  | timestamp t => exact ⟨t, rfl⟩
  | _ => simp [holds, isInteger] at h

end ScalarKind

namespace Program

variable {nullable : Bool}

/-- What is read at a node of instants is an instant, unless it is `null`. -/
theorem exists_timestamp_of_decode {reading : Reading} {follow : Nat → Json → Walk (Report Value)}
    {input : Json} {value : Value} (hinput : input.isNull = false)
    (h : Node.decode reading follow ⟨.scalar .timestamp, nullable⟩ input = some (.ok value)) :
    ∃ t, value = .timestamp t := by
  rcases Node.decode_eq_ok_iff.mp h with ⟨rfl, -, -⟩ | ⟨-, hkind⟩
  · cases hinput
  · rw [Kind.decode, Option.some.injEq] at hkind
    exact ScalarKind.exists_timestamp_of_holds (decodeScalar_eq_ok hkind).1

/-- An instant is encoded as its text. -/
theorem encode_instant {follow : Nat → Value → Attempt Json} (t : Timestamp) :
    Node.encode follow ⟨.scalar .timestamp, nullable⟩ (.timestamp t) =
      some (.ok (.string t.text)) :=
  Node.encode_eq_ok_iff.mpr (.inr ⟨rfl, rfl⟩)

/-- **What decoding makes of the text of an instant.** -/
theorem decode_instant_text {follow : Nat → Json → Walk (Report Value)} (t : Timestamp) :
    Node.decode .strict follow ⟨.scalar .timestamp, nullable⟩ (.string t.text) =
      some (if 0 ≤ t.date.year ∧ t.date.year ≤ 9999 then .ok (.timestamp t.floorMillis)
        else .fail [] ["type"] .notAnInstant) := by
  have hread : ScalarKind.timestamp.readText? t.text =
      (Timestamp.ofText? t.text).map .timestamp := rfl
  have hdecode : Node.decode .strict follow ⟨.scalar .timestamp, nullable⟩ (.string t.text) =
      some (decodeScalar .strict .timestamp (.string t.text)) := rfl
  rw [hdecode, decodeScalar, ScalarKind.read, hread, Timestamp.ofText?_text_eq]
  by_cases h : 0 ≤ t.date.year ∧ t.date.year ≤ 9999
  · rw [if_pos h, if_pos h]
    rfl
  · rw [if_neg h, if_neg h]
    rfl

end Program

namespace Validator

open Program (Reading)

/-- The program of a schema of instants is a node of instants. -/
theorem root_of_instants {schema : Schema} {models : Models} {validator : Validator}
    (hform : schema.form = .scalar .timestamp) (hcompile : compile schema models = .ok validator) :
    validator.program.root = ⟨.scalar .timestamp, schema.nullable⟩ := by
  obtain ⟨form, nullable, metadata⟩ := schema
  obtain rfl : form = .scalar .timestamp := hform
  obtain ⟨found, hroot, -⟩ := Program.compile_eq_ok_iff.mp (compile_eq_ok_iff.mp hcompile)
  obtain ⟨kind, hkind, hnode⟩ := Program.lower_eq_ok_iff.mp hroot
  obtain ⟨rfl, -⟩ := (Program.lowerLeaf_eq_ok_iff (by rw [Program.lowerForm])).mp hkind
  exact hnode

/-- **An instant that is decoded or coerced** is encoded as its text. The text is decoded to the
instant at its last whole millisecond if the year has four digits, and is no instant otherwise. -/
theorem decode_encode_instant {schema : Schema} {models : Models} {validator : Validator}
    {reading : Reading} {input : Json} {value : Value}
    (hform : schema.form = .scalar .timestamp) (hcompile : compile schema models = .ok validator)
    (hinput : input.isNull = false) (h : validator.reads reading input = some (.ok value)) :
    ∃ t, value = .timestamp t ∧ validator.encode value = some (.ok (.string t.text)) ∧
      validator.decode (.string t.text) =
        some (if 0 ≤ t.date.year ∧ t.date.year ≤ 9999 then .ok (.timestamp t.floorMillis)
          else .error [⟨[], ["type"], .notAnInstant⟩]) := by
  have hroot := root_of_instants hform hcompile
  have hdecodes := decodes_of_reads h
  rw [Program.decode_eq, hroot] at hdecodes
  obtain ⟨t, rfl⟩ := Program.exists_timestamp_of_decode hinput hdecodes
  refine ⟨t, rfl, ?_, ?_⟩
  · rw [encode, Program.encode_eq, hroot, Program.encode_instant]
    rfl
  · rw [decode, Program.decode_eq, hroot, Program.decode_instant_text, Option.map_some]
    split <;> rfl

/-- The case of the last second of a year, an hour behind UTC. -/
theorem decode_encode_instant_last_second :
    let schema := Schema.scalar .timestamp
    let validator : Validator := ⟨⟨⟨.scalar .timestamp, false⟩, [], []⟩⟩
    let input : Json := .string "9999-12-31T23:59:59-01:00"
    let value : Value := .timestamp ⟨253402304399, 0, by decide⟩
    schema.form = .scalar .timestamp ∧ compile schema [] = .ok validator ∧
      input.isNull = false ∧ validator.reads .strict input = some (.ok value) ∧
      ∃ t, value = .timestamp t ∧ validator.encode value = some (.ok (.string t.text)) ∧
        validator.decode (.string t.text) =
          some (if 0 ≤ t.date.year ∧ t.date.year ≤ 9999 then .ok (.timestamp t.floorMillis)
            else .error [⟨[], ["type"], .notAnInstant⟩]) := by
  intro schema validator input value
  have hcompile : compile schema [] = .ok validator := rfl
  have hreads : validator.reads .strict input = some (.ok value) := rfl
  exact ⟨rfl, hcompile, rfl, hreads, decode_encode_instant rfl hcompile rfl hreads⟩

/-- The same instant is coerced from milliseconds. Its year is 10000 in UTC, so that it is encoded
behind a sign, and what is encoded is not decoded. -/
theorem decode_of_encode_year_10000 :
    ∃ validator t,
      compile (Schema.scalar .timestamp) [] = .ok validator ∧
      validator.decode (.string "9999-12-31T23:59:59-01:00") = some (.ok (.timestamp t)) ∧
      validator.coerce (.number (.ofInt64 253402304399000)) = some (.ok (.timestamp t)) ∧
      validator.encode (.timestamp t) = some (.ok (.string "+10000-01-01T00:59:59.000Z")) ∧
      validator.decode (.string "+10000-01-01T00:59:59.000Z") =
        some (.error [⟨[], ["type"], .notAnInstant⟩]) := by
  obtain ⟨t, ht⟩ : ∃ t : Timestamp, t = ⟨253402304399, 0, by decide⟩ := ⟨_, rfl⟩
  have htext : t.text = "+10000-01-01T00:59:59.000Z" := by
    rw [ht]
    decide
  have hyear : ¬ (0 ≤ t.date.year ∧ t.date.year ≤ 9999) := by
    rw [ht]
    decide
  refine ⟨⟨⟨⟨.scalar .timestamp, false⟩, [], []⟩⟩, t, rfl, ?_, ?_, ?_, ?_⟩
  · rw [ht]
    rfl
  · rw [ht]
    rfl
  · rw [← htext]
    rfl
  · rw [← htext, decode, Program.decode_eq, Program.decode_instant_text, if_neg hyear]
    rfl

end Validator

end RpcSchema
