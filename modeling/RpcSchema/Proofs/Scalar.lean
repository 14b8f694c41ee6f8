import RpcSchema.Proofs.Binary64
import RpcSchema.Validator.Scalar

set_option autoImplicit false

/-!
# Scalars that are read, asked about and written

What a document spells is of the kind that is asked for, whichever of its spellings is understood;
and a value is of a kind exactly when documents have a spelling for it.

## Main results

* `RpcSchema.ScalarKind.holds_of_read`, `RpcSchema.ScalarKind.holds_of_convert?` — what is read is
  of the kind.
* `RpcSchema.ScalarKind.holds_iff_write` — what is of a kind can be written, and nothing else.
-/

namespace RpcSchema.ScalarKind

variable {kind : ScalarKind}

/-! ## Integers -/

/-- The integer of a wrapped integer. -/
theorem integerOf?_of_wrap? {n : Int} {value : Value} (h : kind.wrap? n = some value) :
    integerOf? value = some n := by
  unfold wrap? at h
  cases kind <;> simp only [signedRange?, unsignedMax?, Option.ite_none_right_eq_some,
    Option.some.injEq, reduceCtorEq] at h
  case int8 | int16 | int32 | int64 =>
    obtain ⟨hbounds, rfl⟩ := h
    rw [integerOf?, Int64.toInt_ofInt_of_le (by omega) (by omega)]
  case uint8 | uint16 | uint32 | uint64 =>
    obtain ⟨hbounds, rfl⟩ := h
    have htoNat : (UInt64.ofNat n.toNat).toNat = n.toNat := by
      rw [UInt64.toNat_ofNat']
      omega
    rw [integerOf?, htoNat, Int.toNat_of_nonneg hbounds.1]

/-- An integer can be wrapped when the kind admits it. -/
theorem exists_wrap?_iff {n : Int} :
    (∃ value, kind.wrap? n = some value) ↔ kind.admits n = true := by
  unfold wrap? admits
  cases kind <;> simp [signedRange?, unsignedMax?, bounds?]

/-- What is wrapped is an integer of one of the two sorts, and the kind is one of integers. -/
theorem wrap?_cases {n : Int} {value : Value} (h : kind.wrap? n = some value) :
    kind.isInteger = true ∧ ((∃ i, value = .int i) ∨ ∃ u, value = .uint u) := by
  unfold wrap? at h
  cases kind <;> simp only [signedRange?, unsignedMax?, Option.ite_none_right_eq_some,
    Option.some.injEq, reduceCtorEq] at h
  all_goals obtain ⟨-, rfl⟩ := h; simp [isInteger]

/-- For the kinds of integers the question is whether they admit the integer. -/
theorem holds_eq_admits {n : Int} {value : Value} (hkind : kind.isInteger = true)
    (hvalue : integerOf? value = some n) : kind.holds value = kind.admits n := by
  cases value <;> simp only [integerOf?, Option.some.injEq, reduceCtorEq] at hvalue
  all_goals subst hvalue; simp [holds, hkind]

theorem holds_of_wrap? {n : Int} {value : Value} (h : kind.wrap? n = some value) :
    kind.holds value = true := by
  rw [holds_eq_admits (wrap?_cases h).1 (integerOf?_of_wrap? h)]
  exact exists_wrap?_iff.mp ⟨value, h⟩

theorem exists_writeInteger_iff {n : Int} :
    (∃ document, kind.writeInteger n = .ok document) ↔ kind.admits n = true := by
  rw [← exists_wrap?_iff, writeInteger]
  constructor
  · rintro ⟨document, h⟩
    split at h
    · exact ⟨_, ‹_›⟩
    · exact ⟨_, ‹_›⟩
    · cases h
  · rintro ⟨value, h⟩
    rw [h]
    obtain ⟨i, rfl⟩ | ⟨u, rfl⟩ := (wrap?_cases h).2
    · exact ⟨_, rfl⟩
    · exact ⟨_, rfl⟩

theorem holds_int64 (i : Int64) : int64.holds (.int i) = true := by
  have hlower := i.le_toInt
  have hupper := i.toInt_lt
  simp [holds, isInteger, admits, bounds?, signedRange?]
  omega

theorem holds_uint64 (u : UInt64) : uint64.holds (.uint u) = true := by
  have hupper := u.toNat_lt
  simp [holds, isInteger, admits, bounds?, signedRange?, unsignedMax?]
  omega

/-! ## Writing -/

/-- Doubles can be written when they are finite and fit. -/
theorem exists_writeFloat_iff {x : Binary64} :
    (∃ document, writeFloat kind x = .ok document) ↔
      x.isFinite = true ∧ (kind = .float32 → x.fitsSingle = true) := by
  unfold writeFloat Json.Number.ofBinary64?
  by_cases hfinite : x.isFinite = true
  · by_cases hkind : kind = .float32
    · by_cases hfits : x.fitsSingle = true
      · simp [hfinite, hfits]
      · simp [hfinite, hkind, hfits]
    · simp [hfinite, hkind]
  · simp [hfinite]

/-- For the kinds of integers only integers are written. -/
theorem write_of_isInteger (h : kind.isInteger = true) (value : Value) :
    kind.write value = match integerOf? value with
      | some n => kind.writeInteger n
      | none => .error (.expected kind.name value.kind) := by
  cases kind <;> cases value <;> first | rfl | simp [isInteger] at h

/-- **A value is of a kind** exactly when documents have a spelling for it. -/
theorem holds_iff_write {value : Value} :
    kind.holds value = true ↔ ∃ document, kind.write value = .ok document := by
  by_cases hinteger : kind.isInteger = true
  · rw [write_of_isInteger hinteger]
    cases hvalue : integerOf? value with
    | some n =>
      rw [holds_eq_admits hinteger hvalue]
      exact exists_writeInteger_iff.symm
    | none =>
      have hnot : kind.holds value = false := by
        cases value <;> simp only [integerOf?, reduceCtorEq] at hvalue
        all_goals cases kind <;> first | rfl | simp [isInteger] at hinteger
      simp [hnot]
  · cases kind <;> simp only [isInteger, Bool.false_eq_true, not_true, not_false_eq_true]
      at hinteger
    case float32 | float64 =>
      cases value <;> simp [holds, write, exists_writeFloat_iff, isInteger]
    all_goals cases value <;> simp [holds, write, isInteger]

/-! ## Reading -/

theorem holds_of_readNumber {number : Json.Number} {value : Value}
    (h : kind.readNumber number = .ok value) : kind.holds value = true := by
  unfold readNumber at h
  split at h
  · cases h
    exact number.isFinite_toBinary64
  · split at h
    · rename_i hfits
      cases h
      simp [holds, hfits, number.isFinite_toBinary64]
    · cases h
  · split at h
    · split at h
      · cases h
      · split at h
        · rename_i hwrap
          cases h
          exact holds_of_wrap? hwrap
        · cases h
    · cases h

theorem holds_of_readText? {text : String} {value : Value}
    (h : kind.readText? text = some value) : kind.holds value = true := by
  unfold readText? at h
  split at h
  · cases h
    rfl
  · obtain ⟨t, -, rfl⟩ := Option.map_eq_some_iff.mp h
    rfl
  · obtain ⟨i, -, rfl⟩ := Option.map_eq_some_iff.mp h
    exact holds_int64 i
  · obtain ⟨u, -, rfl⟩ := Option.map_eq_some_iff.mp h
    exact holds_uint64 u
  · cases h

/-- **What a document spells** is of the kind. -/
theorem holds_of_read {input : Json} {value : Value} (h : kind.read input = .ok value) :
    kind.holds value = true := by
  cases input with
  | bool flag =>
    simp only [read] at h
    split at h
    · cases h
      simpa [holds]
    · cases h
  | number number => exact holds_of_readNumber h
  | string text =>
    simp only [read] at h
    split at h
    · cases h
      exact holds_of_readText? ‹_›
    · cases h
  | _ => cases h

/-- A value of a kind of integers that are not texts in documents is an integer. -/
theorem holds_of_integerOfText? {text : String} {value : Value}
    (h : kind.integerOfText? text = some value) : kind.holds value = true := by
  obtain ⟨n, -, hwrap⟩ := Option.bind_eq_some_iff.mp h
  exact holds_of_wrap? hwrap

theorem holds_of_floatOfText? {text : String} {value : Value}
    (h : kind.floatOfText? text = some value) : kind.holds value = true := by
  unfold floatOfText? at h
  simp only [Option.bind_eq_bind, Option.bind_eq_some_iff] at h
  obtain ⟨x, -, number, -, hread⟩ := h
  cases hnumber : kind.readNumber number with
  | error mismatch => simp [hnumber, Except.toOption] at hread
  | ok read =>
    obtain rfl : read = value := by simpa [hnumber, Except.toOption] using hread
    exact holds_of_readNumber hnumber

/-- **What another spelling stands for** is of the kind. -/
theorem holds_of_convert? {input : Json} {value : Value} (h : kind.convert? input = some value) :
    kind.holds value = true := by
  unfold convert? at h
  split at h
  · unfold flagOfText? at h
    split at h
    · cases h
      rfl
    · split at h <;> cases h
      rfl
  · unfold flagOfNumber? at h
    split at h <;> cases h <;> rfl
  · cases h
    rfl
  · cases h
    rfl
  · obtain ⟨millis, -, h⟩ := Option.bind_eq_some_iff.mp h
    obtain ⟨t, -, rfl⟩ := Option.map_eq_some_iff.mp h
    rfl
  · obtain ⟨t, -, rfl⟩ := Option.map_eq_some_iff.mp h
    rfl
  · exact holds_of_floatOfText? h
  · exact holds_of_floatOfText? h
  · obtain ⟨i, -, rfl⟩ := Option.map_eq_some_iff.mp h
    exact holds_int64 i
  · obtain ⟨u, -, rfl⟩ := Option.map_eq_some_iff.mp h
    exact holds_uint64 u
  · cases h
  · cases h
  · exact holds_of_integerOfText? h
  · cases h

end RpcSchema.ScalarKind
