import Mathlib.Tactic.Positivity
import RpcSchema.Json.Basic

set_option autoImplicit false

/-!
# Finite doubles

The double nearest to a whole number of 64 bits is finite, and so is every number of a document
taken as a double.

## Main results

* `RpcSchema.Binary64.nearestMagnitude_lt_infinity` — the nearest magnitude to a whole number below
  `2 ^ 64`.
* `RpcSchema.Json.Number.isFinite_toBinary64` — numbers of documents are finite.
-/

namespace RpcSchema

namespace Binary64

/-- Rounding adds one at most. -/
theorem roundDiv_le (num den : Nat) : roundDiv num den ≤ num / den + 1 := by
  unfold roundDiv
  simp only
  split
  · omega
  · split
    · omega
    · have := Nat.mod_lt (num / den) (show 0 < 2 by omega)
      omega

/-- The last bit of the double below a whole number has the exponent of the first bit less 52. -/
theorem lastBitExponent_one {num : Nat} (h : num ≠ 0) :
    lastBitExponent num 1 = (Nat.log2 num : Int) - 52 := by
  have hreached : 1 * 2 ^ Nat.log2 num ≤ num := by
    rw [Nat.one_mul]
    exact Nat.log2_self_le h
  have hone : Nat.log2 1 = 0 := by decide
  have hestimate : (Nat.log2 num : Int) - (Nat.log2 1 : Nat) = Int.ofNat (Nat.log2 num) := by
    simp [hone]
  unfold lastBitExponent
  rw [hestimate]
  simp only [Nat.pow_eq, hreached, decide_true, ↓reduceIte]
  simp only [Int.ofNat_eq_natCast]
  omega

/-- **A whole number below `2 ^ 64`** rounds to a finite double.

**Proof sketch.** The last bit of the double has an exponent of 11 at most, so the exponent takes up
`1085 · 2 ^ 52` of the magnitude at most; the significand takes up `2 ^ 53` more at most. -/
theorem nearestMagnitude_lt_infinity {num : Nat} (h : num < 2 ^ 64) :
    nearestMagnitude num 1 < infinity := by
  unfold nearestMagnitude
  split
  · unfold infinity
    omega
  · rename_i hne
    have hlog : Nat.log2 num < 64 := (Nat.log2_lt hne).mpr h
    have hbelow : num < 2 ^ (Nat.log2 num + 1) := Nat.lt_log2_self
    rw [lastBitExponent_one hne]
    simp only [Nat.pow_eq]
    split
    · rename_i e he
      have hround := roundDiv_le num (1 * 2 ^ e)
      have hquotient : num / (1 * 2 ^ e) < 2 ^ 53 := by
        rw [Nat.div_lt_iff_lt_mul (by positivity), Nat.one_mul, ← Nat.pow_add]
        refine hbelow.trans_le (Nat.pow_le_pow_right (by omega) ?_)
        simp only [Int.ofNat_eq_natCast] at he
        omega
      simp only [Int.ofNat_eq_natCast] at he ⊢
      have hexponent : ((e : Int) + 1074).toNat ≤ 1085 := by omega
      unfold infinity
      have := Nat.mul_le_mul_right (2 ^ 52) hexponent
      omega
    · rename_i e he
      have hround := roundDiv_le (num * 2 ^ (e + 1)) 1
      have hscaled : num * 2 ^ (e + 1) < 2 ^ 53 := by
        calc num * 2 ^ (e + 1) < 2 ^ (Nat.log2 num + 1) * 2 ^ (e + 1) :=
              Nat.mul_lt_mul_of_pos_right hbelow (by positivity)
          _ = 2 ^ (Nat.log2 num + 1 + (e + 1)) := (Nat.pow_add ..).symm
          _ ≤ 2 ^ 53 := by
              refine Nat.pow_le_pow_right (by omega) ?_
              omega
      rw [Nat.div_one] at hround
      have hexponent : (Int.negSucc e + 1074).toNat ≤ 1074 := by omega
      unfold infinity
      have := Nat.mul_le_mul_right (2 ^ 52) hexponent
      omega

/-- A magnitude is found again in the number that has it. -/
theorem magnitude_ofMagnitude {m : Nat} (h : m < 2 ^ 63) (negative : Bool) :
    (ofMagnitude negative m).magnitude = m := by
  unfold ofMagnitude magnitude
  cases negative <;> simp only [UInt64.toNat_ofNat', Bool.false_eq_true, ↓reduceIte] <;> omega

theorem isFinite_ofInt {i : Int} (h : -2 ^ 63 ≤ i ∧ i < 2 ^ 64) : (ofInt i).isFinite = true := by
  have hfinite := nearestMagnitude_lt_infinity (show i.natAbs < 2 ^ 64 by omega)
  have hsmall : nearestMagnitude i.natAbs 1 < 2 ^ 63 := hfinite.trans (by unfold infinity; omega)
  unfold isFinite ofInt
  rw [magnitude_ofMagnitude hsmall]
  exact decide_eq_true hfinite

end Binary64

/-- **Numbers of documents** are finite as doubles. -/
theorem Json.Number.isFinite_toBinary64 (number : Json.Number) :
    number.toBinary64.isFinite = true := by
  cases number with
  | whole value bounded => exact Binary64.isFinite_ofInt bounded
  | double value finite => exact finite

end RpcSchema
