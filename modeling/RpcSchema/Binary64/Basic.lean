set_option autoImplicit false

/-!
# Binary64: the double-precision numbers

A number of the IEEE 754 format binary64 is its word of 64 bits. Everything about it is computed
from the word in exact integer arithmetic, so that statements about it reduce to statements about
natural numbers.

The lower 63 bits of the word, its *magnitude*, order the absolute values: a greater magnitude is
a greater absolute value, then come the infinity `2047 · 2 ^ 52` and above it the NaNs. Rounding a
ratio therefore only has to compute a magnitude, and an overflow is a magnitude that reaches the
infinity.

## Main definitions

* `RpcSchema.Binary64` — a double-precision number.
* `RpcSchema.Binary64.significand`, `RpcSchema.Binary64.exponent` — a finite number is
  `± significand · 2 ^ exponent`.
* `RpcSchema.Binary64.nearestMagnitude` — a ratio rounded to the nearest double.
* `RpcSchema.Binary64.ofInt`, `RpcSchema.Binary64.toInt?` — whole numbers.
-/

-- Powers are those of the core library, also where the monoids of Mathlib are in sight: here those
-- with a literal exponent; where the exponent is computed, they are written `Nat.pow`.
attribute [default_instance 20000] instPowNat

namespace RpcSchema

/-- **A double-precision number**, as its word. Two numbers are the same here when their words
are, so that `0` and `-0` differ; `Binary64.equals` is the comparison of numbers. -/
structure Binary64 where
  bits : UInt64
deriving DecidableEq

namespace Binary64

/-- The magnitude of the infinity. -/
def infinity : Nat := 2047 * 2 ^ 52

/-- The sign bit. -/
def isNegative (x : Binary64) : Bool := 2 ^ 63 ≤ x.bits.toNat

/-- The bits below the sign. -/
def magnitude (x : Binary64) : Nat := x.bits.toNat % 2 ^ 63

/-- Neither an infinity nor a NaN. -/
def isFinite (x : Binary64) : Bool := x.magnitude < infinity

/-- Not a number. -/
def isNaN (x : Binary64) : Bool := infinity < x.magnitude

/-- The number with the given sign and magnitude. -/
def ofMagnitude (negative : Bool) (magnitude : Nat) : Binary64 :=
  ⟨UInt64.ofNat ((if negative then 2 ^ 63 else 0) + magnitude)⟩

/-- The zero without a sign. -/
def zero : Binary64 := ofMagnitude false 0

/-- Equality of numbers: the two zeros are equal and a NaN equals nothing. -/
def equals (x y : Binary64) : Bool :=
  !x.isNaN && !y.isNaN && (x.bits == y.bits || (x.magnitude == 0 && y.magnitude == 0))

/-! ## The value of a finite number -/

/-- The whole number that a magnitude scales: the fraction, with the leading one of a normal
number. -/
def significandOf (magnitude : Nat) : Nat :=
  if magnitude < 2 ^ 52 then magnitude else 2 ^ 52 + magnitude % 2 ^ 52

/-- The power of two that a magnitude scales by. -/
def exponentOf (magnitude : Nat) : Int :=
  ((max (magnitude / 2 ^ 52) 1 : Nat) : Int) - 1075

/-- A finite number is `± significand · 2 ^ exponent`. -/
def significand (x : Binary64) : Nat := significandOf x.magnitude

/-- A finite number is `± significand · 2 ^ exponent`. -/
def exponent (x : Binary64) : Int := exponentOf x.magnitude

/-- The absolute value of a finite magnitude as numerator and denominator. -/
def ratioOf (magnitude : Nat) : Nat × Nat :=
  match exponentOf magnitude with
  | .ofNat e => (significandOf magnitude * Nat.pow 2 e, 1)
  | .negSucc e => (significandOf magnitude, Nat.pow 2 (e + 1))

/-! ## Rounding -/

/-- The quotient rounded to the nearest whole number, a tie going to the even one. -/
def roundDiv (num den : Nat) : Nat :=
  let quotient := num / den
  let rest := num % den
  if 2 * rest < den then quotient
  else if den < 2 * rest then quotient + 1
  else quotient + quotient % 2

/-- The exponent of the last bit of the double just below `num / den`. -/
def lastBitExponent (num den : Nat) : Int :=
  let estimate : Int := (Nat.log2 num : Int) - Nat.log2 den
  let reached : Bool := match estimate with
    | .ofNat e => den * Nat.pow 2 e ≤ num
    | .negSucc e => den ≤ num * Nat.pow 2 (e + 1)
  max ((if reached then estimate else estimate - 1) - 52) (-1074)

/-- **The magnitude nearest to a ratio**, a tie going to the even significand and an overflow to
the infinity. A significand that rounds up to `2 ^ 53` carries into the exponent by itself, since
magnitudes are consecutive across powers of two. -/
def nearestMagnitude (num den : Nat) : Nat :=
  if num = 0 then 0
  else
    let e := lastBitExponent num den
    let scaled := match e with
      | .ofNat e => roundDiv num (den * Nat.pow 2 e)
      | .negSucc e => roundDiv (num * Nat.pow 2 (e + 1)) den
    min ((e + 1074).toNat * 2 ^ 52 + scaled) infinity

/-- The double nearest to a whole number. -/
def ofInt (i : Int) : Binary64 := ofMagnitude (i < 0) (nearestMagnitude i.natAbs 1)

/-- The product of two finite magnitudes, rounded. -/
def mulMagnitude (a b : Nat) : Nat :=
  let (aNum, aDen) := ratioOf a
  let (bNum, bDen) := ratioOf b
  nearestMagnitude (aNum * bNum) (aDen * bDen)

/-- The quotient of two finite magnitudes, rounded; the divisor is not zero. -/
def divMagnitude (a b : Nat) : Nat :=
  let (aNum, aDen) := ratioOf a
  let (bNum, bDen) := ratioOf b
  nearestMagnitude (aNum * bDen) (aDen * bNum)

/-! ## Whole numbers and bounds -/

/-- The whole number that a finite double is, if it is one. -/
def toInt? (x : Binary64) : Option Int :=
  if x.isFinite then
    let (num, den) := ratioOf x.magnitude
    if num % den = 0 then
      let n : Int := (num / den : Nat)
      some (if x.isNegative then -n else n)
    else none
  else none

/-- The magnitude of the greatest single-precision number, `(2 ^ 24 - 1) · 2 ^ 104`. -/
def singleMax : Nat := 0x47EFFFFFE0000000

/-- Whether the absolute value of a number is at most that of the greatest single-precision
number. Magnitudes are ordered as absolute values, so this is a comparison of words. -/
def fitsSingle (x : Binary64) : Bool := x.magnitude ≤ singleMax

end Binary64

end RpcSchema
