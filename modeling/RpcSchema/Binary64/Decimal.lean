import RpcSchema.Binary64.Basic

set_option autoImplicit false

/-!
# Decimals of doubles: shortest digits and exact reading

A finite double is written with the fewest decimal digits that read back as the same double, and
of those with the digits nearest to it. A decimal is read as the double nearest to it.

## Main definitions

* `RpcSchema.Decimal` — `digits · 10 ^ exponent`.
* `RpcSchema.Binary64.shortest` — the shortest decimal that reads back.
* `RpcSchema.Binary64.plainText` — positional notation throughout.
* `RpcSchema.Binary64.documentText` — the notation of documents: positional for a leading digit
  between `10 ^ -5` and `10 ^ 15`, scientific beyond.
* `RpcSchema.Binary64.ofDecimal` — the double nearest to a decimal.
* `RpcSchema.Binary64.scaled` — a whole number times a power of ten, in double arithmetic.
-/

namespace RpcSchema

/-- **A decimal**: `digits · 10 ^ exponent`. -/
structure Decimal where
  digits : Nat
  exponent : Int
deriving DecidableEq

/-- The decimal digits of a whole number. -/
def digitText (n : Nat) : String := String.ofList (Nat.toDigits 10 n)

/-- `n` zeros. -/
def zeros (n : Nat) : String := String.ofList (List.replicate n '0')

namespace Decimal

/-- The same decimal without the zeros at the end of its digits, at most `fuel` of them. -/
def trim : Nat → Decimal → Decimal
  | 0, d => d
  | fuel + 1, d =>
    if d.digits ≠ 0 ∧ d.digits % 10 = 0 then trim fuel ⟨d.digits / 10, d.exponent + 1⟩ else d

/-- A decimal in positional notation: the whole part, and the digits after the point. -/
def positional (d : Decimal) : String × String :=
  let digits := Nat.toDigits 10 d.digits
  match d.exponent with
  | .ofNat e => (String.ofList digits ++ zeros e, "")
  | .negSucc e =>
    let places := e + 1
    if places < digits.length then
      (String.ofList (digits.take (digits.length - places)),
        String.ofList (digits.drop (digits.length - places)))
    else ("0", zeros (places - digits.length) ++ String.ofList digits)

end Decimal

namespace Binary64

/-! ## Shortest digits -/

/-- The reals that round to a magnitude, as bounds over a common denominator: lower end, value,
upper end and denominator, and whether the ends belong. -/
structure Neighbourhood where
  lower : Nat
  value : Nat
  upper : Nat
  denominator : Nat
  closed : Bool

/-- The neighbourhood of a finite magnitude that is not zero. Below a power of two the doubles
lie twice as close as above it. -/
def neighbourhood (magnitude : Nat) : Neighbourhood :=
  let m := significandOf magnitude
  let tight := m == 2 ^ 52 && 2 ^ 53 ≤ magnitude
  let (up, down) := match exponentOf magnitude with
    | .ofNat e => (Nat.pow 2 e, 1)
    | .negSucc e => (1, Nat.pow 2 (e + 1))
  { lower := (if tight then 4 * m - 1 else 4 * m - 2) * up
    value := 4 * m * up
    upper := (4 * m + 2) * up
    denominator := 4 * down
    closed := m % 2 == 0 }

/-- Whether the ratio `num / (denominator · den)` rounds to the magnitude. -/
def Neighbourhood.has (n : Neighbourhood) (num den : Nat) : Bool :=
  if n.closed then n.lower * den ≤ num && num ≤ n.upper * den
  else n.lower * den < num && num < n.upper * den

/-- The point of the grid of multiples of `10 ^ exponent` that lies in the neighbourhood, the
nearer one if two do, of two equally near the even one. -/
def Neighbourhood.onGrid? (n : Neighbourhood) (exponent : Int) : Option Nat :=
  let (scale, den) : Nat × Nat := match exponent with
    | .ofNat e => (Nat.pow 10 e, 1)
    | .negSucc e => (1, Nat.pow 10 (e + 1))
  let unit := n.denominator * scale
  let below := n.value * den / unit
  let lowIn := n.has (below * unit) den
  let highIn := n.has ((below + 1) * unit) den
  let fromLow := n.value * den - below * unit
  let fromHigh := (below + 1) * unit - n.value * den
  if lowIn && highIn then
    if fromLow < fromHigh then some below
    else if fromHigh < fromLow then some (below + 1)
    else some (below + below % 2)
  else if lowIn then some below
  else if highIn then some (below + 1)
  else none

/-- The grids of one, two, … digits are tried in turn, `tries` of them. -/
def Neighbourhood.firstGrid (n : Neighbourhood) : Nat → Int → Decimal
  | 0, exponent => ⟨n.value / n.denominator, exponent⟩
  | tries + 1, exponent =>
    match n.onGrid? exponent with
    | some digits => ⟨digits, exponent⟩
    | none => firstGrid n tries (exponent - 1)

/-- The decimal exponent of the leading digit of `num / den`. -/
def leadingExponent (num den : Nat) : Int :=
  if den ≤ num then
    ((Nat.toDigits 10 (num / den)).length : Int) - 1
  else
    let estimate := (Nat.toDigits 10 den).length - (Nat.toDigits 10 num).length
    if den ≤ num * Nat.pow 10 estimate then -(estimate : Int) else -(estimate : Int) - 1

/-- **The shortest decimal** of the absolute value of a finite double that is not zero: the
fewest digits that read back as the double, and of those the nearest to it. Seventeen digits are
always enough. -/
def shortest (x : Binary64) : Decimal :=
  let n := neighbourhood x.magnitude
  (n.firstGrid 18 (leadingExponent n.value n.denominator)).trim 20

/-! ## Notations -/

/-- A finite double that is not zero, without its sign, in positional notation. -/
def plainDigits (x : Binary64) : String :=
  let (whole, places) := x.shortest.positional
  if places = "" then whole else whole ++ "." ++ places

/-- **Positional notation** for every number: no exponent, no point after a whole number. -/
def plainText (x : Binary64) : String :=
  if x.isNaN then "NaN"
  else
    let sign := if x.isNegative then "-" else ""
    if x.magnitude = infinity then sign ++ "inf"
    else if x.magnitude = 0 then sign ++ "0"
    else sign ++ x.plainDigits

/-- **The notation of documents** for a finite number: positional when the leading digit stands
for a power of ten between `-5` and `15`, then with at least one digit after the point; scientific
with a signed exponent otherwise. -/
def documentText (x : Binary64) : String :=
  let sign := if x.isNegative then "-" else ""
  if x.magnitude = 0 then sign ++ "0.0"
  else
    let d := x.shortest
    let digits := Nat.toDigits 10 d.digits
    let leading : Int := d.exponent + digits.length - 1
    if -5 ≤ leading ∧ leading ≤ 15 then
      let (whole, places) := d.positional
      sign ++ whole ++ "." ++ (if places = "" then "0" else places)
    else
      let fraction := String.ofList (digits.drop 1)
      let mantissa :=
        String.ofList (digits.take 1) ++ (if fraction = "" then "" else "." ++ fraction)
      let power := match leading with
        | .ofNat e => "+" ++ digitText e
        | .negSucc e => "-" ++ digitText (e + 1)
      sign ++ mantissa ++ "e" ++ power

/-! ## Reading -/

/-- **The double nearest to a decimal**, the infinity for one too great. Exponents far outside the
range are answered without computing the power. -/
def ofDecimal (negative : Bool) (d : Decimal) : Binary64 :=
  let length : Int := (Nat.toDigits 10 d.digits).length
  let magnitude : Nat :=
    if d.digits = 0 then 0
    else if 400 < d.exponent + length then infinity
    else if d.exponent + length < -400 then 0
    else match d.exponent with
      | .ofNat e => nearestMagnitude (d.digits * Nat.pow 10 e) 1
      | .negSucc e => nearestMagnitude d.digits (Nat.pow 10 (e + 1))
  ofMagnitude negative magnitude

/-- The magnitude nearest to a power of ten. -/
def powerOfTen (e : Nat) : Nat := nearestMagnitude (Nat.pow 10 e) 1

/-- Divides a magnitude by `10 ^ e`, by at most `10 ^ 308` at a time. -/
def divPowerOfTen (magnitude e : Nat) : Nat :=
  if e ≤ 308 then divMagnitude magnitude (powerOfTen e)
  else if magnitude = 0 then 0
  else divPowerOfTen (divMagnitude magnitude (powerOfTen 308)) (e - 308)
termination_by e

/-- **A whole number times a power of ten, in double arithmetic**: the whole number is rounded to
a double, which is then multiplied or divided by the double of the power of ten. Nothing if the
product overflows. -/
def scaled (negative : Bool) (whole : Nat) (exponent : Int) : Option Binary64 :=
  let start := nearestMagnitude whole 1
  match exponent with
  | .ofNat e =>
    if start = 0 then some (ofMagnitude negative 0)
    else if 308 < e then none
    else
      let product := mulMagnitude start (powerOfTen e)
      if product = infinity then none else some (ofMagnitude negative product)
  | .negSucc e => some (ofMagnitude negative (divPowerOfTen start (e + 1)))

end Binary64

end RpcSchema
