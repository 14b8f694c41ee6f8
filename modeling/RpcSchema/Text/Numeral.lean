import RpcSchema.Binary64.Decimal

set_option autoImplicit false

/-!
# Numerals

Numbers written as texts: integers as an optional sign and decimal digits, doubles also with a
point and an exponent. Nothing else is allowed around them.

## Main definitions

* `RpcSchema.Text.natural?` — decimal digits.
* `RpcSchema.Text.integer?` — digits with an optional sign.
* `RpcSchema.Text.double?` — a decimal, or the name of an infinity or of a NaN.
-/

namespace RpcSchema.Text

/-- Whether a character is one of the ten decimal digits. -/
def isDigit (c : Char) : Bool := '0' ≤ c && c ≤ '9'

/-- The number that digits stand for, after the digits of `start`. -/
def digitsValue (start : Nat) (digits : List Char) : Nat :=
  digits.foldl (fun n c => n * 10 + (c.toNat - '0'.toNat)) start

/-- The number that a text of digits, at least one, stands for. -/
def digits? (chars : List Char) : Option Nat :=
  if chars.isEmpty || !chars.all isDigit then none else some (digitsValue 0 chars)

/-- Decimal digits after an optional plus sign. -/
def natural? : List Char → Option Nat
  | '+' :: rest => digits? rest
  | chars => digits? chars

/-- Decimal digits after an optional sign. -/
def integer? : List Char → Option Int
  | '-' :: rest => (digits? rest).map fun n => -(n : Int)
  | '+' :: rest => (digits? rest).map fun n => (n : Int)
  | chars => (digits? chars).map fun n => (n : Int)

/-- The signed integer of 64 bits that a text stands for, if it fits. -/
def int64? (text : String) : Option Int64 :=
  (integer? text.toList).bind fun n =>
    if -2 ^ 63 ≤ n ∧ n < 2 ^ 63 then some (Int64.ofInt n) else none

/-- The unsigned integer of 64 bits that a text stands for, if it fits. -/
def uint64? (text : String) : Option UInt64 :=
  (natural? text.toList).bind fun n => if n < 2 ^ 64 then some (UInt64.ofNat n) else none

/-! ## Decimals -/

/-- An exponent behind its letter: digits with an optional sign. -/
def exponent? (chars : List Char) : Option Int := integer? chars

/-- A decimal without its sign: digits with a point somewhere among them, and an exponent. -/
def decimal? (chars : List Char) : Option Decimal := do
  let whole := chars.takeWhile isDigit
  let rest := chars.dropWhile isDigit
  let (places, rest) := match rest with
    | '.' :: rest => (rest.takeWhile isDigit, rest.dropWhile isDigit)
    | rest => ([], rest)
  if whole.isEmpty && places.isEmpty then none
  else
    let exponent ← match rest with
      | [] => some 0
      | letter :: rest => if letter = 'e' ∨ letter = 'E' then exponent? rest else none
    return ⟨digitsValue 0 (whole ++ places), exponent - places.length⟩

/-- **A double as a text**: a decimal with an optional sign, rounded to the nearest double, or the
name of an infinity or of a NaN in whatever case. -/
def double? (chars : List Char) : Option Binary64 :=
  let (negative, rest) := match chars with
    | '-' :: rest => (true, rest)
    | '+' :: rest => (false, rest)
    | rest => (false, rest)
  let name := String.ofList (rest.map Char.toLower)
  if name = "inf" ∨ name = "infinity" then
    some (Binary64.ofMagnitude negative Binary64.infinity)
  else if name = "nan" then some (Binary64.ofMagnitude negative (Binary64.infinity + 2 ^ 51))
  else (decimal? rest).map (Binary64.ofDecimal negative)

end RpcSchema.Text
