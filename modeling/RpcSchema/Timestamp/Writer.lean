import RpcSchema.Timestamp.Basic

set_option autoImplicit false

/-!
# Writing timestamps

An instant is written in UTC with milliseconds, further digits dropped: `2024-02-29T12:00:00.000Z`.
Years outside `0` to `9999` have a sign and at least four digits, and a leap second is second 60.

## Main definitions

* `RpcSchema.Timestamp.text` — an instant as text.
-/

namespace RpcSchema.Timestamp

/-- A number in decimal digits, with zeros in front up to a width. -/
def padded (width n : Nat) : List Char :=
  let digits := Nat.toDigits 10 n
  List.replicate (width - digits.length) '0' ++ digits

/-- A year: four digits, with a sign outside `0` to `9999`. -/
def yearChars (year : Int) : List Char :=
  if 0 ≤ year ∧ year ≤ 9999 then padded 4 year.toNat
  else (if year < 0 then '-' else '+') :: padded 4 year.natAbs

/-- The characters of the written instant. -/
def chars (t : Timestamp) : List Char :=
  let date := t.date
  let clock := t.clock
  yearChars date.year ++ '-' :: padded 2 date.month ++ '-' :: padded 2 date.day ++
    'T' :: padded 2 clock.hour ++ ':' :: padded 2 clock.minute ++ ':' :: padded 2 clock.second ++
    '.' :: padded 3 (clock.nanos / 1000000) ++ ['Z']

/-- **An instant as text**, in UTC with milliseconds. -/
def text (t : Timestamp) : String := String.ofList t.chars

end RpcSchema.Timestamp
