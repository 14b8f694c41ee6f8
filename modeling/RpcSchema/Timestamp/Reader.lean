import RpcSchema.Timestamp.Basic
import RpcSchema.Text.Blank
import RpcSchema.Text.Scan

set_option autoImplicit false

/-!
# Reading timestamps

Four forms are understood, and the first that fits the whole text counts: the form of RFC 3339, a
date and a time with an offset, a date and a time in UTC, and a date alone, which is its midnight
in UTC. The last three take shorter numbers and blanks in front of numbers.

## Main definitions

* `RpcSchema.Timestamp.standard?` — the form of RFC 3339.
* `RpcSchema.Timestamp.withOffset?`, `RpcSchema.Timestamp.withoutOffset?`,
  `RpcSchema.Timestamp.dateOnly?` — the other forms.
* `RpcSchema.Timestamp.ofText?` — any of them.
-/

namespace RpcSchema.Timestamp

open Text (isDigit digitsValue trimStart isBlank literal digitsBetween digitsExactly)

/-! ## Parts -/

/-- Reads a number of at most `most` digits behind blanks. -/
def shortNumber (most : Nat) (chars : List Char) : Option (Nat × List Char) :=
  digitsBetween 1 most (trimStart chars)

/-- Reads a year behind blanks: up to four digits, or a sign and any number of them. -/
def signedYear (chars : List Char) : Option (Int × List Char) :=
  match trimStart chars with
  | '-' :: rest => (digitsBetween 1 rest.length rest).map fun (n, rest) => (-(n : Int), rest)
  | '+' :: rest => (digitsBetween 1 rest.length rest).map fun (n, rest) => ((n : Int), rest)
  | chars => (digitsBetween 1 4 chars).map fun (n, rest) => ((n : Int), rest)

/-- Reads a fraction of a second as nanoseconds, if there is one. Digits past the ninth are
dropped. -/
def fraction : List Char → Option (Nat × List Char)
  | '.' :: chars =>
    let digits := (chars.take 9).takeWhile isDigit
    if digits.isEmpty then none
    else some (digitsValue 0 digits * Nat.pow 10 (9 - digits.length), chars.dropWhile isDigit)
  | chars => some (0, chars)

/-- Reads an offset from UTC in seconds: a sign, two digits of hours, what `separate` passes over
and two digits of minutes. -/
def offset (separate : List Char → Option (List Char)) (chars : List Char) :
    Option (Int × List Char) := do
  let (sign, chars) ← match chars with
    | '+' :: rest => some ((1 : Int), rest)
    | '-' :: rest => some (-1, rest)
    | '\u2212' :: rest => some (-1, rest)
    | _ => none
  let (hours, chars) ← digitsExactly 2 chars
  let chars ← separate chars
  let (minutes, chars) ← digitsExactly 2 chars
  if hours ≤ 23 && minutes ≤ 59 then
    return (sign * (hours * 3600 + minutes * 60), chars)
  else none

/-- Reads an offset in the form of RFC 3339: `Z`, or hours and minutes around a colon. -/
def standardOffset : List Char → Option (Int × List Char)
  | 'Z' :: rest => some (0, rest)
  | 'z' :: rest => some (0, rest)
  | chars => offset (literal ':') chars

/-- Passes over colons and blanks. -/
def colonsAndBlanks (chars : List Char) : Option (List Char) :=
  some (chars.dropWhile fun c => c == ':' || isBlank c)

/-- Nothing is left. -/
def atEnd : List Char → Option Unit
  | [] => some ()
  | _ :: _ => none

/-! ## Forms -/

/-- **The form of RFC 3339**: every number has its full width, a letter T or a space stands between
date and time, and the offset is given. -/
def standard? (chars : List Char) : Option Timestamp := do
  let (year, chars) ← digitsExactly 4 chars
  let chars ← literal '-' chars
  let (month, chars) ← digitsExactly 2 chars
  let chars ← literal '-' chars
  let (day, chars) ← digitsExactly 2 chars
  let chars ← match chars with
    | c :: rest => if c = 'T' ∨ c = 't' ∨ c = ' ' then some rest else none
    | [] => none
  let (hour, chars) ← digitsExactly 2 chars
  let chars ← literal ':' chars
  let (minute, chars) ← digitsExactly 2 chars
  let chars ← literal ':' chars
  let (second, chars) ← digitsExactly 2 chars
  let (nanos, chars) ← fraction chars
  let (offset, chars) ← standardOffset chars
  atEnd chars
  ofLocal? ⟨year, month, day⟩ ⟨hour, minute, second, nanos⟩ offset

/-- Reads a date whose numbers may be short. -/
def shortDate (chars : List Char) : Option (Calendar.Date × List Char) := do
  let (year, chars) ← signedYear chars
  let chars ← literal '-' chars
  let (month, chars) ← shortNumber 2 chars
  let chars ← literal '-' chars
  let (day, chars) ← shortNumber 2 chars
  return (⟨year, month, day⟩, chars)

/-- Reads a date, the letter T and a time, all of whose numbers may be short. -/
def shortDateTime (chars : List Char) : Option (Calendar.Date × Clock × List Char) := do
  let (date, chars) ← shortDate chars
  let chars ← literal 'T' chars
  let (hour, chars) ← shortNumber 2 chars
  let chars ← literal ':' chars
  let (minute, chars) ← shortNumber 2 chars
  let chars ← literal ':' chars
  let (second, chars) ← shortNumber 2 chars
  let (nanos, chars) ← fraction chars
  return (date, ⟨hour, minute, second, nanos⟩, chars)

/-- **A date and a time with an offset**, in short numbers. -/
def withOffset? (chars : List Char) : Option Timestamp := do
  let (date, clock, chars) ← shortDateTime chars
  let (offset, chars) ← offset colonsAndBlanks (trimStart chars)
  atEnd chars
  ofLocal? date clock offset

/-- **A date and a time in UTC**, in short numbers. -/
def withoutOffset? (chars : List Char) : Option Timestamp := do
  let (date, clock, chars) ← shortDateTime chars
  atEnd chars
  ofLocal? date clock 0

/-- **A date alone**, in short numbers: its midnight in UTC. -/
def dateOnly? (chars : List Char) : Option Timestamp := do
  let (date, chars) ← shortDate chars
  atEnd chars
  ofLocal? date ⟨0, 0, 0, 0⟩ 0

/-- **The instant that a text stands for**, in the first of the forms that fits. -/
def ofChars? (chars : List Char) : Option Timestamp :=
  standard? chars <|> withOffset? chars <|> withoutOffset? chars <|> dateOnly? chars

/-- The instant that a text stands for. -/
def ofText? (text : String) : Option Timestamp := ofChars? text.toList

end RpcSchema.Timestamp
