import RpcSchema.Binary64.Decimal
import RpcSchema.Text.Scan
import RpcSchema.Timestamp.Basic
import RpcSchema.Toml.Value

set_option autoImplicit false

/-!
# Numbers and moments of TOML documents

A value that begins with neither a quote nor a bracket is told by its characters: the two flags,
integers to four bases, floating-point numbers, dates and times. Underscores may stand between the
digits of a number.

## Main definitions

* `RpcSchema.Toml.integer?`, `RpcSchema.Toml.float?`, `RpcSchema.Toml.moment?` — the kinds.
* `RpcSchema.Toml.scalar?` — any of them.
-/

namespace RpcSchema.Toml

open Text (isDigit literal digitsExactly)

/-! ## Numbers -/

/-- Digits with single underscores between them, without the underscores. -/
def groupedDigits? (isMember : Char → Bool) : List Char → Option (List Char)
  | [] => none
  | [c] => if isMember c then some [c] else none
  | c :: '_' :: rest => if isMember c then (groupedDigits? isMember rest).map (c :: ·) else none
  | c :: rest => if isMember c then (groupedDigits? isMember rest).map (c :: ·) else none

/-- Digits of an integer to base ten, which have no zero in front. -/
def decimalDigits? (chars : List Char) : Option (List Char) :=
  match groupedDigits? isDigit chars with
  | some ('0' :: _ :: _) => none
  | digits => digits

/-- The value of a digit to a base up to sixteen. -/
def digitValue (c : Char) : Nat :=
  if isDigit c then c.toNat - '0'.toNat else c.toLower.toNat - 'a'.toNat + 10

/-- An integer to a base. -/
def based? (base : Nat) (chars : List Char) : Option Int :=
  let isMember := fun c : Char =>
    (isDigit c || ('a' ≤ c.toLower && c.toLower ≤ 'f')) && digitValue c < base
  (groupedDigits? isMember chars).map fun digits =>
    ((digits.foldl (fun n c => n * base + digitValue c) 0 : Nat) : Int)

/-- An integer to base ten without its sign. -/
def decimalInteger? (chars : List Char) : Option Nat :=
  (decimalDigits? chars).map fun digits => Text.digitsValue 0 digits

/-- **An integer** to base ten with an optional sign, or to base sixteen, eight or two. -/
def integer? (chars : List Char) : Option Int :=
  match chars with
  | '0' :: 'x' :: rest => based? 16 rest
  | '0' :: 'o' :: rest => based? 8 rest
  | '0' :: 'b' :: rest => based? 2 rest
  | '+' :: rest => (decimalInteger? rest).map Int.ofNat
  | '-' :: rest => (decimalInteger? rest).map fun n => -(n : Int)
  | rest => (decimalInteger? rest).map Int.ofNat

/-- An exponent: digits with an optional sign. -/
def exponent? (chars : List Char) : Option (List Char) :=
  match chars with
  | '+' :: rest => groupedDigits? isDigit rest
  | '-' :: rest => (groupedDigits? isDigit rest).map ('-' :: ·)
  | rest => groupedDigits? isDigit rest

/-- The characters of a floating-point number without its sign, underscores left out: digits, then
places behind a point or an exponent or both. -/
def floatChars? (chars : List Char) : Option (List Char) := do
  let inNumber := fun c => isDigit c || c = '_'
  let whole ← decimalDigits? (chars.takeWhile inNumber)
  let withExponent := fun (rest : List Char) =>
    match rest with
    | [] => some []
    | c :: rest => if c = 'e' ∨ c = 'E' then (exponent? rest).map ('e' :: ·) else none
  match chars.dropWhile inNumber with
  | '.' :: rest => do
    let places ← groupedDigits? isDigit (rest.takeWhile inNumber)
    let exponent ← withExponent (rest.dropWhile inNumber)
    return whole ++ '.' :: places ++ exponent
  | [] => none
  | rest => do
    let exponent ← withExponent rest
    return whole ++ exponent

/-- **A floating-point number** with an optional sign. One beyond the greatest double is none. -/
def float? (chars : List Char) : Option Binary64 :=
  let (negative, rest) := match chars with
    | '-' :: rest => (true, rest)
    | '+' :: rest => (false, rest)
    | rest => (false, rest)
  if rest = "inf".toList ∨ rest = "nan".toList then
    Text.double? (if negative then '-' :: rest else rest)
  else do
    let value ← Text.double? (← floatChars? rest)
    if value.isFinite then
      return Binary64.ofMagnitude negative value.magnitude
    else none

/-! ## Dates and times -/

/-- Reads a date. -/
def date (chars : List Char) : Option (List Char) := do
  let (year, rest) ← digitsExactly 4 chars
  let (month, rest) ← digitsExactly 2 (← literal '-' rest)
  let (day, rest) ← digitsExactly 2 (← literal '-' rest)
  if Calendar.isDate ⟨year, month, day⟩ then return rest else none

/-- Reads the fraction of a second, if there is one. -/
def secondFraction (chars : List Char) : Option (List Char) :=
  match chars with
  | '.' :: rest => if (rest.takeWhile isDigit).isEmpty then none else some (rest.dropWhile isDigit)
  | rest => some rest

/-- Reads a time; the seconds may be left out. -/
def time (chars : List Char) : Option (List Char) := do
  let (hour, rest) ← digitsExactly 2 chars
  let (minute, rest) ← digitsExactly 2 (← literal ':' rest)
  if hour ≥ 24 ∨ minute ≥ 60 then none
  else
    match rest with
    | ':' :: rest => do
      let (second, rest) ← digitsExactly 2 rest
      if second > 60 then none else secondFraction rest
    | rest => some rest

/-- Reads an offset. -/
def zone (chars : List Char) : Option (List Char) :=
  match chars with
  | c :: rest =>
    if c = 'Z' ∨ c = 'z' then some rest
    else if c = '+' ∨ c = '-' then do
      let (hour, rest) ← digitsExactly 2 rest
      let (minute, rest) ← digitsExactly 2 (← literal ':' rest)
      if hour ≥ 24 ∨ minute ≥ 60 then none else return rest
    else none
  | [] => none

/-- Whether characters are a time, with an offset if that may be. -/
def isTime (mayHaveZone : Bool) (chars : List Char) : Bool :=
  match time chars with
  | some [] => true
  | some rest => mayHaveZone && zone rest = some []
  | none => false

/-- **A date, a time, or both.** Between them stands a letter `T` or a blank. -/
def moment? (chars : List Char) : Option String :=
  let valid := match date chars with
    | some [] => true
    | some (c :: rest) => (c = 'T' || c = 't' || c = ' ') && isTime true rest
    | none => isTime false chars
  if valid then some (String.ofList chars) else none

/-! ## All of them -/

/-- **The value that characters stand for.** Integers have to fit 64 bits. -/
def scalar? (chars : List Char) : Option Toml :=
  if chars = "true".toList then some (.flag true)
  else if chars = "false".toList then some (.flag false)
  else
    match integer? chars with
    | some n => if -2 ^ 63 ≤ n ∧ n < 2 ^ 64 then some (.integer n) else none
    | none =>
      match float? chars with
      | some x => some (.float x)
      | none => (moment? chars).map .moment

end RpcSchema.Toml
