import RpcSchema.Text.Numeral

set_option autoImplicit false

/-!
# Reading from the front of a text

A scanner reads something from the front of a text and gives what is left, or nothing if the text
begins with something else.

## Main definitions

* `RpcSchema.Text.literal` — reads a given character.
* `RpcSchema.Text.digitsBetween`, `RpcSchema.Text.digitsExactly` — read decimal digits.
-/

namespace RpcSchema.Text

/-- **Reads a given character.** -/
def literal (c : Char) : List Char → Option (List Char)
  | d :: rest => if d = c then some rest else none
  | [] => none

/-- **Reads between `least` and `most` digits**, as many as there are. -/
def digitsBetween (least most : Nat) (chars : List Char) : Option (Nat × List Char) :=
  let digits := (chars.take most).takeWhile isDigit
  if digits.length < least then none
  else some (digitsValue 0 digits, chars.drop digits.length)

/-- Reads exactly `count` digits. -/
def digitsExactly (count : Nat) (chars : List Char) : Option (Nat × List Char) :=
  digitsBetween count count chars

end RpcSchema.Text
