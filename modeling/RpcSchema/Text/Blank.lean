import RpcSchema.Text.CodeRanges

set_option autoImplicit false

/-!
# Blanks

The characters with the Unicode property White_Space, and texts without them at their ends.

## Main definitions

* `RpcSchema.Text.isBlank` — the white space of Unicode.
* `RpcSchema.Text.trimStart`, `RpcSchema.Text.trim` — a text without blanks at its ends.
-/

namespace RpcSchema.Text

/-- The characters of the property White_Space. -/
def blankRanges : CodeRanges :=
  #[(0x9, 0xD), (0x20, 0x20), (0x85, 0x85), (0xA0, 0xA0), (0x1680, 0x1680), (0x2000, 0x200A),
    (0x2028, 0x2029), (0x202F, 0x202F), (0x205F, 0x205F), (0x3000, 0x3000)]

/-- Whether a character is white space. -/
def isBlank (c : Char) : Bool := inRanges blankRanges c

/-- The characters from the first one on that is not blank. -/
def trimStart (chars : List Char) : List Char := chars.dropWhile isBlank

/-- **A text without blanks at its ends.** -/
def trim (chars : List Char) : List Char := (trimStart (trimStart chars).reverse).reverse

end RpcSchema.Text
