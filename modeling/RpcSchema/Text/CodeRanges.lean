set_option autoImplicit false

/-!
# Sets of characters

A property of characters is kept as the ranges of code points that have it.

## Main definitions

* `RpcSchema.Text.CodeRanges` — ranges of code points, both ends included.
* `RpcSchema.Text.inRanges` — whether a character lies in one of them.
-/

namespace RpcSchema.Text

/-- **Ranges of code points**, both ends included. -/
abbrev CodeRanges : Type := Array (Nat × Nat)

/-- Whether a character lies in one of the ranges. -/
def inRanges (ranges : CodeRanges) (c : Char) : Bool :=
  ranges.any fun (first, last) => first ≤ c.toNat && c.toNat ≤ last

end RpcSchema.Text
