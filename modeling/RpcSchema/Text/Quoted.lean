import RpcSchema.Text.Cluster.Table
import RpcSchema.Text.Quoted.Table

set_option autoImplicit false

/-!
# Texts quoted in messages

A text that a message shows stands between quotes. Quotes and backslashes are escaped, and so is
every character that would not be seen: marks that join what stands before them, controls and
separators are written as their code points.

## Main definitions

* `RpcSchema.Text.escapeShown` — a character as it is shown.
* `RpcSchema.Text.quoted` — a text as it is shown.
-/

namespace RpcSchema.Text

/-- **A character as it is shown** between quotes. -/
def escapeShown (c : Char) : List Char :=
  if c = '\x00' then ['\\', '0']
  else if c = '\t' then ['\\', 't']
  else if c = '\r' then ['\\', 'r']
  else if c = '\n' then ['\\', 'n']
  else if c = '\\' then ['\\', '\\']
  else if c = '"' then ['\\', '"']
  else if inRanges extendRanges c || inRanges unprintableRanges c then
    ['\\', 'u', '\x7b'] ++ Nat.toDigits 16 c.toNat ++ ['\x7d']
  else [c]

/-- **A text as it is shown**: between quotes, escaped. -/
def quoted (text : String) : String :=
  String.ofList ('"' :: (text.toList.flatMap escapeShown ++ ['"']))

end RpcSchema.Text
