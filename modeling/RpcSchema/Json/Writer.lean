import RpcSchema.Json.Basic
import RpcSchema.Binary64.Decimal

set_option autoImplicit false

/-!
# Writing JSON

Two layouts of one grammar: compact, without any blank, and indented by two spaces with every
item on a line of its own. Text is escaped only where it has to be: the quote, the backslash and
the control characters below U+0020.

## Main definitions

* `RpcSchema.Json.quote` — a text as a string literal.
* `RpcSchema.Json.compact` — a value without blanks.
* `RpcSchema.Json.pretty` — a value over several lines.
-/

namespace RpcSchema.Json

/-! ## Literals -/

/-- A hexadecimal digit below sixteen, in lower case. -/
def hexDigit (n : Nat) : Char := (Nat.digitChar n)

/-- **The escape of a character** inside a string literal. -/
def escape (c : Char) : List Char :=
  if c = '"' then ['\\', '"']
  else if c = '\\' then ['\\', '\\']
  else if c = '\x08' then ['\\', 'b']
  else if c = '\x0c' then ['\\', 'f']
  else if c = '\n' then ['\\', 'n']
  else if c = '\r' then ['\\', 'r']
  else if c = '\t' then ['\\', 't']
  else if c.toNat < 0x20 then
    ['\\', 'u', '0', '0', hexDigit (c.toNat / 16), hexDigit (c.toNat % 16)]
  else [c]

/-- **A string literal**: the text between quotes, escaped. -/
def quote (text : String) : String :=
  String.ofList ('"' :: (text.toList.flatMap escape ++ ['"']))

/-- A whole number in decimal digits, with a sign when it is negative. -/
def wholeText (value : Int) : String :=
  match value with
  | .ofNat n => digitText n
  | .negSucc n => "-" ++ digitText (n + 1)

/-- A number: a whole number in its digits, a double in the notation of documents. -/
def Number.text : Number → String
  | .whole value _ => wholeText value
  | .double value _ => value.documentText

/-! ## Compact -/

mutual

/-- **The compact layout**: no blank anywhere outside literals. -/
def compact : Json → String
  | .null => "null"
  | .bool true => "true"
  | .bool false => "false"
  | .number value => value.text
  | .string value => quote value
  | .array items => "[" ++ ",".intercalate (compactItems items) ++ "]"
  | .object entries => "\x7b" ++ ",".intercalate (compactEntries entries) ++ "\x7d"

/-- The compact layouts of items. -/
def compactItems : List Json → List String
  | [] => []
  | item :: rest => item.compact :: compactItems rest

/-- The compact layouts of entries: key, colon, value. -/
def compactEntries : List (String × Json) → List String
  | [] => []
  | (key, value) :: rest => (quote key ++ ":" ++ value.compact) :: compactEntries rest

end

/-! ## Indented -/

/-- A line break followed by two spaces for every level. -/
def newline (level : Nat) : String := String.ofList ('\n' :: List.replicate (2 * level) ' ')

/-- Rows between brackets, each on its own line one level deeper; no rows leave the brackets
together. -/
def block (opening closing : String) (level : Nat) (rows : List String) : String :=
  if rows.isEmpty then opening ++ closing
  else
    opening ++ newline (level + 1) ++ ("," ++ newline (level + 1)).intercalate rows ++
      newline level ++ closing

mutual

/-- The indented layout of a value that stands at `level`. -/
def prettyAt (level : Nat) : Json → String
  | .array items => block "[" "]" level (prettyItems (level + 1) items)
  | .object entries => block "\x7b" "\x7d" level (prettyEntries (level + 1) entries)
  | .null => "null"
  | .bool true => "true"
  | .bool false => "false"
  | .number value => value.text
  | .string value => quote value

/-- The indented layouts of items. -/
def prettyItems (level : Nat) : List Json → List String
  | [] => []
  | item :: rest => item.prettyAt level :: prettyItems level rest

/-- The indented layouts of entries. -/
def prettyEntries (level : Nat) : List (String × Json) → List String
  | [] => []
  | (key, value) :: rest =>
    (quote key ++ ": " ++ value.prettyAt level) :: prettyEntries level rest

end

/-- **The indented layout**: two spaces a level, every item and entry on a line of its own. -/
def pretty (value : Json) : String := value.prettyAt 0

end RpcSchema.Json
