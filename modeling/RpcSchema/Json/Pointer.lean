import RpcSchema.Json.Basic

set_option autoImplicit false

/-!
# JSON pointers

A pointer names a place inside a value by the keys and positions that lead to it. Its text puts a
slash before every token, with `~` written `~0` and a slash written `~1`.

## Main definitions

* `RpcSchema.Pointer` — the tokens of a pointer.
* `RpcSchema.Pointer.text`, `RpcSchema.Pointer.ofText?` — writing and reading.
* `RpcSchema.Pointer.extend` — the text of a pointer with one token more.
* `RpcSchema.Json.resolve?` — the place that a pointer names.
-/

namespace RpcSchema

/-- **A pointer**: its tokens from the root inwards. -/
abbrev Pointer : Type := List String

namespace Pointer

/-- The escape of a character of a token. -/
def escape (c : Char) : List Char :=
  if c = '~' then ['~', '0'] else if c = '/' then ['~', '1'] else [c]

/-- A token as it stands in a pointer, after its slash. -/
def tokenText (token : String) : String :=
  String.ofList ('/' :: token.toList.flatMap escape)

/-- **The text of a pointer**: a slash and the escaped token, for every token. -/
def text (pointer : Pointer) : String := String.join (pointer.map tokenText)

/-- The text of a pointer with one token more. -/
def extend (base : String) (token : String) : String := base ++ tokenText token

/-- Reads a token back. A tilde is followed by `0` or `1`. -/
def unescape? : List Char → Option (List Char)
  | [] => some []
  | '~' :: '0' :: rest => (unescape? rest).map ('~' :: ·)
  | '~' :: '1' :: rest => (unescape? rest).map ('/' :: ·)
  | '~' :: _ => none
  | c :: rest => (unescape? rest).map (c :: ·)

/-- Reads tokens, the first of them held in `current` in reverse. -/
def tokens? : List Char → List Char → Option (List (List Char))
  | [], current => (unescape? current.reverse).map ([·])
  | c :: rest, current =>
    if c = '/' then do
      let token ← unescape? current.reverse
      return token :: (← tokens? rest [])
    else tokens? rest (c :: current)

/-- **Reads a pointer**: the empty text, or a slash before every token. -/
def ofText? (text : String) : Option Pointer :=
  match text.toList with
  | [] => some []
  | c :: rest => if c = '/' then (tokens? rest []).map (·.map String.ofList) else none

end Pointer

/-- The item at the position that a token spells in decimal, without a leading zero. -/
def Json.item? (items : List Json) (token : String) : Option Json :=
  (List.range items.length).findSome? fun i =>
    if String.ofList (Nat.toDigits 10 i) = token then items[i]? else none

/-- **The place a pointer names**: a token is a key of an object or a position of an array. -/
def Json.resolve? : Json → Pointer → Option Json
  | value, [] => some value
  | .object entries, token :: rest => (entries.lookup token).bind (resolve? · rest)
  | .array items, token :: rest => (Json.item? items token).bind (resolve? · rest)
  | _, _ :: _ => none

end RpcSchema
