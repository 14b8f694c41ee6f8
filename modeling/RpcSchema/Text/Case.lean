import RpcSchema.Text.Case.Table

set_option autoImplicit false

/-!
# Upper and lower case

The case mappings of Unicode, of characters and of texts. In lower case a capital sigma that ends
a word becomes a final sigma; no other mapping depends on what stands around a character.

## Main definitions

* `RpcSchema.Text.upperChar` — the upper-case characters of a character.
* `RpcSchema.Text.upper`, `RpcSchema.Text.lower` — the case mappings of a text.
-/

namespace RpcSchema.Text

/-- The character that a run maps a character to, if one of the runs holds it. -/
def mapByRuns (runs : CaseRuns) (c : Char) : Option Char :=
  runs.findSome? fun (first, last, step, shift) =>
    if first ≤ c.toNat && c.toNat ≤ last && (c.toNat - first) % step == 0 then
      some (Char.ofNat (c.toNat + shift).toNat)
    else none

/-- The characters that a table of sequences gives for a character. -/
def mapBySequences (sequences : Array (Nat × List Nat)) (c : Char) : Option (List Char) :=
  sequences.findSome? fun (code, mapped) =>
    if code = c.toNat then some (mapped.map Char.ofNat) else none

/-- **The case mapping** of a character by its tables, the character itself if none holds it. -/
def mapCase (runs : CaseRuns) (sequences : Array (Nat × List Nat)) (c : Char) : List Char :=
  match mapByRuns runs c with
  | some mapped => [mapped]
  | none => (mapBySequences sequences c).getD [c]

/-- The upper-case characters of a character. -/
def upperChar (c : Char) : List Char := mapCase upperRuns upperSequences c

/-- The lower-case characters of a character by itself. -/
def lowerChar (c : Char) : List Char := mapCase lowerRuns lowerSequences c

/-- **The upper-case text.** -/
def upper (chars : List Char) : List Char := chars.flatMap upperChar

/-- Whether the first character that is not ignored for case is a cased one. -/
def nextIsCased (chars : List Char) : Bool :=
  match chars.dropWhile (inRanges caseIgnorableRanges) with
  | [] => false
  | c :: _ => inRanges casedRanges c

/-- The lower-case text, where `before` are the characters in front of it in reverse. -/
def lowerAfter : List Char → List Char → List Char
  | _, [] => []
  | before, c :: rest =>
    let mapped :=
      if c = 'Σ' then if nextIsCased before && !nextIsCased rest then ['ς'] else ['σ']
      else lowerChar c
    mapped ++ lowerAfter (c :: before) rest

/-- **The lower-case text.** A capital sigma becomes a final one if a cased character stands before
it in its word and none after it. -/
def lower (chars : List Char) : List Char := lowerAfter [] chars

end RpcSchema.Text
