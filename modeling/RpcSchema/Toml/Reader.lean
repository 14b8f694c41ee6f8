import RpcSchema.Toml.Scalar

set_option autoImplicit false

/-!
# Reading TOML

The grammar is that of version 1.1: tables between braces may be broken across lines and may end
with a comma, and the seconds of a time may be left out. A document that breaks a rule is refused as
a whole.

`fuel` bounds the values nested in each other and the lines; since each takes a character, it is set
from the length of the text.

## Main definitions

* `RpcSchema.Toml.quotedText`, `RpcSchema.Toml.key` — texts and keys.
* `RpcSchema.Toml.value` — values.
* `RpcSchema.Toml.parse?` — documents.
-/

namespace RpcSchema.Toml

open Text (literal)

/-! ## Blanks and lines -/

/-- Passes blanks. -/
def skipBlanks (chars : List Char) : List Char := chars.dropWhile fun c => c = ' ' || c = '\t'

/-- Whether a character may stand in a comment or in a text in single quotes. -/
def isPlain (c : Char) : Bool := c = '\t' || (' ' ≤ c && c ≠ '\x7f')

/-- Passes a comment, if there is one. -/
def skipComment : List Char → List Char
  | '#' :: rest => rest.dropWhile isPlain
  | rest => rest

/-- Passes the end of a line, if it is there. -/
def lineEnd? : List Char → Option (List Char)
  | '\n' :: rest => some rest
  | '\r' :: '\n' :: rest => some rest
  | _ => none

/-- Passes what may stand behind the content of a line, and the end of the line or of the text. -/
def endOfLine (chars : List Char) : Option (List Char) :=
  match skipComment (skipBlanks chars) with
  | [] => some []
  | rest => lineEnd? rest

/-- Passes blanks, comments and ends of lines. -/
def skipLines : Nat → List Char → List Char
  | 0, chars => chars
  | fuel + 1, chars =>
    let rest := skipComment (skipBlanks chars)
    match lineEnd? rest with
    | some rest => skipLines fuel rest
    | none => rest

/-! ## Texts -/

/-- The character with the number that digits to base sixteen spell. -/
def hexChar? (digits : List Char) : Option Char := do
  let n ← based? 16 digits
  if h : n.toNat.isValidChar then
    if digits.contains '_' then none else return Char.ofNatAux n.toNat h
  else none

/-- Reads what stands behind a backslash. -/
def escaped : List Char → Option (Char × List Char)
  | 'b' :: rest => some ('\x08', rest)
  | 't' :: rest => some ('\t', rest)
  | 'n' :: rest => some ('\n', rest)
  | 'f' :: rest => some ('\x0c', rest)
  | 'r' :: rest => some ('\r', rest)
  | 'e' :: rest => some ('\x1b', rest)
  | '"' :: rest => some ('"', rest)
  | '\\' :: rest => some ('\\', rest)
  | 'x' :: rest => hexEscape 2 rest
  | 'u' :: rest => hexEscape 4 rest
  | 'U' :: rest => hexEscape 8 rest
  | _ => none
where
  /-- Reads a character by its number, which has so many digits. -/
  hexEscape (count : Nat) (rest : List Char) : Option (Char × List Char) :=
    if rest.length < count then none
    else (hexChar? (rest.take count)).map fun c => (c, rest.drop count)

/-- Reads a text in double quotes from behind the first. -/
def basicText : Nat → List Char → List Char → Option (String × List Char)
  | 0, _, _ => none
  | fuel + 1, done, chars =>
    match chars with
    | '"' :: rest => some (String.ofList done.reverse, rest)
    | '\\' :: rest => do
      let (c, rest) ← escaped rest
      basicText fuel (c :: done) rest
    | c :: rest => if isPlain c then basicText fuel (c :: done) rest else none
    | [] => none

/-- Reads a text in single quotes from behind the first. -/
def literalText (chars : List Char) : Option (String × List Char) :=
  let isInside := fun c => isPlain c && c ≠ '\''
  match chars.dropWhile isInside with
  | '\'' :: rest => some (String.ofList (chars.takeWhile isInside), rest)
  | _ => none

/-- What a backslash at the end of a line passes: the blanks behind it, the end of the line, and
all blanks and ends of lines that follow. -/
def foldedLine? (chars : List Char) : Option (List Char) :=
  (lineEnd? (skipBlanks chars)).map fun rest =>
    rest.dropWhile fun c => c = ' ' || c = '\t' || c = '\n' || c = '\r'

/-- Reads a text of several lines from behind the quotes that open it, up to three quotes that close
it; up to two more quotes in front of these belong to the text. -/
def longText (quote : Char) (escapes : Bool) :
    Nat → List Char → List Char → Option (String × List Char)
  | 0, _, _ => none
  | fuel + 1, done, chars =>
    let quotes := (chars.takeWhile (· = quote)).length
    if 3 ≤ quotes then
      if 5 < quotes then none
      else
        some (String.ofList (List.replicate (quotes - 3) quote ++ done).reverse,
          chars.drop quotes)
    else
      match chars with
      | [] => none
      | c :: rest =>
        if c = '\\' ∧ escapes then
          match foldedLine? rest with
          | some rest => longText quote escapes fuel done rest
          | none => do
            let (c, rest) ← escaped rest
            longText quote escapes fuel (c :: done) rest
        else
          match lineEnd? chars with
          | some rest => longText quote escapes fuel ('\n' :: done) rest
          | none => if isPlain c then longText quote escapes fuel (c :: done) rest else none

/-- Passes the end of the line behind the quotes that open a text of several lines. -/
def dropFirstEnd (chars : List Char) : List Char := (lineEnd? chars).getD chars

/-- Reads a text in quotes. -/
def quotedText (chars : List Char) : Option (String × List Char) :=
  match chars with
  | '"' :: '"' :: '"' :: rest => longText '"' true (rest.length + 1) [] (dropFirstEnd rest)
  | '\'' :: '\'' :: '\'' :: rest => longText '\'' false (rest.length + 1) [] (dropFirstEnd rest)
  | '"' :: rest => basicText (rest.length + 1) [] rest
  | '\'' :: rest => literalText rest
  | _ => none

/-! ## Keys -/

/-- Whether a character may stand in a key without quotes. -/
def isBare (c : Char) : Bool := c.isAlphanum || c = '_' || c = '-'

/-- Reads a part of a key. -/
def keyPart (chars : List Char) : Option (String × List Char) :=
  match chars with
  | '"' :: rest => basicText (rest.length + 1) [] rest
  | '\'' :: rest => literalText rest
  | chars =>
    let name := chars.takeWhile isBare
    if name.isEmpty then none else some (String.ofList name, chars.dropWhile isBare)

/-- Reads a key, whose parts have points between them. -/
def key : Nat → List Char → Option (List String × List Char)
  | 0, _ => none
  | fuel + 1, chars => do
    let (part, rest) ← keyPart (skipBlanks chars)
    match skipBlanks rest with
    | '.' :: rest => do
      let (parts, rest) ← key fuel rest
      return (part :: parts, rest)
    | rest => return ([part], rest)

/-! ## Values -/

/-- Whether a character belongs to a value without quotes or brackets. -/
def isScalarChar (c : Char) : Bool := isBare c || c = '+' || c = '.' || c = ':'

/-- Reads a value without quotes or brackets. A blank may stand between a date and a time. -/
def plainValue (chars : List Char) : Option (Toml × List Char) :=
  let first := chars.takeWhile isScalarChar
  let rest := chars.dropWhile isScalarChar
  match date first, rest with
  | some [], ' ' :: c :: more =>
    if Text.isDigit c then do
      let value ← scalar? (first ++ ' ' :: (c :: more).takeWhile isScalarChar)
      return (value, (c :: more).dropWhile isScalarChar)
    else (scalar? first).map fun value => (value, rest)
  | _, _ => (scalar? first).map fun value => (value, rest)

mutual

/-- **Reads a value.** -/
def value : Nat → List Char → Option (Toml × List Char)
  | 0, _ => none
  | fuel + 1, chars =>
    match chars with
    | '[' :: rest => arrayItems fuel [] rest
    | '\x7b' :: rest => tableEntries fuel [] rest
    | '"' :: _ => (quotedText chars).map fun read => (.text read.1, read.2)
    | '\'' :: _ => (quotedText chars).map fun read => (.text read.1, read.2)
    | chars => plainValue chars

/-- Reads the items of an array; `done` holds those read already in reverse. -/
def arrayItems : Nat → List Toml → List Char → Option (Toml × List Char)
  | 0, _, _ => none
  | fuel + 1, done, chars =>
    match skipLines chars.length chars with
    | ']' :: rest => some (.array done.reverse, rest)
    | chars => do
      let (item, rest) ← value fuel chars
      match skipLines rest.length rest with
      | ',' :: rest => arrayItems fuel (item :: done) rest
      | ']' :: rest => return (.array (item :: done).reverse, rest)
      | _ => none

/-- Reads the entries of a table between braces. -/
def tableEntries : Nat → Table → List Char → Option (Toml × List Char)
  | 0, _, _ => none
  | fuel + 1, done, chars =>
    match skipLines chars.length chars with
    | '\x7d' :: rest => some (.table .inline done, rest)
    | chars => do
      let (parts, rest) ← key chars.length chars
      let (item, rest) ← value fuel (skipBlanks (← literal '=' rest))
      let done ← insertAt item false .inline parts done
      match skipLines rest.length rest with
      | ',' :: rest => tableEntries fuel done rest
      | '\x7d' :: rest => return (.table .inline done, rest)
      | _ => none

end

/-! ## Documents -/

/-- What has been read of a document: the entries, and the header that is in force. -/
structure Draft where
  table : Table := []
  header : List String := []

/-- Reads a header in single or double brackets from behind the first. -/
def readHeader (draft : Draft) (chars : List Char) : Option (Draft × List Char) :=
  match chars with
  | '[' :: rest => do
    let (header, rest) ← key rest.length rest
    let rest ← literal ']' (← literal ']' rest)
    return (⟨← openItem header draft.table, header⟩, rest)
  | rest => do
    let (header, rest) ← key rest.length rest
    let rest ← literal ']' rest
    return (⟨← openTable header draft.table, header⟩, rest)

/-- Reads a key and its value. -/
def readEntry (draft : Draft) (chars : List Char) : Option (Draft × List Char) := do
  let (parts, rest) ← key chars.length chars
  let rest := skipBlanks (← literal '=' rest)
  let (item, rest) ← value (2 * rest.length + 2) rest
  return ({ draft with table := ← insertBelow draft.header parts item draft.table }, rest)

/-- Reads the lines of a document. -/
def readLines : Nat → Draft → List Char → Option Table
  | 0, _, _ => none
  | fuel + 1, draft, chars =>
    match skipBlanks chars with
    | [] => some draft.table
    | c :: rest => do
      let (draft, rest) ←
        if c = '[' then readHeader draft rest
        else if c = '#' ∨ c = '\n' ∨ c = '\r' then some (draft, c :: rest)
        else readEntry draft (c :: rest)
      readLines fuel draft (← endOfLine rest)

/-- **Reads a document.** A mark of the byte order in front is passed over. -/
def parse? (text : String) : Option Table :=
  let chars := match text.toList with
    | '\uFEFF' :: rest => rest
    | chars => chars
  readLines (chars.length + 1) {} chars

end RpcSchema.Toml
