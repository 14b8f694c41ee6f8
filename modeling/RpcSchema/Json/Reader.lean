import RpcSchema.Json.Syntax

set_option autoImplicit false

/-!
# Reading JSON

A value is read from the bytes of a text. Every function takes the offset at which it starts and
gives the offset at which it ends; `fuel` bounds the calls nested in each other and, since each of
them takes a byte, is set from the length of the text.

Values that nobody asks for are passed over by `skipValue`, which checks their form and keeps its
place in a list of the brackets still open, so that nesting has no limit there.

## Main definitions

* `RpcSchema.Json.Text.value` — reads a value.
* `RpcSchema.Json.Text.skipValue` — passes over a value.
* `RpcSchema.Json.parse` — reads a whole text.
-/

namespace RpcSchema.Json

namespace Text

/-! ## The structure of arrays and objects -/

/-- Whether an array goes on at an offset: the offset of the next item, or `none` at the closing
bracket. -/
def nextItem (text : Text) (first : Bool) (offset : Nat) : Except SyntaxError (Option Nat) :=
  let offset := text.skipBlank offset
  match text.byte? offset with
  | none => text.failOn offset .endInList
  | some b =>
    if b = 93 then .ok none
    else if first then .ok (some offset)
    else if b = 44 then
      let next := text.skipBlank (offset + 1)
      match text.byte? next with
      | none => text.failOn next .endInValue
      | some b => if b = 93 then text.failOn next .trailingComma else .ok (some next)
    else text.failOn offset .expectedCommaOrBracket

/-- Whether an object goes on at an offset: the offset after the quote that opens the next key, or
`none` at the closing brace. -/
def nextKey (text : Text) (first : Bool) (offset : Nat) : Except SyntaxError (Option Nat) :=
  let offset := text.skipBlank offset
  match text.byte? offset with
  | none => text.failOn offset .endInObject
  | some b =>
    if b = 125 then .ok none
    else if first then
      if b = 34 then .ok (some (offset + 1)) else text.failOn offset .keyNotString
    else if b = 44 then
      let next := text.skipBlank (offset + 1)
      match text.byte? next with
      | none => text.failOn next .endInValue
      | some b =>
        if b = 34 then .ok (some (next + 1))
        else if b = 125 then text.failOn next .trailingComma
        else text.failOn next .keyNotString
    else text.failOn offset .expectedCommaOrBrace

/-- Passes the colon after a key. -/
def colon (text : Text) (offset : Nat) : Except SyntaxError Nat :=
  let offset := text.skipBlank offset
  match text.byte? offset with
  | none => text.failOn offset .endInObject
  | some b => if b = 58 then .ok (offset + 1) else text.failOn offset .expectedColon

/-- Passes the bracket that closes an array. -/
def closeArray (text : Text) (offset : Nat) : Except SyntaxError Nat :=
  let offset := text.skipBlank offset
  match text.byte? offset with
  | none => text.failOn offset .endInList
  | some b =>
    if b = 93 then .ok (offset + 1)
    else if b = 44 then
      let next := text.skipBlank (offset + 1)
      text.failOn next (if text.byte next = 93 then .trailingComma else .trailingCharacters)
    else text.failOn offset .trailingCharacters

/-- Passes the brace that closes an object. -/
def closeObject (text : Text) (offset : Nat) : Except SyntaxError Nat :=
  let offset := text.skipBlank offset
  match text.byte? offset with
  | none => text.failOn offset .endInObject
  | some b =>
    if b = 125 then .ok (offset + 1)
    else text.failOn offset (if b = 44 then .trailingComma else .trailingCharacters)

/-- Only blanks are left of the text. -/
def finish (text : Text) (offset : Nat) : Except SyntaxError Unit :=
  let offset := text.skipBlank offset
  if offset < text.size then text.failOn offset .trailingCharacters else .ok ()

/-- A value that is neither an array nor an object, at its first byte. -/
def scalar (text : Text) (offset : Nat) : Except SyntaxError (Json × Nat) := do
  match text.byte? offset with
  | none => text.failOn offset .endInValue
  | some b =>
    if b = 110 then return (.null, ← text.word nullRest (offset + 1))
    else if b = 116 then return (.bool true, ← text.word trueRest (offset + 1))
    else if b = 102 then return (.bool false, ← text.word falseRest (offset + 1))
    else if b = 45 then
      let (value, next) ← text.number true (offset + 1)
      return (.number value, next)
    else if isDigit b then
      let (value, next) ← text.number false offset
      return (.number value, next)
    else if b = 34 then
      let (value, next) ← text.string (offset + 1)
      return (.string value, next)
    else text.failOn offset .expectedValue

/-! ## Values -/

mutual

/-- **Reads a value**, with `room` for that many arrays and objects less one. -/
def value (text : Text) (fuel room offset : Nat) : Except SyntaxError (Json × Nat) :=
  match fuel with
  | 0 => text.failAt text.size .endInValue
  | fuel + 1 =>
    let offset := text.skipBlank offset
    let b := text.byte offset
    if b = 91 || b = 123 then
      if room ≤ 1 then text.failOn offset .nestingLimit
      else if b = 91 then text.items fuel (room - 1) [] true (offset + 1)
      else text.entries fuel (room - 1) [] true (offset + 1)
    else text.scalar offset

/-- Reads the items of an array from behind the last one read; `done` holds those in reverse. -/
def items (text : Text) (fuel room : Nat) (done : List Json) (first : Bool) (offset : Nat) :
    Except SyntaxError (Json × Nat) :=
  match fuel with
  | 0 => text.failAt text.size .endInList
  | fuel + 1 =>
    match text.nextItem first offset with
    | .error e => .error e
    | .ok none => (text.closeArray offset).map fun next => (.array done.reverse, next)
    | .ok (some start) =>
      match text.value fuel room start with
      | .error e => .error e
      | .ok (item, next) => text.items fuel room (item :: done) false next

/-- Reads the entries of an object from behind the last one read; `done` holds those in order. -/
def entries (text : Text) (fuel room : Nat) (done : Entries Json) (first : Bool) (offset : Nat) :
    Except SyntaxError (Json × Nat) :=
  match fuel with
  | 0 => text.failAt text.size .endInObject
  | fuel + 1 =>
    match text.nextKey first offset with
    | .error e => .error e
    | .ok none => (text.closeObject offset).map fun next => (.object done, next)
    | .ok (some start) =>
      match text.string start with
      | .error e => .error e
      | .ok (key, afterKey) =>
        match text.colon afterKey with
        | .error e => .error e
        | .ok start =>
          match text.value fuel room start with
          | .error e => .error e
          | .ok (item, next) => text.entries fuel room (Entries.insert done key item) false next

end

/-! ## Values passed over -/

/-- Passes over a value that is neither an array nor an object, at its first byte. -/
def skipScalar (text : Text) (offset : Nat) : Except SyntaxError Nat :=
  match text.byte? offset with
  | none => text.failOn offset .endInValue
  | some b =>
    if b = 110 then text.word nullRest (offset + 1)
    else if b = 116 then text.word trueRest (offset + 1)
    else if b = 102 then text.word falseRest (offset + 1)
    else if b = 45 then text.skipNumber (offset + 1)
    else if isDigit b then text.skipNumber offset
    else if b = 34 then text.skipString (text.size + 1 - offset) (offset + 1)
    else text.failOn offset .expectedValue

/-- Passes the key of an entry and its colon, up to the value. -/
def skipKey (text : Text) (offset : Nat) : Except SyntaxError Nat := do
  let offset := text.skipBlank offset
  match text.byte? offset with
  | none => text.failOn offset .endInObject
  | some b =>
    if b ≠ 34 then text.failOn offset .keyNotString
    else
      let afterKey ← text.skipString (text.size + 1 - offset) (offset + 1)
      text.colon afterKey

mutual

/-- Passes over a value inside the arrays and objects of `opened`, whose closing bytes are listed
from the innermost out, and over all that follows in them. -/
def skipInside (text : Text) (fuel : Nat) (opened : List UInt8) (offset : Nat) :
    Except SyntaxError Nat :=
  match fuel with
  | 0 => text.failAt text.size .endInValue
  | fuel + 1 =>
    let offset := text.skipBlank offset
    let b := text.byte offset
    if b = 91 then text.skipAfter fuel (93 :: opened) false (offset + 1)
    else if b = 123 then text.skipAfter fuel (125 :: opened) false (offset + 1)
    else
      match text.skipScalar offset with
      | .error e => .error e
      | .ok next => text.skipAfter fuel opened true next

/-- Goes on behind a value, or behind an opening bracket if `comma` is false: a comma leads to the
next value, a closing byte out of the innermost bracket. -/
def skipAfter (text : Text) (fuel : Nat) (opened : List UInt8) (comma : Bool) (offset : Nat) :
    Except SyntaxError Nat :=
  match fuel, opened with
  | _, [] => .ok offset
  | 0, _ => text.failAt text.size .endInValue
  | fuel + 1, closing :: outer =>
    let offset := text.skipBlank offset
    let enter (start : Nat) : Except SyntaxError Nat :=
      match if closing = 125 then text.skipKey start else .ok start with
      | .error e => .error e
      | .ok start => text.skipInside fuel opened start
    match text.byte? offset with
    | none => text.failOn offset (if closing = 93 then .endInList else .endInObject)
    | some b =>
      if comma && b = 44 then enter (offset + 1)
      else if b = closing then text.skipAfter fuel outer true (offset + 1)
      else if comma then
        text.failOn offset (if closing = 93 then .expectedCommaOrBracket else .expectedCommaOrBrace)
      else enter offset

end

/-- **Passes over a value**, checking its form alone. -/
def skipValue (text : Text) (offset : Nat) : Except SyntaxError Nat :=
  text.skipInside (2 * text.size + 4) [] offset

end Text

/-- **Reads a whole text**: one value with blanks around it. -/
def parse (source : String) : Except SyntaxError Json := do
  let text : Text := source.toUTF8
  let (result, offset) ← text.value (2 * text.size + 4) nestingLimit 0
  text.finish offset
  return result

end RpcSchema.Json
