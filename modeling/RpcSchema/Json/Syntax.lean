import RpcSchema.Json.Basic
import RpcSchema.Binary64.Decimal

set_option autoImplicit false

/-!
# The tokens of JSON text

Reading works on the bytes of a text and an offset into them. Every function here takes the
offset at which a token starts and gives the offset after it, or says what is wrong and where.

A position counts lines from one, and columns as the bytes of the line read so far. An error about
a byte that was only looked at counts that byte too.

## Main definitions

* `RpcSchema.Json.SyntaxFault` — what can be wrong with a text.
* `RpcSchema.Json.SyntaxError` — a fault and its position.
* `RpcSchema.Json.Text` — the bytes of a text.
* `RpcSchema.Json.Text.string`, `RpcSchema.Json.Text.number`, `RpcSchema.Json.Text.word` — tokens.
-/

namespace RpcSchema.Json

/-! ## Faults -/

/-- **What can be wrong with a text.** -/
inductive SyntaxFault
  | endInList
  | endInObject
  | endInString
  | endInValue
  | expectedColon
  | expectedCommaOrBracket
  | expectedCommaOrBrace
  | expectedWord
  | expectedValue
  | invalidEscape
  | invalidNumber
  | numberOutOfRange
  | controlCharacter
  | keyNotString
  | loneSurrogate
  | endOfEscape
  | trailingComma
  | trailingCharacters
  | nestingLimit
deriving DecidableEq

/-- What a fault is called. -/
def SyntaxFault.message : SyntaxFault → String
  | .endInList => "EOF while parsing a list"
  | .endInObject => "EOF while parsing an object"
  | .endInString => "EOF while parsing a string"
  | .endInValue => "EOF while parsing a value"
  | .expectedColon => "expected `:`"
  | .expectedCommaOrBracket => "expected `,` or `]`"
  | .expectedCommaOrBrace => "expected `,` or `\x7d`"
  | .expectedWord => "expected ident"
  | .expectedValue => "expected value"
  | .invalidEscape => "invalid escape"
  | .invalidNumber => "invalid number"
  | .numberOutOfRange => "number out of range"
  | .controlCharacter =>
    "control character (\\u0000-\\u001F) found while parsing a string"
  | .keyNotString => "key must be a string"
  | .loneSurrogate => "lone leading surrogate in hex escape"
  | .endOfEscape => "unexpected end of hex escape"
  | .trailingComma => "trailing comma"
  | .trailingCharacters => "trailing characters"
  | .nestingLimit => "recursion limit exceeded"

/-- **A position**: the line, from one, and the bytes of that line read so far. -/
structure Position where
  line : Nat
  column : Nat
deriving DecidableEq

/-- The end of a message that gives a position. -/
def Position.suffix (position : Position) : String :=
  " at line " ++ toString position.line ++ " column " ++ toString position.column

/-- **A fault of a text** and where it is. -/
structure SyntaxError where
  fault : SyntaxFault
  position : Position
deriving DecidableEq

/-- The fault followed by its position. -/
def SyntaxError.message (error : SyntaxError) : String :=
  error.fault.message ++ error.position.suffix

/-- The greatest number of arrays and objects open at once, and one more. -/
def nestingLimit : Nat := 128

/-! ## Bytes -/

/-- The bytes of a text. -/
abbrev Text : Type := ByteArray

namespace Text

/-- The byte at an offset. -/
def byte? (text : Text) (offset : Nat) : Option UInt8 := text[offset]?

/-- The byte at an offset, zero at the end of the text. -/
def byte (text : Text) (offset : Nat) : UInt8 := (text.byte? offset).getD 0

/-- The position after the first `offset` bytes. -/
def position (text : Text) (offset : Nat) : Position :=
  (List.range (min offset text.size)).foldl
    (fun p i => if text.byte i = 10 then ⟨p.line + 1, 0⟩ else ⟨p.line, p.column + 1⟩) ⟨1, 0⟩

/-- A fault found after the first `offset` bytes. -/
def failAt {α : Type} (text : Text) (offset : Nat) (fault : SyntaxFault) : Except SyntaxError α :=
  .error ⟨fault, text.position offset⟩

/-- A fault of the byte at an offset, which has only been looked at. -/
def failOn {α : Type} (text : Text) (offset : Nat) (fault : SyntaxFault) : Except SyntaxError α :=
  text.failAt (offset + 1) fault

/-- Whether a byte is blank: a space, a tab or a line break. -/
def isBlank (b : UInt8) : Bool := b == 32 || b == 10 || b == 9 || b == 13

/-- Whether a byte is a decimal digit. -/
def isDigit (b : UInt8) : Bool := 48 ≤ b && b ≤ 57

/-- The offset of the next byte that does not satisfy `p`. -/
def skipWhile (text : Text) (p : UInt8 → Bool) (offset : Nat) : Nat :=
  if h : offset < text.size then
    if p text[offset] then skipWhile text p (offset + 1) else offset
  else offset
termination_by text.size - offset

/-- The offset of the next byte that is not blank. -/
def skipBlank (text : Text) (offset : Nat) : Nat := text.skipWhile isBlank offset

/-- Reads the rest of one of the words `null`, `true` and `false`. -/
def word (text : Text) : List UInt8 → Nat → Except SyntaxError Nat
  | [], offset => .ok offset
  | expected :: rest, offset =>
    match text.byte? offset with
    | none => text.failAt offset .endInValue
    | some b => if b = expected then text.word rest (offset + 1)
      else text.failAt (offset + 1) .expectedWord

/-- The bytes of `ull`, `rue` and `alse`. -/
def nullRest : List UInt8 := [117, 108, 108]

/-- The bytes of `rue`. -/
def trueRest : List UInt8 := [114, 117, 101]

/-- The bytes of `alse`. -/
def falseRest : List UInt8 := [97, 108, 115, 101]

/-! ## Strings -/

/-- The value of a hexadecimal digit. -/
def hexValue? (b : UInt8) : Option Nat :=
  if 48 ≤ b && b ≤ 57 then some (b.toNat - 48)
  else if 97 ≤ b && b ≤ 102 then some (b.toNat - 87)
  else if 65 ≤ b && b ≤ 70 then some (b.toNat - 55)
  else none

/-- Reads the four digits of an escape. -/
def hexEscape (text : Text) (offset : Nat) : Except SyntaxError (Nat × Nat) :=
  if text.size < offset + 4 then text.failAt text.size .endInString
  else
    match hexValue? (text.byte offset), hexValue? (text.byte (offset + 1)),
        hexValue? (text.byte (offset + 2)), hexValue? (text.byte (offset + 3)) with
    | some a, some b, some c, some d =>
      .ok (((a * 16 + b) * 16 + c) * 16 + d, offset + 4)
    | _, _, _, _ => text.failAt (offset + 4) .invalidEscape

/-- The bytes of a character. -/
def encodeChar (code : Nat) : List UInt8 := String.utf8EncodeChar (Char.ofNat code)

/-- Reads an escape after its `\u`. A leading surrogate needs a trailing one after it. -/
def unicodeEscape (text : Text) (offset : Nat) : Except SyntaxError (List UInt8 × Nat) := do
  let (first, offset) ← text.hexEscape offset
  if 0xDC00 ≤ first && first ≤ 0xDFFF then text.failAt offset .loneSurrogate
  else if first < 0xD800 || 0xDBFF < first then return (encodeChar first, offset)
  else
    match text.byte? offset with
    | none => text.failAt offset .endInString
    | some b =>
      if b ≠ 92 then text.failAt (offset + 1) .endOfEscape
      else match text.byte? (offset + 1) with
        | none => text.failAt (offset + 1) .endInString
        | some b =>
          if b ≠ 117 then text.failAt (offset + 2) .endOfEscape
          else do
            let (second, offset) ← text.hexEscape (offset + 2)
            if second < 0xDC00 || 0xDFFF < second then text.failAt offset .loneSurrogate
            else
              return (encodeChar (0x10000 + (first - 0xD800) * 0x400 + (second - 0xDC00)), offset)

/-- The byte that a one-letter escape stands for. -/
def simpleEscape? (b : UInt8) : Option UInt8 :=
  if b = 34 || b = 92 || b = 47 then some b
  else if b = 98 then some 8
  else if b = 102 then some 12
  else if b = 110 then some 10
  else if b = 114 then some 13
  else if b = 116 then some 9
  else none

/-- Reads the rest of a string, with the bytes read so far; every step takes a byte, so that
`fuel` is the number of bytes left. -/
def stringRest (text : Text) : Nat → ByteArray → Nat → Except SyntaxError (ByteArray × Nat)
  | 0, _, _ => text.failAt text.size .endInString
  | fuel + 1, done, offset =>
    match text.byte? offset with
    | none => text.failAt offset .endInString
    | some b =>
      if b = 34 then .ok (done, offset + 1)
      else if b = 92 then
        match text.byte? (offset + 1) with
        | none => text.failAt (offset + 1) .endInString
        | some letter =>
          if letter = 117 then
            match text.unicodeEscape (offset + 2) with
            | .error e => .error e
            | .ok (bytes, next) => text.stringRest fuel (bytes.foldl ByteArray.push done) next
          else match simpleEscape? letter with
            | some plain => text.stringRest fuel (done.push plain) (offset + 2)
            | none => text.failAt (offset + 2) .invalidEscape
      else if b < 32 then text.failAt (offset + 1) .controlCharacter
      else text.stringRest fuel (done.push b) (offset + 1)

/-- **Reads a string** after its opening quote. -/
def string (text : Text) (offset : Nat) : Except SyntaxError (String × Nat) := do
  let (bytes, next) ← text.stringRest (text.size + 1 - offset) ByteArray.empty offset
  return ((String.fromUTF8? bytes).getD "", next)

/-- Passes over a string after its opening quote. Escapes are checked for their form alone, so
that a lone surrogate is let through. -/
def skipString (text : Text) : Nat → Nat → Except SyntaxError Nat
  | 0, _ => text.failAt text.size .endInString
  | fuel + 1, offset =>
    match text.byte? offset with
    | none => text.failAt offset .endInString
    | some b =>
      if b = 34 then .ok (offset + 1)
      else if b = 92 then
        match text.byte? (offset + 1) with
        | none => text.failAt (offset + 1) .endInString
        | some letter =>
          if letter = 117 then
            match text.hexEscape (offset + 2) with
            | .error e => .error e
            | .ok (_, next) => text.skipString fuel next
          else if (simpleEscape? letter).isSome then text.skipString fuel (offset + 2)
          else text.failAt (offset + 2) .invalidEscape
      else if b < 32 then text.failAt offset .controlCharacter
      else text.skipString fuel (offset + 1)

/-! ## Numbers -/

/-- The greatest unsigned integer of 64 bits, beyond which the digits of a significand are not
collected. -/
def significandLimit : Nat := 2 ^ 64

/-- Reads digits into a significand for as long as it stays below the limit. Gives the
significand, the number of digits taken and the offset reached. -/
def collectDigits (text : Text) : Nat → Nat → Nat → Nat → Nat × Nat × Nat
  | 0, significand, taken, offset => (significand, taken, offset)
  | fuel + 1, significand, taken, offset =>
    let b := text.byte offset
    let next := significand * 10 + (b.toNat - 48)
    if isDigit b && next < significandLimit then
      text.collectDigits fuel next (taken + 1) (offset + 1)
    else (significand, taken, offset)

/-- The double of a significand and an exponent, located where the number ends. -/
def double (text : Text) (negative : Bool) (significand : Nat) (exponent : Int) (offset : Nat) :
    Except SyntaxError (Number × Nat) :=
  match Binary64.scaled negative significand exponent with
  | none => text.failAt offset .numberOutOfRange
  | some value =>
    match Number.ofBinary64? value with
    | none => text.failAt offset .numberOutOfRange
    | some result => .ok (result, offset)

/-- The greatest exponent that is kept as a number. -/
def exponentLimit : Nat := 2 ^ 31

/-- Reads the digits of an exponent as long as it stays below its limit; `none` for one that does
not. -/
def exponentDigits (text : Text) : Nat → Nat → Nat → Option Nat × Nat
  | 0, exponent, offset => (some exponent, offset)
  | fuel + 1, exponent, offset =>
    let b := text.byte offset
    if isDigit b then
      let next := exponent * 10 + (b.toNat - 48)
      if next < exponentLimit then text.exponentDigits fuel next (offset + 1)
      else (none, offset + 1)
    else (some exponent, offset)

/-- Reads an exponent at its letter. -/
def exponentPart (text : Text) (negative : Bool) (significand : Nat) (start : Int) (offset : Nat) :
    Except SyntaxError (Number × Nat) :=
  let sign := text.byte (offset + 1)
  let digits := if sign = 43 || sign = 45 then offset + 2 else offset + 1
  match text.byte? digits with
  | none => text.failAt digits .endInValue
  | some b =>
    if !isDigit b then text.failAt (digits + 1) .invalidNumber
    else
      match text.exponentDigits (text.size - digits) (b.toNat - 48) (digits + 1) with
      | (some exponent, next) =>
        let exponent : Int := if sign = 45 then start - exponent else start + exponent
        text.double negative significand exponent next
      | (none, next) =>
        if significand ≠ 0 && sign ≠ 45 then text.failAt next .numberOutOfRange
        else text.double negative 0 0 (text.skipWhile isDigit next)

/-- Reads the rest of a number after its digits: an exponent, or its end. -/
def numberEnd (text : Text) (negative : Bool) (significand : Nat) (exponent : Int)
    (offset : Nat) : Except SyntaxError (Number × Nat) :=
  let b := text.byte offset
  if b = 101 || b = 69 then text.exponentPart negative significand exponent offset
  else text.double negative significand exponent offset

/-- Reads a fraction at its point. Digits that would overflow the significand are dropped. -/
def fractionPart (text : Text) (negative : Bool) (significand : Nat) (start : Int)
    (offset : Nat) : Except SyntaxError (Number × Nat) :=
  let (significand, taken, next) :=
    text.collectDigits (text.size - offset) significand 0 (offset + 1)
  if isDigit (text.byte next) then
    text.numberEnd negative significand (start - taken) (text.skipWhile isDigit next)
  else if taken = 0 then
    text.failOn next (if next < text.size then .invalidNumber else .endInValue)
  else text.numberEnd negative significand (start - taken) next

/-- Reads the rest of a number after the digits of its whole part, of which `dropped` did not fit
the significand. A number with neither a point nor an exponent, all of whose digits fit, is a
whole number unless its negative does not fit or it is a negative zero. -/
def afterWhole (text : Text) (negative : Bool) (significand dropped offset : Nat) :
    Except SyntaxError (Number × Nat) :=
  let b := text.byte offset
  if b = 46 then text.fractionPart negative significand dropped offset
  else if b = 101 || b = 69 then text.exponentPart negative significand dropped offset
  else if dropped ≠ 0 then text.double negative significand dropped offset
  else
    let value : Int := if negative then -significand else significand
    let isWhole := !negative || (significand ≠ 0 && significand ≤ 2 ^ 63)
    match if isWhole then Number.ofInt? value else none with
    | some result => .ok (result, offset)
    | none => text.double negative significand 0 offset

/-- **Reads a number** after its sign. -/
def number (text : Text) (negative : Bool) (offset : Nat) : Except SyntaxError (Number × Nat) :=
  match text.byte? offset with
  | none => text.failAt offset .endInValue
  | some b =>
    if b = 48 then
      if isDigit (text.byte (offset + 1)) then text.failOn (offset + 1) .invalidNumber
      else text.afterWhole negative 0 0 (offset + 1)
    else if isDigit b then
      let (significand, _, next) := text.collectDigits (text.size - offset) 0 0 offset
      let stop := text.skipWhile isDigit next
      text.afterWhole negative significand (stop - next) stop
    else text.failAt (offset + 1) .invalidNumber

/-- Passes over the exponent of a number at its letter. -/
def skipExponent (text : Text) (offset : Nat) : Except SyntaxError Nat :=
  let sign := text.byte (offset + 1)
  let digits := if sign = 43 || sign = 45 then offset + 2 else offset + 1
  if isDigit (text.byte digits) then .ok (text.skipWhile isDigit digits)
  else text.failAt (digits + 1) .invalidNumber

/-- Passes over a number after its sign, checking its form alone. -/
def skipNumber (text : Text) (offset : Nat) : Except SyntaxError Nat :=
  let first := text.byte offset
  if !isDigit first then text.failAt (offset + 1) .invalidNumber
  else if first = 48 && isDigit (text.byte (offset + 1)) then
    text.failOn (offset + 1) .invalidNumber
  else
    let whole := text.skipWhile isDigit offset
    let b := text.byte whole
    if b = 46 then
      let fraction := text.skipWhile isDigit (whole + 1)
      if fraction = whole + 1 then text.failOn fraction .invalidNumber
      else if text.byte fraction = 101 || text.byte fraction = 69 then text.skipExponent fraction
      else .ok fraction
    else if b = 101 || b = 69 then text.skipExponent whole
    else .ok whole

end Text

end RpcSchema.Json
