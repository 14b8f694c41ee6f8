import RpcSchema.Json.Writer
import RpcSchema.Text.Blank
import RpcSchema.Text.Numeral
import RpcSchema.Timestamp.Reader
import RpcSchema.Timestamp.Writer
import RpcSchema.Validator.ValueError
import RpcSchema.Value

set_option autoImplicit false

/-!
# Scalars between documents and values

A scalar of a kind has one spelling in documents: numbers are numbers, integers of 64 bits are
texts of digits, and instants are texts. Conversion understands other spellings as well.

## Main definitions

* `RpcSchema.ScalarKind.wrap?` — an integer as a value of a kind.
* `RpcSchema.ScalarKind.read` — the value that a document spells.
* `RpcSchema.ScalarKind.convert?` — the value that another spelling stands for.
* `RpcSchema.ScalarKind.holds` — whether a value is of a kind.
* `RpcSchema.ScalarKind.write` — the spelling of a value.
* `RpcSchema.ScalarKind.default` — the value that stands in for a missing one.
-/

namespace RpcSchema.ScalarKind

/-- Why a document does not spell a value of a kind. -/
inductive Mismatch
  /-- It is something else. -/
  | shape
  /-- It is a number that does not fit. -/
  | range
deriving DecidableEq

/-- **An integer as a value of a kind**, if the kind is one of integers and has it. -/
def wrap? (kind : ScalarKind) (value : Int) : Option Value :=
  match kind.signedRange?, kind.unsignedMax? with
  | some (least, greatest), _ =>
    if least ≤ value ∧ value ≤ greatest then some (.int (Int64.ofInt value)) else none
  | none, some greatest =>
    if 0 ≤ value ∧ value ≤ (greatest : Int) then some (.uint (UInt64.ofNat value.toNat)) else none
  | none, none => none

/-- The integer that a number of a document is: a whole number, or a double without a fraction and
below `10 ^ 20`. -/
def integer? : Json.Number → Option Int
  | .whole value _ => some value
  | .double value _ =>
    value.toInt?.bind fun n => if n.natAbs < 10 ^ 20 then some n else none

/-! ## Reading -/

/-- A number of a document as a value of a kind. -/
def readNumber (kind : ScalarKind) (value : Json.Number) : Except Mismatch Value :=
  match kind with
  | .float64 => .ok (.float value.toBinary64)
  | .float32 =>
    if value.toBinary64.fitsSingle then .ok (.float value.toBinary64) else .error .range
  | kind =>
    if kind.isInteger && !kind.is64Bit then
      match integer? value with
      | none => .error .shape
      | some n =>
        match kind.wrap? n with
        | some value => .ok value
        | none => .error .range
    else .error .shape

/-- A text of a document as a value of a kind. -/
def readText? (kind : ScalarKind) (text : String) : Option Value :=
  match kind with
  | .string => some (.string text)
  | .timestamp => (Timestamp.ofText? text).map .timestamp
  | .int64 => (Text.int64? text).map .int
  | .uint64 => (Text.uint64? text).map .uint
  | _ => none

/-- **The value that a document spells**, in the one spelling of the kind. -/
def read (kind : ScalarKind) : Json → Except Mismatch Value
  | .bool flag => if kind = .boolean then .ok (.boolean flag) else .error .shape
  | .number value => kind.readNumber value
  | .string text =>
    match kind.readText? text with
    | some value => .ok value
    | none => .error .shape
  | _ => .error .shape

/-! ## Conversion -/

/-- The flag that a text stands for. -/
def flagOfText? (text : String) : Option Value :=
  if ["true", "TRUE", "1"].contains text then some (.boolean true)
  else if ["false", "FALSE", "0"].contains text then some (.boolean false)
  else none

/-- The flag that a number stands for. -/
def flagOfNumber? (value : Json.Number) : Option Value :=
  match value with
  | .whole 1 _ => some (.boolean true)
  | .whole 0 _ => some (.boolean false)
  | _ => none

/-- The finite number that a text stands for, as a value of a kind of floating-point numbers. -/
def floatOfText? (kind : ScalarKind) (text : String) : Option Value := do
  let value ← Text.double? (Text.trim text.toList)
  let value ← Json.Number.ofBinary64? value
  (kind.readNumber value).toOption

/-- The integer of 64 bits that a number stands for. -/
def int64OfNumber? (value : Json.Number) : Option Value := value.toInt64?.map .int

/-- The unsigned integer of 64 bits that a number stands for. -/
def uint64OfNumber? (value : Json.Number) : Option Value := value.toUInt64?.map .uint

/-- The instant that so many milliseconds since the epoch stand for. -/
def instantOfNumber? (value : Json.Number) : Option Value :=
  value.toInt64?.bind fun millis => (Timestamp.ofMillis? millis.toInt).map .timestamp

/-- The instant that a text stands for, blanks around it aside. -/
def instantOfText? (text : String) : Option Value :=
  (Timestamp.ofChars? (Text.trim text.toList)).map .timestamp

/-- The integer that a text stands for, blanks around it aside. Numbers beyond 128 bits fit no
kind. -/
def integerOfText? (kind : ScalarKind) (text : String) : Option Value :=
  (Text.integer? (Text.trim text.toList)).bind kind.wrap?

/-- **The value that another spelling stands for**: flags as texts and numbers, texts as flags and
numbers, numbers as texts, instants as milliseconds. -/
def convert? (kind : ScalarKind) (input : Json) : Option Value :=
  match kind, input with
  | .boolean, .string text => flagOfText? text
  | .boolean, .number value => flagOfNumber? value
  | .string, .number value => some (.string value.text)
  | .string, .bool flag => some (.string (if flag then "true" else "false"))
  | .timestamp, .number value => instantOfNumber? value
  | .timestamp, .string text => instantOfText? text
  | .float32, .string text => floatOfText? .float32 text
  | .float64, .string text => floatOfText? .float64 text
  | .int64, .number value => int64OfNumber? value
  | .uint64, .number value => uint64OfNumber? value
  | .int64, _ => none
  | .uint64, _ => none
  | kind, .string text => integerOfText? kind text
  | _, _ => none

/-- What a message says was expected of a document. -/
def expectation : ScalarKind → String
  | .boolean => "boolean"
  | .string => "string"
  | .timestamp => "ISO-8601 date string"
  | .int64 | .uint64 => "integer string"
  | _ => "number"

/-- Reads a missing spelling more freely: integers of 64 bits may be numbers. -/
def readFreely? (kind : ScalarKind) (input : Json) : Option Value :=
  match kind.read input with
  | .ok value => some value
  | .error _ =>
    match kind, input with
    | .int64, .number value => int64OfNumber? value
    | .uint64, .number value => uint64OfNumber? value
    | _, _ => none

/-- **The value that stands in for a missing one.** -/
def default : ScalarKind → Value
  | .boolean => .boolean false
  | .string => .string ""
  | .timestamp => .timestamp .epoch
  | .float32 | .float64 => .float .zero
  | kind => (kind.wrap? 0).getD (.int 0)

/-! ## Values -/

/-- **Whether a value is of a kind.** -/
def holds (kind : ScalarKind) : Value → Bool
  | .boolean _ => kind = .boolean
  | .string _ => kind = .string
  | .timestamp _ => kind = .timestamp
  | .float value =>
    match kind with
    | .float32 => value.isFinite && value.fitsSingle
    | .float64 => value.isFinite
    | _ => false
  | .int value => kind.isInteger && kind.admits value.toInt
  | .uint value => kind.isInteger && kind.admits value.toNat
  | _ => false

/-- The integer that a value is. -/
def integerOf? : Value → Option Int
  | .int value => some value.toInt
  | .uint value => some value.toNat
  | _ => none

/-- An integer as documents spell it for a kind. -/
def writeInteger (kind : ScalarKind) (value : Int) : Except ValueFault Json :=
  match kind.wrap? value with
  | some (.int n) =>
    .ok (if kind.is64Bit then .string (Json.wholeText n.toInt) else .number (.ofInt64 n))
  | some (.uint n) =>
    .ok (if kind.is64Bit then .string (Json.wholeText n.toNat) else .number (.ofUInt64 n))
  | _ => .error (.outOfRange (Json.wholeText value) kind)

/-- A double as documents spell it. -/
def writeFloat (kind : ScalarKind) (value : Binary64) : Except ValueFault Json :=
  if kind = .float32 ∧ value.isFinite ∧ ¬ value.fitsSingle then
    .error (.outOfRange value.plainText kind)
  else
    match Json.Number.ofBinary64? value with
    | some n => .ok (.number n)
    | none => .error (.notFinite value)

/-- **The spelling of a value** in documents. -/
def write (kind : ScalarKind) (value : Value) : Except ValueFault Json :=
  match kind, value with
  | .boolean, .boolean flag => .ok (.bool flag)
  | .string, .string text => .ok (.string text)
  | .timestamp, .timestamp t => .ok (.string t.text)
  | .float32, .float x => writeFloat .float32 x
  | .float64, .float x => writeFloat .float64 x
  | kind, value =>
    match kind.isInteger, integerOf? value with
    | true, some n => kind.writeInteger n
    | _, _ => .error (.expected kind.name value.kind)

end RpcSchema.ScalarKind
