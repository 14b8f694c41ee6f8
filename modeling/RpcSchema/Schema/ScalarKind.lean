set_option autoImplicit false

/-!
# Scalar kinds

The thirteen kinds of values without parts: flags, texts, instants, floating-point numbers of two
widths and integers of eight.

## Main definitions

* `RpcSchema.ScalarKind` — a kind.
* `RpcSchema.ScalarKind.name`, `RpcSchema.ScalarKind.ofName?` — its name in documents.
* `RpcSchema.ScalarKind.bounds?` — the least and the greatest integer of an integer kind.
-/

namespace RpcSchema

/-- **A kind of values without parts.** -/
inductive ScalarKind
  | boolean
  | string
  | timestamp
  | float32
  | float64
  | int8
  | int16
  | int32
  | int64
  | uint8
  | uint16
  | uint32
  | uint64
deriving DecidableEq

namespace ScalarKind

/-- Every kind, in the order in which they are listed. -/
def all : List ScalarKind :=
  [.boolean, .string, .timestamp, .float32, .float64, .int8, .int16, .int32, .int64, .uint8,
    .uint16, .uint32, .uint64]

/-- The name of a kind in documents and messages. -/
def name : ScalarKind → String
  | .boolean => "boolean"
  | .string => "string"
  | .timestamp => "timestamp"
  | .float32 => "float32"
  | .float64 => "float64"
  | .int8 => "int8"
  | .int16 => "int16"
  | .int32 => "int32"
  | .int64 => "int64"
  | .uint8 => "uint8"
  | .uint16 => "uint16"
  | .uint32 => "uint32"
  | .uint64 => "uint64"

/-- The kind with a name. -/
def ofName? (name : String) : Option ScalarKind := all.find? fun kind => kind.name == name

/-- Whether a kind is one of integers. -/
def isInteger : ScalarKind → Bool
  | .int8 | .int16 | .int32 | .int64 | .uint8 | .uint16 | .uint32 | .uint64 => true
  | _ => false

/-- Whether a kind is one of floating-point numbers. -/
def isFloat : ScalarKind → Bool
  | .float32 | .float64 => true
  | _ => false

/-- Whether a kind is one of the integers that documents write as texts, since 64 bits are more
than every reader of numbers keeps. -/
def is64Bit : ScalarKind → Bool
  | .int64 | .uint64 => true
  | _ => false

/-- The least and the greatest integer of a signed kind. -/
def signedRange? : ScalarKind → Option (Int × Int)
  | .int8 => some (-2 ^ 7, 2 ^ 7 - 1)
  | .int16 => some (-2 ^ 15, 2 ^ 15 - 1)
  | .int32 => some (-2 ^ 31, 2 ^ 31 - 1)
  | .int64 => some (-2 ^ 63, 2 ^ 63 - 1)
  | _ => none

/-- The greatest integer of an unsigned kind. -/
def unsignedMax? : ScalarKind → Option Nat
  | .uint8 => some (2 ^ 8 - 1)
  | .uint16 => some (2 ^ 16 - 1)
  | .uint32 => some (2 ^ 32 - 1)
  | .uint64 => some (2 ^ 64 - 1)
  | _ => none

/-- **The least and the greatest integer** of an integer kind. -/
def bounds? (kind : ScalarKind) : Option (Int × Int) :=
  match kind.signedRange? with
  | some range => some range
  | none => kind.unsignedMax?.map fun greatest => (0, (greatest : Int))

/-- Whether an integer belongs to a kind. -/
def admits (kind : ScalarKind) (value : Int) : Bool :=
  match kind.bounds? with
  | some (least, greatest) => least ≤ value && value ≤ greatest
  | none => false

/-! ## Names -/

/-- A kind is found by its name. -/
theorem ofName?_name (kind : ScalarKind) : ofName? kind.name = some kind := by
  cases kind <;> decide

/-- What is found by a name has that name. -/
theorem name_of_ofName? {name : String} {kind : ScalarKind} (h : ofName? name = some kind) :
    kind.name = name := by
  simpa using List.find?_some h

end ScalarKind

end RpcSchema
