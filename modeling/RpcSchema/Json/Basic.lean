import RpcSchema.Entries
import RpcSchema.Binary64.Basic

set_option autoImplicit false

/-!
# JSON values

The documents and payloads of the library are JSON values with two refinements. The keys of an
object keep their order, and a number remembers whether it was written as a whole number of 64
bits or as a double: `1` and `1.0` are different numbers here.

## Main definitions

* `RpcSchema.Json.Number` — a whole number of 64 bits, signed or unsigned, or a finite double.
* `RpcSchema.Json` — a JSON value.
* `RpcSchema.Json.WellFormed` — no object lists a key twice, at any depth.
-/

namespace RpcSchema

namespace Json

/-- **A JSON number**: a whole number that fits 64 bits, signed or unsigned, or a finite double. -/
inductive Number
  | whole (value : Int) (bounded : -2 ^ 63 ≤ value ∧ value < 2 ^ 64)
  | double (value : Binary64) (finite : value.isFinite = true)
deriving DecidableEq

namespace Number

/-- The whole number as a number, if it fits. -/
def ofInt? (value : Int) : Option Number :=
  if h : -2 ^ 63 ≤ value ∧ value < 2 ^ 64 then some (.whole value h) else none

/-- The double as a number, if it is finite. -/
def ofBinary64? (value : Binary64) : Option Number :=
  if h : value.isFinite = true then some (.double value h) else none

/-- A signed integer as a number. -/
def ofInt64 (value : Int64) : Number :=
  .whole value.toInt ⟨value.le_toInt, Int.lt_trans value.toInt_lt (by decide)⟩

/-- An unsigned integer as a number. -/
def ofUInt64 (value : UInt64) : Number :=
  .whole value.toNat
    ⟨Int.le_trans (by decide) (Int.natCast_nonneg _), by have := value.toNat_lt; omega⟩

/-- The signed integer that a whole number is, if it fits. -/
def toInt64? : Number → Option Int64
  | .whole value _ => if value < 2 ^ 63 then some (Int64.ofInt value) else none
  | .double _ _ => none

/-- The unsigned integer that a whole number is, if it is not negative. -/
def toUInt64? : Number → Option UInt64
  | .whole value _ => if 0 ≤ value then some (UInt64.ofNat value.toNat) else none
  | .double _ _ => none

/-- The double nearest to a number. -/
def toBinary64 : Number → Binary64
  | .whole value _ => Binary64.ofInt value
  | .double value _ => value

end Number

end Json

/-- **A JSON value.** The entries of an object keep their order. -/
inductive Json
  | null
  | bool (value : Bool)
  | number (value : Json.Number)
  | string (value : String)
  | array (items : List Json)
  | object (entries : List (String × Json))

namespace Json

instance : Inhabited Json := ⟨.null⟩

/-- Whether a value is `null`. -/
def isNull : Json → Bool
  | .null => true
  | _ => false

theorem isNull_iff {value : Json} : value.isNull = true ↔ value = .null := by
  cases value <;> simp [isNull]

theorem isNull_eq_false_iff {value : Json} : value.isNull = false ↔ value ≠ .null := by
  rw [← Bool.not_eq_true, isNull_iff]

/-- The value under a key of an object. -/
def get? : Json → String → Option Json
  | .object entries, key => entries.lookup key
  | _, _ => none

/-- The name of the kind of value, as messages give it. -/
def kind : Json → String
  | .null => "null"
  | .bool _ => "boolean"
  | .number _ => "number"
  | .string _ => "string"
  | .array _ => "array"
  | .object _ => "object"

/-! ## Depth -/

mutual

/-- How many arrays and objects are nested in each other at most. -/
def depth : Json → Nat
  | .array items => depthItems items + 1
  | .object entries => depthEntries entries + 1
  | _ => 0

/-- The greatest depth among items. -/
def depthItems : List Json → Nat
  | [] => 0
  | item :: rest => max item.depth (depthItems rest)

/-- The greatest depth among entries. -/
def depthEntries : List (String × Json) → Nat
  | [] => 0
  | (_, value) :: rest => max value.depth (depthEntries rest)

end

/-! ## Distinct keys -/

mutual

/-- **Well-formedness**: no object lists a key twice, at any depth. -/
def WellFormed : Json → Prop
  | .array items => WellFormedItems items
  | .object entries => Entries.Distinct entries ∧ WellFormedEntries entries
  | _ => True

/-- Every item is well-formed. -/
def WellFormedItems : List Json → Prop
  | [] => True
  | item :: rest => item.WellFormed ∧ WellFormedItems rest

/-- Every entry is well-formed. -/
def WellFormedEntries : List (String × Json) → Prop
  | [] => True
  | (_, value) :: rest => value.WellFormed ∧ WellFormedEntries rest

end

end Json

end RpcSchema
