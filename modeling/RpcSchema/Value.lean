import RpcSchema.Binary64.Basic
import RpcSchema.Entries
import RpcSchema.Timestamp.Basic

set_option autoImplicit false

/-!
# Values

What a program works with after decoding: a value knows its instants, its integers of 64 bits with
and without sign, and which variant of a union it is. A property that is not there is a key that is
not listed, which differs from `null`.

## Main definitions

* `RpcSchema.Value` — a value.
* `RpcSchema.Value.equals` — equality of values, whatever the order of fields.
* `RpcSchema.Value.WellFormed` — no field is listed twice, at any depth.
-/

namespace RpcSchema

/-- **A value.** -/
inductive Value
  | null
  | boolean (value : Bool)
  | string (value : String)
  | timestamp (value : Timestamp)
  /-- Of the kinds of floating-point numbers. -/
  | float (value : Binary64)
  /-- Of the signed kinds. -/
  | int (value : Int64)
  /-- Of the unsigned kinds. -/
  | uint (value : UInt64)
  | array (items : List Value)
  | object (fields : List (String × Value))
  /-- Of a union; the fields do not list the tag. -/
  | variant (name : String) (fields : List (String × Value))

namespace Value

instance : Inhabited Value := ⟨.null⟩

/-- The name of the kind of value, as messages give it. -/
def kind : Value → String
  | .null => "null"
  | .boolean _ => "boolean"
  | .string _ => "string"
  | .timestamp _ => "timestamp"
  | .float _ => "float"
  | .int _ => "integer"
  | .uint _ => "unsigned integer"
  | .array _ => "array"
  | .object _ => "object"
  | .variant _ _ => "variant"

/-- Whether a value is `null`. -/
def isNull : Value → Bool
  | .null => true
  | _ => false

theorem isNull_iff {value : Value} : value.isNull = true ↔ value = .null := by
  cases value <;> simp [isNull]

/-- The text of a text. -/
def text? : Value → Option String
  | .string value => some value
  | _ => none

/-- The fields of an object or of a variant. -/
def fields? : Value → Option (Entries Value)
  | .object fields => some fields
  | .variant _ fields => some fields
  | _ => none

/-- The field of an object or of a variant under a key. -/
def get? (value : Value) (key : String) : Option Value :=
  value.fields?.bind fun fields => fields.lookup key

/-- The value of something that may not be there. -/
def ofOption : Option Value → Value
  | some value => value
  | none => .null

/-! ## Equality -/

mutual

/-- **Equality of values.** Floating-point numbers are compared as numbers, and the order of fields
does not matter. -/
def equals : Value → Value → Bool
  | .null, .null => true
  | .boolean a, .boolean b => a == b
  | .string a, .string b => a == b
  | .timestamp a, .timestamp b => a == b
  | .float a, .float b => a.equals b
  | .int a, .int b => a == b
  | .uint a, .uint b => a == b
  | .array a, .array b => equalItems a b
  | .object a, .object b => a.length == b.length && equalFields a b
  | .variant a as, .variant b bs => a == b && as.length == bs.length && equalFields as bs
  | _, _ => false

/-- Whether two lists have equal items at equal positions. -/
def equalItems : List Value → List Value → Bool
  | [], [] => true
  | a :: as, b :: bs => a.equals b && equalItems as bs
  | _, _ => false

/-- Whether every field has an equal one under the same key among others. -/
def equalFields : List (String × Value) → List (String × Value) → Bool
  | [], _ => true
  | (key, a) :: rest, others =>
    (match others.lookup key with
      | some b => a.equals b
      | none => false) && equalFields rest others

end

/-! ## Depth -/

mutual

/-- How many arrays, objects and variants are nested in each other at most. -/
def depth : Value → Nat
  | .array items => depthItems items + 1
  | .object fields => depthFields fields + 1
  | .variant _ fields => depthFields fields + 1
  | _ => 0

/-- The greatest depth among items. -/
def depthItems : List Value → Nat
  | [] => 0
  | item :: rest => max item.depth (depthItems rest)

/-- The greatest depth among fields. -/
def depthFields : List (String × Value) → Nat
  | [] => 0
  | (_, value) :: rest => max value.depth (depthFields rest)

end

/-! ## Distinct keys -/

mutual

/-- **Well-formedness**: no field is listed twice, at any depth. -/
def WellFormed : Value → Prop
  | .array items => WellFormedItems items
  | .object fields => Entries.Distinct fields ∧ WellFormedFields fields
  | .variant _ fields => Entries.Distinct fields ∧ WellFormedFields fields
  | _ => True

/-- Every item is well-formed. -/
def WellFormedItems : List Value → Prop
  | [] => True
  | item :: rest => item.WellFormed ∧ WellFormedItems rest

/-- Every field is well-formed. -/
def WellFormedFields : List (String × Value) → Prop
  | [] => True
  | (_, value) :: rest => value.WellFormed ∧ WellFormedFields rest

end

end Value

end RpcSchema
