import RpcSchema.Json.Writer
import RpcSchema.Json.Syntax
import RpcSchema.Path
import RpcSchema.Text.Quoted

set_option autoImplicit false

/-!
# Errors of reading a document

A document is read field by field, in the order in which it is written, and the first thing that
does not fit is the error. The error knows the path to the place, and in a text also the position.

## Main definitions

* `RpcSchema.ReadFault` — what can be wrong with a document.
* `RpcSchema.ReadError` — a fault, the path to it and, in a text, the position.
-/

namespace RpcSchema

/-- How a value found in place of another is described. -/
def Json.describe : Json → String
  | .null => "null"
  | .bool value => "boolean `" ++ (if value then "true" else "false") ++ "`"
  | .number (.whole value _) => "integer `" ++ Json.wholeText value ++ "`"
  | .number (.double value _) => "floating point `" ++ value.documentText ++ "`"
  | .string value => "string " ++ Text.quoted value
  | .array _ => "sequence"
  | .object _ => "map"

/-- **What can be wrong with a document.** -/
inductive ReadFault
  /-- A value of another kind than the one expected. -/
  | invalidType (found expected : String)
  /-- A value of the right kind that does not fit. -/
  | invalidValue (found expected : String)
  /-- An array of another length than the record it stands for. -/
  | invalidLength (length : Nat) (expected : String)
  | missingField (name : String)
  | duplicateField (name : String)
  | unknownVariant (name : String) (known : List String)
  /-- The text is not JSON. -/
  | malformed (fault : Json.SyntaxFault)
deriving DecidableEq

/-- The names that would have been understood. -/
def expectedNames : List String → String
  | [] => "there are no variants"
  | [name] => "expected `" ++ name ++ "`"
  | [first, second] => "expected `" ++ first ++ "` or `" ++ second ++ "`"
  | names => "expected one of " ++ ", ".intercalate (names.map fun name => "`" ++ name ++ "`")

/-- What a fault is called. -/
def ReadFault.message : ReadFault → String
  | .invalidType found expected => "invalid type: " ++ found ++ ", expected " ++ expected
  | .invalidValue found expected => "invalid value: " ++ found ++ ", expected " ++ expected
  | .invalidLength length expected =>
    "invalid length " ++ toString length ++ ", expected " ++ expected
  | .missingField name => "missing field `" ++ name ++ "`"
  | .duplicateField name => "duplicate field `" ++ name ++ "`"
  | .unknownVariant name known => "unknown variant `" ++ name ++ "`, " ++ expectedNames known
  | .malformed fault => fault.message

/-- **A fault of a document**, the path to it and, when a text is read, its position. -/
structure ReadError where
  fault : ReadFault
  path : Path := []
  position : Option Json.Position := none
deriving DecidableEq

namespace ReadError

/-- The fault followed by its position. -/
def message (error : ReadError) : String :=
  error.fault.message ++ (error.position.map (·.suffix)).getD ""

/-- The same error seen from one step further out. -/
def under (step : Step) (error : ReadError) : ReadError :=
  { error with path := step :: error.path }

/-- A fault of the syntax of a text. -/
def ofSyntax (error : Json.SyntaxError) : ReadError :=
  { fault := .malformed error.fault, position := some error.position }

/-- Puts a step in front of the path of the error, if there is one. -/
def locate {α : Type} (step : Step) : Except ReadError α → Except ReadError α
  | .ok value => .ok value
  | .error error => .error (error.under step)

end ReadError

end RpcSchema
