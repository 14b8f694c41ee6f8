import RpcSchema.Binary64.Decimal
import RpcSchema.Json.Pointer
import RpcSchema.Json.Syntax
import RpcSchema.Schema.ScalarKind

set_option autoImplicit false

/-!
# What can be wrong with a value

An error of a value points to the value in the document and to the rule in the schema that it
breaks.

## Main definitions

* `RpcSchema.ValueFault` — what can be wrong, and `RpcSchema.ValueFault.message` in words.
* `RpcSchema.ValueError` — a fault with its two places.
* `RpcSchema.ValueError.under` — the same error seen from an enclosing value and schema.
-/

namespace RpcSchema

/-- **What can be wrong with a value.** -/
inductive ValueFault
  /-- Something of another kind was there. -/
  | expected (what got : String)
  /-- A property that has to be there is not. -/
  | missing (key : String)
  /-- A property that a strict object does not have is there. -/
  | undeclared (key : String)
  /-- A scalar, whose compact text is given, does not stand for one of the kind. -/
  | notConvertible (shown : String) (kind : ScalarKind)
  /-- A text is not one of those listed. -/
  | notListed (values : List String) (got : String)
  /-- The text under the tag of a union is missing. -/
  | missingTag (tag : String)
  /-- The text under the tag of a union names no variant; the names that would do may be given. -/
  | unknownVariant (name : String) (known : Option (List String))
  /-- A number, whose text is given, does not fit the kind. -/
  | outOfRange (shown : String) (kind : ScalarKind)
  /-- A number is infinite or not a number. -/
  | notFinite (value : Binary64)
  /-- A text does not stand for an instant. -/
  | notAnInstant
  /-- A text is not JSON. -/
  | notJson (error : Json.SyntaxError)
  /-- A default of a model would have to contain a default of the same model. -/
  | endlessDefault (model : String)
  /-- Nothing more is known. -/
  | unexplained
deriving DecidableEq

/-- What a fault is called. -/
def ValueFault.message : ValueFault → String
  | .expected what got => "Expected " ++ what ++ ". Got " ++ got ++ "."
  | .missing key => "Missing required property '" ++ key ++ "'."
  | .undeclared key => "Unexpected property '" ++ key ++ "'."
  | .notConvertible shown kind => "Unable to coerce " ++ shown ++ " to " ++ kind.name ++ "."
  | .notListed values got =>
    "Expected one of [" ++ ", ".intercalate values ++ "]. Got \"" ++ got ++ "\"."
  | .missingTag tag => "Missing discriminator field '" ++ tag ++ "'."
  | .unknownVariant name none => "Unknown discriminator value \"" ++ name ++ "\"."
  | .unknownVariant name (some known) =>
    "Unknown discriminator value \"" ++ name ++ "\". Expected one of [" ++
      ", ".intercalate known ++ "]."
  | .outOfRange shown kind => "Value " ++ shown ++ " is out of range for " ++ kind.name ++ "."
  | .notFinite value => "Cannot encode non-finite float " ++ value.plainText ++ "."
  | .notAnInstant => "Invalid date string."
  | .notJson error => "Invalid JSON: " ++ error.message
  | .endlessDefault model => "Cannot build a default for recursive model '" ++ model ++ "'."
  | .unexplained => "Invalid input."

/-- **An error of a value**: where the value is in the document, where the rule is in the schema,
and what is wrong. -/
structure ValueError where
  instancePath : Pointer
  schemaPath : Pointer
  fault : ValueFault
deriving DecidableEq

namespace ValueError

/-- The same error seen from an enclosing value and an enclosing schema. -/
def under (inInstance inSchema : Pointer) (error : ValueError) : ValueError :=
  { error with
    instancePath := inInstance ++ error.instancePath
    schemaPath := inSchema ++ error.schemaPath }

/-- The fault in words. -/
def message (error : ValueError) : String := error.fault.message

/-- The fault in words with the place of the value. -/
def text (error : ValueError) : String :=
  let place := error.instancePath.text
  "Error at " ++ (if place = "" then "/" else place) ++ ": " ++ error.message

end ValueError

end RpcSchema
