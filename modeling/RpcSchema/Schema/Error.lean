import RpcSchema.Document.Error

set_option autoImplicit false

/-!
# Errors of schemas

## Main definitions

* `RpcSchema.SchemaFault` — what can be wrong with a schema.
* `RpcSchema.SchemaError` — a fault and the path to the schema it belongs to.
-/

namespace RpcSchema

/-- **What can be wrong with a schema.** -/
inductive SchemaFault
  /-- None of the keywords of a form is there. -/
  | noForm
  /-- Keywords of several forms are there. -/
  | ambiguousForm (forms : List String)
  | unknownScalar (name : String)
  | emptyEnumeration
  | repeatedValue (value : String)
  /-- A union lacks its tag or its variants. -/
  | incompleteUnion
  | variantNotObject (variant : String)
  /-- A variant has a property under the tag of its union. -/
  | tagRedeclared (variant tag : String)
  /-- A reference to a model that does not exist. -/
  | unresolvedReference (target : String)
  /-- The document does not have the format of a schema. -/
  | document (message : String)
deriving DecidableEq

/-- What a fault of the schema at `place` is called. -/
def SchemaFault.message (place : String) : SchemaFault → String
  | .noForm =>
    "Schema at '" ++ place ++ "' has no form (expected one of type, enum, properties, elements, " ++
      "values, discriminator, ref)"
  | .ambiguousForm forms => "Schema at '" ++ place ++ "' mixes forms: " ++ ", ".intercalate forms
  | .unknownScalar name => "Schema at '" ++ place ++ "' has unknown scalar type '" ++ name ++ "'"
  | .emptyEnumeration => "Enum at '" ++ place ++ "' has no values"
  | .repeatedValue value => "Enum at '" ++ place ++ "' repeats value '" ++ value ++ "'"
  | .incompleteUnion =>
    "Schema at '" ++ place ++ "' must declare both 'discriminator' and 'mapping'"
  | .variantNotObject variant =>
    "Discriminator variant '" ++ variant ++ "' at '" ++ place ++ "' must be an object schema"
  | .tagRedeclared variant tag =>
    "Discriminator variant '" ++ variant ++ "' at '" ++ place ++ "' redeclares tag field '" ++
      tag ++ "'"
  | .unresolvedReference target =>
    "Schema at '" ++ place ++ "' references unknown model '" ++ target ++ "'"
  | .document message => "Invalid schema JSON at '" ++ place ++ "': " ++ message

/-- **A fault of a schema** and the path to it. -/
structure SchemaError where
  path : Path
  fault : SchemaFault
deriving DecidableEq

namespace SchemaError

/-- The fault with its place. -/
def message (error : SchemaError) : String := error.fault.message error.path.text

/-- The same error seen from an enclosing document. -/
def within (outer : Path) (error : SchemaError) : SchemaError :=
  { error with path := outer ++ error.path }

/-- An error of the format of the document. -/
def ofReadError (error : ReadError) : SchemaError :=
  { path := error.path, fault := .document error.message }

end SchemaError

end RpcSchema
