import RpcSchema.Json.Writer
import RpcSchema.Schema.Basic
import RpcSchema.Text.Split
import RpcSchema.Text.Words

set_option autoImplicit false

/-!
# Names in generated code

A type is called by the name that its schema gives it, and otherwise after the path on which it is
found: the segments of the path in Pascal case, one behind the other.

## Main definitions

* `RpcSchema.Naming.pascalPath` — the name that a path suggests.
* `RpcSchema.Naming.typeName` — the name of a type.
* `RpcSchema.Naming.isIdentifier` — whether a key can stand without quotes.
* `RpcSchema.NameScheme` — what the names of the types of a generation depend on.
-/

namespace RpcSchema

namespace Naming

/-- The segments of a path that are not empty. -/
def pathSegments (path : String) : List String := (Text.split '/' path).filter (· ≠ "")

/-- **The name that a path suggests**: its segments in Pascal case, one behind the other. -/
def pascalPath (path : String) : String := String.join ((pathSegments path).map Text.pascal)

/-- **The name of a type**, behind a prefix: the one it is given, or else the one that the path to
it suggests. -/
def typeName (id : Option String) (path typePrefix : String) : String :=
  typePrefix ++ id.getD (pascalPath path)

/-- Whether a character can begin an identifier. -/
def startsIdentifier (c : Char) : Bool := c.isAlpha || c = '_' || c = '$'

/-- Whether a character can go on with an identifier. -/
def continuesIdentifier (c : Char) : Bool := c.isAlphanum || c = '_' || c = '$'

/-- **Whether a name is an identifier**: letters and digits of ASCII, underscores and dollar signs,
and no digit in front. -/
def isIdentifier (name : String) : Bool :=
  match name.toList with
  | [] => false
  | c :: rest => startsIdentifier c && rest.all continuesIdentifier

/-- A key as the name of a property. -/
def propertyKey (key : String) : String := if isIdentifier key then key else Json.quote key

/-- The expression for the property of a value. -/
def accessor (input key : String) : String :=
  if isIdentifier key then input ++ "." ++ key else input ++ "[" ++ Json.quote key ++ "]"

end Naming

/-- **What the names of types depend on**: the models that references refer to, and what is put in
front of every name. -/
structure NameScheme where
  models : Models
  typePrefix : String

namespace NameScheme

/-- The name of the type of a schema on a path. -/
def typeName (scheme : NameScheme) (id : Option String) (path : String) : String :=
  Naming.typeName id path scheme.typePrefix

/-- **The name of the type of a model.** -/
def modelTypeName? (scheme : NameScheme) (target : String) : Option String :=
  (scheme.models.lookup target).map fun schema => scheme.typeName schema.typeId target

end NameScheme

end RpcSchema
