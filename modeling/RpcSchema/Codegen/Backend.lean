import RpcSchema.Codegen.Config
import RpcSchema.Codegen.Outline

set_option autoImplicit false

/-!
# From outlines to code

A backend writes the code of one language. It is asked for the parts of an outline one after the
other, and gets what it made of the parts inside a part.

## Main definitions

* `RpcSchema.Bundle` — the code for a part of an outline.
* `RpcSchema.Backend` — the code of a language for every kind of part.
* `RpcSchema.Outline.render` — the code for an outline.
-/

namespace RpcSchema

/-- **The code for a part of an outline**: the name of its type and the expression for the type
where the part is used, a declaration if it introduces a type, the declarations of the parts inside
it, and expressions around an input. -/
structure Bundle where
  typeName : String
  field : String
  declaration : Option String := none
  subDeclarations : List String := []
  /-- Reads an input leniently. -/
  parse : String → String := id
  /-- Writes an input. -/
  serialize : String → String := id
  /-- Says whether an input belongs to the type. -/
  validate : String → String := fun _ => "true"

/-- All the declarations, those of the parts inside first. -/
def Bundle.declarations (bundle : Bundle) : List String :=
  bundle.subDeclarations ++ bundle.declaration.toList

/-- A property of an object and the code for it. -/
structure Property where
  key : String
  optional : Bool
  metadata : Metadata
  bundle : Bundle

/-- **The code of a language** for every kind of part. -/
structure Backend where
  /-- A short name. -/
  id : String
  /-- The full name. -/
  name : String
  /-- How the names of files end, behind the point. -/
  fileExtension : String
  config : GeneratorConfig
  scalar : NodeContext → ScalarKind → Bundle
  enumeration : NodeContext → List String → Bundle
  object : NodeContext → List Property → Option TagField → Bundle
  array : NodeContext → Bundle → Bundle
  record : NodeContext → Bundle → Bundle
  union : NodeContext → String → List (String × Bundle) → Bundle
  reference : NodeContext → Bundle

/-- The names that a backend gives to types. -/
def Backend.scheme (backend : Backend) (models : Models) : NameScheme :=
  ⟨models, backend.config.typePrefix⟩

/-- The registry that a generation begins with. -/
def Backend.registry (backend : Backend) : NameRegistry := { strict := backend.config.strictNames }

/-- The same code with the declarations of the parts inside it. -/
def Bundle.around (bundle : Bundle) (inner : List Bundle) : Bundle :=
  { bundle with subDeclarations := inner.flatMap Bundle.declarations }

/-- A property as its outline describes it. -/
def propertyOf (key : String) (context : NodeContext) (bundle : Bundle) : Property :=
  ⟨key, context.optional, context.metadata, bundle⟩

namespace Outline

mutual

/-- **The code for an outline.** -/
def render (backend : Backend) : Outline → Bundle
  | .scalar context kind => backend.scalar context kind
  | .enumeration context values => backend.enumeration context values
  | .object context tag properties =>
    let properties := renderProperties backend properties
    (backend.object context properties tag).around (properties.map Property.bundle)
  | .array context element =>
    let element := element.render backend
    (backend.array context element).around [element]
  | .record context value =>
    let value := value.render backend
    (backend.record context value).around [value]
  | .union context tag variants =>
    let variants := renderVariants backend variants
    (backend.union context tag variants).around (variants.map Prod.snd)
  | .reference context => backend.reference context

/-- The code for the properties of an object. -/
def renderProperties (backend : Backend) : List (String × Outline) → List Property
  | [] => []
  | (key, outline) :: rest =>
    propertyOf key outline.context (outline.render backend) :: renderProperties backend rest

/-- The code for the variants of a union. -/
def renderVariants (backend : Backend) : List (String × Outline) → List (String × Bundle)
  | [] => []
  | (name, outline) :: rest => (name, outline.render backend) :: renderVariants backend rest

end

end Outline

end RpcSchema
