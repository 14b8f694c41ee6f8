import RpcSchema.Codegen.Naming
import RpcSchema.Codegen.Registry
import RpcSchema.Json.Pointer

set_option autoImplicit false

/-!
# Outlines of generated code

Before any code is written, a schema is turned into an outline: which types are declared, which are
only referred to, what they are called and where they come from. The outline does not depend on the
language that is generated.

The schemas inside a schema are found on these paths:

| schema | path of names | pointer |
|--------|---------------|---------|
| property `k` | `parent/k` | `…/properties/k` or `…/optionalProperties/k` |
| element | `parent/Item` | `…/elements` |
| value | `parent/Value` | `…/values` |
| variant `T` | `parent/T` | `…/mapping/T` |

## Main definitions

* `RpcSchema.NodeContext` — where a part of an outline comes from.
* `RpcSchema.Outline` — an outline.
* `RpcSchema.Pass` — a pass over schemas, with the names taken and the parts completed so far.
* `RpcSchema.Schema.outline`, `RpcSchema.Models.outline` — the outline of a schema and of models.
-/

namespace RpcSchema

/-- **Where a part of an outline comes from.** -/
structure NodeContext where
  /-- The key of the property that it is the value of. -/
  key : Option String := none
  /-- Whether that property may be missing. -/
  optional : Bool := false
  nullable : Bool := false
  metadata : Metadata := {}
  /-- The path that suggests its name. -/
  instancePath : String := ""
  /-- The pointer to its schema. -/
  schemaPath : String := ""
  /-- The name of its type; for a reference, of the type referred to. -/
  typeName : String := ""
deriving DecidableEq

/-- The tag of a union as a property of one of its variants, whose value is the variant's name. -/
structure TagField where
  key : String
  value : String
deriving DecidableEq

/-- **An outline** of the code for a schema. Enumerations, objects and unions are declarations. -/
inductive Outline
  | scalar (context : NodeContext) (kind : ScalarKind)
  | enumeration (context : NodeContext) (values : List String)
  /-- An object; as a variant of a union it has a tag. -/
  | object (context : NodeContext) (tag : Option TagField) (properties : List (String × Outline))
  | array (context : NodeContext) (element : Outline)
  | record (context : NodeContext) (value : Outline)
  | union (context : NodeContext) (tag : String) (variants : List (String × Outline))
  /-- A model, or a type whose name is taken. -/
  | reference (context : NodeContext)

namespace Outline

instance : Inhabited Outline := ⟨.reference {}⟩

/-- Where an outline comes from. -/
def context : Outline → NodeContext
  | .scalar context _ => context
  | .enumeration context _ => context
  | .object context _ _ => context
  | .array context _ => context
  | .record context _ => context
  | .union context _ _ => context
  | .reference context => context

mutual

/-- **The parts of an outline**, each behind the parts inside it, and so itself last. -/
def parts : Outline → List Outline
  | .scalar context kind => [.scalar context kind]
  | .enumeration context values => [.enumeration context values]
  | .object context tag properties => childParts properties ++ [.object context tag properties]
  | .array context element => element.parts ++ [.array context element]
  | .record context value => value.parts ++ [.record context value]
  | .union context tag variants => childParts variants ++ [.union context tag variants]
  | .reference context => [.reference context]

/-- The parts of the outlines of a list. -/
def childParts : List (String × Outline) → List Outline
  | [] => []
  | (_, outline) :: rest => outline.parts ++ childParts rest

end

end Outline

/-! ## Passes -/

/-- **What a pass has done so far**: the names taken, and the parts of outlines completed, in
order. -/
structure PassState where
  registry : NameRegistry := {}
  completed : List Outline := []

/-- **A pass over schemas.** What it has done before an error stays done. -/
abbrev Pass : Type → Type := ExceptT CodegenError (StateM PassState)

namespace Pass

/-- Runs a pass. -/
def run {α : Type} (pass : Pass α) (state : PassState) : Except CodegenError α × PassState :=
  (ExceptT.run pass).run state

/-- Takes a name for a shape met at a place, and says whether it was free. -/
def registerShape (name shape place : String) : Pass Bool := do
  match (← get).registry.registerShape name shape place with
  | .ok (isNew, registry) => do
    modify fun state => { state with registry }
    return isNew
  | .error error => throw error

/-- Completes a part. -/
def complete (outline : Outline) : Pass Outline := do
  modify fun state => { state with completed := state.completed ++ [outline] }
  return outline

end Pass

/-- Where a schema is met: under which key, whether it may be missing there, and on which paths. -/
structure Site where
  key : Option String := none
  optional : Bool := false
  instancePath : String
  schemaPath : String

/-- A path of names with one segment more. -/
def joinNames (path segment : String) : String :=
  if path = "" then segment else path ++ "/" ++ segment

namespace Site

/-- Where a schema with a name is that is no property. -/
def ofPaths (instancePath schemaPath : String) : Site := { instancePath, schemaPath }

end Site

/-- Where the property of an object is, in one of the two sections. -/
def NodeContext.propertySite (context : NodeContext) (keyword : String) (key : String) : Site :=
  { key := some key
    optional := keyword = "optionalProperties"
    instancePath := joinNames context.instancePath key
    schemaPath := Pointer.extend (Pointer.extend context.schemaPath keyword) key }

/-- Where the elements or the values of a schema are. -/
def NodeContext.partSite (context : NodeContext) (segment keyword : String) : Site :=
  .ofPaths (joinNames context.instancePath segment) (Pointer.extend context.schemaPath keyword)

/-- The name of the type of a schema at a site, which for a reference is that of its model. -/
def siteTypeName (scheme : NameScheme) (site : Site) (form : Form) (metadata : Metadata) :
    Except CodegenError String :=
  match form with
  | .ref target =>
    match scheme.modelTypeName? target with
    | some name => .ok name
    | none => .error (.unresolvedReference site.schemaPath target)
  | _ => .ok (scheme.typeName metadata.id site.instancePath)

/-- The context of a schema at a site. -/
def siteContext (site : Site) (nullable : Bool) (metadata : Metadata) (typeName : String) :
    NodeContext :=
  { key := site.key, optional := site.optional, nullable, metadata
    instancePath := site.instancePath, schemaPath := site.schemaPath, typeName }

/-- The context of a variant of a union. -/
def variantContext (scheme : NameScheme) (context : NodeContext) (name : String)
    (metadata : Metadata) : NodeContext :=
  let instancePath := joinNames context.instancePath name
  { metadata, instancePath
    schemaPath := Pointer.extend (Pointer.extend context.schemaPath "mapping") name
    typeName := scheme.typeName metadata.id instancePath }

namespace Schema

mutual

/-- **The outline of a schema** at a site. -/
def outline (scheme : NameScheme) (site : Site) : Schema → Pass Outline
  | ⟨form, nullable, metadata⟩ => do
    let name ← (siteTypeName scheme site form metadata : Except CodegenError String)
    formOutline scheme (siteContext site nullable metadata name)
      (NameRegistry.shapeOf ⟨form, nullable, metadata⟩) form

/-- The outline of a form, which has a shape if it is declared. -/
def formOutline (scheme : NameScheme) (context : NodeContext) (shape : String) :
    Form → Pass Outline
  | .scalar kind => Pass.complete (.scalar context kind)
  | .enumeration values => do
    if ← Pass.registerShape context.typeName shape context.schemaPath then
      Pass.complete (.enumeration context values)
    else Pass.complete (.reference context)
  | .object required optional _ => do
    if ← Pass.registerShape context.typeName shape context.schemaPath then do
      let present ← propertyOutlines scheme context "properties" required
      let further ← propertyOutlines scheme context "optionalProperties" optional
      Pass.complete (.object context none (present ++ further))
    else Pass.complete (.reference context)
  | .array element => do
    let element ← element.outline scheme (context.partSite "Item" "elements")
    Pass.complete (.array context element)
  | .record value => do
    let value ← value.outline scheme (context.partSite "Value" "values")
    Pass.complete (.record context value)
  | .union tag variants => do
    if ← Pass.registerShape context.typeName shape context.schemaPath then do
      let outlines ← variantOutlines scheme context tag variants
      Pass.complete (.union context tag outlines)
    else Pass.complete (.reference context)
  | .ref _ => Pass.complete (.reference context)

/-- The outlines of the properties of a section of an object. -/
def propertyOutlines (scheme : NameScheme) (context : NodeContext) (keyword : String) :
    List (String × Schema) → Pass (List (String × Outline))
  | [] => return []
  | (key, schema) :: rest => do
    let outline ← schema.outline scheme (context.propertySite keyword key)
    let outlines ← propertyOutlines scheme context keyword rest
    return (key, outline) :: outlines

/-- The outlines of the variants of a union. -/
def variantOutlines (scheme : NameScheme) (context : NodeContext) (tag : String) :
    List (String × Schema) → Pass (List (String × Outline))
  | [] => return []
  | (name, ⟨.object required optional strict, nullable, metadata⟩) :: rest => do
    let inner := variantContext scheme context name metadata
    if declares required optional tag then
      throw (.schema inner.schemaPath (.tagRedeclared name tag))
    let shape := NameRegistry.shapeOf ⟨.object required optional strict, nullable, metadata⟩
    let outline ←
      if ← Pass.registerShape inner.typeName shape inner.schemaPath then do
        let present ← propertyOutlines scheme inner "properties" required
        let further ← propertyOutlines scheme inner "optionalProperties" optional
        Pass.complete (.object inner (some ⟨tag, name⟩) (present ++ further))
      else Pass.complete (.reference inner)
    let outlines ← variantOutlines scheme context tag rest
    return (name, outline) :: outlines
  | (name, ⟨_, _, metadata⟩) :: _ =>
    let inner := variantContext scheme context name metadata
    throw (.schema inner.schemaPath (.variantNotObject name))

end

end Schema

/-- The outlines of models, in order, each under its name. -/
def Models.outline (scheme : NameScheme) : List (String × Schema) → Pass (List Outline)
  | [] => return []
  | (name, schema) :: rest => do
    let outline ← schema.outline scheme (.ofPaths name (Pointer.extend "/models" name))
    let outlines ← Models.outline scheme rest
    return outline :: outlines

end RpcSchema
