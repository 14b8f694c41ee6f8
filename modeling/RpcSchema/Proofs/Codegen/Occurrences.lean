import RpcSchema.Codegen.Outline

set_option autoImplicit false

/-!
# Named types and where they occur

Enumerations, objects and unions are named types. One is declared where its name is met first; where
the name is met again it is referred to, and the schemas inside are not looked at again. A reference
to a model stands for the named type that the model is.

## Main definitions

* `RpcSchema.Schema.SameShape` — schemas are the same up to `null`.
* `RpcSchema.Outline.declarations` — the declarations among parts of outlines.
* `RpcSchema.Occurrence` — a place where a named type occurs.
* `RpcSchema.Models.occurrences` — the places that a pass over models comes to.
* `RpcSchema.Occurrence.DeclaredFrom` — the type with the name of an occurrence is declared, and
  that is done at another.
-/

namespace RpcSchema

/-- **Two schemas have one shape** if they are the same up to `null`. -/
def Schema.SameShape (schema other : Schema) : Prop :=
  { schema with nullable := false } = { other with nullable := false }

namespace Outline

/-- The name of the type of an outline. -/
def typeName (outline : Outline) : String := outline.context.typeName

/-- The tag that a declaration has, if any. -/
def declaredTag? : Outline → Option (Option TagField)
  | .enumeration _ _ => some none
  | .object _ tag _ => some tag
  | .union _ _ _ => some none
  | _ => none

/-- **The declarations** among parts. -/
def declarations (parts : List Outline) : List Outline :=
  parts.filter fun part => part.declaredTag?.isSome

/-- The parts of the outlines of two lists. -/
theorem childParts_append (outlines outlines' : List (String × Outline)) :
    childParts (outlines ++ outlines') = childParts outlines ++ childParts outlines' := by
  induction outlines with
  | nil => rfl
  | cons child rest ih =>
    obtain ⟨key, outline⟩ := child
    rw [List.cons_append, childParts, ih, childParts, List.append_assoc]

end Outline

/-- **A place where a named type occurs**: the schema of the type, the tag that it gets there as a
variant of a union, and its outline. -/
structure Occurrence where
  schema : Schema
  tag : Option TagField
  outline : Outline

/-- The name of the type. -/
def Occurrence.name (occurrence : Occurrence) : String := occurrence.outline.typeName

namespace Schema

mutual

/-- **The places** that a pass comes to in a schema of which it gives an outline. The schema itself
has a tag if it is a variant of a union. -/
def occurrences (models : Models) (tag : Option TagField) : Schema → Outline → List Occurrence
  | ⟨form, nullable, metadata⟩, outline =>
    formOccurrences models ⟨⟨form, nullable, metadata⟩, tag, outline⟩ form

/-- The places in a form. -/
def formOccurrences (models : Models) (here : Occurrence) : Form → List Occurrence
  | .scalar _ => []
  | .enumeration _ => [here]
  | .object required optional _ =>
    match here.outline with
    | .object _ _ properties =>
      here :: (childOccurrences models (fun _ => none) required properties ++
        childOccurrences models (fun _ => none) optional (properties.drop required.length))
    | _ => [here]
  | .array element =>
    match here.outline with
    | .array _ outline => element.occurrences models none outline
    | _ => []
  | .record value =>
    match here.outline with
    | .record _ outline => value.occurrences models none outline
    | _ => []
  | .union tag variants =>
    match here.outline with
    | .union _ _ outlines =>
      here :: childOccurrences models (fun name => some ⟨tag, name⟩) variants outlines
    | _ => [here]
  | .ref target =>
    match models.lookup target with
    | some model => [⟨model, none, here.outline⟩]
    | none => []

/-- The places in the schemas of a map, each with its outline. -/
def childOccurrences (models : Models) (tagOf : String → Option TagField) :
    List (String × Schema) → List (String × Outline) → List Occurrence
  | (key, schema) :: rest, (_, outline) :: outlines =>
    schema.occurrences models (tagOf key) outline ++ childOccurrences models tagOf rest outlines
  | _, _ => []

end

/-- Outlines beyond those of the schemas do not matter. -/
theorem childOccurrences_append {models : Models} {tagOf : String → Option TagField} :
    ∀ {children : List (String × Schema)} {outlines : List (String × Outline)},
      outlines.length = children.length → ∀ further : List (String × Outline),
      childOccurrences models tagOf children (outlines ++ further) =
        childOccurrences models tagOf children outlines
  | [], [], _, further => by cases further <;> rfl
  | (key, schema) :: rest, (_, outline) :: outlines, h, further => by
    rw [List.cons_append, childOccurrences, childOccurrences,
      childOccurrences_append (by simpa using h)]

end Schema

/-- **The places** that a pass over models comes to. -/
def Models.occurrences (models : Models) : List (String × Schema) → List Outline → List Occurrence
  | (_, schema) :: rest, outline :: outlines =>
    schema.occurrences models none outline ++ Models.occurrences models rest outlines
  | _, _ => []

/-- **The type with the name of an occurrence is declared from another**, which is one of the places
met and where the type has the same shape. The declaration has the tag that the type gets there. -/
structure Occurrence.DeclaredFrom (met : List Occurrence) (parts : List Outline)
    (occurrence origin : Occurrence) : Prop where
  met : origin ∈ met
  declared : origin.outline ∈ Outline.declarations parts
  tag : origin.outline.declaredTag? = some origin.tag
  name : origin.name = occurrence.name
  shape : origin.schema.SameShape occurrence.schema

end RpcSchema
