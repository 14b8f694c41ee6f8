import RpcSchema.Schema.Basic

set_option autoImplicit false
set_option linter.unusedSectionVars false

/-!
# Induction along schemas

One case for each form, with the hypotheses for the schemas inside it.

## Main results

* `RpcSchema.Schema.induct` — induction on schemas.
-/

namespace RpcSchema.Schema

variable {motive : Schema → Prop}
  (scalar : ∀ kind nullable metadata, motive ⟨.scalar kind, nullable, metadata⟩)
  (enumeration : ∀ values nullable metadata, motive ⟨.enumeration values, nullable, metadata⟩)
  (object : ∀ required optional strict nullable metadata,
    (∀ child ∈ required, motive child.2) → (∀ child ∈ optional, motive child.2) →
    motive ⟨.object required optional strict, nullable, metadata⟩)
  (array : ∀ element nullable metadata, motive element →
    motive ⟨.array element, nullable, metadata⟩)
  (record : ∀ value nullable metadata, motive value → motive ⟨.record value, nullable, metadata⟩)
  (union : ∀ tag variants nullable metadata, (∀ child ∈ variants, motive child.2) →
    motive ⟨.union tag variants, nullable, metadata⟩)
  (ref : ∀ target nullable metadata, motive ⟨.ref target, nullable, metadata⟩)

include scalar enumeration object array record union ref

mutual

/-- **Induction on schemas**: the hypothesis of an object is about its properties, that of a union
about its variants. -/
theorem induct : ∀ schema, motive schema
  | ⟨.scalar kind, nullable, metadata⟩ => scalar kind nullable metadata
  | ⟨.enumeration values, nullable, metadata⟩ => enumeration values nullable metadata
  | ⟨.object required optional strict, nullable, metadata⟩ =>
    object required optional strict nullable metadata (inductChildren required)
      (inductChildren optional)
  | ⟨.array element, nullable, metadata⟩ => array element nullable metadata (induct element)
  | ⟨.record value, nullable, metadata⟩ => record value nullable metadata (induct value)
  | ⟨.union tag variants, nullable, metadata⟩ =>
    union tag variants nullable metadata (inductChildren variants)
  | ⟨.ref target, nullable, metadata⟩ => ref target nullable metadata

/-- The schemas of a map. -/
private theorem inductChildren :
    ∀ (children : List (String × Schema)), ∀ child ∈ children, motive child.2
  | [], _, h => absurd h List.not_mem_nil
  | (_, schema) :: rest, child, h => by
    rcases List.mem_cons.mp h with rfl | h
    · exact induct schema
    · exact inductChildren rest child h

end

end RpcSchema.Schema
