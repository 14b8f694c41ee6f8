import RpcSchema.Proofs.Schema.Rules
import RpcSchema.Proofs.Schema.Targets

set_option autoImplicit false

/-!
# Closed schemas

A schema is closed in some models if it keeps the rules at every depth and every reference in it
finds its model. The schemas inside a closed schema are closed.

## Main definitions

* `RpcSchema.Schema.Closed` — a schema is closed in some models.

## Main results

* `RpcSchema.Schema.Closed.object`, `RpcSchema.Schema.Closed.union`, … — what is inside a closed
  schema of each form.
-/

namespace RpcSchema.Schema

/-- **A schema is closed in some models**: it keeps the rules, and its references find their
models. -/
structure Closed (models : Models) (schema : Schema) : Prop where
  wellFormed : schema.WellFormed
  resolves : ∀ target ∈ schema.targets, target ∈ Entries.keys models

namespace Closed

variable {models : Models} {nullable : Bool} {metadata : Metadata}

/-- The schemas of a map are closed if they keep the rules and their references are resolved. -/
theorem children {children : List (String × Schema)} (h : WellFormedChildren children)
    (htargets : ∀ target ∈ children.flatMap fun child => child.2.targets,
      target ∈ Entries.keys models) : ∀ child ∈ children, child.2.Closed models :=
  fun child hchild => ⟨wellFormedChildren_iff.mp h child hchild, fun target htarget =>
    htargets target (List.mem_flatMap.mpr ⟨child, hchild, htarget⟩)⟩

theorem object {required optional : List (String × Schema)} {strict : Bool}
    (h : Closed models ⟨.object required optional strict, nullable, metadata⟩) :
    (∀ child ∈ required, child.2.Closed models) ∧ ∀ child ∈ optional, child.2.Closed models := by
  obtain ⟨⟨hrequired, hoptional⟩, htargets⟩ := h
  rw [targets_object, List.forall_mem_append] at htargets
  exact ⟨children hrequired htargets.1, children hoptional htargets.2⟩

theorem array {element : Schema} (h : Closed models ⟨.array element, nullable, metadata⟩) :
    element.Closed models := by
  obtain ⟨hwellFormed, htargets⟩ := h
  rw [targets_array] at htargets
  exact ⟨hwellFormed, htargets⟩

theorem record {value : Schema} (h : Closed models ⟨.record value, nullable, metadata⟩) :
    value.Closed models := by
  obtain ⟨hwellFormed, htargets⟩ := h
  rw [targets_record] at htargets
  exact ⟨hwellFormed, htargets⟩

theorem union {tag : String} {variants : List (String × Schema)}
    (h : Closed models ⟨.union tag variants, nullable, metadata⟩) :
    (∀ variant ∈ variants, variant.2.Closed models) ∧
      ∀ variant ∈ variants, IsVariant tag variant.2 := by
  obtain ⟨⟨hvariants, hcheck⟩, htargets⟩ := h
  rw [targets_union] at htargets
  exact ⟨children hvariants htargets, hcheck⟩

theorem ref {target : String} (h : Closed models ⟨.ref target, nullable, metadata⟩) :
    target ∈ Entries.keys models := by
  have htargets := h.resolves
  rw [targets_ref, List.forall_mem_singleton] at htargets
  exact htargets

/-- The name that a schema gives itself does not matter. -/
theorem withId {schema : Schema} (h : schema.Closed models) (id : String) :
    (schema.withId id).Closed models := by
  obtain ⟨form, nullable, metadata⟩ := schema
  exact ⟨h.wellFormed, h.resolves⟩

end Closed

end RpcSchema.Schema
