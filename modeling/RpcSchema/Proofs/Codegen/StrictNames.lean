import Mathlib.Data.List.Nodup
import RpcSchema.Codegen.TypeScript.Declaration
import RpcSchema.Proofs.Codegen.Declarations
import RpcSchema.Proofs.Schema.Fingerprint

set_option autoImplicit false

/-!
# What is declared under strict names

A strict registry makes sure that a name stands for one shape. So when a generation for models that
are objects succeeds, every named type that it meets is declared, once, and the declaration is made
from a schema of the same shape. But the shape of a schema says nothing about the tag that a union
puts into its variants. The declaration has the tag of the place at which it is made; wherever else
the name is met, another tag may be asked for, or none.

## Main results

* `RpcSchema.Backend.declaredFrom_of_strictNames` — what is declared under the names that are met.
* `RpcSchema.Backend.not_declaredFrom_shared_variant` — two variants of a union under one name.
-/

namespace RpcSchema

/-- Schemas are taken for the same only if they have one shape. -/
theorem NameRegistry.sameShape_of_shapeOf_eq {schema other : Schema}
    (h : shapeOf schema = shapeOf other) : schema.SameShape other :=
  (Schema.fingerprint_append_inj (congrArg (fun text => text.toList ++ []) h)).1

/-- A generation under strict names begins with a strict registry. -/
theorem Backend.ready_registry {backend : Backend} (h : backend.config.strictNames = true) :
    PassState.Ready { registry := backend.registry } where
  strict := h
  distinct := List.nodup_nil
  shaped _ := nofun

section

variable {scheme : NameScheme} {met : List Occurrence} {parts : List Outline} {final : PassState}
  {registry : NameRegistry}

/-- The names that are taken are those of the declarations. -/
theorem Advances.perm_declarations
    (h : Advances scheme met parts { registry } final) (hfresh : registry.names = []) :
    (Entries.keys final.registry.names).Perm
      ((Outline.declarations parts).map Outline.typeName) := by
  have hnames := h.names
  simp only [hfresh, Entries.keys, List.map_nil, List.nil_append] at hnames
  exact hnames

/-- **What is declared under a name that is met**: as the name is taken there is a declaration,
which is made at one of the places; both places stand for the shape of the name. -/
theorem Advances.exists_declaredFrom
    (h : Advances scheme met parts { registry } final) (hfresh : registry.names = [])
    (hregistered : ∀ occurrence ∈ met,
      final.shape? occurrence.name = some (some (NameRegistry.shapeOf occurrence.schema)))
    {occurrence : Occurrence} (hoccurrence : occurrence ∈ met) :
    ∃ origin, occurrence.DeclaredFrom met parts origin := by
  have hshape := hregistered occurrence hoccurrence
  have hkey : occurrence.name ∈ (Outline.declarations parts).map Outline.typeName :=
    (h.perm_declarations hfresh).mem_iff.mp (Entries.exists_lookup_iff.mp ⟨_, hshape⟩)
  obtain ⟨part, hpart, hname⟩ := List.mem_map.mp hkey
  obtain ⟨origin, horigin, rfl, htag⟩ := h.declared part hpart
  refine ⟨origin, horigin, hpart, htag, hname, NameRegistry.sameShape_of_shapeOf_eq ?_⟩
  have hother := hregistered origin horigin
  rw [show origin.name = occurrence.name from hname, hshape] at hother
  exact (Option.some.inj (Option.some.inj hother)).symm

/-- **A name is declared once.** -/
theorem Advances.nodup_declarations
    (h : Advances scheme met parts { registry } final) (hfresh : registry.names = []) :
    ((Outline.declarations parts).map Outline.typeName).Nodup :=
  (h.perm_declarations hfresh).nodup_iff.mp h.ready.distinct

end

/-- Of a name that is declared once there is one declaration. -/
theorem Occurrence.DeclaredFrom.tag_eq {met : List Occurrence} {parts : List Outline}
    {occurrence other origin origin' : Occurrence}
    (hnodup : ((Outline.declarations parts).map Outline.typeName).Nodup)
    (h : occurrence.DeclaredFrom met parts origin) (h' : other.DeclaredFrom met parts origin')
    (hname : occurrence.name = other.name) : origin.tag = origin'.tag := by
  have hsame : origin.outline = origin'.outline :=
    List.inj_on_of_nodup_map hnodup h.declared h'.declared
      (h.name.trans (hname.trans h'.name.symm))
  exact Option.some.inj (h.tag.symm.trans ((congrArg _ hsame).trans h'.tag))

namespace Backend

/-- **What is declared under strict names** when the outlines of models that are objects are given:
every name that is met is declared, once, from a schema of the same shape. The declarations have
everywhere the tags that are asked for exactly when no two places with one name ask for different
ones. -/
theorem declaredFrom_of_strictNames {backend : Backend} {models : Models}
    {outlines : List Outline} {final : PassState} (hstrict : backend.config.strictNames = true)
    (hobjects : ∀ entry ∈ models, entry.2.isObject = true)
    (h : (Models.outline (backend.scheme models) models).run { registry := backend.registry } =
      (.ok outlines, final)) :
    let met := Models.occurrences models models outlines
    ((Outline.declarations final.completed).map Outline.typeName).Nodup ∧
      (∀ occurrence ∈ met, ∃ origin, occurrence.DeclaredFrom met final.completed origin) ∧
      ((∀ occurrence ∈ met, ∃ origin,
          occurrence.DeclaredFrom met final.completed origin ∧ origin.tag = occurrence.tag) ↔
        ∀ occurrence ∈ met, ∀ other ∈ met, occurrence.name = other.name →
          occurrence.tag = other.tag) := by
  intro met
  obtain ⟨-, hadvances⟩ := Models.advances_outline models (ready_registry hstrict) h
  have hregistered : ∀ occurrence ∈ met,
      final.shape? occurrence.name = some (some (NameRegistry.shapeOf occurrence.schema)) := by
    intro occurrence hoccurrence
    rcases hadvances.registered occurrence hoccurrence with ⟨target, hmodel, hname⟩ | hregistered
    · -- A reference takes no name: it is the outline of the model itself that has done so.
      have hmem : (target, occurrence.schema) ∈ models := Entries.mem_of_lookup hmodel
      rw [hname]
      exact Models.shape?_outline (hobjects _ hmem) hmem (ready_registry hstrict) h
    · exact hregistered
  have hcompleted : final.completed = outlines.flatMap Outline.parts := hadvances.completed
  have hnodup := hadvances.nodup_declarations rfl
  have horigins : ∀ occurrence ∈ met,
      ∃ origin, occurrence.DeclaredFrom met (outlines.flatMap Outline.parts) origin :=
    fun _ => hadvances.exists_declaredFrom rfl hregistered
  rw [hcompleted]
  refine ⟨hnodup, horigins, ?_, ?_⟩
  · intro hfaithful occurrence hoccurrence other hother hname
    obtain ⟨origin, horigin, htag⟩ := hfaithful occurrence hoccurrence
    obtain ⟨origin', horigin', htag'⟩ := hfaithful other hother
    rw [← htag, ← htag']
    exact horigin.tag_eq hnodup horigin' hname
  · intro hsame occurrence hoccurrence
    obtain ⟨origin, horigin⟩ := horigins occurrence hoccurrence
    exact ⟨origin, horigin, hsame origin horigin.met occurrence hoccurrence horigin.name⟩

/-- The case of a model with a union of one variant and a reference to the model itself. -/
theorem declaredFrom_of_strictNames_one_variant :
    let body := (Schema.union "type").variant "A" (Schema.object.withId "P")
    let event := (Schema.object.property "body" (body.withId "Body")).optionalProperty "cause"
      (Schema.reference "Event")
    let models : Models := [("Event", event.withId "Event")]
    let backend := TypeScript.backend { strictNames := true }
    ∃ outlines final, backend.config.strictNames = true ∧
      (∀ entry ∈ models, entry.2.isObject = true) ∧
      (Models.outline (backend.scheme models) models).run { registry := backend.registry } =
        (.ok outlines, final) ∧
      let met := Models.occurrences models models outlines
      ((Outline.declarations final.completed).map Outline.typeName).Nodup ∧
        (∀ occurrence ∈ met, ∃ origin, occurrence.DeclaredFrom met final.completed origin) ∧
        ((∀ occurrence ∈ met, ∃ origin,
            occurrence.DeclaredFrom met final.completed origin ∧ origin.tag = occurrence.tag) ↔
          ∀ occurrence ∈ met, ∀ other ∈ met, occurrence.name = other.name →
            occurrence.tag = other.tag) := by
  intro body event models backend
  obtain ⟨outlines, final, h⟩ : ∃ outlines final,
      (Models.outline (backend.scheme models) models).run { registry := backend.registry } =
        (.ok outlines, final) := ⟨_, _, rfl⟩
  have hobjects : ∀ entry ∈ models, entry.2.isObject = true := by decide
  exact ⟨outlines, final, rfl, hobjects, h, declaredFrom_of_strictNames rfl hobjects h⟩

/-- Two variants of a union that have one name and one shape: what is declared under the name has
the tag of the first, and nothing is declared with the tag of the second. -/
theorem not_declaredFrom_shared_variant :
    let shared := Schema.object.withId "P"
    let body := ((Schema.union "type").variant "A" shared).variant "B" shared
    let models : Models :=
      [("Event", (Schema.object.property "body" (body.withId "Body")).withId "Event")]
    let backend := TypeScript.backend { strictNames := true }
    (∀ entry ∈ models, entry.2.isObject = true) ∧
    ∃ outlines final,
      (Models.outline (backend.scheme models) models).run { registry := backend.registry } =
        (.ok outlines, final) ∧
      let met := Models.occurrences models models outlines
      ∃ occurrence ∈ met, occurrence.tag = some ⟨"type", "B"⟩ ∧
        ¬ ∃ origin,
          occurrence.DeclaredFrom met final.completed origin ∧ origin.tag = occurrence.tag := by
  intro shared body models backend
  refine ⟨by decide, ?_⟩
  obtain ⟨outlines, final, h, ⟨occurrence, hmem, htag⟩, hdeclared⟩ : ∃ outlines final,
      (Models.outline (backend.scheme models) models).run { registry := backend.registry } =
        (.ok outlines, final) ∧
      (∃ occurrence ∈ Models.occurrences models models outlines,
        occurrence.tag = some ⟨"type", "B"⟩) ∧
      ∀ part ∈ Outline.declarations final.completed,
        part.declaredTag? ≠ some (some ⟨"type", "B"⟩) :=
    ⟨_, _, rfl, ⟨_, .tail _ (.tail _ (.tail _ (.head _))), rfl⟩, by decide⟩
  refine ⟨outlines, final, h, occurrence, hmem, htag, ?_⟩
  rintro ⟨origin, horigin, hsame⟩
  exact hdeclared _ horigin.declared (horigin.tag.trans (congrArg some (hsame.trans htag)))

end Backend

end RpcSchema
