import RpcSchema.Proofs.Json.Compact
import RpcSchema.Proofs.Schema.Induction
import RpcSchema.Schema.Wire

set_option autoImplicit false

/-!
# Fingerprints tell schemas apart

What the document of a schema leaves out can be told from its being left out: every keyword has one
place and one meaning for the form. There are no numbers in it, so that fingerprints also delimit
themselves in a longer text.

## Main results

* `RpcSchema.Schema.numberFree_toJson` — no document of a schema has numbers.
* `RpcSchema.Schema.toJson_inj` — schemas with one document are the same.
* `RpcSchema.Schema.fingerprint_append_inj` — fingerprints delimit themselves.
* `RpcSchema.Schema.fingerprint_identifies` — fingerprints tell schemas apart, also when one text is
  only the beginning of the other.
-/

namespace RpcSchema.Schema

/-! ## No numbers -/

theorem numberFree_metadataJson (metadata : Metadata) : (metadataJson metadata).NumberFree := by
  obtain ⟨id, description, deprecated⟩ := metadata
  rw [metadataJson, Json.numberFree_object_iff]
  cases id <;> cases description <;> cases deprecated <;> simp

theorem numberFree_modifierEntries (nullable : Bool) (metadata : Metadata) :
    ∀ entry ∈ modifierEntries nullable metadata, entry.2.NumberFree := by
  have hmetadata := numberFree_metadataJson metadata
  unfold modifierEntries
  cases nullable <;> split <;> simp [hmetadata]

theorem numberFree_childEntries {children : List (String × Schema)}
    (h : ∀ child ∈ children, child.2.toJson.NumberFree) :
    (Json.object (childEntries children)).NumberFree := by
  rw [Json.numberFree_object_iff, childEntries_eq_mapValues, Entries.mapValues,
    List.forall_mem_map]
  exact h

/-- **No document of a schema has numbers.** -/
theorem numberFree_toJson (schema : Schema) : schema.toJson.NumberFree := by
  -- Only the keywords of the form are left: the modifiers have no schemas inside.
  have hform : ∀ (form : Form) (nullable : Bool) (metadata : Metadata),
      (∀ entry ∈ formEntries form, entry.2.NumberFree) →
        (toJson ⟨form, nullable, metadata⟩).NumberFree := by
    intro form nullable metadata h
    rw [toJson, Json.numberFree_object_iff, List.forall_mem_append]
    exact ⟨h, numberFree_modifierEntries nullable metadata⟩
  induction schema using induct with
  | scalar kind nullable metadata =>
    apply hform
    simp [formEntries]
  | enumeration values nullable metadata =>
    apply hform
    simp [formEntries, Json.numberFree_array_iff]
  | object required optional strict nullable metadata hrequired hoptional =>
    apply hform
    have hrequired := numberFree_childEntries hrequired
    have hoptional := numberFree_childEntries hoptional
    unfold formEntries
    split <;> cases strict <;> simp [hrequired, hoptional]
  | array element nullable metadata ih =>
    apply hform
    simpa [formEntries] using ih
  | record value nullable metadata ih =>
    apply hform
    simpa [formEntries] using ih
  | union tag variants nullable metadata ih =>
    apply hform
    simp [formEntries, numberFree_childEntries ih]
  | ref target nullable metadata =>
    apply hform
    simp [formEntries]

/-! ## One document for each schema -/

/-- The keywords that any form may have are not among those of a form. -/
theorem lookup_formEntries_modifier (form : Form) :
    (formEntries form).lookup "nullable" = none ∧ (formEntries form).lookup "metadata" = none := by
  cases form with
  | object required optional strict =>
    unfold formEntries
    split <;> cases strict <;> exact ⟨rfl, rfl⟩
  | _ => exact ⟨rfl, rfl⟩

theorem lookup_nullable_modifierEntries (nullable : Bool) (metadata : Metadata) :
    (modifierEntries nullable metadata).lookup "nullable" =
      if nullable then some (.bool true) else none := by
  unfold modifierEntries
  cases nullable <;> cases metadata.isEmpty <;> rfl

theorem lookup_metadata_modifierEntries (nullable : Bool) (metadata : Metadata) :
    (modifierEntries nullable metadata).lookup "metadata" =
      if metadata.isEmpty then none else some (metadataJson metadata) := by
  unfold modifierEntries
  cases nullable <;> cases metadata.isEmpty <;> rfl

theorem metadataJson_inj {metadata metadata' : Metadata}
    (h : metadataJson metadata = metadataJson metadata') : metadata = metadata' := by
  obtain ⟨id, description, deprecated⟩ := metadata
  obtain ⟨id', description', deprecated'⟩ := metadata'
  cases id <;> cases id' <;> cases description <;> cases description' <;> cases deprecated <;>
    cases deprecated' <;> simp_all [metadataJson]

/-- **The modifiers of a schema** can be read off its document. -/
theorem modifiers_of_formEntries_append_eq {form form' : Form} {nullable nullable' : Bool}
    {metadata metadata' : Metadata}
    (h : formEntries form ++ modifierEntries nullable metadata =
      formEntries form' ++ modifierEntries nullable' metadata') :
    nullable = nullable' ∧ metadata = metadata' := by
  have hnullable := congrArg (List.lookup "nullable") h
  have hmetadata := congrArg (List.lookup "metadata") h
  rw [List.lookup_append, List.lookup_append, (lookup_formEntries_modifier form).1,
    (lookup_formEntries_modifier form').1, Option.none_or, Option.none_or,
    lookup_nullable_modifierEntries, lookup_nullable_modifierEntries] at hnullable
  rw [List.lookup_append, List.lookup_append, (lookup_formEntries_modifier form).2,
    (lookup_formEntries_modifier form').2, Option.none_or, Option.none_or,
    lookup_metadata_modifierEntries, lookup_metadata_modifierEntries] at hmetadata
  constructor
  · cases nullable <;> cases nullable' <;> simp_all
  · split at hmetadata <;> split at hmetadata
    · rename_i hempty hempty'
      obtain ⟨id, description, deprecated⟩ := metadata
      obtain ⟨id', description', deprecated'⟩ := metadata'
      simp_all [Metadata.isEmpty]
    · cases hmetadata
    · cases hmetadata
    · exact metadataJson_inj (Option.some.inj hmetadata)

theorem childEntries_inj :
    ∀ {children children' : List (String × Schema)},
      (∀ child ∈ children, ∀ schema, child.2.toJson = toJson schema → child.2 = schema) →
      childEntries children = childEntries children' → children = children'
  | [], [], _, _ => rfl
  | [], child' :: rest', _, h => by simp [childEntries] at h
  | child :: rest, [], _, h => by simp [childEntries] at h
  | (key, schema) :: rest, (key', schema') :: rest', hinj, h => by
    rw [childEntries, childEntries, List.cons.injEq, Prod.mk.injEq] at h
    obtain ⟨⟨rfl, hschema⟩, hrest⟩ := h
    obtain ⟨hfirst, hothers⟩ := List.forall_mem_cons.mp hinj
    obtain rfl := hfirst _ hschema
    rw [childEntries_inj hothers hrest]

/-- The first keyword of a form is its name. -/
theorem keys_head?_formEntries (form : Form) :
    (Entries.keys (formEntries form)).head? = some form.name := by
  cases form with
  | object required optional strict => rfl
  | _ => rfl

/-- The sections of an object can be told apart, also when they are left out. -/
theorem sections_of_formEntries_eq {required optional required' optional' : List (String × Schema)}
    {strict strict' : Bool}
    (h : formEntries (.object required optional strict) =
      formEntries (.object required' optional' strict')) :
    childEntries required = childEntries required' ∧
      childEntries optional = childEntries optional' ∧ strict = strict' := by
  unfold formEntries at h
  cases optional <;> cases optional' <;> cases strict <;> cases strict' <;>
    simp_all [childEntries]

/-- Schemas with one document are the same if forms with the same keywords are; the forms have the
same name at least. -/
theorem eq_of_toJson_eq {form : Form} {nullable : Bool} {metadata : Metadata}
    (hform : ∀ form', form.name = form'.name → formEntries form = formEntries form' → form = form')
    {other : Schema} (h : toJson ⟨form, nullable, metadata⟩ = toJson other) :
    ⟨form, nullable, metadata⟩ = other := by
  obtain ⟨form', nullable', metadata'⟩ := other
  rw [toJson, toJson, Json.object.injEq] at h
  obtain ⟨rfl, rfl⟩ := modifiers_of_formEntries_append_eq h
  have hentries := List.append_cancel_right h
  have hname := congrArg (fun entries => (Entries.keys entries).head?) hentries
  simp only [keys_head?_formEntries, Option.some.injEq] at hname
  rw [hform form' hname hentries]

/-- **Schemas with one document are the same.**

**Proof sketch.** The modifiers are looked up in the document and taken off. What is left begins
with the name of the form, so that the forms are of one kind; their parts are the same by the
hypotheses for the schemas inside them. -/
theorem toJson_inj (schema : Schema) : ∀ {other : Schema}, schema.toJson = other.toJson →
    schema = other := by
  induction schema using induct with
  | scalar kind nullable metadata =>
    refine eq_of_toJson_eq fun form' hname h => ?_
    cases form' with
    | scalar kind' =>
      simp only [formEntries, List.cons.injEq, Prod.mk.injEq, Json.string.injEq, true_and,
        and_true] at h
      have hkind := congrArg ScalarKind.ofName? h
      rw [ScalarKind.ofName?_name, ScalarKind.ofName?_name, Option.some.injEq] at hkind
      rw [hkind]
    | _ => simp [Form.name] at hname
  | enumeration values nullable metadata =>
    refine eq_of_toJson_eq fun form' hname h => ?_
    cases form' with
    | enumeration values' =>
      simp only [formEntries, List.cons.injEq, Prod.mk.injEq, Json.array.injEq, true_and,
        and_true] at h
      rw [(List.map_inj_right fun _ _ heq => Json.string.inj heq).mp h]
    | _ => simp [Form.name] at hname
  | object required optional strict nullable metadata hrequired hoptional =>
    refine eq_of_toJson_eq fun form' hname h => ?_
    cases form' with
    | object required' optional' strict' =>
      obtain ⟨heq, heq', rfl⟩ := sections_of_formEntries_eq h
      rw [childEntries_inj (fun child hmem _ => hrequired child hmem) heq,
        childEntries_inj (fun child hmem _ => hoptional child hmem) heq']
    | _ => simp [Form.name] at hname
  | array element nullable metadata ih =>
    refine eq_of_toJson_eq fun form' hname h => ?_
    cases form' with
    | array element' =>
      simp only [formEntries, List.cons.injEq, Prod.mk.injEq, true_and, and_true] at h
      rw [ih h]
    | _ => simp [Form.name] at hname
  | record value nullable metadata ih =>
    refine eq_of_toJson_eq fun form' hname h => ?_
    cases form' with
    | record value' =>
      simp only [formEntries, List.cons.injEq, Prod.mk.injEq, true_and, and_true] at h
      rw [ih h]
    | _ => simp [Form.name] at hname
  | union tag variants nullable metadata ih =>
    refine eq_of_toJson_eq fun form' hname h => ?_
    cases form' with
    | union tag' variants' =>
      simp only [formEntries, List.cons.injEq, Prod.mk.injEq, Json.string.injEq,
        Json.object.injEq, true_and, and_true] at h
      obtain ⟨rfl, hvariants⟩ := h
      rw [childEntries_inj (fun child hmem _ => ih child hmem) hvariants]
    | _ => simp [Form.name] at hname
  | ref target nullable metadata =>
    refine eq_of_toJson_eq fun form' hname h => ?_
    cases form' with
    | ref target' =>
      simp only [formEntries, List.cons.injEq, Prod.mk.injEq, Json.string.injEq, true_and,
        and_true] at h
      rw [h]
    | _ => simp [Form.name] at hname

/-! ## Fingerprints -/

/-- **Fingerprints delimit themselves**: texts that begin with fingerprints agree only if the
schemas are the same. -/
theorem fingerprint_append_inj {schema other : Schema} {rest rest' : List Char}
    (h : schema.fingerprint.toList ++ rest = other.fingerprint.toList ++ rest') :
    schema = other ∧ rest = rest' := by
  obtain ⟨hjson, hrest⟩ :=
    Json.compact_append_inj (numberFree_toJson schema) (numberFree_toJson other) h
  exact ⟨toJson_inj schema hjson, hrest⟩

/-- A fingerprint that begins with another is that fingerprint. -/
theorem eq_of_fingerprint_isPrefix {schema other : Schema}
    (h : schema.fingerprint.toList <+: other.fingerprint.toList) : schema = other := by
  obtain ⟨rest, hrest⟩ := h
  exact (fingerprint_append_inj (hrest.trans (List.append_nil _).symm)).1

/-- **A fingerprint identifies its schema**, down to the order of properties, variants and values:
different schemas have different fingerprints, of which none begins with another. -/
theorem fingerprint_identifies (schema other : Schema) :
    (schema.fingerprint = other.fingerprint ↔ schema = other) ∧
      (schema.fingerprint.toList <+: other.fingerprint.toList ↔ schema = other) := by
  have hbegins : schema.fingerprint = other.fingerprint →
      schema.fingerprint.toList <+: other.fingerprint.toList := fun h => h ▸ List.prefix_rfl
  have hself : schema = other → schema.fingerprint = other.fingerprint := congrArg fingerprint
  exact ⟨⟨fun h => eq_of_fingerprint_isPrefix (hbegins h), hself⟩,
    ⟨eq_of_fingerprint_isPrefix, fun h => hbegins (hself h)⟩⟩

end RpcSchema.Schema
