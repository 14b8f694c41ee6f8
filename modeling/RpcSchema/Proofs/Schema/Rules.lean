import RpcSchema.Proofs.Entries
import RpcSchema.Proofs.Outcome
import RpcSchema.Schema.Wire

set_option autoImplicit false

/-!
# The rules of well-formed schemas and the checks for them

The checks that are made while a document is read, and again while a schema is lowered, pass
exactly when the rules are kept, wherever the schema stands.

## Main definitions

* `RpcSchema.Keywords.Describes` — keywords describe a form.

## Main results

* `RpcSchema.Schema.wellFormedChildren_iff` — well-formedness of a map.
* `RpcSchema.checkValues_eq_ok_iff`, `RpcSchema.checkVariants_eq_ok_iff` — when the checks pass.
* `RpcSchema.Keywords.wellFormed_of_toSchema` — what is read is well-formed.
-/

namespace RpcSchema

open Outcome (bind_eq_ok_iff map_eq_ok_iff)

variable {place : Path}

theorem Schema.wellFormedChildren_iff {children : List (String × Schema)} :
    WellFormedChildren children ↔ ∀ child ∈ children, child.2.WellFormed := by
  induction children with
  | nil => simp [WellFormedChildren]
  | cons child rest ih => rw [WellFormedChildren, ih, List.forall_mem_cons]

/-! ## The checks -/

/-- Going through the values, those seen are kept apart. -/
theorem checkValues_go_eq_ok_iff {seen values : List String} :
    checkValues.go place seen values = .ok () ↔
      values.Nodup ∧ ∀ value ∈ values, value ∉ seen := by
  induction values generalizing seen with
  | nil => simp [checkValues.go]
  | cons value rest ih =>
    rw [checkValues.go, List.nodup_cons, List.forall_mem_cons]
    by_cases hseen : value ∈ seen
    · simp [hseen]
    · simp only [List.contains_iff_mem, hseen, if_false, ih, List.mem_cons, not_or]
      grind

/-- **An enumeration passes** when it has values and none twice. -/
theorem checkValues_eq_ok_iff {values : List String} :
    checkValues place values = .ok () ↔ values ≠ [] ∧ values.Nodup := by
  cases values with
  | nil => simp [checkValues]
  | cons value rest =>
    rw [checkValues, if_neg (by simp), checkValues_go_eq_ok_iff]
    simp

/-- **Variants pass** when they are objects that leave the tag to the union. -/
theorem checkVariants_eq_ok_iff {tag : String} {variants : List (String × Schema)} :
    checkVariants place tag variants = .ok () ↔
      ∀ variant ∈ variants, Schema.IsVariant tag variant.2 := by
  induction variants with
  | nil => simp [checkVariants]
  | cons variant rest ih =>
    obtain ⟨name, form, nullable, metadata⟩ := variant
    rw [List.forall_mem_cons, ← ih]
    cases form with
    | object required optional strict =>
      cases hdeclares : Schema.declares required optional tag <;>
        simp [checkVariants, Schema.IsVariant, hdeclares]
    | _ => simp [checkVariants, Schema.IsVariant]

/-! ## What is read -/

namespace Keywords

/-- **Keywords describe a form** at a place: what they hold is read as the parts of the form, and
the parts pass the checks. -/
inductive Describes (keywords : Keywords) (place : Path) : Form → Prop
  | scalar (kind : ScalarKind) : Describes keywords place (.scalar kind)
  | enumeration (values : List String) :
    checkValues place values = .ok () → Describes keywords place (.enumeration values)
  | object (required optional : Entries Schema) (strict : Bool) :
    toSection place "properties" keywords.properties = .ok required →
    toSection place "optionalProperties" keywords.optionalProperties = .ok optional →
    Describes keywords place (.object required optional strict)
  | array (element : Schema) :
    toSchema? (place ++ [.key "elements"]) keywords.elements = .ok element →
    Describes keywords place (.array element)
  | record (value : Schema) :
    toSchema? (place ++ [.key "values"]) keywords.record = .ok value →
    Describes keywords place (.record value)
  | union (tag : String) (variants : Entries Schema) :
    toSection place "mapping" keywords.mapping = .ok variants →
    checkVariants place tag variants = .ok () → Describes keywords place (.union tag variants)
  | ref (target : String) : Describes keywords place (.ref target)

/-- **A schema that is read** has a form that its keywords describe. -/
theorem describes_of_toSchema {keywords : Keywords} {schema : Schema}
    (h : keywords.toSchema place = .ok schema) :
    ∃ form, schema = ⟨form, keywords.nullable, keywords.metadata⟩ ∧
      keywords.Describes place form := by
  obtain ⟨type, values, elements, record, properties, optionalProperties, additionalProperties,
    discriminator, mapping, ref, nullable, metadata⟩ := keywords
  rw [toSchema] at h
  obtain ⟨_, -, h⟩ := bind_eq_ok_iff.mp h
  -- The form that a branch ends with is put between the modifiers.
  have hdone : ∀ {step : Except SchemaError Form},
      (step >>= fun form => pure ⟨form, nullable, metadata⟩) = .ok schema →
        ∃ form, step = .ok form ∧ schema = ⟨form, nullable, metadata⟩ := by
    intro step h
    obtain ⟨form, hform, h⟩ := bind_eq_ok_iff.mp h
    exact ⟨form, hform, (Except.ok.inj h).symm⟩
  dsimp only at h
  split at h
  · split at h
    · obtain ⟨form, hform, rfl⟩ := hdone h
      cases hform
      exact ⟨_, rfl, .scalar _⟩
    · cases h
  split at h
  · obtain ⟨_, hcheck, h⟩ := bind_eq_ok_iff.mp h
    obtain ⟨form, hform, rfl⟩ := hdone h
    cases hform
    exact ⟨_, rfl, .enumeration _ hcheck⟩
  split at h
  · obtain ⟨required, hrequired, h⟩ := bind_eq_ok_iff.mp h
    obtain ⟨optional, hoptional, h⟩ := bind_eq_ok_iff.mp h
    obtain ⟨form, hform, rfl⟩ := hdone h
    cases hform
    exact ⟨_, rfl, .object required optional _ hrequired hoptional⟩
  split at h
  · obtain ⟨form, hform, rfl⟩ := hdone h
    obtain ⟨element, helement, rfl⟩ := map_eq_ok_iff.mp hform
    exact ⟨_, rfl, .array element helement⟩
  split at h
  · obtain ⟨form, hform, rfl⟩ := hdone h
    obtain ⟨value, hvalue, rfl⟩ := map_eq_ok_iff.mp hform
    exact ⟨_, rfl, .record value hvalue⟩
  split at h
  · obtain ⟨form, hform, rfl⟩ := hdone h
    cases hform
    exact ⟨_, rfl, .ref _⟩
  split at h
  · cases h
  split at h
  · cases h
  obtain ⟨variants, hvariants, h⟩ := bind_eq_ok_iff.mp h
  obtain ⟨_, hcheck, h⟩ := bind_eq_ok_iff.mp h
  obtain ⟨form, hform, rfl⟩ := hdone h
  cases hform
  exact ⟨_, rfl, .union _ variants hvariants hcheck⟩

mutual

/-- **What is read is well-formed.** -/
theorem wellFormed_of_toSchema : ∀ {keywords : Keywords} {place : Path} {schema : Schema},
    keywords.toSchema place = .ok schema → schema.WellFormed
  | ⟨type, values, elements, record, properties, optionalProperties, additionalProperties,
      discriminator, mapping, ref, nullable, metadata⟩, place, schema, h => by
    obtain ⟨form, rfl, hform⟩ := describes_of_toSchema h
    rw [Schema.WellFormed]
    cases hform with
    | scalar kind => trivial
    | enumeration values hcheck => exact checkValues_eq_ok_iff.mp hcheck
    | object required optional strict hrequired hoptional =>
      exact ⟨wellFormed_of_toSection hrequired, wellFormed_of_toSection hoptional⟩
    | array element helement => exact wellFormed_of_toSchema? helement
    | record value hvalue => exact wellFormed_of_toSchema? hvalue
    | union tag variants hvariants hcheck =>
      exact ⟨wellFormed_of_toSection hvariants, checkVariants_eq_ok_iff.mp hcheck⟩
    | ref target => trivial

/-- The schema of a keyword. -/
theorem wellFormed_of_toSchema? : ∀ {keywords? : Option Keywords} {place : Path} {schema : Schema},
    toSchema? place keywords? = .ok schema → schema.WellFormed
  | none, _, _, h => by cases h
  | some keywords, _, _, h => @wellFormed_of_toSchema keywords _ _ h

/-- The schemas of a keyword, which may be missing. -/
theorem wellFormed_of_toSection : ∀ {children? : Option (List (String × Keywords))} {place : Path}
    {keyword : String} {children : Entries Schema},
    toSection place keyword children? = .ok children → Schema.WellFormedChildren children
  | none, _, _, _, h => by
    cases h
    trivial
  | some keywords, _, _, _, h => @wellFormed_of_toChildren keywords _ _ h

/-- The schemas of a map. -/
theorem wellFormed_of_toChildren : ∀ {keywords : List (String × Keywords)} {place : Path}
    {children : Entries Schema},
    toChildren place keywords = .ok children → Schema.WellFormedChildren children
  | [], _, _, h => by
    cases h
    trivial
  | (key, keywords) :: rest, place, children, h => by
    rw [toChildren] at h
    obtain ⟨schema, hschema, h⟩ := bind_eq_ok_iff.mp h
    obtain ⟨schemas, hschemas, h⟩ := bind_eq_ok_iff.mp h
    cases h
    exact ⟨wellFormed_of_toSchema hschema, wellFormed_of_toChildren hschemas⟩

end

end Keywords

end RpcSchema
