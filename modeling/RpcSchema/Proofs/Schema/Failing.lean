import Mathlib.Data.List.Duplicate
import RpcSchema.Proofs.Schema.Rules

set_option autoImplicit false

/-!
# How keywords fail to describe a schema

When keywords are refused, one of the rules of the forms is broken by them, or by the keywords of a
schema inside them, or by a variant of the union they describe.

## Main definitions

* `RpcSchema.Keywords.Fails` — how keywords are refused.

## Main results

* `RpcSchema.checkValues_eq_error`, `RpcSchema.checkVariants_eq_error` — what the checks refuse.
* `RpcSchema.Keywords.exists_object_of_toSchema` — where properties are listed the form is an object.
* `RpcSchema.Keywords.fails_of_toSchema` — keywords that are refused fail in one of these ways.
-/

namespace RpcSchema

open Outcome (bind_eq_ok_iff bind_eq_error_iff map_eq_error_iff)

variable {place : Path} {error : SchemaError}

/-! ## The checks -/

/-- Going through the values, one is refused that was there before. -/
theorem checkValues_go_eq_error {seen values : List String}
    (h : checkValues.go place seen values = .error error) :
    ∃ value, error = ⟨place, .repeatedValue value⟩ ∧
      (value ∈ seen ∧ value ∈ values ∨ List.Duplicate value values) := by
  induction values generalizing seen with
  | nil => cases h
  | cons value rest ih =>
    rw [checkValues.go] at h
    split at h
    · rename_i hseen
      cases h
      exact ⟨value, rfl, .inl ⟨List.contains_iff_mem.mp hseen, List.mem_cons_self⟩⟩
    · obtain ⟨other, rfl, ⟨hseen, hrest⟩ | hrest⟩ := ih h
      · rcases List.mem_cons.mp hseen with rfl | hseen
        · exact ⟨_, rfl, .inr (.cons_mem hrest)⟩
        · exact ⟨_, rfl, .inl ⟨hseen, List.mem_cons_of_mem _ hrest⟩⟩
      · exact ⟨_, rfl, .inr (.cons_duplicate hrest)⟩

/-- **An enumeration is refused** because it is empty, or for a value that it lists twice. -/
theorem checkValues_eq_error {values : List String}
    (h : checkValues place values = .error error) :
    error = ⟨place, .emptyEnumeration⟩ ∧ values = [] ∨
      ∃ value, error = ⟨place, .repeatedValue value⟩ ∧ List.Duplicate value values := by
  rw [checkValues] at h
  split at h
  · rename_i hempty
    cases h
    exact .inl ⟨rfl, List.isEmpty_iff.mp hempty⟩
  · obtain ⟨value, rfl, ⟨hseen, -⟩ | htwice⟩ := checkValues_go_eq_error h
    · cases hseen
    · exact .inr ⟨value, rfl, htwice⟩

/-- **Variants are refused** for one that is no object, or that has a property under the tag. -/
theorem checkVariants_eq_error {tag : String} {variants : List (String × Schema)}
    (h : checkVariants place tag variants = .error error) :
    ∃ variant ∈ variants, error.path = place ++ [.key "mapping", .key variant.1] ∧
      (error.fault = .variantNotObject variant.1 ∧
          (∀ required optional strict, variant.2.form ≠ .object required optional strict) ∨
        error.fault = .tagRedeclared variant.1 tag ∧
          ∃ required optional strict, variant.2.form = .object required optional strict ∧
            Schema.declares required optional tag = true) := by
  induction variants with
  | nil => cases h
  | cons variant rest ih =>
    obtain ⟨name, form, nullable, metadata⟩ := variant
    rw [checkVariants] at h
    dsimp only at h
    split at h
    · split at h
      · rename_i hdeclares
        cases h
        exact ⟨_, List.mem_cons_self, rfl, .inr ⟨rfl, _, _, _, rfl, hdeclares⟩⟩
      · obtain ⟨variant, hvariant, hfault⟩ := ih h
        exact ⟨variant, List.mem_cons_of_mem _ hvariant, hfault⟩
    · rename_i hform
      cases h
      exact ⟨_, List.mem_cons_self, rfl, .inl ⟨rfl, hform⟩⟩

/-! ## Forms -/

namespace Keywords

/-- **One form passes.** -/
theorem checkForms_eq_ok_iff {forms : List String} :
    checkForms place forms = .ok () ↔ ∃ form, forms = [form] := by
  rcases forms with _ | ⟨first, _ | ⟨second, rest⟩⟩ <;> simp [checkForms]

/-- **No form is refused, and so are several.** -/
theorem checkForms_eq_error {forms : List String} (h : checkForms place forms = .error error) :
    error = ⟨place, .noForm⟩ ∧ forms = [] ∨
      error = ⟨place, .ambiguousForm forms⟩ ∧ 2 ≤ forms.length := by
  rcases forms with _ | ⟨first, _ | ⟨second, rest⟩⟩
  · cases h
    exact .inl ⟨rfl, rfl⟩
  · cases h
  · cases h
    exact .inr ⟨rfl, by simp⟩

/-- **Where properties are listed** the form is that of an object. -/
theorem exists_object_of_toSchema {keywords : Keywords} {schema : Schema}
    (h : keywords.toSchema place = .ok schema)
    (hlisted : (keywords.properties.isSome || keywords.optionalProperties.isSome) = true) :
    ∃ required optional strict, schema.form = .object required optional strict := by
  obtain ⟨type, values, elements, record, properties, optionalProperties, additionalProperties,
    discriminator, mapping, ref, nullable, metadata⟩ := keywords
  dsimp only at hlisted
  rw [toSchema] at h
  obtain ⟨_, hforms, h⟩ := bind_eq_ok_iff.mp h
  obtain ⟨form, hform⟩ := checkForms_eq_ok_iff.mp hforms
  cases type with
  | some name => simp [forms, hlisted] at hform
  | none =>
    cases values with
    | some values => simp [forms, hlisted] at hform
    | none =>
      dsimp only at h
      rw [if_pos hlisted] at h
      obtain ⟨required, -, h⟩ := bind_eq_ok_iff.mp h
      obtain ⟨optional, -, h⟩ := bind_eq_ok_iff.mp h
      cases h
      exact ⟨_, _, _, rfl⟩

/-! ## Keywords inside keywords -/

section

variable {keyword : String} {children : List (String × Keywords)}
  {children? : Option (List (String × Keywords))} {schemas : Entries Schema}

theorem exists_of_toChildren_eq_error (h : toChildren place children = .error error) :
    ∃ child ∈ children, child.2.toSchema (place ++ [.key child.1]) = .error error := by
  induction children with
  | nil => cases h
  | cons child rest ih =>
    rw [toChildren] at h
    rcases bind_eq_error_iff.mp h with h | ⟨schema, -, h⟩
    · exact ⟨child, List.mem_cons_self, h⟩
    rcases bind_eq_error_iff.mp h with h | ⟨schemas, -, h⟩
    · obtain ⟨child, hchild, h⟩ := ih h
      exact ⟨child, List.mem_cons_of_mem _ hchild, h⟩
    · cases h

theorem forall₂_of_toChildren (h : toChildren place children = .ok schemas) :
    List.Forall₂ (fun child schema => schema.1 = child.1 ∧
      child.2.toSchema (place ++ [.key child.1]) = .ok schema.2) children schemas := by
  induction children generalizing schemas with
  | nil =>
    cases h
    exact .nil
  | cons child rest ih =>
    rw [toChildren] at h
    obtain ⟨schema, hschema, h⟩ := bind_eq_ok_iff.mp h
    obtain ⟨others, hothers, h⟩ := bind_eq_ok_iff.mp h
    cases h
    exact .cons ⟨rfl, hschema⟩ (ih hothers)

/-- **A map that is refused** has keywords in it that are refused. -/
theorem exists_of_toSection_eq_error (h : toSection place keyword children? = .error error) :
    ∃ children, children? = some children ∧ ∃ child ∈ children,
      child.2.toSchema (place ++ [.key keyword, .key child.1]) = .error error := by
  cases children? with
  | none => cases h
  | some children =>
    obtain ⟨child, hchild, h⟩ := exists_of_toChildren_eq_error h
    exact ⟨children, rfl, child, hchild, by rwa [List.append_assoc] at h⟩

/-- **The schemas of a map** are described by the keywords in it. -/
theorem exists_of_mem_toSection (h : toSection place keyword children? = .ok schemas)
    {schema : String × Schema} (hschema : schema ∈ schemas) :
    ∃ children, children? = some children ∧ ∃ child ∈ children, child.1 = schema.1 ∧
      child.2.toSchema (place ++ [.key keyword, .key child.1]) = .ok schema.2 := by
  cases children? with
  | none =>
    cases h
    cases hschema
  | some children =>
    obtain ⟨child, hchild, hkey, hread⟩ :=
      Outcome.exists_of_forall₂_right (forall₂_of_toChildren h) schema hschema
    exact ⟨children, rfl, child, hchild, hkey.symm, by rwa [List.append_assoc] at hread⟩

end

/-! ## Refusals -/

/-- **How keywords are refused**: for their forms, for what their form says, or for the keywords
inside. -/
inductive Fails (keywords : Keywords) (place : Path) (error : SchemaError) : Prop
  | forms : checkForms place keywords.forms = .error error → Fails keywords place error
  | scalar (name : String) : keywords.type = some name → ScalarKind.ofName? name = none →
    error = ⟨place, .unknownScalar name⟩ → Fails keywords place error
  | enumeration (values : List String) : keywords.values = some values →
    checkValues place values = .error error → Fails keywords place error
  | required : toSection place "properties" keywords.properties = .error error →
    Fails keywords place error
  | optional : toSection place "optionalProperties" keywords.optionalProperties = .error error →
    Fails keywords place error
  | element (inner : Keywords) : keywords.elements = some inner →
    inner.toSchema (place ++ [.key "elements"]) = .error error → Fails keywords place error
  | value (inner : Keywords) : keywords.record = some inner →
    inner.toSchema (place ++ [.key "values"]) = .error error → Fails keywords place error
  | incomplete : keywords.discriminator.isSome = !keywords.mapping.isSome →
    error = ⟨place, .incompleteUnion⟩ → Fails keywords place error
  | variants : toSection place "mapping" keywords.mapping = .error error →
    Fails keywords place error
  | union (tag : String) (variants : Entries Schema) : keywords.discriminator = some tag →
    toSection place "mapping" keywords.mapping = .ok variants →
    checkVariants place tag variants = .error error → Fails keywords place error

/-- **Keywords that are refused** fail in one of these ways. -/
theorem fails_of_toSchema {keywords : Keywords} (h : keywords.toSchema place = .error error) :
    keywords.Fails place error := by
  obtain ⟨type, values, elements, record, properties, optionalProperties, additionalProperties,
    discriminator, mapping, ref, nullable, metadata⟩ := keywords
  rw [toSchema] at h
  rcases bind_eq_error_iff.mp h with h | ⟨_, hforms, h⟩
  · exact .forms h
  -- Nothing fails behind the form.
  have hform : ∀ {step : Except SchemaError Form},
      (step >>= fun form => pure (⟨form, nullable, metadata⟩ : Schema)) = .error error →
        step = .error error := by
    intro step h
    rcases bind_eq_error_iff.mp h with h | ⟨_, -, h⟩
    · exact h
    · cases h
  dsimp only at h
  split at h
  · split at h
    · cases h
    · rename_i hname
      cases h
      exact .scalar _ rfl hname rfl
  rename_i htype
  split at h
  · rcases bind_eq_error_iff.mp h with h | ⟨_, -, h⟩
    · exact .enumeration _ rfl h
    · cases h
  rename_i hvalues
  split at h
  · rcases bind_eq_error_iff.mp h with h | ⟨_, -, h⟩
    · exact .required h
    rcases bind_eq_error_iff.mp h with h | ⟨_, -, h⟩
    · exact .optional h
    · cases h
  rename_i hproperties
  split at h
  · rename_i helements
    obtain ⟨inner, rfl⟩ := Option.isSome_iff_exists.mp helements
    exact .element inner rfl (map_eq_error_iff.mp (hform h))
  rename_i helements
  split at h
  · rename_i hrecord
    obtain ⟨inner, rfl⟩ := Option.isSome_iff_exists.mp hrecord
    exact .value inner rfl (map_eq_error_iff.mp (hform h))
  rename_i hrecord
  split at h
  · cases h
  rename_i href
  split at h
  · cases h
    refine .incomplete ?_ rfl
    cases mapping with
    | some variants => rfl
    | none =>
      -- Then there would be no keyword of a form at all.
      obtain ⟨form, hform⟩ := checkForms_eq_ok_iff.mp hforms
      have htype := Option.eq_none_iff_forall_ne_some.mpr htype
      have hvalues := Option.eq_none_iff_forall_ne_some.mpr hvalues
      have href := Option.eq_none_iff_forall_ne_some.mpr href
      simp [forms, htype, hvalues, hproperties, helements, hrecord, href] at hform
  split at h
  · rename_i hmapping
    cases h
    exact .incomplete (by simpa using hmapping) rfl
  rcases bind_eq_error_iff.mp h with h | ⟨variants, hvariants, h⟩
  · exact .variants h
  rcases bind_eq_error_iff.mp h with h | ⟨_, -, h⟩
  · exact .union _ variants rfl hvariants h
  · cases h

end Keywords

end RpcSchema
