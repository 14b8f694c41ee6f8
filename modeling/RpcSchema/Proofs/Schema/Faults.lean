import RpcSchema.Proofs.Path
import RpcSchema.Proofs.Schema.Failing
import RpcSchema.Proofs.Schema.Nodes
import RpcSchema.Proofs.Schema.Taken

set_option autoImplicit false

/-!
# Where the faults of a schema are

When keywords that are read from a document are refused, the path of the error goes on from the
place of the document to one of its nodes, and this node breaks the rule that the error names. The
faults of variants are found after the variants have been described, by the union; their paths lead
to the variants all the same.

## Main definitions

* `RpcSchema.Json.NamesFault` — an error leads to a node that breaks the rule.
* `RpcSchema.SchemaFault.IsStructural` — an error says which rule of the forms is broken.
* `RpcSchema.Json.LeadsToFault` — the text of a path leads to what breaks the rule.

## Main results

* `RpcSchema.Keywords.TakenFrom.forms_eq_spelledForms` — the forms of keywords are those of the
  document.
* `RpcSchema.Keywords.namesFault_of_toSchema` — the error of a document that is refused.
* `RpcSchema.Json.NamesFault.leadsToFault` — texts of paths without points in their keys.
-/

namespace RpcSchema

variable {document part : Json} {place : Path} {error : SchemaError}

/-- **An error leads from a place to a node that breaks the rule** it names. -/
def Json.NamesFault (document : Json) (place : Path) (error : SchemaError) : Prop :=
  ∃ inside node, error.path = place ++ Path.ofKeys inside ∧ document.HasNode inside node ∧
    document.BreaksAt inside node error.fault

/-- What leads to a node of a node leads to a node of the document. -/
theorem Json.NamesFault.under {outer : Pointer} (houter : document.HasNode outer part)
    (h : part.NamesFault (place ++ Path.ofKeys outer) error) : document.NamesFault place error := by
  obtain ⟨inside, node, hpath, hnode, hbreaks⟩ := h
  refine ⟨outer ++ inside, node, ?_, houter.trans hnode, hbreaks.under houter.resolve?_eq⟩
  rw [hpath, List.append_assoc, ← List.map_append]

/-- What leads on from the root leads on from a place when it is seen from there. -/
theorem Json.NamesFault.within (h : document.NamesFault [] error) (outer : Path) :
    document.NamesFault outer (error.within outer) := by
  obtain ⟨inside, node, hpath, hnode, hbreaks⟩ := h
  exact ⟨inside, node, congrArg (outer ++ ·) hpath, hnode, hbreaks⟩

/-- What a node breaks itself. -/
theorem Json.namesFault_here {fault : SchemaFault} (h : document.BreaksAt [] document fault) :
    document.NamesFault place ⟨place, fault⟩ :=
  ⟨[], document, (List.append_nil _).symm, .root document, h⟩

namespace Keywords

variable {entries : List (String × Json)} {keywords : Keywords}

namespace TakenFrom

/-- **The forms of keywords** are those that their document spells. -/
theorem forms_eq_spelledForms (h : keywords.TakenFrom entries) :
    keywords.forms = (Json.object entries).spelledForms := by
  simp only [forms, h.type.isSome_eq, h.values.isSome_eq, h.elements.isSome_eq,
    h.record.isSome_eq, h.properties.isSome_eq, h.optionalProperties.isSome_eq,
    h.discriminator.isSome_eq, h.mapping.isSome_eq, h.ref.isSome_eq]
  simp [Json.spelledForms, Json.formKeywords, Json.spells, Json.get?]

/-- A document of keywords that list properties spells the form of objects. -/
theorem mem_spelledForms_iff (h : keywords.TakenFrom entries) :
    "properties" ∈ (Json.object entries).spelledForms ↔
      (keywords.properties.isSome || keywords.optionalProperties.isSome) = true := by
  rw [← h.forms_eq_spelledForms]
  simp [forms]

end TakenFrom

/-- The keywords in a map that is taken in are read from what the document holds there. -/
theorem exists_child_of_taken {keyword : String} (hformed : (Json.object entries).WellFormed)
    {children : List (String × Keywords)}
    (htaken : Taken readMap (entries.lookup keyword) (some children))
    {child : String × Keywords} (hchild : child ∈ children) :
    ∃ held value, (Json.object entries).get? keyword = some held ∧ held.get? child.1 = some value ∧
      read value = .ok child.2 := by
  obtain ⟨held, hheld, -, hread⟩ := htaken.exists_of_some
  cases held with
  | object inner =>
    rw [readMap] at hread
    have hdistinct : Entries.Distinct inner :=
      (Json.wellFormedEntries_iff.mp hformed.2 _ (Entries.mem_of_lookup hheld)).1
    obtain ⟨value, hvalue, hread⟩ := exists_lookup_of_mem hdistinct hread hchild
    exact ⟨.object inner, value, hheld, hvalue, hread⟩
  | _ => cases hread

/-- A schema that is described by a map is held under its key in the document. -/
theorem exists_get?_of_toSection {keyword key : String}
    (hformed : (Json.object entries).WellFormed) {children? : Option (List (String × Keywords))}
    (htaken : Taken readMap (entries.lookup keyword) children?) {schemas : Entries Schema}
    (hschemas : toSection place keyword children? = .ok schemas)
    (hkey : key ∈ Entries.keys schemas) :
    ∃ held value, (Json.object entries).get? keyword = some held ∧ held.get? key = some value := by
  obtain ⟨schema, hschema⟩ := Entries.exists_lookup_iff.mpr hkey
  obtain ⟨children, rfl, child, hchild, rfl, -⟩ :=
    exists_of_mem_toSection hschemas (Entries.mem_of_lookup hschema)
  obtain ⟨held, value, hheld, hvalue, -⟩ := exists_child_of_taken hformed htaken hchild
  exact ⟨held, value, hheld, hvalue⟩

/-! ## Variants -/

/-- **A schema that declares a property** is described by a document that lists it. -/
theorem exists_property_of_declares (hformed : (Json.object entries).WellFormed)
    (htaken : keywords.TakenFrom entries) {schema : Schema}
    (hschema : keywords.toSchema place = .ok schema) {required optional : Entries Schema}
    {strict : Bool} (hform : schema.form = .object required optional strict) {key : String}
    (hdeclares : Schema.declares required optional key = true) :
    ∃ keyword ∈ ["properties", "optionalProperties"], ∃ children property,
      (Json.object entries).get? keyword = some children ∧ children.get? key = some property := by
  obtain ⟨form, rfl, hdescribes⟩ := describes_of_toSchema hschema
  obtain rfl : form = .object required optional strict := hform
  cases hdescribes with
  | object _ _ _ hrequired hoptional =>
    rw [Schema.declares, Bool.or_eq_true, Entries.contains_eq_true_iff,
      Entries.contains_eq_true_iff] at hdeclares
    rcases hdeclares with hkey | hkey
    · exact ⟨_, by simp, exists_get?_of_toSection hformed htaken.properties hrequired hkey⟩
    · exact ⟨_, by simp, exists_get?_of_toSection hformed htaken.optionalProperties hoptional hkey⟩

/-- **A variant that is refused** after its keywords have been described breaks a rule of unions. -/
theorem namesFault_of_checkVariants (hformed : (Json.object entries).WellFormed)
    (hnodes : (Json.object entries).NodesAreObjects) (htaken : keywords.TakenFrom entries)
    {tag : String} {variants : Entries Schema} (htag : keywords.discriminator = some tag)
    (hvariants : toSection place "mapping" keywords.mapping = .ok variants)
    (h : checkVariants place tag variants = .error error) :
    (Json.object entries).NamesFault place error := by
  obtain ⟨⟨_, schema⟩, hvariant, hpath, hfault⟩ := checkVariants_eq_error h
  obtain ⟨children, hmapping, ⟨name, inner⟩, hchild, rfl, hinner⟩ :=
    exists_of_mem_toSection hvariants hvariant
  obtain ⟨held, value, hheld, hvalue, hread⟩ :=
    exists_child_of_taken hformed (hmapping ▸ htaken.mapping) hchild
  have hnode : (Json.object entries).HasNode ["mapping", name] value :=
    Json.HasNode.child "mapping" name (by simp) hheld hvalue (.root value)
  obtain ⟨fields, rfl⟩ := hnodes _ _ hnode
  have hfields : (Json.object fields).WellFormed := (hformed.of_get? hheld).of_get? hvalue
  have hin : inner.TakenFrom fields := takenFrom_of_read hfields.1 hread
  have hat : (Json.object entries).IsVariantAt ["mapping", name] name tag := by
    obtain ⟨text, htext, -, hreadText⟩ := (htag ▸ htaken.discriminator).exists_of_some
    obtain rfl := Read.eq_string_of_text hreadText
    exact ⟨[], rfl, Json.resolve?_of_get? htext⟩
  refine ⟨["mapping", name], .object fields, hpath, hnode, ?_⟩
  rcases hfault with ⟨hfault, hform⟩ | ⟨hfault, required, optional, strict, hform, hdeclares⟩
  · rw [hfault]
    refine ⟨⟨tag, hat⟩, fun hlisted => ?_⟩
    obtain ⟨_, _, _, hobject⟩ :=
      exists_object_of_toSchema hinner (hin.mem_spelledForms_iff.mp hlisted)
    exact hform _ _ _ hobject
  · rw [hfault]
    exact ⟨hat, exists_property_of_declares hfields hin hinner hform hdeclares⟩

/-! ## All nodes -/

/-- **The error of a document that is refused** leads to a node that breaks the rule it names. -/
theorem namesFault_of_toSchema (document : Json) (hformed : document.WellFormed)
    (hnodes : document.NodesAreObjects) {keywords : Keywords} {place : Path}
    (hread : read document = .ok keywords) (h : keywords.toSchema place = .error error) :
    document.NamesFault place error := by
  obtain ⟨entries, rfl⟩ := hnodes _ _ (.root document)
  have htaken := takenFrom_of_read hformed.1 hread
  -- What is refused inside leads on from there.
  have hpart : ∀ keyword ∈ ["elements", "values"], ∀ {inner : Keywords},
      Taken read (entries.lookup keyword) (some inner) →
        inner.toSchema (place ++ [.key keyword]) = .error error →
        (Json.object entries).NamesFault place error := by
    intro keyword hkeyword inner htaken h
    obtain ⟨value, hvalue, hnull, hread⟩ := htaken.exists_of_some
    have hheld : (Json.object entries).get? keyword = some value := hvalue
    have hsmaller := Json.sizeOf_lt_of_get? hheld
    have hnode := Json.HasNode.part keyword hkeyword hheld hnull (.root value)
    exact .under hnode (namesFault_of_toSchema value (hformed.of_get? hheld)
      (hnodes.of_hasNode hnode) hread h)
  have hchild : ∀ keyword ∈ ["properties", "optionalProperties", "mapping"],
      ∀ {children? : Option (List (String × Keywords))},
      Taken readMap (entries.lookup keyword) children? →
        toSection place keyword children? = .error error →
        (Json.object entries).NamesFault place error := by
    intro keyword hkeyword children? htaken h
    obtain ⟨children, rfl, child, hchild, h⟩ := exists_of_toSection_eq_error h
    obtain ⟨held, value, hheld, hvalue, hread⟩ := exists_child_of_taken hformed htaken hchild
    have hsmaller := (Json.sizeOf_lt_of_get? hvalue).trans (Json.sizeOf_lt_of_get? hheld)
    have hnode := Json.HasNode.child keyword child.1 hkeyword hheld hvalue (.root value)
    exact .under hnode (namesFault_of_toSchema value ((hformed.of_get? hheld).of_get? hvalue)
      (hnodes.of_hasNode hnode) hread h)
  cases fails_of_toSchema h with
  | forms h =>
    rw [htaken.forms_eq_spelledForms] at h
    rcases checkForms_eq_error h with ⟨rfl, hforms⟩ | ⟨rfl, hlength⟩
    · exact Json.namesFault_here hforms
    · exact Json.namesFault_here ⟨rfl, hlength⟩
  | scalar name htype hname herror =>
    subst herror
    obtain ⟨value, hvalue, -, hread⟩ := (htype ▸ htaken.type).exists_of_some
    obtain rfl := Read.eq_string_of_text hread
    refine Json.namesFault_here ⟨hvalue, fun kind hkind => ?_⟩
    rw [← hkind, ScalarKind.ofName?_name] at hname
    cases hname
  | enumeration values hvalues h =>
    obtain ⟨value, hvalue, -, hread⟩ := (hvalues ▸ htaken.values).exists_of_some
    obtain rfl := Read.eq_array_of_list_text hread
    rcases checkValues_eq_error h with ⟨rfl, rfl⟩ | ⟨twice, rfl, htwice⟩
    · exact Json.namesFault_here hvalue
    · exact Json.namesFault_here ⟨values, hvalue, htwice⟩
  | required h => exact hchild _ (by simp) htaken.properties h
  | optional h => exact hchild _ (by simp) htaken.optionalProperties h
  | element inner helements h => exact hpart _ (by simp) (helements ▸ htaken.elements) h
  | value inner hrecord h => exact hpart _ (by simp) (hrecord ▸ htaken.record) h
  | incomplete hhalf herror =>
    subst herror
    rw [htaken.discriminator.isSome_eq, htaken.mapping.isSome_eq] at hhalf
    exact Json.namesFault_here hhalf
  | variants h => exact hchild _ (by simp) htaken.mapping h
  | union tag variants htag hvariants h =>
    exact namesFault_of_checkVariants hformed hnodes htaken htag hvariants h
termination_by sizeOf document

end Keywords

/-! ## Texts of paths -/

/-- An error says which rule of the forms is broken. -/
def SchemaFault.IsStructural : SchemaFault → Prop
  | .unresolvedReference _ | .document _ => False
  | _ => True

/-- **The path of an error leads to what breaks the rule** it names: its text, cut at its points. -/
def Json.LeadsToFault (document : Json) (error : SchemaError) : Prop :=
  ∃ part, document.resolve? (Path.keysOf error.path.text) = some part ∧
    document.BreaksAt (Path.keysOf error.path.text) part error.fault

/-- **An error that leads to a node** does so by its text, if no key has a point in it. -/
theorem Json.NamesFault.leadsToFault {outer : Pointer} (hkeys : document.KeysWithout '.')
    (houter : document.resolve? outer = some part) (hpoints : ∀ key ∈ outer, '.' ∉ key.toList)
    (hfirst : outer.head? ≠ some "") (h : part.NamesFault (Path.ofKeys outer) error) :
    document.LeadsToFault error ∧ outer <+: Path.keysOf error.path.text := by
  obtain ⟨inside, node, hpath, hnode, hbreaks⟩ := h
  have hinside : ∀ key ∈ inside, '.' ∉ key.toList := by
    intro key hkey
    obtain ⟨further, entries, hfound, hmem⟩ := hnode.mem_keys hkey
    exact hkeys (outer ++ further) entries (by rw [resolve?_append_of_eq houter, hfound]) key hmem
  have hhead : (outer ++ inside).head? ≠ some "" := by
    cases outer with
    | nil => exact hnode.head?_ne_empty
    | cons _ _ => exact hfirst
  have htext : Path.keysOf error.path.text = outer ++ inside := by
    rw [hpath, ← List.map_append]
    refine Path.keysOf_text hhead fun key hkey => ?_
    exact (List.mem_append.mp hkey).elim (hpoints key) (hinside key)
  refine ⟨⟨node, ?_, ?_⟩, ?_⟩
  · rw [htext, resolve?_append_of_eq houter, hnode.resolve?_eq]
  · rw [htext]
    exact hbreaks.under houter
  · rw [htext]
    exact List.prefix_append _ _

/-- **The error of a schema that is refused** leads to what breaks the rule it names. -/
theorem Schema.leadsToFault_of_eq_error (hformed : document.WellFormed)
    (hkeys : document.KeysWithout '.') (hnodes : document.NodesAreObjects)
    (hstructural : error.fault.IsStructural) (h : ofJson document = .error error) :
    document.LeadsToFault error := by
  unfold ofJson at h
  split at h
  · cases h
    exact hstructural.elim
  · rename_i keywords hread
    have hnames := Keywords.namesFault_of_toSchema document hformed hnodes hread h
    exact (hnames.leadsToFault hkeys (Json.resolve?_nil document) nofun nofun).1

end RpcSchema
