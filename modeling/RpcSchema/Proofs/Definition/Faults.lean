import RpcSchema.Definition.Basic
import RpcSchema.Proofs.Schema.Faults

set_option autoImplicit false

/-!
# Where the faults of definitions are

A definition that is refused for one of its schemas is refused with the path to it: under the name
of the model or under the errors, and on to the node that breaks a rule.

## Main definitions

* `RpcSchema.Definition.NodesAreObjects` — a document and the schemas in it are written as objects.
* `RpcSchema.Definition.Draft.ReadFrom` — the schemas of a draft are those of a document.

## Main results

* `RpcSchema.Definition.Draft.readFrom_of_read` — what the schemas of a draft are read from.
* `RpcSchema.SchemaError.leadsToFault_of_ofJson` — the errors of schemas and definitions lead to what
  breaks the rule they name.
-/

namespace RpcSchema

open Outcome (bind_eq_ok_iff bind_eq_error_iff map_eq_ok_iff mapError_eq_error_iff)

namespace Definition

variable {document : Json} {error : SchemaError}

/-- **A document and the schemas in it are written as objects**, and so are the nodes of these. -/
structure NodesAreObjects (document : Json) : Prop where
  root : ∃ entries, document = .object entries
  models : ∀ models name node, document.get? "models" = some models →
    models.get? name = some node → node.NodesAreObjects
  errors : ∀ node, document.get? "errors" = some node → node.NodesAreObjects

/-! ## Drafts -/

/-- The fields of a definition have one name each. -/
theorem name_of_field? {key : String} {field : Field}
    (h : Record.definition.field? key = some field) : field.name = key := by
  have hnames : ∀ field ∈ Record.definition.fields, field.alternative = none := by decide
  have hkey := List.find?_some h
  rw [hnames field (List.mem_of_find?_eq_some h)] at hkey
  simpa using hkey

/-- **A field of a document** gives the models, or the errors, or leaves both as they are. -/
theorem Draft.readField_cases {draft draft' : Draft} {name : String} {value : Json}
    (h : draft.readField name value = .ok draft') :
    (∃ entries, name = "models" ∧ value = .object entries ∧ draft'.errors = draft.errors ∧
        Entries.keys draft'.models = Entries.keys entries ∧
        ∀ model ∈ draft'.models, ∃ node, (model.1, node) ∈ entries ∧
          Keywords.read node = .ok model.2) ∨
      (∃ keywords, name = "errors" ∧ draft'.models = draft.models ∧
        draft'.errors = some keywords ∧ Keywords.read value = .ok keywords) ∨
      draft'.models = draft.models ∧ draft'.errors = draft.errors := by
  unfold Draft.readField at h
  split at h
  case h_4 =>
    obtain ⟨models, hmodels, rfl⟩ := map_eq_ok_iff.mp h
    obtain ⟨entries, rfl, hkeys, hinside⟩ := Read.exists_of_map_eq_ok hmodels
    exact .inl ⟨entries, rfl, rfl, rfl, hkeys, hinside⟩
  case h_5 =>
    obtain ⟨keywords, hkeywords, rfl⟩ := map_eq_ok_iff.mp h
    exact .inr (.inl ⟨keywords, rfl, rfl, rfl, hkeywords⟩)
  case h_6 =>
    cases h
    exact .inr (.inr ⟨rfl, rfl⟩)
  -- The other fields are no schemas.
  all_goals
    obtain ⟨_, -, rfl⟩ := map_eq_ok_iff.mp h
    exact .inr (.inr ⟨rfl, rfl⟩)

/-- **The schemas of a draft are those of a document.** -/
structure Draft.ReadFrom (document : Json) (draft : Draft) : Prop where
  models : ∀ model ∈ draft.models, ∃ models node, document.get? "models" = some models ∧
    models.get? model.1 = some node ∧ Keywords.read node = .ok model.2
  errors : ∀ keywords, draft.errors = some keywords →
    ∃ node, document.get? "errors" = some node ∧ Keywords.read node = .ok keywords

/-- A field of the document keeps what is said about the fields before. -/
theorem Draft.ReadFrom.readField {draft draft' : Draft} {name : String} {value : Json}
    (h : draft.ReadFrom document) (hformed : value.WellFormed)
    (hvalue : document.get? name = some value) (hread : draft.readField name value = .ok draft') :
    draft'.ReadFrom document := by
  rcases readField_cases hread with ⟨entries, rfl, rfl, herrors, -, hinside⟩ |
    ⟨keywords, rfl, hmodels, herrors, hkeywords⟩ | ⟨hmodels, herrors⟩
  · refine ⟨fun model hmodel => ?_, herrors ▸ h.errors⟩
    obtain ⟨node, hnode, hkeywords⟩ := hinside model hmodel
    exact ⟨.object entries, node, hvalue, Entries.lookup_of_mem hformed.1 hnode, hkeywords⟩
  · refine ⟨hmodels ▸ h.models, ?_⟩
    rw [herrors]
    rintro _ ⟨⟩
    exact ⟨value, hvalue, hkeywords⟩
  · exact ⟨hmodels ▸ h.models, herrors ▸ h.errors⟩

/-- **What the schemas of a draft are read from.** -/
theorem Draft.readFrom_of_read {entries : List (String × Json)} {draft : Draft}
    (hformed : (Json.object entries).WellFormed)
    (h : Record.definition.read Draft.readField {} (.object entries) = .ok draft) :
    draft.ReadFrom (.object entries) := by
  refine Record.keeps_of_read (p := Draft.ReadFrom (.object entries)) rfl
    ⟨fun _ hmodel => absurd hmodel List.not_mem_nil, fun _ herrors => by cases herrors⟩ ?_ h
  intro member hmember draft draft' hdraft hstep
  obtain ⟨key, field, hentry, hfield, hname⟩ := Record.exists_entry_of_mem_layoutFields hmember
  rw [hname, name_of_field? hfield] at hstep
  have hvalue : (Json.object entries).get? key = some member.value :=
    Entries.lookup_of_mem hformed.1 hentry
  exact hdraft.readField (hformed.of_get? hvalue) hvalue hstep

/-! ## Errors -/

/-- **Models are refused** for the keywords of one of them. -/
theorem exists_of_readModels_eq_error {models : Entries Keywords}
    (h : readModels models = .error error) :
    ∃ model ∈ models, ∃ inner, model.2.toSchema [] = .error inner ∧
      inner.within [.key "models", .key model.1] = error := by
  induction models with
  | nil => cases h
  | cons model rest ih =>
    rcases bind_eq_error_iff.mp h with h | ⟨_, -, h⟩
    · obtain ⟨inner, hinner, herror⟩ := mapError_eq_error_iff.mp h
      exact ⟨model, List.mem_cons_self, inner, hinner, herror⟩
    rcases bind_eq_error_iff.mp h with h | ⟨_, -, h⟩
    · obtain ⟨model, hmodel, hinner⟩ := ih h
      exact ⟨model, List.mem_cons_of_mem _ hmodel, hinner⟩
    · cases h

/-- **A draft is refused** for a model, for the errors, or for a field that is missing. -/
theorem Draft.finish_eq_error {draft : Draft} (h : draft.finish = .error error) :
    (∃ model ∈ draft.models, ∃ inner, model.2.toSchema [] = .error inner ∧
        inner.within [.key "models", .key model.1] = error) ∨
      (∃ keywords inner, draft.errors = some keywords ∧ keywords.toSchema [] = .error inner ∧
        inner.within [.key "errors"] = error) ∨
      ∃ message, error.fault = .document message := by
  unfold Draft.finish at h
  split at h
  · rename_i errors _ herrors
    rcases bind_eq_error_iff.mp h with h | ⟨_, -, h⟩
    · exact .inl (exists_of_readModels_eq_error h)
    rcases bind_eq_error_iff.mp h with h | ⟨_, -, h⟩
    · obtain ⟨inner, hinner, herror⟩ := mapError_eq_error_iff.mp h
      exact .inr (.inl ⟨errors, inner, herrors, hinner, herror⟩)
    · cases h
  · cases h
    exact .inr (.inr ⟨_, rfl⟩)
  · cases h
    exact .inr (.inr ⟨_, rfl⟩)

/-- **The error of a definition that is refused** leads under a model or under the errors, to what
breaks the rule it names. -/
theorem leadsToFault_of_eq_error (hformed : document.WellFormed)
    (hkeys : document.KeysWithout '.') (hnodes : NodesAreObjects document)
    (hstructural : error.fault.IsStructural) (h : ofJson document = .error error) :
    document.LeadsToFault error ∧
      ((∃ name, ["models", name] <+: Path.keysOf error.path.text) ∨
        ["errors"] <+: Path.keysOf error.path.text) := by
  obtain ⟨entries, rfl⟩ := hnodes.root
  unfold ofJson at h
  split at h
  · cases h
    exact hstructural.elim
  rename_i draft hdraft
  have hfrom := Draft.readFrom_of_read hformed hdraft
  rcases Draft.finish_eq_error h with ⟨model, hmodel, inner, hinner, rfl⟩ |
    ⟨keywords, inner, herrors, hinner, rfl⟩ | ⟨message, hmessage⟩
  · obtain ⟨models, node, hmodels, hnode, hread⟩ := hfrom.models model hmodel
    have hnames := Keywords.namesFault_of_toSchema node ((hformed.of_get? hmodels).of_get? hnode)
      (hnodes.models _ _ _ hmodels hnode) hread hinner
    have hplace : (Json.object entries).resolve? ["models", model.1] = some node := by
      rw [Json.resolve?_cons_of_get? hmodels, Json.resolve?_of_get? hnode]
    have hpoints : ∀ key ∈ ["models", model.1], '.' ∉ key.toList := by
      obtain ⟨named, rfl, hname⟩ := Json.exists_mem_keys_of_get? hnode
      have hpoint := hkeys ["models"] named (Json.resolve?_of_get? hmodels) model.1 hname
      exact List.forall_mem_cons.mpr ⟨by decide, List.forall_mem_singleton.mpr hpoint⟩
    obtain ⟨hleads, hprefix⟩ := (hnames.within _).leadsToFault hkeys hplace hpoints (by simp)
    exact ⟨hleads, .inl ⟨model.1, hprefix⟩⟩
  · obtain ⟨node, hnode, hread⟩ := hfrom.errors keywords herrors
    have hnames := Keywords.namesFault_of_toSchema node (hformed.of_get? hnode)
      (hnodes.errors _ hnode) hread hinner
    obtain ⟨hleads, hprefix⟩ := (hnames.within (Path.ofKeys ["errors"])).leadsToFault hkeys
      (Json.resolve?_of_get? hnode) (by decide) (by simp)
    exact ⟨hleads, .inr hprefix⟩
  · rw [hmessage] at hstructural
    exact hstructural.elim

end Definition

/-- **The errors of schemas and of definitions name the offending place.** The text of the path, cut
at its points, leads from the root of the document to what breaks the rule that the error names. In a
definition it goes under the name of a model or under the errors. -/
theorem SchemaError.leadsToFault_of_ofJson {document : Json} {error : SchemaError}
    (hformed : document.WellFormed) (hkeys : document.KeysWithout '.')
    (hstructural : error.fault.IsStructural) :
    (document.NodesAreObjects → Schema.ofJson document = .error error →
        document.LeadsToFault error) ∧
      (Definition.NodesAreObjects document → Definition.ofJson document = .error error →
        document.LeadsToFault error ∧
          ((∃ name, ["models", name] <+: Path.keysOf error.path.text) ∨
            ["errors"] <+: Path.keysOf error.path.text)) :=
  ⟨fun hnodes => Schema.leadsToFault_of_eq_error hformed hkeys hnodes hstructural,
    fun hnodes => Definition.leadsToFault_of_eq_error hformed hkeys hnodes hstructural⟩

/-- The case of a variant with a property under the tag of its union, inside a list: in a schema, and
in a model of a definition. -/
theorem SchemaError.leadsToFault_of_ofJson_tag_in_list :
    let text := Json.object [("type", .string "string")]
    let variant := Json.object [("properties", .object [("kind", text)])]
    let union := Json.object
      [("discriminator", .string "kind"), ("mapping", .object [("a", variant)])]
    let list := Json.object [("elements", union)]
    let document := Json.object [("arriSchemaVersion", .string "0.0.4"),
      ("models", .object [("post", list)]), ("errors", text)]
    let fault := SchemaFault.tagRedeclared "a" "kind"
    let inside := Path.ofKeys ["elements", "mapping", "a"]
    let outside := Path.ofKeys ["models", "post", "elements", "mapping", "a"]
    (list.WellFormed ∧ list.KeysWithout '.' ∧ list.NodesAreObjects ∧
      Schema.ofJson list = .error ⟨inside, fault⟩ ∧ list.LeadsToFault ⟨inside, fault⟩) ∧
    (document.WellFormed ∧ document.KeysWithout '.' ∧ Definition.NodesAreObjects document ∧
      Definition.ofJson document = .error ⟨outside, fault⟩ ∧
      document.LeadsToFault ⟨outside, fault⟩) := by
  intro text variant union list document fault inside outside
  have hformedList : list.WellFormed := by
    simp [list, union, variant, text, Json.WellFormed, Json.WellFormedEntries, Entries.Distinct,
      Entries.keys]
  have hformed : document.WellFormed := by
    simp [document, hformedList, text, Json.WellFormed, Json.WellFormedEntries, Entries.Distinct,
      Entries.keys]
  have htext : text.KeysWithout '.' ∧ text.NodesAreObjects :=
    ⟨Json.keysWithout_object (by simp [Json.keysWithout_string]),
      Json.nodesAreObjects_object (by simp) (by simp)⟩
  have hvariant : variant.KeysWithout '.' ∧ variant.NodesAreObjects :=
    ⟨Json.keysWithout_object (by simp [Json.keysWithout_object, htext]),
      Json.nodesAreObjects_object (by simp) (by simp [htext])⟩
  have hunion : union.KeysWithout '.' ∧ union.NodesAreObjects :=
    ⟨Json.keysWithout_object (by
        simp [Json.keysWithout_object, Json.keysWithout_string, hvariant]),
      Json.nodesAreObjects_object (by simp) (by simp [hvariant])⟩
  have hlist : list.KeysWithout '.' ∧ list.NodesAreObjects :=
    ⟨Json.keysWithout_object (by simp [hunion]),
      Json.nodesAreObjects_object (by simp [hunion]) (by simp)⟩
  have hdocument : document.KeysWithout '.' ∧ Definition.NodesAreObjects document := by
    refine ⟨Json.keysWithout_object (by
      simp [Json.keysWithout_object, Json.keysWithout_string, hlist, htext]), ⟨_, rfl⟩, ?_, ?_⟩
    · rintro models name node ⟨⟩ hnode
      obtain ⟨-, rfl⟩ : name = "post" ∧ list = node := by
        simpa [Json.get?, Entries.lookup_cons_ite] using hnode
      exact hlist.2
    · rintro node ⟨⟩
      exact htext.2
  have hreadList : Schema.ofJson list = .error ⟨inside, fault⟩ := rfl
  have hreadDocument : Definition.ofJson document = .error ⟨outside, fault⟩ := rfl
  have hstructural : fault.IsStructural := trivial
  exact ⟨⟨hformedList, hlist.1, hlist.2, hreadList,
      (SchemaError.leadsToFault_of_ofJson hformedList hlist.1 hstructural).1 hlist.2 hreadList⟩,
    hformed, hdocument.1, hdocument.2, hreadDocument,
    ((SchemaError.leadsToFault_of_ofJson hformed hdocument.1 hstructural).2 hdocument.2
      hreadDocument).1⟩

end RpcSchema
