import Mathlib.Data.List.Duplicate
import RpcSchema.Proofs.Entries
import RpcSchema.Proofs.Json.Pointer
import RpcSchema.Schema.Error
import RpcSchema.Schema.ScalarKind

set_option autoImplicit false

/-!
# The nodes of a schema document

A schema document has nodes: itself, what its nodes hold under the keywords of lists and maps, and
what they hold by name under the keywords of properties and variants. Which rule of the forms a node
breaks is said of the document alone.

## Main definitions

* `RpcSchema.Json.spelledForms` — the forms whose keywords a document spells.
* `RpcSchema.Json.HasNode` — a document has a node at a place.
* `RpcSchema.Json.NodesAreObjects` — every node is written as an object.
* `RpcSchema.Json.KeysWithout` — no key of an object has a character in it.
* `RpcSchema.Json.BreaksAt` — what stands at a place of a document breaks a rule.

## Main results

* `RpcSchema.Json.HasNode.resolve?_eq` — the place of a node leads to it.
* `RpcSchema.Json.HasNode.mem_keys` — a place is made of keys of the document.
* `RpcSchema.Json.BreaksAt.under` — a rule that is broken inside is broken seen from outside.
-/

namespace RpcSchema.Json

variable {document node part : Json} {place outer inside : Pointer} {fault : SchemaFault}

/-! ## Keywords -/

/-- Whether a document says something under a keyword. `null` says nothing. -/
def spells (document : Json) (keyword : String) : Bool := (document.get? keyword).any (!·.isNull)

/-- The forms and the keywords of each, in the order in which forms are named. -/
def formKeywords : List (String × List String) :=
  [("type", ["type"]), ("enum", ["enum"]), ("properties", ["properties", "optionalProperties"]),
    ("elements", ["elements"]), ("values", ["values"]),
    ("discriminator", ["discriminator", "mapping"]), ("ref", ["ref"])]

/-- **The forms whose keywords a document spells.** -/
def spelledForms (document : Json) : List String :=
  formKeywords.flatMap fun form => if form.2.any document.spells then [form.1] else []

/-! ## Nodes -/

/-- **A document has a node at a place**: itself, a node of what it holds under a keyword of a
schema, or a node of what it holds by name under a keyword of a map of schemas. -/
inductive HasNode : Json → Pointer → Json → Prop
  | root (document : Json) : HasNode document [] document
  | part {document held node : Json} {inside : Pointer} (keyword : String) :
    keyword ∈ ["elements", "values"] → document.get? keyword = some held → held.isNull = false →
    HasNode held inside node → HasNode document (keyword :: inside) node
  | child {document held value node : Json} {inside : Pointer} (keyword key : String) :
    keyword ∈ ["properties", "optionalProperties", "mapping"] →
    document.get? keyword = some held → held.get? key = some value →
    HasNode value inside node → HasNode document (keyword :: key :: inside) node

/-- **Every node is written as an object.** -/
def NodesAreObjects (document : Json) : Prop :=
  ∀ place node, document.HasNode place node → ∃ entries, node = .object entries

/-- **No key of an object has a character in it**, at any depth. -/
def KeysWithout (c : Char) (document : Json) : Prop :=
  ∀ place entries, document.resolve? place = some (.object entries) →
    ∀ key ∈ Entries.keys entries, c ∉ key.toList

theorem exists_mem_keys_of_get? {key : String} (h : document.get? key = some part) :
    ∃ entries, document = .object entries ∧ key ∈ Entries.keys entries := by
  cases document with
  | object entries => exact ⟨entries, rfl, Entries.exists_lookup_iff.mp ⟨part, h⟩⟩
  | _ => cases h

namespace HasNode

/-- **The place of a node leads to it.** -/
theorem resolve?_eq (h : document.HasNode place node) : document.resolve? place = some node := by
  induction h with
  | root document => exact resolve?_nil document
  | part keyword _ hheld _ _ ih => rw [resolve?_cons_of_get? hheld, ih]
  | child keyword key _ hheld hvalue _ ih =>
    rw [resolve?_cons_of_get? hheld, resolve?_cons_of_get? hvalue, ih]

/-- The nodes of a node are nodes of the document. -/
theorem trans (houter : document.HasNode outer part) (h : part.HasNode inside node) :
    document.HasNode (outer ++ inside) node := by
  induction houter with
  | root => exact h
  | part keyword hkeyword hheld hnull _ ih => exact .part keyword hkeyword hheld hnull (ih h)
  | child keyword key hkeyword hheld hvalue _ ih =>
    exact .child keyword key hkeyword hheld hvalue (ih h)

/-- **The place of a node is made of keys** of objects in the document. -/
theorem mem_keys (h : document.HasNode place node) {key : String} (hkey : key ∈ place) :
    ∃ outer entries, document.resolve? outer = some (.object entries) ∧
      key ∈ Entries.keys entries := by
  induction h with
  | root => cases hkey
  | part keyword _ hheld _ _ ih =>
    rcases List.mem_cons.mp hkey with rfl | hkey
    · obtain ⟨entries, rfl, hmem⟩ := exists_mem_keys_of_get? hheld
      exact ⟨[], entries, rfl, hmem⟩
    · obtain ⟨outer, entries, hfound, hmem⟩ := ih hkey
      exact ⟨keyword :: outer, entries, by rw [resolve?_cons_of_get? hheld, hfound], hmem⟩
  | child keyword name _ hheld hvalue _ ih =>
    rcases List.mem_cons.mp hkey with rfl | hkey
    · obtain ⟨entries, rfl, hmem⟩ := exists_mem_keys_of_get? hheld
      exact ⟨[], entries, rfl, hmem⟩
    rcases List.mem_cons.mp hkey with rfl | hkey
    · obtain ⟨entries, rfl, hmem⟩ := exists_mem_keys_of_get? hvalue
      exact ⟨[keyword], entries, resolve?_of_get? hheld, hmem⟩
    · obtain ⟨outer, entries, hfound, hmem⟩ := ih hkey
      refine ⟨keyword :: name :: outer, entries, ?_, hmem⟩
      rw [resolve?_cons_of_get? hheld, resolve?_cons_of_get? hvalue, hfound]

/-- A place begins with a keyword. -/
theorem head?_ne_empty (h : document.HasNode place node) : place.head? ≠ some "" := by
  cases h with
  | root => exact nofun
  | part keyword hkeyword => rintro ⟨⟩; simp at hkeyword
  | child keyword _ hkeyword => rintro ⟨⟩; simp at hkeyword

end HasNode

/-- The nodes of a node of a document are objects when all nodes of the document are. -/
theorem NodesAreObjects.of_hasNode (h : document.NodesAreObjects)
    (hpart : document.HasNode place part) : part.NodesAreObjects :=
  fun _ _ hnode => h _ _ (hpart.trans hnode)

/-- The nodes of an object are objects when those of its entries are. -/
theorem nodesAreObjects_object {entries : List (String × Json)}
    (hpart : ∀ entry ∈ entries, entry.1 ∈ ["elements", "values"] → entry.2.NodesAreObjects)
    (hchild : ∀ entry ∈ entries, entry.1 ∈ ["properties", "optionalProperties", "mapping"] →
      ∀ children, entry.2 = .object children → ∀ child ∈ children, child.2.NodesAreObjects) :
    (object entries).NodesAreObjects := by
  intro place node h
  cases h with
  | root => exact ⟨entries, rfl⟩
  | part keyword hkeyword hheld _ hnode =>
    exact hpart _ (Entries.mem_of_lookup hheld) hkeyword _ _ hnode
  | child keyword key hkeyword hheld hvalue hnode =>
    obtain ⟨children, rfl, -⟩ := exists_mem_keys_of_get? hvalue
    exact hchild _ (Entries.mem_of_lookup hheld) hkeyword children rfl _
      (Entries.mem_of_lookup hvalue) _ _ hnode

/-- The keys of an object and of what it holds are those that are found in it. -/
theorem keysWithout_object {c : Char} {entries : List (String × Json)}
    (h : ∀ entry ∈ entries, c ∉ entry.1.toList ∧ entry.2.KeysWithout c) :
    (object entries).KeysWithout c := by
  intro place fields hfound key hkey
  cases place with
  | nil =>
    cases hfound
    obtain ⟨value, hvalue⟩ := Entries.exists_lookup_iff.mpr hkey
    exact (h _ (Entries.mem_of_lookup hvalue)).1
  | cons token rest =>
    obtain ⟨value, hvalue, hfound⟩ := Option.bind_eq_some_iff.mp hfound
    exact (h _ (Entries.mem_of_lookup hvalue)).2 rest fields hfound key hkey

theorem keysWithout_string (c : Char) (text : String) : (string text).KeysWithout c := by
  intro place fields hfound
  cases place <;> cases hfound

/-! ## Rules -/

/-- A place is that of a variant of a union with a tag. -/
def IsVariantAt (document : Json) (place : Pointer) (variant tag : String) : Prop :=
  ∃ outer, place = outer ++ ["mapping", variant] ∧
    document.resolve? (outer ++ ["discriminator"]) = some (.string tag)

/-- **What stands at a place of a document breaks a rule.** -/
def BreaksAt (document : Json) (place : Pointer) (part : Json) : SchemaFault → Prop
  | .noForm => part.spelledForms = []
  | .ambiguousForm forms => part.spelledForms = forms ∧ 2 ≤ forms.length
  | .unknownScalar name =>
    part.get? "type" = some (.string name) ∧ ∀ kind : ScalarKind, kind.name ≠ name
  | .emptyEnumeration => part.get? "enum" = some (.array [])
  | .repeatedValue value =>
    ∃ values, part.get? "enum" = some (.array (values.map .string)) ∧ List.Duplicate value values
  | .incompleteUnion => part.spells "discriminator" = !part.spells "mapping"
  | .variantNotObject variant =>
    (∃ tag, document.IsVariantAt place variant tag) ∧ "properties" ∉ part.spelledForms
  | .tagRedeclared variant tag => document.IsVariantAt place variant tag ∧
    ∃ keyword ∈ ["properties", "optionalProperties"], ∃ children property,
      part.get? keyword = some children ∧ children.get? tag = some property
  | .unresolvedReference _ | .document _ => False

theorem IsVariantAt.under {variant tag : String} (houter : document.resolve? outer = some part)
    (h : part.IsVariantAt inside variant tag) :
    document.IsVariantAt (outer ++ inside) variant tag := by
  obtain ⟨union, rfl, htag⟩ := h
  refine ⟨outer ++ union, by rw [List.append_assoc], ?_⟩
  rw [List.append_assoc, resolve?_append_of_eq houter, htag]

/-- **A rule that is broken inside** a part of a document is broken seen from the document. -/
theorem BreaksAt.under (houter : document.resolve? outer = some part)
    (h : part.BreaksAt inside node fault) : document.BreaksAt (outer ++ inside) node fault := by
  cases fault with
  | variantNotObject variant =>
    obtain ⟨⟨tag, hvariant⟩, hforms⟩ := h
    exact ⟨⟨tag, hvariant.under houter⟩, hforms⟩
  | tagRedeclared variant tag => exact ⟨h.1.under houter, h.2⟩
  | _ => exact h

end RpcSchema.Json
