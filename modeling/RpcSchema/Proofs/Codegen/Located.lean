import RpcSchema.Codegen.Outline
import RpcSchema.Proofs.Definition.ListsOnce
import RpcSchema.Proofs.Schema.Induction

set_option autoImplicit false

/-!
# Schemas at their places

Every schema inside a model has a pointer that leads to its document, from the document of the whole
definition, and a path of names. The pointers of two schemas differ, because no map lists a key twice
and the keywords of the sections differ.

## Main definitions

* `RpcSchema.LocatedSchema` — a schema with the pointer to it and the path of names.
* `RpcSchema.Schema.located`, `RpcSchema.Models.located` — all schemas inside a schema or in models.

## Main results

* `RpcSchema.Schema.resolve?_of_mem_located` — pointers lead to the documents of their schemas.
* `RpcSchema.Schema.apart_located` — no pointer is that of two schemas.
* `RpcSchema.Models.resolve?_of_mem_located` — the same in the document of a definition.
-/

namespace RpcSchema

/-- **A schema at its place**: the pointer to it, and the path that suggests its name. -/
structure LocatedSchema where
  pointer : Pointer
  path : String
  schema : Schema

namespace Schema

mutual

/-- **A schema and all the schemas inside it**, each behind those inside it. -/
def located (pointer : Pointer) (path : String) : Schema → List LocatedSchema
  | ⟨form, nullable, metadata⟩ =>
    formLocated pointer path form ++ [⟨pointer, path, ⟨form, nullable, metadata⟩⟩]

/-- The schemas inside a form. -/
def formLocated (pointer : Pointer) (path : String) : Form → List LocatedSchema
  | .object required optional _ =>
    childLocated (pointer ++ ["properties"]) path required ++
      childLocated (pointer ++ ["optionalProperties"]) path optional
  | .array element => element.located (pointer ++ ["elements"]) (joinNames path "Item")
  | .record value => value.located (pointer ++ ["values"]) (joinNames path "Value")
  | .union _ variants => childLocated (pointer ++ ["mapping"]) path variants
  | _ => []

/-- The schemas of a map and all those inside them. -/
def childLocated (pointer : Pointer) (path : String) : List (String × Schema) → List LocatedSchema
  | [] => []
  | (key, schema) :: rest =>
    schema.located (pointer ++ [key]) (joinNames path key) ++ childLocated pointer path rest

end

variable {pointer : Pointer} {path : String} {document : Json} {node : LocatedSchema}
  {children : List (String × Schema)} {schema : Schema}

theorem mem_childLocated_iff : node ∈ childLocated pointer path children ↔
    ∃ child ∈ children, node ∈ child.2.located (pointer ++ [child.1]) (joinNames path child.1) := by
  induction children with
  | nil => simp [childLocated]
  | cons child rest ih =>
    rw [childLocated, List.mem_append, ih]
    simp

/-- A schema is the last of those inside it. -/
theorem located_eq (schema : Schema) (pointer : Pointer) (path : String) :
    schema.located pointer path =
      formLocated pointer path schema.form ++ [⟨pointer, path, schema⟩] := by
  cases schema
  rw [located]

theorem mem_located_self : ⟨pointer, path, schema⟩ ∈ schema.located pointer path := by
  rw [located_eq]
  exact List.mem_append_right _ (List.mem_singleton_self _)

/-- What holds of the schemas inside the form and of the schema itself holds of all. -/
theorem forall_mem_located {p : LocatedSchema → Prop}
    (hinside : ∀ node ∈ formLocated pointer path schema.form, p node)
    (hself : p ⟨pointer, path, schema⟩) : ∀ node ∈ schema.located pointer path, p node := by
  rw [located_eq]
  exact List.forall_mem_append.mpr ⟨hinside, List.forall_mem_singleton.mpr hself⟩

/-! ## Documents -/

/-- The document of a map holds the documents of its schemas under their keys. -/
theorem get?_childEntries (hdistinct : Entries.Distinct children) {child : String × Schema}
    (hchild : child ∈ children) :
    (Json.object (childEntries children)).get? child.1 = some child.2.toJson := by
  rw [childEntries_eq_mapValues]
  have hkeys : Entries.Distinct (Entries.mapValues toJson children) := by
    rwa [Entries.Distinct, Entries.keys, Entries.mapValues, List.map_map]
  exact Entries.lookup_of_mem hkeys (List.mem_map_of_mem hchild)

/-- Pointers lead to the schemas of a map when those of its schemas do. -/
theorem resolve?_of_mem_childLocated (hdistinct : Entries.Distinct children)
    (hmap : document.resolve? pointer = some (.object (childEntries children)))
    (hinside : ∀ child ∈ children, ∀ {pointer : Pointer} {path : String},
      document.resolve? pointer = some child.2.toJson →
        ∀ node ∈ child.2.located pointer path,
          document.resolve? node.pointer = some node.schema.toJson)
    (hnode : node ∈ childLocated pointer path children) :
    document.resolve? node.pointer = some node.schema.toJson := by
  obtain ⟨child, hchild, hnode⟩ := mem_childLocated_iff.mp hnode
  refine hinside child hchild ?_ node hnode
  rw [Json.resolve?_append_of_eq hmap, Json.resolve?_of_get? (get?_childEntries hdistinct hchild)]

/-- **Pointers lead to the documents** of the schemas inside a schema. -/
theorem resolve?_of_mem_located (schema : Schema) : schema.ListsOnce →
    ∀ {pointer : Pointer} {path : String}, document.resolve? pointer = some schema.toJson →
      ∀ node ∈ schema.located pointer path,
        document.resolve? node.pointer = some node.schema.toJson := by
  -- What is under a keyword is found on from the schema.
  have hkeyword : ∀ {schema : Schema} {pointer : Pointer} {keyword : String} {held : Json},
      document.resolve? pointer = some schema.toJson → schema.toJson.get? keyword = some held →
        document.resolve? (pointer ++ [keyword]) = some held := by
    intro schema pointer keyword held hschema hheld
    rw [Json.resolve?_append_of_eq hschema, Json.resolve?_of_get? hheld]
  induction schema using Schema.induct with
  | scalar | enumeration | ref =>
    exact fun _ _ _ hschema => forall_mem_located (by simp [formLocated]) hschema
  | object required optional strict nullable metadata ihRequired ihOptional =>
    rintro ⟨⟨hrequired, hinRequired⟩, hoptional, hinOptional⟩ pointer path hschema
    rw [childrenListOnce_iff] at hinRequired hinOptional
    refine forall_mem_located
      (List.forall_mem_append.mpr ⟨fun node hnode => ?_, fun node hnode => ?_⟩) hschema
    · exact resolve?_of_mem_childLocated hrequired (hkeyword hschema rfl)
        (fun child hchild => ihRequired child hchild (hinRequired child hchild)) hnode
    · cases optional with
      | nil => cases hnode
      | cons child rest =>
        exact resolve?_of_mem_childLocated hoptional (hkeyword hschema rfl)
          (fun child hchild => ihOptional child hchild (hinOptional child hchild)) hnode
  | array element nullable metadata ih =>
    exact fun h pointer path hschema => forall_mem_located (ih h (hkeyword hschema rfl)) hschema
  | record value nullable metadata ih =>
    exact fun h pointer path hschema => forall_mem_located (ih h (hkeyword hschema rfl)) hschema
  | union tag variants nullable metadata ih =>
    rintro ⟨hvariants, hinside⟩ pointer path hschema
    rw [childrenListOnce_iff] at hinside
    refine forall_mem_located (fun node hnode => ?_) hschema
    exact resolve?_of_mem_childLocated hvariants (hkeyword hschema rfl)
      (fun child hchild => ih child hchild (hinside child hchild)) hnode

/-! ## Pointers -/

/-- What two tokens begin is told apart by them. -/
theorem token_eq_of_prefix {token token' : String} {pointer' : Pointer}
    (h : pointer ++ [token] <+: pointer') (h' : pointer ++ [token'] <+: pointer') :
    token = token' := by
  obtain ⟨rest, rfl⟩ := h
  obtain ⟨rest', heq⟩ := h'
  rw [List.append_assoc, List.append_assoc] at heq
  exact (List.cons.inj (List.append_cancel_left heq)).1.symm

/-- **Pointers go on** from a pointer with one of some tokens. -/
def GoOn (nodes : List LocatedSchema) (pointer : Pointer) (tokens : List String) : Prop :=
  ∀ node ∈ nodes, ∃ token ∈ tokens, pointer ++ [token] <+: node.pointer

theorem goOn_of_behind {nodes : List LocatedSchema} {token : String} {tokens : List String}
    (htoken : token ∈ tokens) (h : ∀ node ∈ nodes, pointer ++ [token] <+: node.pointer) :
    GoOn nodes pointer tokens :=
  fun node hnode => ⟨token, htoken, h node hnode⟩

theorem GoOn.behind {nodes : List LocatedSchema} {tokens : List String}
    (h : GoOn nodes pointer tokens) : ∀ node ∈ nodes, pointer <+: node.pointer := by
  intro node hnode
  obtain ⟨token, -, hprefix⟩ := h node hnode
  exact (List.prefix_append _ _).trans hprefix

/-- The pointers of the schemas of a map go on with their keys. -/
theorem goOn_childLocated (hinside : ∀ child ∈ children, ∀ {pointer : Pointer} {path : String},
    ∀ node ∈ child.2.located pointer path, pointer <+: node.pointer) :
    GoOn (childLocated pointer path children) pointer (Entries.keys children) := by
  intro node hnode
  obtain ⟨child, hchild, hnode⟩ := mem_childLocated_iff.mp hnode
  exact ⟨child.1, List.mem_map_of_mem hchild, hinside child hchild node hnode⟩

/-- **The pointers inside a schema go on** from the pointer to it. -/
theorem prefix_of_mem_located (schema : Schema) : ∀ {pointer : Pointer} {path : String},
    ∀ node ∈ schema.located pointer path, pointer <+: node.pointer := by
  have hself : ∀ {schema : Schema} {pointer : Pointer} {path : String},
      (∀ node ∈ formLocated pointer path schema.form, pointer <+: node.pointer) →
        ∀ node ∈ schema.located pointer path, pointer <+: node.pointer :=
    fun hinside => forall_mem_located hinside List.prefix_rfl
  have hbehind : ∀ {pointer pointer' : Pointer} {token : String},
      pointer ++ [token] <+: pointer' → pointer <+: pointer' :=
    fun h => (List.prefix_append _ _).trans h
  intro pointer path
  induction schema using Schema.induct generalizing pointer path with
  | scalar | enumeration | ref => exact hself (by simp [formLocated])
  | object required optional strict nullable metadata ihRequired ihOptional =>
    refine hself (List.forall_mem_append.mpr ⟨fun node hnode => ?_, fun node hnode => ?_⟩)
    · exact hbehind ((goOn_childLocated ihRequired).behind node hnode)
    · exact hbehind ((goOn_childLocated ihOptional).behind node hnode)
  | array element nullable metadata ih => exact hself fun node hnode => hbehind (ih node hnode)
  | record value nullable metadata ih => exact hself fun node hnode => hbehind (ih node hnode)
  | union tag variants nullable metadata ih =>
    exact hself fun node hnode => hbehind ((goOn_childLocated ih).behind node hnode)

/-- No pointer is that of two schemas among some. -/
abbrev Apart (nodes : List LocatedSchema) : Prop := (nodes.map LocatedSchema.pointer).Nodup

theorem apart_append {nodes nodes' : List LocatedSchema} (h : Apart nodes) (h' : Apart nodes')
    (hne : ∀ node ∈ nodes, ∀ node' ∈ nodes', node.pointer ≠ node'.pointer) :
    Apart (nodes ++ nodes') := by
  rw [Apart, List.map_append, List.nodup_append]
  refine ⟨h, h', fun pointer hpointer pointer' hpointer' => ?_⟩
  obtain ⟨node, hnode, rfl⟩ := List.mem_map.mp hpointer
  obtain ⟨node', hnode', rfl⟩ := List.mem_map.mp hpointer'
  exact hne node hnode node' hnode'

/-- Pointers that go on with different tokens differ. -/
theorem GoOn.ne {nodes nodes' : List LocatedSchema} {tokens tokens' : List String}
    (h : GoOn nodes pointer tokens) (h' : GoOn nodes' pointer tokens')
    (hdisjoint : ∀ token ∈ tokens, token ∉ tokens') :
    ∀ node ∈ nodes, ∀ node' ∈ nodes', node.pointer ≠ node'.pointer := by
  intro node hnode node' hnode' heq
  obtain ⟨token, htoken, hprefix⟩ := h node hnode
  obtain ⟨token', htoken', hprefix'⟩ := h' node' hnode'
  obtain rfl := token_eq_of_prefix hprefix (heq ▸ hprefix')
  exact hdisjoint token htoken htoken'

/-- No pointer is that of two schemas in a map. -/
theorem apart_childLocated (hdistinct : Entries.Distinct children)
    (hinside : ∀ child ∈ children, ∀ {pointer : Pointer} {path : String},
      Apart (child.2.located pointer path)) :
    Apart (childLocated pointer path children) := by
  induction children with
  | nil => exact List.nodup_nil
  | cons child rest ih =>
    obtain ⟨key, schema⟩ := child
    obtain ⟨hkey, hdistinct⟩ := List.nodup_cons.mp hdistinct
    obtain ⟨hfirst, hrest⟩ := List.forall_mem_cons.mp hinside
    rw [childLocated]
    refine apart_append hfirst (ih hdistinct hrest) ?_
    refine (goOn_of_behind (List.mem_singleton_self key) (prefix_of_mem_located schema)).ne
      (goOn_childLocated fun child _ => prefix_of_mem_located child.2) ?_
    rintro token htoken
    rwa [List.mem_singleton.mp htoken]

/-- **No pointer is that of two schemas** inside a schema. -/
theorem apart_located (schema : Schema) : schema.ListsOnce →
    ∀ {pointer : Pointer} {path : String}, Apart (schema.located pointer path) := by
  -- The pointers inside are longer than the one to the schema.
  have hself : ∀ {schema : Schema} {pointer : Pointer} {path : String} {tokens : List String},
      GoOn (formLocated pointer path schema.form) pointer tokens →
        Apart (formLocated pointer path schema.form) → Apart (schema.located pointer path) := by
    intro schema pointer path tokens hgo hinside
    rw [located_eq]
    refine apart_append hinside (List.nodup_singleton _) fun node hnode node' hnode' heq => ?_
    obtain ⟨token, -, hprefix⟩ := hgo node hnode
    rw [heq, List.mem_singleton.mp hnode'] at hprefix
    have hlength := hprefix.length_le
    rw [List.length_append, List.length_singleton] at hlength
    exact absurd hlength (Nat.not_succ_le_self _)
  have hchildren : ∀ (children : List (String × Schema)) (pointer : Pointer) (path : String),
      GoOn (childLocated pointer path children) pointer (Entries.keys children) :=
    fun children _ _ => goOn_childLocated fun child _ => prefix_of_mem_located child.2
  induction schema using Schema.induct with
  | scalar | enumeration | ref =>
    exact fun _ _ _ => @hself _ _ _ [] (by simp [GoOn, formLocated]) List.nodup_nil
  | object required optional strict nullable metadata ihRequired ihOptional =>
    rintro ⟨⟨hrequired, hinRequired⟩, hoptional, hinOptional⟩ pointer path
    rw [childrenListOnce_iff] at hinRequired hinOptional
    have hgoRequired := (hchildren required (pointer ++ ["properties"]) path).behind
    have hgoOptional := (hchildren optional (pointer ++ ["optionalProperties"]) path).behind
    refine @hself _ _ _ ["properties", "optionalProperties"] (List.forall_mem_append.mpr
      ⟨goOn_of_behind (by simp) hgoRequired, goOn_of_behind (by simp) hgoOptional⟩) ?_
    refine apart_append
      (apart_childLocated hrequired fun child hchild =>
        ihRequired child hchild (hinRequired child hchild))
      (apart_childLocated hoptional fun child hchild =>
        ihOptional child hchild (hinOptional child hchild)) ?_
    exact (goOn_of_behind (List.mem_singleton_self _) hgoRequired).ne
      (goOn_of_behind (List.mem_singleton_self _) hgoOptional) (by simp)
  | array element nullable metadata ih =>
    exact fun h pointer path =>
      hself (goOn_of_behind (List.mem_singleton_self _) (prefix_of_mem_located element)) (ih h)
  | record value nullable metadata ih =>
    exact fun h pointer path =>
      hself (goOn_of_behind (List.mem_singleton_self _) (prefix_of_mem_located value)) (ih h)
  | union tag variants nullable metadata ih =>
    rintro ⟨hvariants, hinside⟩ pointer path
    rw [childrenListOnce_iff] at hinside
    exact hself (goOn_of_behind (List.mem_singleton_self _) (hchildren _ _ _).behind)
      (apart_childLocated hvariants fun child hchild => ih child hchild (hinside child hchild))

end Schema

/-! ## Models -/

/-- **All schemas in models**, with the pointers to them from the document of a definition. -/
def Models.located (models : Models) : List LocatedSchema :=
  Schema.childLocated ["models"] "" models

namespace Models

/-- **Pointers lead to the documents** of the schemas in the models of a definition. -/
theorem resolve?_of_mem_located {definition : Definition}
    (hdistinct : Entries.Distinct definition.models)
    (hmodels : ∀ model ∈ definition.models, model.2.ListsOnce) :
    ∀ node ∈ located definition.models,
      definition.toJson.resolve? node.pointer = some node.schema.toJson := by
  intro node hnode
  have hheld : definition.toJson.get? "models" =
      some (.object (Schema.childEntries definition.models)) := by
    obtain ⟨schemaVersion, info, procedures, models, errors⟩ := definition
    cases info <;> rfl
  exact Schema.resolve?_of_mem_childLocated hdistinct (Json.resolve?_of_get? hheld)
    (fun model hmodel => Schema.resolve?_of_mem_located model.2 (hmodels model hmodel)) hnode

/-- **No pointer is that of two schemas** in models. -/
theorem apart_located {models : Models} (hdistinct : Entries.Distinct models)
    (hmodels : ∀ model ∈ models, model.2.ListsOnce) : Schema.Apart (located models) :=
  Schema.apart_childLocated hdistinct fun model hmodel =>
    Schema.apart_located model.2 (hmodels model hmodel)

end Models

end RpcSchema
