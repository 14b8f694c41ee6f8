import RpcSchema.Proofs.Definition.Faults
import RpcSchema.Proofs.Definition.RoundTrip

set_option autoImplicit false

/-!
# Maps without repetitions

No object of a well-formed document lists a key twice. So no map among the keywords that are read
from it does, and no map in the schema that they describe: neither section of an object, nor the
variants of a union, nor the models of a definition.

## Main definitions

* `RpcSchema.Keywords.ListsOnce`, `RpcSchema.Schema.ListsOnce` — no map inside lists a key twice.

## Main results

* `RpcSchema.Keywords.listsOnce_of_read` — keywords that are read from a well-formed document.
* `RpcSchema.Schema.listsOnce_of_toSchema` — the schema that keywords describe.
* `RpcSchema.Definition.listsOnce_of_ofJson` — definitions that are read.
-/

namespace RpcSchema

open Outcome (bind_eq_ok_iff map_eq_ok_iff mapError_eq_ok_iff)

/-! ## Keywords -/

namespace Keywords

/-- **No map among keywords lists a key twice**, at any depth. -/
inductive ListsOnce : Keywords → Prop
  | mk {keywords : Keywords}
    (elements : ∀ inner, keywords.elements = some inner → ListsOnce inner)
    (record : ∀ inner, keywords.record = some inner → ListsOnce inner)
    (distinct : ∀ children, some children ∈
      [keywords.properties, keywords.optionalProperties, keywords.mapping] →
        Entries.Distinct children)
    (inside : ∀ children, some children ∈
      [keywords.properties, keywords.optionalProperties, keywords.mapping] →
        ∀ child ∈ children, ListsOnce child.2) : ListsOnce keywords

theorem listsOnce_empty : ListsOnce {} :=
  .mk nofun nofun (by simp) (by simp)

/-- Keywords list keys once when what they hold does, apart from what others hold that do. -/
theorem ListsOnce.of_held {keywords keywords' : Keywords} (h : keywords.ListsOnce)
    (helements : ∀ inner, keywords'.elements = some inner →
      keywords.elements = some inner ∨ inner.ListsOnce)
    (hrecord : ∀ inner, keywords'.record = some inner →
      keywords.record = some inner ∨ inner.ListsOnce)
    (hmaps : ∀ children, some children ∈
      [keywords'.properties, keywords'.optionalProperties, keywords'.mapping] →
        some children ∈ [keywords.properties, keywords.optionalProperties, keywords.mapping] ∨
          Entries.Distinct children ∧ ∀ child ∈ children, child.2.ListsOnce) :
    keywords'.ListsOnce := by
  obtain ⟨helements', hrecord', hdistinct, hinside⟩ := h
  refine .mk (fun inner hinner => ?_) (fun inner hinner => ?_) (fun children hchildren => ?_)
    (fun children hchildren => ?_)
  · exact (helements inner hinner).elim (helements' inner) id
  · exact (hrecord inner hinner).elim (hrecord' inner) id
  · exact (hmaps children hchildren).elim (hdistinct children) And.left
  · exact (hmaps children hchildren).elim (hinside children) And.right

/-- A keyword that is taken in keeps what has been said about the others. -/
theorem ListsOnce.readKeyword {keywords keywords' : Keywords} {name : String} {value : Json}
    {schema : Unit → Except ReadError Keywords}
    {children : Unit → Except ReadError (List (String × Keywords))} (h : keywords.ListsOnce)
    (hschema : ∀ inner, schema () = .ok inner → inner.ListsOnce)
    (hchildren : ∀ map, children () = .ok map →
      Entries.Distinct map ∧ ∀ child ∈ map, child.2.ListsOnce)
    (hread : keywords.readKeyword name value schema children = .ok keywords') :
    keywords'.ListsOnce := by
  unfold Keywords.readKeyword at hread
  split at hread
  case h_3 | h_4 =>
    split at hread
    · cases hread
      exact h.of_held (by simp +contextual) (by simp +contextual) fun _ => .inl
    · obtain ⟨inner, hinner, rfl⟩ := map_eq_ok_iff.mp hread
      have hnew := hschema inner hinner
      exact h.of_held (by simp +contextual [hnew]) (by simp +contextual [hnew]) fun _ => .inl
  case h_5 | h_6 | h_9 =>
    split at hread
    · cases hread
      refine h.of_held (fun _ => .inl) (fun _ => .inl) fun children hmem => .inl ?_
      simp only [List.mem_cons, reduceCtorEq, false_or] at hmem ⊢
      tauto
    · obtain ⟨map, hmap, rfl⟩ := map_eq_ok_iff.mp hread
      have hnew := hchildren map hmap
      refine h.of_held (fun _ => .inl) (fun _ => .inl) fun children hmem => ?_
      by_cases heq : children = map
      · exact .inr (heq ▸ hnew)
      · simp only [List.mem_cons, Option.some.injEq, heq, false_or] at hmem ⊢
        tauto
  case h_13 =>
    cases hread
    exact h
  -- The other keywords hold neither a schema nor a map of schemas.
  all_goals
    obtain ⟨_, -, rfl⟩ := map_eq_ok_iff.mp hread
    exact h.of_held (fun _ => .inl) (fun _ => .inl) fun _ => .inl

mutual

/-- **Keywords that are read from a well-formed document** list keys once. -/
theorem listsOnce_of_read : ∀ {value : Json} {keywords : Keywords},
    value.WellFormed → read value = .ok keywords → keywords.ListsOnce
  | .object entries, _, hformed, h => by
    rw [read] at h
    exact listsOnce_of_readFields hformed.2 listsOnce_empty h
  | .array items, _, hformed, h => by
    rw [read] at h
    exact listsOnce_of_readPositions hformed listsOnce_empty h
  | .null, _, _, h | .bool _, _, _, h | .number _, _, _, h | .string _, _, _, h => by cases h

/-- The fields of an object. -/
theorem listsOnce_of_readFields : ∀ {entries : List (String × Json)} {keywords keywords' : Keywords},
    Json.WellFormedEntries entries → keywords.ListsOnce →
      readFields entries keywords = .ok keywords' → keywords'.ListsOnce
  | [], _, _, _, hstart, h => by
    cases h
    exact hstart
  | (name, value) :: rest, keywords, _, ⟨hvalue, hrest⟩, hstart, h => by
    obtain ⟨middle, hmiddle, h⟩ := readFields_cons_eq_ok_iff.mp h
    refine listsOnce_of_readFields hrest
      (hstart.readKeyword (fun inner hinner => ?_) (fun map hmap => ?_) hmiddle) h
    · exact @listsOnce_of_read value inner hvalue hinner
    · exact @listsOnce_of_readMap value map hvalue hmap

/-- The items of an array. -/
theorem listsOnce_of_readPositions : ∀ {items : List Json} {position : Nat}
    {keywords keywords' : Keywords}, Json.WellFormedItems items → keywords.ListsOnce →
      readPositions items position keywords = .ok keywords' → keywords'.ListsOnce
  | [], _, _, _, _, hstart, h => by
    cases h
    exact hstart
  | value :: rest, position, keywords, _, ⟨hvalue, hrest⟩, hstart, h => by
    rw [readPositions] at h
    split at h
    · cases h
    split at h
    · cases h
    · rename_i middle hmiddle
      refine listsOnce_of_readPositions hrest (hstart.readKeyword (fun inner hinner => ?_)
        (fun map hmap => ?_) (ReadError.locate_eq_ok_iff.mp hmiddle)) h
      · exact @listsOnce_of_read value inner hvalue hinner
      · exact @listsOnce_of_readMap value map hvalue hmap

/-- A map of schemas. -/
theorem listsOnce_of_readMap : ∀ {value : Json} {children : List (String × Keywords)},
    value.WellFormed → readMap value = .ok children →
      Entries.Distinct children ∧ ∀ child ∈ children, child.2.ListsOnce
  | .object entries, children, ⟨hdistinct, hentries⟩, h => by
    rw [readMap] at h
    obtain ⟨hkeys, hinside⟩ := listsOnce_of_readEntries hentries h
    exact ⟨by rwa [Entries.Distinct, hkeys], hinside⟩
  | .null, _, _, h | .bool _, _, _, h | .number _, _, _, h | .string _, _, _, h
  | .array _, _, _, h => by cases h

/-- The schemas of a map. -/
theorem listsOnce_of_readEntries : ∀ {entries : List (String × Json)}
    {children : List (String × Keywords)},
    Json.WellFormedEntries entries → readEntries entries = .ok children →
      Entries.keys children = Entries.keys entries ∧ ∀ child ∈ children, child.2.ListsOnce
  | [], _, _, h => by
    cases h
    exact ⟨rfl, by simp⟩
  | (key, value) :: rest, children, ⟨hvalue, hrest⟩, h => by
    rw [readEntries] at h
    split at h
    · cases h
    rename_i keywords hkeywords
    split at h
    · cases h
    rename_i others hothers
    cases h
    obtain ⟨hkeys, hinside⟩ := listsOnce_of_readEntries hrest hothers
    have hfirst := listsOnce_of_read hvalue (ReadError.locate_eq_ok_iff.mp hkeywords)
    exact ⟨congrArg (key :: ·) hkeys, List.forall_mem_cons.mpr ⟨hfirst, hinside⟩⟩

end

end Keywords

/-! ## Schemas -/

namespace Schema

mutual

/-- **No map in a schema lists a key twice.** The two sections of an object may share keys. -/
def ListsOnce : Schema → Prop
  | ⟨form, _, _⟩ => FormListsOnce form

/-- No map in a form lists a key twice. -/
def FormListsOnce : Form → Prop
  | .object required optional _ => (Entries.Distinct required ∧ ChildrenListOnce required) ∧
    Entries.Distinct optional ∧ ChildrenListOnce optional
  | .array element => element.ListsOnce
  | .record value => value.ListsOnce
  | .union _ variants => Entries.Distinct variants ∧ ChildrenListOnce variants
  | _ => True

/-- No map in the schemas of a map lists a key twice. -/
def ChildrenListOnce : List (String × Schema) → Prop
  | [] => True
  | (_, schema) :: rest => schema.ListsOnce ∧ ChildrenListOnce rest

end

theorem childrenListOnce_iff {children : List (String × Schema)} :
    ChildrenListOnce children ↔ ∀ child ∈ children, child.2.ListsOnce := by
  induction children with
  | nil => simp [ChildrenListOnce]
  | cons child rest ih => rw [ChildrenListOnce, ih, List.forall_mem_cons]

/-- The schemas of a map list keys once when the keywords in it do and are under distinct keys. -/
theorem listsOnce_of_toSection {place : Path} {keyword : String}
    {children? : Option (List (String × Keywords))} {schemas : Entries Schema}
    (h : Keywords.toSection place keyword children? = .ok schemas)
    (hdistinct : ∀ children, children? = some children → Entries.Distinct children)
    (hinside : ∀ children, children? = some children → ∀ child ∈ children,
      ∀ {place : Path} {schema : Schema}, child.2.toSchema place = .ok schema → schema.ListsOnce) :
    Entries.Distinct schemas ∧ ChildrenListOnce schemas := by
  cases children? with
  | none =>
    cases h
    exact ⟨List.nodup_nil, trivial⟩
  | some children =>
    have hall := Keywords.forall₂_of_toChildren h
    have hkeys : Entries.keys children = Entries.keys schemas :=
      Outcome.map_eq_map_of_forall₂ (hall.imp fun _ _ h => h.1.symm)
    refine ⟨?_, childrenListOnce_iff.mpr fun schema hschema => ?_⟩
    · rw [Entries.Distinct, ← hkeys]
      exact hdistinct children rfl
    · obtain ⟨child, hchild, -, hread⟩ := Outcome.exists_of_forall₂_right hall schema hschema
      exact hinside children rfl child hchild hread

/-- **The schema that keywords describe** lists keys once when they do. -/
theorem listsOnce_of_toSchema {keywords : Keywords} (h : keywords.ListsOnce) :
    ∀ {place : Path} {schema : Schema}, keywords.toSchema place = .ok schema →
      schema.ListsOnce := by
  induction h with
  | @mk keywords _ _ hdistinct _ ihElements ihRecord ihInside =>
    intro place schema hschema
    obtain ⟨form, rfl, hform⟩ := Keywords.describes_of_toSchema hschema
    have hsection : ∀ {keyword : String} {children? : Option (List (String × Keywords))}
        {schemas : Entries Schema},
        children? ∈ [keywords.properties, keywords.optionalProperties, keywords.mapping] →
        Keywords.toSection place keyword children? = .ok schemas →
          Entries.Distinct schemas ∧ ChildrenListOnce schemas := by
      intro keyword children? schemas hmem h
      refine listsOnce_of_toSection h ?_ ?_
      · rintro children rfl
        exact hdistinct children hmem
      · rintro children rfl
        exact ihInside children hmem
    rw [ListsOnce]
    cases hform with
    | scalar | enumeration | ref => trivial
    | object required optional strict hrequired hoptional =>
      exact ⟨hsection (by simp) hrequired, hsection (by simp) hoptional⟩
    | array element helement =>
      cases hinner : keywords.elements with
      | none =>
        rw [hinner] at helement
        cases helement
      | some inner =>
        rw [hinner] at helement
        exact ihElements inner hinner helement
    | record value hvalue =>
      cases hinner : keywords.record with
      | none =>
        rw [hinner] at hvalue
        cases hvalue
      | some inner =>
        rw [hinner] at hvalue
        exact ihRecord inner hinner hvalue
    | union tag variants hvariants _ => exact hsection (by simp) hvariants

end Schema

/-! ## Definitions -/

namespace Definition

/-- No map among the keywords of a draft lists a key twice, nor do its models. -/
structure Draft.ListsOnce (draft : Draft) : Prop where
  distinct : Entries.Distinct draft.models
  models : ∀ model ∈ draft.models, model.2.ListsOnce
  errors : ∀ keywords, draft.errors = some keywords → keywords.ListsOnce

/-- A field of a well-formed document keeps what has been said about the others. -/
theorem Draft.ListsOnce.readField {draft draft' : Draft} {name : String} {value : Json}
    (h : draft.ListsOnce) (hformed : value.WellFormed)
    (hread : draft.readField name value = .ok draft') : draft'.ListsOnce := by
  rcases readField_cases hread with ⟨entries, -, rfl, herrors, hkeys, hinside⟩ |
    ⟨keywords, -, hmodels, herrors, hkeywords⟩ | ⟨hmodels, herrors⟩
  · obtain ⟨hdistinct, hentries⟩ := hformed
    refine ⟨by rwa [Entries.Distinct, hkeys], fun model hmodel => ?_, herrors ▸ h.errors⟩
    obtain ⟨node, hnode, hkeywords⟩ := hinside model hmodel
    exact Keywords.listsOnce_of_read (Json.wellFormedEntries_iff.mp hentries _ hnode) hkeywords
  · refine ⟨hmodels ▸ h.distinct, hmodels ▸ h.models, ?_⟩
    rw [herrors]
    rintro _ ⟨⟩
    exact Keywords.listsOnce_of_read hformed hkeywords
  · exact ⟨hmodels ▸ h.distinct, hmodels ▸ h.models, herrors ▸ h.errors⟩

/-- Models are read from keywords under their names. -/
theorem forall₂_of_readModels {keywords : Entries Keywords} {models : Models}
    (h : readModels keywords = .ok models) :
    List.Forall₂ (fun entry model => model.1 = entry.1 ∧
      entry.2.toSchema [] = .ok model.2) keywords models := by
  induction keywords generalizing models with
  | nil =>
    cases h
    exact .nil
  | cons entry rest ih =>
    obtain ⟨schema, hschema, h⟩ := bind_eq_ok_iff.mp h
    obtain ⟨others, hothers, h⟩ := bind_eq_ok_iff.mp h
    cases h
    exact .cons ⟨rfl, mapError_eq_ok_iff.mp hschema⟩ (ih hothers)

/-- **No map in a definition lists a key twice** that is read from a well-formed document. -/
theorem listsOnce_of_ofJson {document : Json} {definition : Definition}
    (hformed : document.WellFormed) (h : ofJson document = .ok definition) :
    Entries.Distinct definition.models ∧ ∀ model ∈ definition.models, model.2.ListsOnce := by
  obtain ⟨draft, hdraft, h⟩ := ofJson_eq_ok_iff.mp h
  obtain ⟨layout, hlayout, -⟩ := bind_eq_ok_iff.mp hdraft
  have hlists : draft.ListsOnce := by
    have hstart : Draft.ListsOnce {} := ⟨List.nodup_nil, by simp, nofun⟩
    refine Record.keeps_of_read hlayout hstart ?_ hdraft
    intro member hmember draft draft' hdraft hstep
    exact hdraft.readField (Record.wellFormed_of_mem_layout hformed hlayout member hmember) hstep
  unfold Draft.finish at h
  split at h
  · obtain ⟨models, hmodels, h⟩ := bind_eq_ok_iff.mp h
    obtain ⟨errors, -, h⟩ := bind_eq_ok_iff.mp h
    cases h
    have hall := forall₂_of_readModels hmodels
    have hkeys : Entries.keys draft.models = Entries.keys models :=
      Outcome.map_eq_map_of_forall₂ (hall.imp fun _ _ h => h.1.symm)
    refine ⟨by rw [Entries.Distinct, ← hkeys]; exact hlists.distinct, fun model hmodel => ?_⟩
    obtain ⟨entry, hentry, -, hread⟩ := Outcome.exists_of_forall₂_right hall model hmodel
    exact Schema.listsOnce_of_toSchema (hlists.models entry hentry) hread
  · cases h
  · cases h

end Definition

end RpcSchema
