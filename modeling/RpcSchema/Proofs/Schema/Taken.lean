import RpcSchema.Proofs.Document
import RpcSchema.Proofs.Entries
import RpcSchema.Schema.Keywords

set_option autoImplicit false

/-!
# Keywords that are taken in

What the keywords of a schema are read as is told by what its document holds under each of them. A
keyword that is missing, or holds `null`, says nothing.

## Main definitions

* `RpcSchema.Taken` — what a place of a document holds is taken in.
* `RpcSchema.Keywords.TakenFrom` — keywords are those of a document.

## Main results

* `RpcSchema.Keywords.takenFrom_of_read` — reading takes in the keywords of the document.
* `RpcSchema.Keywords.exists_lookup_of_mem` — what is read for a map is read from its entries.
-/

namespace RpcSchema

open Outcome (bind_eq_ok_iff map_eq_ok_iff)

/-! ## Places -/

/-- **What a place of a document holds is taken in**; nothing is if nothing or `null` is there. -/
def Taken {α : Type} (read : Json → Except ReadError α) (value? : Option Json) (a? : Option α) :
    Prop :=
  match value? with
  | none => a? = none
  | some value => Read.optional read value = .ok a?

namespace Taken

variable {α : Type} {read : Json → Except ReadError α} {value? : Option Json} {a? : Option α}

/-- What is taken in is there, and is read. -/
theorem exists_of_some {a : α} (h : Taken read value? (some a)) :
    ∃ value, value? = some value ∧ value.isNull = false ∧ read value = .ok a := by
  cases value? with
  | none => cases h
  | some value =>
    cases value with
    | null => cases h
    | _ =>
      obtain ⟨_, hread, heq⟩ := map_eq_ok_iff.mp h
      cases heq
      exact ⟨_, rfl, rfl, hread⟩

/-- Something is taken in exactly when something else than `null` is there. -/
theorem isSome_eq (h : Taken read value? a?) : a?.isSome = value?.any (!·.isNull) := by
  cases a? with
  | some a =>
    obtain ⟨value, rfl, hnull, -⟩ := h.exists_of_some
    simp [hnull]
  | none =>
    cases value? with
    | none => rfl
    | some value =>
      cases value with
      | null => rfl
      | _ =>
        obtain ⟨_, -, heq⟩ := map_eq_ok_iff.mp h
        cases heq

end Taken

namespace Read

/-- A text is read as it is. -/
theorem eq_string_of_text {value : Json} {name : String} (h : text value = .ok name) :
    value = .string name := by
  cases value <;> cases h
  rfl

theorem eq_map_of_listFrom_text {items : List Json} {names : List String} {index : Nat}
    (h : listFrom text index items = .ok names) : items = names.map Json.string := by
  induction items generalizing names index with
  | nil =>
    cases h
    rfl
  | cons item rest ih =>
    obtain ⟨name, hname, h⟩ := bind_eq_ok_iff.mp h
    obtain ⟨others, hothers, h⟩ := bind_eq_ok_iff.mp h
    cases h
    rw [eq_string_of_text (ReadError.locate_eq_ok_iff.mp hname), ih hothers, List.map_cons]

/-- A list of texts is read as it is. -/
theorem eq_array_of_list_text {value : Json} {names : List String}
    (h : list text value = .ok names) : value = .array (names.map Json.string) := by
  cases value with
  | array items => rw [eq_map_of_listFrom_text h]
  | _ => cases h

end Read

namespace Keywords

variable {entries : List (String × Json)} {keywords keywords' : Keywords} {name : String}
  {value : Json}

/-! ## Keywords one by one -/

/-- Takes in one keyword of a document. -/
abbrev readMember (keywords : Keywords) (name : String) (value : Json) :
    Except ReadError Keywords :=
  keywords.readKeyword name value (fun _ => read value) (fun _ => readMap value)

/-- `null` under a keyword that holds a schema, or schemas, stands for nothing. -/
theorem ite_isNull_eq {α : Type} (read : Json → Except ReadError α) (set : Option α → Keywords)
    (value : Json) :
    (if value.isNull then .ok (set none) else (read value).map fun a => set (some a)) =
      (Read.optional read value).map set := by
  have hoptional : Read.optional read value =
      if value.isNull then .ok none else (read value).map some := by
    cases value <;> rfl
  rw [hoptional]
  split
  · rfl
  · cases read value <;> rfl

/-- Keywords say the same beside one of them. -/
structure SameBeside (name : String) (keywords keywords' : Keywords) : Prop where
  type : name ≠ "type" → keywords'.type = keywords.type
  values : name ≠ "enum" → keywords'.values = keywords.values
  elements : name ≠ "elements" → keywords'.elements = keywords.elements
  record : name ≠ "values" → keywords'.record = keywords.record
  properties : name ≠ "properties" → keywords'.properties = keywords.properties
  optionalProperties :
    name ≠ "optionalProperties" → keywords'.optionalProperties = keywords.optionalProperties
  discriminator : name ≠ "discriminator" → keywords'.discriminator = keywords.discriminator
  mapping : name ≠ "mapping" → keywords'.mapping = keywords.mapping
  ref : name ≠ "ref" → keywords'.ref = keywords.ref

/-- **A keyword leaves the others as they are.** -/
theorem sameBeside_of_readMember (h : keywords.readMember name value = .ok keywords') :
    SameBeside name keywords keywords' := by
  unfold readMember readKeyword at h
  split at h
  -- Each branch sets one field, whose name is excluded there, or none.
  all_goals
    first
    | obtain ⟨_, -, rfl⟩ := map_eq_ok_iff.mp h
      constructor <;> simp
    | split at h
      · cases h
        constructor <;> simp
      · obtain ⟨_, -, rfl⟩ := map_eq_ok_iff.mp h
        constructor <;> simp
    | cases h
      constructor <;> simp

/-- Taking in the keywords of an object begins with the first. -/
theorem readFields_cons_eq_ok_iff {rest : List (String × Json)} :
    readFields ((name, value) :: rest) keywords = .ok keywords' ↔
      ∃ middle, keywords.readMember name value = .ok middle ∧
        readFields rest middle = .ok keywords' := by
  rw [readFields]
  constructor
  · intro h
    split at h
    · cases h
    · rename_i middle hmiddle
      exact ⟨middle, ReadError.locate_eq_ok_iff.mp hmiddle, h⟩
  · rintro ⟨middle, hmiddle, h⟩
    rw [ReadError.locate_eq_ok_iff.mpr hmiddle]
    exact h

section

variable {α : Type} {part : Json → Except ReadError α} (get : Keywords → Option α)
  (hothers : ∀ {keywords keywords' : Keywords} {other : String},
    SameBeside other keywords keywords' → other ≠ name → get keywords' = get keywords)

include hothers

/-- What a keyword says stays as it is while others are taken in. -/
theorem get_readFields (hname : name ∉ Entries.keys entries)
    (h : readFields entries keywords = .ok keywords') : get keywords' = get keywords := by
  induction entries generalizing keywords with
  | nil =>
    cases h
    rfl
  | cons entry rest ih =>
    obtain ⟨other, value⟩ := entry
    obtain ⟨hother, hrest⟩ := not_or.mp (fun hmem => hname (List.mem_cons.mpr hmem))
    obtain ⟨middle, hmiddle, h⟩ := readFields_cons_eq_ok_iff.mp h
    rw [ih hrest h, hothers (sameBeside_of_readMember hmiddle) (Ne.symm hother)]

/-- **What a keyword says** is what the document holds under it, if it is listed once. -/
theorem taken_readFields {set : Keywords → Option α → Keywords}
    (hset : ∀ keywords a?, get (set keywords a?) = a?)
    (hmember : ∀ keywords value,
      readMember keywords name value = (Read.optional part value).map (set keywords))
    (hdistinct : Entries.Distinct entries) (hstart : get keywords = none)
    (h : readFields entries keywords = .ok keywords') :
    Taken part (entries.lookup name) (get keywords') := by
  induction entries generalizing keywords with
  | nil =>
    cases h
    exact hstart
  | cons entry rest ih =>
    obtain ⟨other, value⟩ := entry
    obtain ⟨hfirst, hdistinct⟩ := List.nodup_cons.mp hdistinct
    obtain ⟨middle, hmiddle, hrest⟩ := readFields_cons_eq_ok_iff.mp h
    rw [Entries.lookup_cons_ite]
    split
    · rename_i heq
      subst heq
      rw [hmember] at hmiddle
      obtain ⟨a?, ha, rfl⟩ := map_eq_ok_iff.mp hmiddle
      rw [get_readFields get hothers hfirst hrest, hset]
      exact ha
    · rename_i hne
      refine ih hdistinct ?_ hrest
      rw [hothers (sameBeside_of_readMember hmiddle) (Ne.symm hne), hstart]

end

/-! ## Documents -/

/-- **Keywords are those of a document**, given by what it holds under each of them. -/
structure TakenFrom (entries : List (String × Json)) (keywords : Keywords) : Prop where
  type : Taken Read.text (entries.lookup "type") keywords.type
  values : Taken (Read.list Read.text) (entries.lookup "enum") keywords.values
  elements : Taken read (entries.lookup "elements") keywords.elements
  record : Taken read (entries.lookup "values") keywords.record
  properties : Taken readMap (entries.lookup "properties") keywords.properties
  optionalProperties :
    Taken readMap (entries.lookup "optionalProperties") keywords.optionalProperties
  discriminator : Taken Read.text (entries.lookup "discriminator") keywords.discriminator
  mapping : Taken readMap (entries.lookup "mapping") keywords.mapping
  ref : Taken Read.text (entries.lookup "ref") keywords.ref

/-- **Reading takes in the keywords of the document.** -/
theorem takenFrom_of_read (hdistinct : Entries.Distinct entries)
    (h : read (.object entries) = .ok keywords) : keywords.TakenFrom entries := by
  rw [read] at h
  exact {
    type := taken_readFields type (·.type) (fun _ _ => rfl) (fun _ _ => rfl) hdistinct rfl h
    values := taken_readFields values (·.values) (fun _ _ => rfl) (fun _ _ => rfl) hdistinct rfl h
    elements := taken_readFields elements (·.elements) (fun _ _ => rfl)
      (fun keywords => ite_isNull_eq read fun elements => { keywords with elements }) hdistinct rfl h
    record := taken_readFields record (·.record) (fun _ _ => rfl)
      (fun keywords => ite_isNull_eq read fun record => { keywords with record }) hdistinct rfl h
    properties := taken_readFields properties (·.properties) (fun _ _ => rfl)
      (fun keywords => ite_isNull_eq readMap fun properties => { keywords with properties })
      hdistinct rfl h
    optionalProperties := taken_readFields optionalProperties (·.optionalProperties)
      (fun _ _ => rfl) (fun keywords => ite_isNull_eq readMap
        fun optionalProperties => { keywords with optionalProperties }) hdistinct rfl h
    discriminator := taken_readFields discriminator (·.discriminator) (fun _ _ => rfl)
      (fun _ _ => rfl) hdistinct rfl h
    mapping := taken_readFields mapping (·.mapping) (fun _ _ => rfl)
      (fun keywords => ite_isNull_eq readMap fun mapping => { keywords with mapping }) hdistinct
      rfl h
    ref := taken_readFields ref (·.ref) (fun _ _ => rfl) (fun _ _ => rfl) hdistinct rfl h }

/-- The schemas of a map are read under their keys. -/
theorem forall₂_of_readEntries {children : List (String × Keywords)}
    (h : readEntries entries = .ok children) :
    List.Forall₂ (fun entry child => child.1 = entry.1 ∧ read entry.2 = .ok child.2) entries
      children := by
  induction entries generalizing children with
  | nil =>
    cases h
    exact .nil
  | cons entry rest ih =>
    obtain ⟨key, value⟩ := entry
    rw [readEntries] at h
    split at h
    · cases h
    · rename_i keywords hkeywords
      split at h
      · cases h
      · rename_i others hothers
        cases h
        exact .cons ⟨rfl, ReadError.locate_eq_ok_iff.mp hkeywords⟩ (ih hothers)

/-- **What is read for a map** is read from its entries. -/
theorem exists_lookup_of_mem {children : List (String × Keywords)} {child : String × Keywords}
    (hdistinct : Entries.Distinct entries) (h : readEntries entries = .ok children)
    (hchild : child ∈ children) :
    ∃ value, entries.lookup child.1 = some value ∧ read value = .ok child.2 := by
  obtain ⟨⟨key, value⟩, hentry, heq, hread⟩ :=
    Outcome.exists_of_forall₂_right (forall₂_of_readEntries h) child hchild
  obtain rfl : child.1 = key := heq
  exact ⟨value, Entries.lookup_of_mem hdistinct hentry, hread⟩

end Keywords

end RpcSchema
