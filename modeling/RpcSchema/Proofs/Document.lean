import RpcSchema.Document.FromJson
import RpcSchema.Proofs.Json.Pointer
import RpcSchema.Proofs.Outcome

set_option autoImplicit false

/-!
# Documents that are written and read

What is written member by member is read member by member, in the same order. A record that is
written under the names of its fields is read field by field.

## Main results

* `RpcSchema.Read.list_map` — lists.
* `RpcSchema.Read.map_mapValues` — maps.
* `RpcSchema.Read.choice_string` — names from a list.
* `RpcSchema.Record.read_object` — records.
* `RpcSchema.Record.keeps_of_read` — what every field of a record keeps.
-/

namespace RpcSchema

/-- Where a value is read does not matter if it can be read. -/
theorem ReadError.locate_eq_ok_iff {α : Type} {step : Step} {outcome : Except ReadError α} {a : α} :
    locate step outcome = .ok a ↔ outcome = .ok a := by
  cases outcome <;> simp [locate]

namespace Read

variable {α β : Type} {read : Json → Except ReadError β}

theorem listFrom_map {write : α → Json} {f : α → β} {list : List α}
    (h : ∀ a ∈ list, read (write a) = .ok (f a)) (index : Nat) :
    listFrom read index (list.map write) = .ok (list.map f) := by
  induction list generalizing index with
  | nil => rfl
  | cons a rest ih =>
    obtain ⟨ha, hrest⟩ := List.forall_mem_cons.mp h
    rw [List.map_cons, listFrom, ha, ih hrest]
    rfl

/-- **A list that is written member by member** is read member by member. -/
theorem list_map {write : α → Json} {f : α → β} {list : List α}
    (h : ∀ a ∈ list, read (write a) = .ok (f a)) :
    Read.list read (.array (list.map write)) = .ok (list.map f) :=
  listFrom_map h 0

/-- A list of texts is read as it is written. -/
theorem list_text (texts : List String) :
    Read.list text (.array (texts.map .string)) = .ok texts := by
  have h : Read.list text (.array (texts.map .string)) = .ok (texts.map id) :=
    list_map fun _ _ => rfl
  rwa [List.map_id] at h

/-- **A map that is written member by member** is read member by member, under the same keys. -/
theorem map_mapValues {write : α → Json} {f : α → β} {values : Entries α}
    (h : ∀ entry ∈ values, read (write entry.2) = .ok (f entry.2)) :
    Read.map read (.object (Entries.mapValues write values)) =
      .ok (Entries.mapValues f values) := by
  rw [Read.map]
  induction values with
  | nil => rfl
  | cons entry rest ih =>
    obtain ⟨key, a⟩ := entry
    obtain ⟨ha, hrest⟩ := List.forall_mem_cons.mp h
    have hcons : Entries.mapValues write ((key, a) :: rest) =
        (key, write a) :: Entries.mapValues write rest := rfl
    rw [hcons, entries, ha, ih hrest]
    rfl

/-- The entries of a map are read under their keys. -/
theorem forall₂_of_entries {values : Entries Json} {results : Entries β}
    (h : entries read values = .ok results) :
    List.Forall₂ (fun value result => result.1 = value.1 ∧ read value.2 = .ok result.2) values
      results := by
  induction values generalizing results with
  | nil =>
    cases h
    exact .nil
  | cons entry rest ih =>
    obtain ⟨first, hfirst, h⟩ := Outcome.bind_eq_ok_iff.mp h
    obtain ⟨others, hothers, h⟩ := Outcome.bind_eq_ok_iff.mp h
    cases h
    exact .cons ⟨rfl, ReadError.locate_eq_ok_iff.mp hfirst⟩ (ih hothers)

/-- **What is read for a map** is read from its entries, under the same keys. -/
theorem exists_of_map_eq_ok {value : Json} {results : Entries β}
    (h : Read.map read value = .ok results) :
    ∃ values, value = .object values ∧ Entries.keys results = Entries.keys values ∧
      ∀ result ∈ results, ∃ part, (result.1, part) ∈ values ∧ read part = .ok result.2 := by
  cases value with
  | object values =>
    have hall := forall₂_of_entries h
    refine ⟨values, rfl, (Outcome.map_eq_map_of_forall₂ (hall.imp fun _ _ h => h.1.symm)).symm,
      fun result hresult => ?_⟩
    obtain ⟨⟨key, part⟩, hpart, hkey, hread⟩ :=
      Outcome.exists_of_forall₂_right hall result hresult
    obtain rfl : result.1 = key := hkey
    exact ⟨part, hpart, hread⟩
  | _ => cases h

/-- A name is read as what it stands for. -/
theorem choice_string {names : List String} {ofName? : String → Option α} {name : String} {a : α}
    (h : ofName? name = some a) : choice names ofName? (.string name) = .ok a := by
  rw [choice, choice.named, h]

end Read

namespace Record

/-- The names of the fields of a record, in order of declaration. -/
def names (record : Record) : List String := record.fields.map (·.name)

theorem nodup_names (record : Record) : record.names.Nodup := by
  cases record <;> decide

/-- A field is found under its name. -/
theorem exists_field?_of_mem_names {record : Record} {key : String} (h : key ∈ record.names) :
    ∃ field, record.field? key = some field ∧ field.name = key := by
  have hfound : ∀ field ∈ record.fields, record.field? field.name = some field := by
    cases record <;> decide
  obtain ⟨field, hfield, rfl⟩ := List.mem_map.mp h
  exact ⟨field, hfound field hfield, rfl⟩

/-- An entry under the name of a field, as a member. -/
def member (entry : String × Json) : Member := ⟨.key entry.1, entry.1, entry.2⟩

/-- Entries under distinct names of fields are the members, in their order. -/
theorem layoutFields_eq {record : Record} {entries : Entries Json} {seen : List String}
    (hnames : ∀ key ∈ Entries.keys entries, key ∈ record.names)
    (hdistinct : Entries.Distinct entries) (hseen : ∀ key ∈ Entries.keys entries, key ∉ seen) :
    record.layoutFields entries seen =
      ⟨entries.map member, record.missing? ((Entries.keys entries).reverse ++ seen)⟩ := by
  induction entries generalizing seen with
  | nil => rfl
  | cons entry rest ih =>
    obtain ⟨key, value⟩ := entry
    obtain ⟨hname, hothers⟩ := List.forall_mem_cons.mp hnames
    obtain ⟨hnew, hunseen⟩ := List.forall_mem_cons.mp hseen
    obtain ⟨hkey, hdistinct'⟩ := List.nodup_cons.mp hdistinct
    obtain ⟨field, hfield, hfieldName⟩ := exists_field?_of_mem_names hname
    have hafter : ∀ other ∈ Entries.keys rest, other ∉ key :: seen := by
      intro other hother
      rw [List.mem_cons, not_or]
      exact ⟨fun h => hkey (h ▸ hother), hunseen other hother⟩
    have hrest := ih hothers hdistinct' hafter
    rw [layoutFields, hfield]
    simp only [hfieldName, List.contains_iff_mem, hnew, if_false, hrest]
    simp [member, Entries.keys]

/-- **A record that is written under the names of its fields**, with those that have to be there, is
read field by field. -/
theorem read_object {α : Type} {record : Record} {step : α → String → Json → Except ReadError α}
    {entries : Entries Json} (start : α)
    (hkeys : (Entries.keys entries).Sublist record.names)
    (hrequired : ∀ field ∈ record.fields, field.required = true →
      field.name ∈ Entries.keys entries) :
    record.read step start (.object entries) =
      entries.foldlM (fun result entry => ReadError.locate (.key entry.1)
        (step result entry.1 entry.2)) start := by
  have hmissing : record.missing? ((Entries.keys entries).reverse ++ []) = none := by
    rw [missing?, Option.map_eq_none_iff, List.find?_eq_none]
    intro field hfield
    simp only [List.append_nil, Bool.and_eq_true, Bool.not_eq_true', not_and, Bool.not_eq_false,
      List.contains_iff_mem, List.mem_reverse]
    exact hrequired field hfield
  have hlayout : record.layoutFields entries [] = ⟨entries.map member, none⟩ := by
    rw [← hmissing]
    exact layoutFields_eq (fun key hkey => hkeys.subset hkey) (hkeys.nodup record.nodup_names)
      fun key _ => List.not_mem_nil
  have hread : record.layout (.object entries) = .ok ⟨entries.map member, none⟩ :=
    congrArg Except.ok hlayout
  have hfold : record.read step start (.object entries) =
      (entries.map member).foldlM (fun result member =>
        ReadError.locate member.step (step result member.name member.value)) start := by
    rw [read, hread]
    exact bind_pure (m := Except ReadError) _
  rw [hfold, List.foldlM_map]
  rfl

/-- The fields of an object are entries under one of their names. -/
theorem exists_entry_of_mem_layoutFields {record : Record} {entries : Entries Json}
    {seen : List String} {member : Member} (h : member ∈ (record.layoutFields entries seen).members) :
    ∃ key field, (key, member.value) ∈ entries ∧ record.field? key = some field ∧
      member.name = field.name := by
  induction entries generalizing seen with
  | nil => cases h
  | cons entry rest ih =>
    obtain ⟨key, value⟩ := entry
    rw [layoutFields] at h
    have hbehind : ∀ {seen : List String}, member ∈ (record.layoutFields rest seen).members →
        ∃ other field, (other, member.value) ∈ (key, value) :: rest ∧
          record.field? other = some field ∧ member.name = field.name := by
      intro seen hmember
      obtain ⟨other, field, hentry, hfield⟩ := ih hmember
      exact ⟨other, field, List.mem_cons_of_mem _ hentry, hfield⟩
    split at h
    · exact hbehind h
    · rename_i field hfield
      split at h
      · cases h
      · rcases List.mem_cons.mp h with rfl | h
        · exact ⟨key, field, List.mem_cons_self, hfield, rfl⟩
        · exact hbehind h

/-- The fields of an array are items of it. -/
theorem mem_of_mem_layoutPositions {record : Record} {length index : Nat} {items : List Json}
    {left : List Field} {member : Member}
    (h : member ∈ (record.layoutPositions length index items left).members) :
    member.value ∈ items := by
  induction items generalizing index left with
  | nil => cases h
  | cons item rest ih =>
    cases left with
    | nil => cases h
    | cons field left =>
      rcases List.mem_cons.mp h with rfl | h
      · exact List.mem_cons_self
      · exact List.mem_cons_of_mem _ (ih h)

/-- **The fields of a well-formed document** are well-formed. -/
theorem wellFormed_of_mem_layout {record : Record} {document : Json} {layout : Layout}
    (hformed : document.WellFormed) (h : record.layout document = .ok layout) :
    ∀ member ∈ layout.members, member.value.WellFormed := by
  intro member hmember
  cases document with
  | object entries =>
    cases h
    obtain ⟨key, _, hentry, -⟩ := exists_entry_of_mem_layoutFields hmember
    exact Json.wellFormedEntries_iff.mp hformed.2 _ hentry
  | array items =>
    cases h
    exact Json.wellFormedItems_iff.mp hformed _ (mem_of_mem_layoutPositions hmember)
  | _ => cases h

/-- **What every field keeps** holds of the record that is read. -/
theorem keeps_of_read {record : Record} {α : Type} {step : α → String → Json → Except ReadError α}
    {p : α → Prop} {document : Json} {layout : Layout} {start result : α}
    (hlayout : record.layout document = .ok layout) (hstart : p start)
    (hstep : ∀ member ∈ layout.members, ∀ a b, p a → step a member.name member.value = .ok b → p b)
    (h : record.read step start document = .ok result) : p result := by
  rw [read, hlayout] at h
  obtain ⟨_, hsame, h⟩ := Outcome.bind_eq_ok_iff.mp h
  cases hsame
  obtain ⟨read, hread, h⟩ := Outcome.bind_eq_ok_iff.mp h
  have hresult : read = result := by
    split at h
    · cases h
    · exact Except.ok.inj h
  subst hresult
  refine Outcome.keeps_of_foldlM (fun member hmember a b ha hb => ?_) hstart hread
  exact hstep member hmember a b ha (ReadError.locate_eq_ok_iff.mp hb)

end Record

end RpcSchema
