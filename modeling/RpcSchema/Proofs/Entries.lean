import Mathlib.Data.List.Forall2
import RpcSchema.Entries

set_option autoImplicit false

/-!
# Looking up entries

What a look-up finds in a map that is made from a list of pairs, and in a list whose keys are
distinct.

## Main results

* `RpcSchema.Entries.lookup_ofList` — in the map made from pairs the last pair of a key counts.
* `RpcSchema.Entries.ofList_of_distinct` — pairs with distinct keys are the map made from them.
* `RpcSchema.Entries.lookup_of_mem` — every pair is found when keys are distinct.
-/

namespace RpcSchema.Entries

variable {α β : Type}

/-! ## Keys -/

/-- A look-up finds one of the pairs. -/
theorem mem_of_lookup {entries : Entries α} {key : String} {value : α}
    (h : entries.lookup key = some value) : (key, value) ∈ entries := by
  obtain ⟨before, after, rfl, -⟩ := List.lookup_eq_some_iff.mp h
  simp

theorem mem_keys_of_mem {entries : Entries α} {key : String} {value : α}
    (h : (key, value) ∈ entries) : key ∈ keys entries :=
  List.mem_map_of_mem h

@[simp] theorem contains_eq_true_iff {entries : Entries α} {key : String} :
    contains entries key = true ↔ key ∈ keys entries := by
  simp [contains, keys]

theorem lookup_eq_none_iff {entries : Entries α} {key : String} :
    entries.lookup key = none ↔ key ∉ keys entries := by
  simp only [List.lookup_eq_none_iff, bne_iff_ne, ne_eq, keys, List.mem_map]
  grind

/-- A key that is listed is found. -/
theorem exists_lookup_iff {entries : Entries α} {key : String} :
    (∃ value, entries.lookup key = some value) ↔ key ∈ keys entries := by
  rw [← Option.isSome_iff_exists, Option.isSome_iff_ne_none, ne_eq, lookup_eq_none_iff, not_not]

/-- What is found under a key in one list corresponds to what is found under it in the other. -/
theorem exists_lookup_of_forall₂ {relation : String × α → String × β → Prop}
    (hkeys : ∀ a b, relation a b → b.1 = a.1) {list : List (String × α)}
    {results : List (String × β)} (h : List.Forall₂ relation list results) {key : String} {a : α}
    (ha : list.lookup key = some a) :
    ∃ b, results.lookup key = some b ∧ relation (key, a) (key, b) := by
  induction h with
  | nil => cases ha
  | @cons pair pair' rest rest' hpair _ ih =>
    obtain ⟨other, x⟩ := pair
    obtain ⟨other', y⟩ := pair'
    obtain rfl : other' = other := hkeys _ _ hpair
    rw [lookup_cons_ite] at ha ⊢
    by_cases hkey : key = other'
    · subst hkey
      rw [if_pos rfl, Option.some.injEq] at ha
      subst ha
      exact ⟨y, if_pos rfl, hpair⟩
    · rw [if_neg hkey] at ha ⊢
      exact ih ha

/-- Lists with the same keys correspond entry by entry when their values do. -/
theorem forall₂_of_keys_values {relation : α → β → Prop} :
    ∀ {entries : Entries α} {entries' : Entries β}, keys entries' = keys entries →
      List.Forall₂ relation (values entries) (values entries') →
      List.Forall₂ (fun entry entry' => entry'.1 = entry.1 ∧ relation entry.2 entry'.2) entries
        entries'
  | [], [], _, _ => .nil
  | (key, a) :: rest, (key', b) :: rest', hkeys, .cons hfirst hrest => by
    obtain ⟨hkey, hkeys⟩ := List.cons_eq_cons.mp hkeys
    exact .cons ⟨hkey, hfirst⟩ (forall₂_of_keys_values hkeys hrest)

/-! ## Maps made from pairs -/

/-- **In the map made from pairs** the last pair of a key counts. -/
theorem lookup_ofList (pairs : List (String × α)) (key : String) :
    (ofList pairs).lookup key = pairs.reverse.lookup key := by
  have step : ∀ (pairs : List (String × α)) (start : Entries α),
      (pairs.foldl (fun entries pair => insert entries pair.1 pair.2) start).lookup key =
        (pairs.reverse.lookup key).or (start.lookup key) := by
    intro pairs
    induction pairs with
    | nil => intro start; simp
    | cons pair rest ih =>
      intro start
      rw [List.foldl_cons, ih, lookup_insert, List.reverse_cons, List.lookup_append,
        Option.or_assoc]
      congr 1
      obtain ⟨k, v⟩ := pair
      by_cases hkey : key = k <;> simp [hkey, lookup_cons_ite]
  simpa [ofList] using step pairs []

theorem keys_insert_of_not_mem {entries : Entries α} {key : String} (h : key ∉ keys entries)
    (value : α) : insert entries key value = entries ++ [(key, value)] := by
  induction entries with
  | nil => rfl
  | cons pair rest ih =>
    obtain ⟨k, v⟩ := pair
    simp only [keys, List.map_cons, List.mem_cons, not_or] at h
    simp [insert, Ne.symm h.1, ih h.2]

theorem insert_ne_nil (entries : Entries α) (key : String) (value : α) :
    insert entries key value ≠ [] := by
  rcases entries with _ | ⟨⟨k, v⟩, rest⟩
  · simp [insert]
  · rw [insert]
    split <;> simp

/-- What is listed after an insertion is what has been inserted or was listed before. -/
theorem forall_mem_insert {p : α → Prop} {entries : Entries α} {key : String} {value : α}
    (h : ∀ entry ∈ entries, p entry.2) (hvalue : p value) :
    ∀ entry ∈ insert entries key value, p entry.2 := by
  induction entries with
  | nil => simpa [insert] using hvalue
  | cons entry rest ih =>
    obtain ⟨k, v⟩ := entry
    obtain ⟨hfirst, hrest⟩ := List.forall_mem_cons.mp h
    rw [insert]
    split
    · exact List.forall_mem_cons.mpr ⟨hvalue, hrest⟩
    · exact List.forall_mem_cons.mpr ⟨hfirst, ih hrest⟩

/-- **A key that is listed keeps its place** when its value is set. -/
theorem exists_insert_eq {entries : Entries α} {key : String} {old : α}
    (h : entries.lookup key = some old) :
    ∃ before after, entries = before ++ (key, old) :: after ∧
      ∀ value, insert entries key value = before ++ (key, value) :: after := by
  induction entries with
  | nil => cases h
  | cons pair rest ih =>
    obtain ⟨k, v⟩ := pair
    rw [lookup_cons_ite] at h
    split at h
    · rename_i heq
      subst heq
      cases h
      exact ⟨[], rest, rfl, fun value => by simp [insert]⟩
    · rename_i hne
      obtain ⟨before, after, rfl, hinsert⟩ := ih h
      exact ⟨(k, v) :: before, after, rfl, fun value => by simp [insert, Ne.symm hne, hinsert]⟩

/-- Setting the value of a key that is listed leaves the keys as they are. -/
theorem keys_insert_of_mem {entries : Entries α} {key : String} (h : key ∈ keys entries)
    (value : α) : keys (insert entries key value) = keys entries := by
  obtain ⟨old, hold⟩ := exists_lookup_iff.mpr h
  obtain ⟨before, after, rfl, hinsert⟩ := exists_insert_eq hold
  simp [hinsert, keys]

/-- **The keys after an insertion**: a key that is not listed comes last. -/
theorem keys_insert (entries : Entries α) (key : String) (value : α) :
    keys (insert entries key value) =
      if key ∈ keys entries then keys entries else keys entries ++ [key] := by
  by_cases h : key ∈ keys entries
  · rw [if_pos h, keys_insert_of_mem h]
  · rw [if_neg h, keys_insert_of_not_mem h]
    simp [keys]

/-- Setting what is there already changes nothing. -/
theorem insert_eq_self {entries : Entries α} {key : String} {value : α}
    (h : entries.lookup key = some value) : insert entries key value = entries := by
  obtain ⟨before, after, heq, hinsert⟩ := exists_insert_eq h
  exact (hinsert value).trans heq.symm

/-- Of two values that are set under a key the second counts. -/
theorem insert_insert (entries : Entries α) (key : String) (first second : α) :
    insert (insert entries key first) key second = insert entries key second := by
  induction entries with
  | nil => simp [insert]
  | cons pair rest ih =>
    obtain ⟨k, v⟩ := pair
    by_cases hk : k = key
    · simp [insert, hk]
    · simp [insert, hk, ih]

/-- **Pairs with distinct keys** are the map made from them. -/
theorem ofList_of_distinct {pairs : List (String × α)} (h : Distinct pairs) :
    ofList pairs = pairs := by
  have step : ∀ (pairs : List (String × α)) (start : Entries α), Distinct (start ++ pairs) →
      pairs.foldl (fun entries pair => insert entries pair.1 pair.2) start = start ++ pairs := by
    intro pairs
    induction pairs with
    | nil => intro start _; simp
    | cons pair rest ih =>
      intro start hstart
      obtain ⟨k, v⟩ := pair
      have hnew : k ∉ keys start := by
        simp only [Distinct, keys, List.map_append, List.map_cons, List.nodup_append] at hstart
        intro hmem
        exact hstart.2.2 k hmem k (by simp) rfl
      rw [List.foldl_cons, keys_insert_of_not_mem hnew, ih _ (by simpa using hstart)]
      simp
  simpa [ofList] using step pairs [] (by simpa using h)

/-- A pair of a key that no other has stays in front. -/
theorem ofList_cons {key : String} {pairs : List (String × α)}
    (h : key ∉ keys pairs) (value : α) : ofList ((key, value) :: pairs) =
      (key, value) :: ofList pairs := by
  have step : ∀ (pairs : List (String × α)) (start : Entries α), key ∉ keys pairs →
      pairs.foldl (fun entries pair => insert entries pair.1 pair.2) ((key, value) :: start) =
        (key, value) :: pairs.foldl (fun entries pair => insert entries pair.1 pair.2) start := by
    intro pairs
    induction pairs with
    | nil => exact fun start _ => rfl
    | cons pair rest ih =>
      intro start hkey
      obtain ⟨hne, hrest⟩ : key ≠ pair.1 ∧ key ∉ keys rest := by simpa [keys] using hkey
      have hinsert : insert ((key, value) :: start) pair.1 pair.2 =
          (key, value) :: insert start pair.1 pair.2 := by
        simp [insert, hne]
      rw [List.foldl_cons, List.foldl_cons, hinsert, ih _ hrest]
  exact step pairs [] h

/-- With distinct keys every pair is found. -/
theorem lookup_of_mem {entries : Entries α} (h : Distinct entries) {key : String} {value : α}
    (hmem : (key, value) ∈ entries) : entries.lookup key = some value := by
  induction entries with
  | nil => simp at hmem
  | cons pair rest ih =>
    obtain ⟨k, v⟩ := pair
    simp only [Distinct, keys, List.map_cons, List.nodup_cons] at h
    rw [lookup_cons_ite]
    rcases List.mem_cons.mp hmem with heq | hmem
    · obtain ⟨rfl, rfl⟩ := Prod.mk.inj heq
      simp
    · have hne : key ≠ k := fun e => h.1 (e ▸ mem_keys_of_mem hmem)
      rw [if_neg hne]
      exact ih h.2 hmem

/-- In whatever order they are listed, pairs with distinct keys are found alike. -/
theorem lookup_eq_of_perm {entries entries' : Entries α} (h : Distinct entries)
    (hperm : entries.Perm entries') (key : String) : entries.lookup key = entries'.lookup key := by
  have h' : Distinct entries' := (hperm.map Prod.fst).nodup_iff.mp h
  ext value
  constructor
  · exact fun hlookup => lookup_of_mem h' (hperm.mem_iff.mp (mem_of_lookup hlookup))
  · exact fun hlookup => lookup_of_mem h (hperm.mem_iff.mpr (mem_of_lookup hlookup))

end RpcSchema.Entries
