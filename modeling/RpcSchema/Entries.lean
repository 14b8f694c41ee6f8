set_option autoImplicit false

/-!
# Entries: maps that remember their order

An object of a document, the fields of a value, the properties of a schema and the models of a
definition are all maps from text to something, listed in the order in which the keys first came.
They are kept as plain lists of pairs, so that they can be nested inside the inductive types that
hold them.

## Main definitions

* `RpcSchema.Entries` — the pairs of such a map, in order.
* `RpcSchema.Entries.insert` — sets the value under a key; a key that is there keeps its place.
* `RpcSchema.Entries.ofList` — the map that a list of pairs describes.
* `RpcSchema.Entries.Distinct` — no key is listed twice.

## Main results

* `RpcSchema.Entries.lookup_insert` — what a look-up sees after an insertion.
* `RpcSchema.Entries.distinct_insert`, `RpcSchema.Entries.distinct_ofList` — insertion keeps keys
  distinct.
-/

namespace RpcSchema

/-- **Entries**: the pairs of a map with text keys, in the order of first insertion. -/
abbrev Entries (α : Type) : Type := List (String × α)

namespace Entries

variable {α β : Type}

/-- The keys, in order. -/
def keys (entries : Entries α) : List String := entries.map Prod.fst

/-- The values, in order. -/
def values (entries : Entries α) : List α := entries.map Prod.snd

/-- Whether `key` is listed. -/
def contains (entries : Entries α) (key : String) : Bool := entries.any (·.1 == key)

/-- Sets the value under `key`. A key that is listed keeps its place, a new one comes last. -/
def insert : Entries α → String → α → Entries α
  | [], key, value => [(key, value)]
  | (k, v) :: rest, key, value =>
    if k == key then (k, value) :: rest else (k, v) :: insert rest key value

/-- The map described by a list of pairs: a repeated key keeps its first place and takes its
last value. -/
def ofList (pairs : List (String × α)) : Entries α :=
  pairs.foldl (fun entries pair => insert entries pair.1 pair.2) []

/-- Applies `f` to every value. -/
def mapValues (f : α → β) (entries : Entries α) : Entries β :=
  entries.map fun pair => (pair.1, f pair.2)

/-- Whether two maps hold equal values under equal keys, in whatever order. -/
def sameMap [BEq α] (left right : Entries α) : Bool :=
  left.length == right.length &&
    left.all fun (key, value) => (right.lookup key).any (value == ·)

/-- No key is listed twice. -/
def Distinct (entries : Entries α) : Prop := (keys entries).Nodup

instance (entries : Entries α) : Decidable (Distinct entries) :=
  inferInstanceAs (Decidable (keys entries).Nodup)

/-! ## Look-up after insertion -/

/-- A look-up takes the first pair whose key is the one looked for. -/
theorem lookup_cons_ite (k key : String) (v : α) (rest : Entries α) :
    List.lookup key ((k, v) :: rest) = if key = k then some v else rest.lookup key := by
  rw [List.lookup_cons]
  by_cases h : key = k
  · simp [h]
  · simp [h, beq_eq_false_iff_ne.mpr h]

/-- **Insertion** sets the value under its key and leaves the value under every other. -/
theorem lookup_insert (entries : Entries α) (key other : String) (value : α) :
    (insert entries key value).lookup other =
      if other = key then some value else entries.lookup other := by
  induction entries with
  | nil => simp [insert, lookup_cons_ite]
  | cons pair rest ih =>
    obtain ⟨k, v⟩ := pair
    by_cases hk : k = key
    · by_cases h : other = key <;> simp [insert, hk, lookup_cons_ite, h]
    · by_cases h : other = k
      · simp [insert, hk, h]
      · simp [insert, hk, lookup_cons_ite, ih, h]

theorem mem_keys_insert (entries : Entries α) (key other : String) (value : α) :
    other ∈ keys (insert entries key value) ↔ other = key ∨ other ∈ keys entries := by
  induction entries with
  | nil => simp [insert, keys]
  | cons pair rest ih =>
    obtain ⟨k, v⟩ := pair
    by_cases hk : k = key
    · simp [insert, keys, hk]
    · simp only [insert, beq_iff_eq, hk, ↓reduceIte, keys, List.map_cons, List.mem_cons]
      rw [show List.map Prod.fst (insert rest key value) = keys (insert rest key value) from rfl,
        ih]
      simp only [keys]
      grind

/-- **Keys stay distinct** under insertion. -/
theorem distinct_insert {entries : Entries α} (h : Distinct entries) (key : String) (value : α) :
    Distinct (insert entries key value) := by
  induction entries with
  | nil => simp [insert, Distinct, keys]
  | cons pair rest ih =>
    obtain ⟨k, v⟩ := pair
    have hcons : k ∉ keys rest ∧ Distinct rest := by
      simpa [Distinct, keys] using h
    by_cases hk : k = key
    · simpa [insert, hk, Distinct, keys] using h
    · have hmem : k ∉ keys (insert rest key value) := by
        rw [mem_keys_insert]
        simp [hk, hcons.1]
      simpa [insert, hk, Distinct, keys] using And.intro hmem (ih hcons.2)

/-- The map described by a list of pairs lists each key once. -/
theorem distinct_ofList (pairs : List (String × α)) : Distinct (ofList pairs) := by
  have step : ∀ (pairs : List (String × α)) (start : Entries α), Distinct start →
      Distinct (pairs.foldl (fun entries pair => insert entries pair.1 pair.2) start) := by
    intro pairs
    induction pairs with
    | nil => intro start h; exact h
    | cons pair rest ih => intro start h; exact ih _ (distinct_insert h _ _)
  exact step pairs [] (by simp [Distinct, keys])

end Entries

end RpcSchema
