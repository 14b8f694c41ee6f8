import Mathlib.Data.List.Nodup
import RpcSchema.Proofs.Entries
import RpcSchema.Proofs.Program.Induction

set_option autoImplicit false

/-!
# Properties and the pairs made along them

Decoding and encoding an object both go through the properties of a shape, leave out those that may
be missing and are, and make a pair for each of the others. What they make *matches* the properties.
A shape may list a key twice; then the map that is made from the pairs holds what was made along the
last property of the key, which *rules* it.

## Main definitions

* `RpcSchema.Program.Shape.presentIn` — the properties for which there will be pairs.
* `RpcSchema.Program.Shape.Admits` — a strict shape has a property under each of the keys.
* `RpcSchema.Program.Matched` — pairs that are made along properties.
* `RpcSchema.Program.Shape.ruling` — the property that rules a key.

## Main results

* `RpcSchema.Program.Matched.ruled` — the map made from matching pairs holds what is made along the
  ruling properties.
* `RpcSchema.Program.Matched.presentIn_ofList` — the map has the same properties as its source.
-/

namespace RpcSchema.Program

variable {α β γ : Type}

/-! ## Properties -/

/-- **The properties that are present in a source**: those that have to be, and of the others those
whose keys are listed. -/
def Shape.presentIn (shape : Shape) (source : Entries α) : List (String × Node) :=
  shape.required ++ shape.optional.filter fun property => Entries.contains source property.1

/-- **The property that rules a key** is the last one of that key. -/
def Shape.ruling (shape : Shape) (key : String) : Option Node :=
  shape.properties.reverse.lookup key

theorem Shape.mem_presentIn {shape : Shape} {source : Entries α} {property : String × Node} :
    property ∈ shape.presentIn source ↔
      property ∈ shape.required ∨
        property ∈ shape.optional ∧ property.1 ∈ Entries.keys source := by
  simp [presentIn]

theorem Shape.presentIn_sublist (shape : Shape) (source : Entries α) :
    (shape.presentIn source).Sublist shape.properties :=
  List.Sublist.append (List.Sublist.refl _) List.filter_sublist

/-- The properties that are present hang on the keys that are listed. -/
theorem Shape.presentIn_congr {shape : Shape} {source : Entries α} {source' : Entries β}
    (h : ∀ property ∈ shape.optional,
      property.1 ∈ Entries.keys source ↔ property.1 ∈ Entries.keys source') :
    shape.presentIn source = shape.presentIn source' := by
  unfold Shape.presentIn
  congr 1
  refine List.filter_congr fun property hproperty => ?_
  rw [Bool.eq_iff_iff, Entries.contains_eq_true_iff, Entries.contains_eq_true_iff]
  exact h property hproperty

theorem Shape.mem_properties_of_mem_presentIn {shape : Shape} {source : Entries α}
    {property : String × Node} (h : property ∈ shape.presentIn source) :
    property ∈ shape.properties := by
  rcases Shape.mem_presentIn.mp h with h | ⟨h, -⟩
  · exact List.mem_append_left _ h
  · exact List.mem_append_right _ h

/-- The property that rules a key is one of the shape. -/
theorem Shape.mem_of_ruling {shape : Shape} {key : String} {node : Node}
    (h : shape.ruling key = some node) : (key, node) ∈ shape.properties :=
  List.mem_reverse.mp (Entries.mem_of_lookup h)

theorem Shape.declares_iff {shape : Shape} {key : String} :
    shape.declares key = true ↔ key ∈ Entries.keys shape.properties := by
  simp [declares, properties, Entries.keys]

/-- **A strict shape has a property** under each of the keys; the tag of a union counts as one. -/
def Shape.Admits (shape : Shape) (tag : Option String) (keys : List String) : Prop :=
  shape.strict = true → ∀ key ∈ keys, shape.declares key = true ∨ some key = tag

/-- Leaving out pairs of other keys does not change what is found under a key. -/
theorem lookup_filter_of_contains {source : Entries α} {key : String}
    (h : Entries.contains source key = true) (list : List (String × β)) :
    (list.filter fun pair => Entries.contains source pair.1).lookup key = list.lookup key := by
  induction list with
  | nil => rfl
  | cons pair rest ih =>
    obtain ⟨k, b⟩ := pair
    rw [List.filter_cons]
    by_cases hk : key = k
    · subst hk
      simp [h]
    · split
      · rw [Entries.lookup_cons_ite, Entries.lookup_cons_ite, if_neg hk, if_neg hk, ih]
      · rw [Entries.lookup_cons_ite, if_neg hk, ih]

/-- The property that rules a key of the source is the last one of the key that is present. -/
theorem Shape.lookup_reverse_presentIn {shape : Shape} {source : Entries α} {key : String}
    (h : key ∈ Entries.keys source) :
    (shape.presentIn source).reverse.lookup key = shape.ruling key := by
  have hcontains : Entries.contains source key = true := Entries.contains_eq_true_iff.mpr h
  rw [ruling, properties, presentIn, List.reverse_append, List.reverse_append,
    List.lookup_append, List.lookup_append, ← List.filter_reverse,
    lookup_filter_of_contains hcontains]

/-! ## Matching pairs -/

/-- **Pairs match properties** when each is made along its property, from what the source holds
under the same key. -/
def Matched (relation : Node → α → β → Prop) (source : Entries α)
    (properties : List (String × Node)) (pairs : List (String × β)) : Prop :=
  List.Forall₂ (fun property pair => pair.1 = property.1 ∧
    ∃ a, source.lookup property.1 = some a ∧ relation property.2 a pair.2) properties pairs

namespace Matched

variable {relation : Node → α → β → Prop} {source : Entries α}
  {properties : List (String × Node)} {pairs : List (String × β)}

@[simp] theorem nil_left_iff : Matched relation source [] pairs ↔ pairs = [] :=
  List.forall₂_nil_left_iff

theorem cons_left_iff {key : String} {node : Node} :
    Matched relation source ((key, node) :: properties) pairs ↔
      ∃ a b rest, source.lookup key = some a ∧ relation node a b ∧
        Matched relation source properties rest ∧ pairs = (key, b) :: rest := by
  unfold Matched
  rw [List.forall₂_cons_left_iff]
  constructor
  · rintro ⟨⟨k, b⟩, rest, ⟨hk, a, ha, hab⟩, hrest, rfl⟩
    obtain rfl : k = key := hk
    exact ⟨a, b, rest, ha, hab, hrest, rfl⟩
  · rintro ⟨a, b, rest, ha, hab, hrest, rfl⟩
    exact ⟨(key, b), rest, ⟨rfl, a, ha, hab⟩, hrest, rfl⟩

theorem append_left_iff {first second : List (String × Node)} :
    Matched relation source (first ++ second) pairs ↔
      ∃ pairs₁ pairs₂, Matched relation source first pairs₁ ∧
        Matched relation source second pairs₂ ∧ pairs = pairs₁ ++ pairs₂ := by
  constructor
  · intro h
    refine ⟨pairs.take first.length, pairs.drop first.length, ?_, ?_,
      (List.take_append_drop _ _).symm⟩
    · exact List.forall₂_take_append pairs first second h.flip |>.flip
    · exact List.forall₂_drop_append pairs first second h.flip |>.flip
  · rintro ⟨pairs₁, pairs₂, h₁, h₂, rfl⟩
    exact List.rel_append h₁ h₂

/-- What is made along each of the properties in one way may be made in another. -/
theorem imp {relation' : Node → α → β → Prop} (h : Matched relation source properties pairs)
    (himp : ∀ property ∈ properties, ∀ a b, relation property.2 a b → relation' property.2 a b) :
    Matched relation' source properties pairs := by
  induction h with
  | nil => exact nil_left_iff.mpr rfl
  | cons hpair _ ih =>
    rw [List.forall_mem_cons] at himp
    obtain ⟨hkey, a, ha, hab⟩ := hpair
    exact .cons ⟨hkey, a, ha, himp.1 a _ hab⟩ (ih himp.2)

/-- Matching pairs have the keys of their properties. -/
theorem keys_eq (h : Matched relation source properties pairs) :
    Entries.keys pairs = Entries.keys properties := by
  induction h with
  | nil => rfl
  | cons hpair _ ih =>
    rw [Entries.keys, List.map_cons, hpair.1]
    exact congrArg _ ih

/-- Every key is one of the source. -/
theorem mem_keys_source (h : Matched relation source properties pairs) {key : String}
    (hkey : key ∈ Entries.keys properties) : key ∈ Entries.keys source := by
  induction h with
  | nil => simp [Entries.keys] at hkey
  | cons hpair _ ih =>
    rcases List.mem_cons.mp hkey with rfl | hkey
    · obtain ⟨a, ha, -⟩ := hpair.2
      exact Entries.mem_keys_of_mem (Entries.mem_of_lookup ha)
    · exact ih hkey

theorem reverse (h : Matched relation source properties pairs) :
    Matched relation source properties.reverse pairs.reverse :=
  List.rel_reverse h

/-- What is found among the pairs is made along what is found among the properties. -/
theorem lookup (h : Matched relation source properties pairs) {key : String} {node : Node}
    (hnode : properties.lookup key = some node) :
    ∃ a b, source.lookup key = some a ∧ relation node a b ∧ pairs.lookup key = some b := by
  induction h with
  | nil => cases hnode
  | @cons property pair _ _ hpair _ ih =>
    obtain ⟨k, inner⟩ := property
    obtain ⟨k', b⟩ := pair
    obtain ⟨hk, a, ha, hab⟩ := hpair
    obtain rfl : k' = k := hk
    rw [Entries.lookup_cons_ite] at hnode
    by_cases hkey : key = k'
    · subst hkey
      rw [if_pos rfl] at hnode
      cases hnode
      exact ⟨a, b, ha, hab, by simp⟩
    · rw [if_neg hkey] at hnode
      obtain ⟨a', b', ha', hab', hb'⟩ := ih hnode
      exact ⟨a', b', ha', hab', by rw [Entries.lookup_cons_ite, if_neg hkey, hb']⟩

/-- With distinct keys it is enough to look up every key. -/
theorem of_lookup {properties : List (String × Node)} {pairs : List (String × β)}
    (hdistinct : Entries.Distinct properties)
    (hkeys : Entries.keys pairs = Entries.keys properties)
    (h : ∀ property ∈ properties, ∃ a b, source.lookup property.1 = some a ∧
      pairs.lookup property.1 = some b ∧ relation property.2 a b) :
    Matched relation source properties pairs := by
  induction properties generalizing pairs with
  | nil => exact nil_left_iff.mpr (List.map_eq_nil_iff.mp hkeys)
  | cons property rest ih =>
    obtain ⟨key, node⟩ := property
    obtain ⟨⟨key', b⟩, others, rfl, hkey, hothers⟩ := List.map_eq_cons_iff.mp hkeys
    obtain rfl : key' = key := hkey
    have hcons : key' ∉ Entries.keys rest ∧ Entries.Distinct rest := by
      simpa [Entries.Distinct, Entries.keys] using hdistinct
    obtain ⟨a, b', ha, hb', hab⟩ := h _ List.mem_cons_self
    rw [List.lookup_cons_self, Option.some.injEq] at hb'
    subst hb'
    refine cons_left_iff.mpr ⟨a, b, others, ha, hab, ih hcons.2 hothers ?_, rfl⟩
    intro property hproperty
    have hne : property.1 ≠ key' := fun heq => hcons.1 (heq ▸ List.mem_map_of_mem hproperty)
    obtain ⟨a', b', ha', hb', hab'⟩ := h property (List.mem_cons_of_mem _ hproperty)
    rw [Entries.lookup_cons_ite, if_neg hne] at hb'
    exact ⟨a', b', ha', hb', hab'⟩

/-- **Source and pairs change places** when they have the same keys, each once. -/
theorem flip (hdistinct : Entries.Distinct properties)
    (hkeys : Entries.keys source = Entries.keys properties)
    (h : Matched relation source properties pairs) :
    Matched (fun node b a => relation node a b) pairs properties source := by
  refine of_lookup hdistinct hkeys fun property hproperty => ?_
  obtain ⟨a, b, ha, hab, hb⟩ := h.lookup (Entries.lookup_of_mem hdistinct hproperty)
  exact ⟨b, a, hb, ha, hab⟩

/-- **The map made from matching pairs** holds under the key of each property what is made along
the ruling one. -/
theorem ruled {shape : Shape} (h : Matched relation source (shape.presentIn source) pairs)
    {property : String × Node} (hproperty : property ∈ shape.presentIn source) :
    ∃ node a b, shape.ruling property.1 = some node ∧ source.lookup property.1 = some a ∧
      relation node a b ∧ (Entries.ofList pairs).lookup property.1 = some b := by
  have hkey : property.1 ∈ Entries.keys (shape.presentIn source) := List.mem_map_of_mem hproperty
  have hsource := h.mem_keys_source hkey
  have hreverse : property.1 ∈ Entries.keys (shape.presentIn source).reverse := by
    simpa [Entries.keys] using hkey
  obtain ⟨node, hnode⟩ := Entries.exists_lookup_iff.mpr hreverse
  obtain ⟨a, b, ha, hab, hb⟩ := h.reverse.lookup hnode
  refine ⟨node, a, b, ?_, ha, hab, ?_⟩
  · rw [← Shape.lookup_reverse_presentIn hsource, hnode]
  · rw [Entries.lookup_ofList, hb]

theorem mem_keys_ofList {key : String} :
    key ∈ Entries.keys (Entries.ofList pairs) ↔ key ∈ Entries.keys pairs := by
  rw [← Entries.exists_lookup_iff, ← Entries.exists_lookup_iff]
  simp only [Entries.lookup_ofList]
  rw [Entries.exists_lookup_iff, Entries.exists_lookup_iff]
  simp [Entries.keys]

/-- **The map made from matching pairs** has the properties that the source has. -/
theorem presentIn_ofList {shape : Shape}
    (h : Matched relation source (shape.presentIn source) pairs) :
    shape.presentIn (Entries.ofList pairs) = shape.presentIn source := by
  refine Shape.presentIn_congr fun property hproperty => ?_
  rw [mem_keys_ofList, h.keys_eq]
  constructor
  · exact h.mem_keys_source
  · intro hkey
    exact List.mem_map_of_mem (Shape.mem_presentIn.mpr (.inr ⟨hproperty, hkey⟩))

/-- A strict shape admits the keys of the map. -/
theorem admits_ofList {shape : Shape} (h : Matched relation source (shape.presentIn source) pairs)
    (tag : Option String) : shape.Admits tag (Entries.keys (Entries.ofList pairs)) := by
  intro _ key hkey
  rw [mem_keys_ofList, h.keys_eq] at hkey
  obtain ⟨property, hproperty, rfl⟩ := List.mem_map.mp hkey
  exact .inl (Shape.declares_iff.mpr
    (List.mem_map_of_mem (Shape.mem_properties_of_mem_presentIn hproperty)))

end Matched

end RpcSchema.Program
