import RpcSchema.Proofs.Entries
import RpcSchema.Proofs.Json.Induction

set_option autoImplicit false

/-!
# Documents with their keys in another order

Two documents may hold the same and differ in the order in which their objects list their keys. What
is found under a key does not hang on that order, as long as no key is listed twice.

## Main definitions

* `RpcSchema.Json.Rearranged` — equal but for the order of keys, at every depth.

## Main results

* `RpcSchema.Json.Rearranged.of_perm` — an object may list its entries in any order.
* `RpcSchema.Json.Rearranged.lookup` — what is found under a key in both objects.
-/

namespace RpcSchema.Json

/-- **Equal but for the order of keys**, at every depth: the values under the keys may be rearranged
themselves, and the entries may change places. -/
inductive Rearranged : Json → Json → Prop
  | null : Rearranged .null .null
  | bool (value : Bool) : Rearranged (.bool value) (.bool value)
  | number (value : Number) : Rearranged (.number value) (.number value)
  | string (value : String) : Rearranged (.string value) (.string value)
  | array {items items' : List Json} :
    List.Forall₂ Rearranged items items' → Rearranged (.array items) (.array items')
  | object {entries between entries' : Entries Json} :
    Entries.keys between = Entries.keys entries →
    List.Forall₂ Rearranged (Entries.values entries) (Entries.values between) →
    between.Perm entries' → Rearranged (.object entries) (.object entries')

namespace Rearranged

/-- Every document is equal to itself. -/
theorem refl (input : Json) : Rearranged input input := by
  induction input using Json.induct with
  | null => exact .null
  | bool value => exact .bool value
  | number value => exact .number value
  | string value => exact .string value
  | array items ih => exact .array (List.forall₂_same.mpr ih)
  | object entries ih =>
    refine .object rfl (List.forall₂_same.mpr fun item hitem => ?_) (.refl entries)
    obtain ⟨entry, hentry, rfl⟩ := List.mem_map.mp hitem
    exact ih entry hentry

/-- An object may list its entries in any order. -/
theorem of_perm {entries entries' : Entries Json} (h : entries.Perm entries') :
    Rearranged (.object entries) (.object entries') :=
  .object rfl (List.forall₂_same.mpr fun item _ => refl item) h

variable {entries entries' : Entries Json}

/-- The first object has the keys of one that lists the entries of the second in its own order. -/
theorem exists_between (h : Rearranged (.object entries) (.object entries')) :
    ∃ between : Entries Json,
      List.Forall₂ (fun entry entry' : String × Json =>
        entry'.1 = entry.1 ∧ Rearranged entry.2 entry'.2) entries between ∧
      between.Perm entries' := by
  cases h with
  | @object _ between _ hkeys hvalues hperm =>
    exact ⟨between, Entries.forall₂_of_keys_values hkeys hvalues, hperm⟩

/-- Objects that are rearranged have the same keys. -/
theorem perm_keys (h : Rearranged (.object entries) (.object entries')) :
    (Entries.keys entries).Perm (Entries.keys entries') := by
  cases h with
  | object hkeys _ hperm => exact hkeys ▸ hperm.map Prod.fst

/-- **What is found under a key** in one of two objects is found in the other, but for the order of
keys. -/
theorem lookup (hdistinct : Entries.Distinct entries)
    (h : Rearranged (.object entries) (.object entries')) (key : String) :
    Option.Rel Rearranged (entries.lookup key) (entries'.lookup key) := by
  obtain ⟨between, haligned, hperm⟩ := h.exists_between
  have hbetween : Entries.Distinct between :=
    (hperm.map Prod.fst).nodup_iff.mpr (h.perm_keys.nodup_iff.mp hdistinct)
  rw [← Entries.lookup_eq_of_perm hbetween hperm]
  cases hitem : entries.lookup key with
  | none =>
    have hkey : key ∉ Entries.keys between := fun hkey => Entries.lookup_eq_none_iff.mp hitem
      (h.perm_keys.mem_iff.mpr ((hperm.map Prod.fst).mem_iff.mp hkey))
    rw [Entries.lookup_eq_none_iff.mpr hkey]
    exact .none
  | some item =>
    obtain ⟨item', hitem', -, hrearranged⟩ :=
      Entries.exists_lookup_of_forall₂ (fun _ _ hentry => hentry.1) haligned hitem
    rw [hitem']
    exact .some hrearranged

end Rearranged

end RpcSchema.Json
