import Mathlib.Data.List.Nodup
import Mathlib.Data.List.Pairwise
import RpcSchema.Proofs.Outcome
import RpcSchema.Proofs.Procedure.Leaves

set_option autoImplicit false

/-!
# Maps of procedures as trees and back

The keys of a map make up a tree exactly when no segment of a key is empty and no key leads on to
another. It does not matter in which order they are listed. The tree has a leaf for every procedure
of the map, and so the map is found again when the tree is flattened.

## Main definitions

* `RpcSchema.ProperPrefix` — a list of segments leads on to another.

## Main results

* `RpcSchema.Procedure.intercalate_segments` — a key is told by its segments.
* `RpcSchema.Service.exists_ofProcedures_iff` — which maps make up a tree.
* `RpcSchema.Service.perm_leaves_ofProcedures` — the leaves of the tree of a map.
* `RpcSchema.Service.ofProcedures_and_flatten` — from maps to trees and back.
-/

namespace RpcSchema

open Outcome (bind_eq_ok_iff)

/-- **A list of segments leads on to another**: it is the first part of it, but not the whole. -/
def ProperPrefix (path other : List String) : Prop := path <+: other ∧ path ≠ other

instance (path other : List String) : Decidable (ProperPrefix path other) :=
  inferInstanceAs (Decidable (path <+: other ∧ path ≠ other))

/-- Of different lists neither leads on to the other if they are apart. -/
theorem apart_iff_of_ne {path other : List String} (h : path ≠ other) :
    Apart path other ↔ ¬ ProperPrefix path other ∧ ¬ ProperPrefix other path := by
  simp only [Apart, ProperPrefix]
  grind

/-! ## Keys -/

namespace Procedure

theorem segments_ne_nil (key : String) : segments key ≠ [] := by
  simpa [segments, Text.split] using Text.parts_ne_nil '.' key.toList

/-- **A key is told by its segments.** -/
theorem intercalate_segments (key : String) : ".".intercalate (segments key) = key := by
  refine String.toList_inj.mp ?_
  have hparts : (segments key).map String.toList = Text.parts '.' key.toList := by
    simp [segments, Text.split, Function.comp_def]
  rw [String.toList_intercalate, hparts]
  exact Text.intercalate_parts '.' key.toList

theorem segments_injective : Function.Injective segments := fun key other h => by
  rw [← intercalate_segments key, h, intercalate_segments]

end Procedure

namespace Service

/-! ## Flattening -/

mutual

/-- The procedures of an entry are its leaves, each under the key that its segments make up. -/
theorem flattenBranch_eq : ∀ (branch : Branch) (key : String),
    flattenBranch key branch = branch.leaves.map fun leaf => (leaf.1.foldl keyBelow key, leaf.2)
  | .procedure procedure, key => rfl
  | .service ⟨children⟩, key => by
    rw [flattenBranch, flattenChildren_eq children, Branch.leaves, leaves]

/-- The procedures of the entries of a level are their leaves. -/
theorem flattenChildren_eq : ∀ (children : List (String × Branch)) (outer : String),
    flattenChildren outer children =
      (leavesAmong children).map fun leaf => (leaf.1.foldl keyBelow outer, leaf.2)
  | [], outer => rfl
  | (segment, branch) :: rest, outer => by
    rw [flattenChildren, flattenBranch_eq branch, flattenChildren_eq rest, leavesAmong,
      List.map_append, List.map_map]
    rfl

end

/-- Below a key the segments are put behind it, with points in front of them. -/
theorem foldl_keyBelow {outer : String} (houter : outer ≠ "") (segments : List String) :
    segments.foldl keyBelow outer = ".".intercalate (outer :: segments) := by
  induction segments generalizing outer with
  | nil => simp
  | cons segment rest ih =>
    have hne : outer ++ "." ++ segment ≠ "" := by simp [houter]
    rw [List.foldl_cons, keyBelow, if_neg houter, ih hne, String.intercalate_cons_cons,
      ← String.intercalate_cons_append]

/-- The segments of a key make up the key. -/
theorem foldl_keyBelow_segments {key : String} (h : "" ∉ Procedure.segments key) :
    (Procedure.segments key).foldl keyBelow "" = key := by
  obtain ⟨segment, rest, hsegments⟩ := List.exists_cons_of_ne_nil (Procedure.segments_ne_nil key)
  have hne : segment ≠ "" := fun heq => h (by rw [hsegments, heq]; exact List.mem_cons_self)
  conv_rhs => rw [← Procedure.intercalate_segments key]
  rw [hsegments, List.foldl_cons, keyBelow, if_pos rfl, foldl_keyBelow hne]

/-! ## Trees of maps -/

variable {service service' : Service} {key : String} {procedure : Procedure}

/-- **A procedure can be added under a key** exactly when no segment of the key is empty and no leaf
is in the way. -/
theorem exists_insert_iff (hproper : service.Proper) :
    (∃ service', service.insert key procedure = .ok service') ↔
      "" ∉ Procedure.segments key ∧
        ∀ leaf ∈ service.leaves, Apart leaf.1 (Procedure.segments key) := by
  obtain ⟨children⟩ := service
  rw [leaves, ← exists_insertSegments_iff (Procedure.segments_ne_nil key) hproper, insert]
  by_cases hempty : "" ∈ Procedure.segments key
  · simp [hempty]
  · simp only [List.any_beq', List.contains_eq_mem, hempty]
    cases insertSegments procedure (Procedure.segments key) children <;> simp

/-- The leaves of a tree with a procedure added. -/
theorem perm_leaves_insert (hproper : service.Proper)
    (h : service.insert key procedure = .ok service') :
    "" ∉ Procedure.segments key ∧ service'.Proper ∧
      service'.leaves.Perm ((Procedure.segments key, procedure) :: service.leaves) := by
  refine ⟨((exists_insert_iff hproper).mp ⟨_, h⟩).1, ?_⟩
  obtain ⟨children⟩ := service
  simp only [insert] at h
  split at h
  · cases h
  · split at h
    · rename_i children' hchildren
      cases h
      obtain ⟨hproper', -, hleaves⟩ :=
        perm_leavesAmong_insertSegments (Procedure.segments_ne_nil key) hproper hchildren
      exact ⟨hproper', hleaves⟩
    · cases h

/-- Adds the procedures of a map to a tree. -/
abbrev insertAll (service : Service) (procedures : Entries Procedure) : Except TreeError Service :=
  procedures.foldlM (fun service entry => service.insert entry.1 entry.2) service

/-- Procedures can be added one after the other when no segment of their keys is empty, no leaf is
in their way and neither are they in the way of each other. -/
theorem exists_insertAll_iff {procedures : Entries Procedure} (hproper : service.Proper) :
    (∃ tree, service.insertAll procedures = .ok tree) ↔
      (∀ key ∈ Entries.keys procedures, "" ∉ Procedure.segments key ∧
        ∀ leaf ∈ service.leaves, Apart leaf.1 (Procedure.segments key)) ∧
      (Entries.keys procedures).Pairwise fun key other =>
        Apart (Procedure.segments key) (Procedure.segments other) := by
  induction procedures generalizing service with
  | nil => exact iff_of_true ⟨service, rfl⟩ ⟨by simp [Entries.keys], List.Pairwise.nil⟩
  | cons entry rest ih =>
    obtain ⟨key, procedure⟩ := entry
    simp only [insertAll, List.foldlM_cons, bind_eq_ok_iff]
    simp only [Entries.keys, List.map_cons, List.forall_mem_cons, List.pairwise_cons]
    constructor
    · rintro ⟨tree, service', hservice', hrest⟩
      obtain ⟨hsegments, hproper', hleaves⟩ := perm_leaves_insert hproper hservice'
      obtain ⟨hkeys, hpairs⟩ := (ih hproper').mp ⟨tree, hrest⟩
      have hfirst := (exists_insert_iff hproper).mp ⟨service', hservice'⟩
      have hleaf : ∀ leaf ∈ service.leaves, leaf ∈ service'.leaves := fun leaf hleaf =>
        hleaves.mem_iff.mpr (List.mem_cons_of_mem _ hleaf)
      refine ⟨⟨hfirst, fun other hother => ⟨(hkeys other hother).1, fun leaf hmem =>
        (hkeys other hother).2 leaf (hleaf leaf hmem)⟩⟩, fun other hother => ?_, hpairs⟩
      exact (hkeys other hother).2 _ (hleaves.mem_iff.mpr List.mem_cons_self)
    · rintro ⟨⟨hfirst, hkeys⟩, hbehind, hpairs⟩
      obtain ⟨service', hservice'⟩ : ∃ service', service.insert key procedure = .ok service' :=
        (exists_insert_iff hproper).mpr hfirst
      obtain ⟨-, hproper', hleaves⟩ := perm_leaves_insert hproper hservice'
      have hkeys' : ∀ other ∈ rest.map Prod.fst, "" ∉ Procedure.segments other ∧
          ∀ leaf ∈ service'.leaves, Apart leaf.1 (Procedure.segments other) := by
        refine fun other hother => ⟨(hkeys other hother).1, fun leaf hleaf => ?_⟩
        rcases List.mem_cons.mp (hleaves.mem_iff.mp hleaf) with rfl | hleaf
        · exact hbehind other hother
        · exact (hkeys other hother).2 leaf hleaf
      obtain ⟨tree, htree⟩ := (ih hproper').mpr ⟨hkeys', hpairs⟩
      exact ⟨tree, service', hservice', htree⟩

/-- The leaves of a tree with the procedures of a map added. -/
theorem perm_leaves_insertAll {procedures : Entries Procedure} {tree : Service}
    (hproper : service.Proper) (h : service.insertAll procedures = .ok tree) :
    tree.Proper ∧ tree.leaves.Perm
      (procedures.map (fun entry => (Procedure.segments entry.1, entry.2)) ++ service.leaves) := by
  induction procedures generalizing service with
  | nil =>
    cases h
    exact ⟨hproper, .refl _⟩
  | cons entry rest ih =>
    rw [insertAll, List.foldlM_cons] at h
    obtain ⟨service', hservice', hrest⟩ := bind_eq_ok_iff.mp h
    obtain ⟨-, hproper', hleaves⟩ := perm_leaves_insert hproper hservice'
    obtain ⟨htree, hperm⟩ := ih hproper' hrest
    exact ⟨htree, hperm.trans ((hleaves.append_left _).trans List.perm_middle)⟩

theorem proper_empty : empty.Proper := trivial

/-- **The keys of a map make up a tree** exactly when no segment of a key is empty and no key leads
on to another. -/
theorem exists_ofProcedures_iff {procedures : Entries Procedure}
    (hdistinct : Entries.Distinct procedures) :
    (∃ tree, ofProcedures procedures = .ok tree) ↔
      (∀ key ∈ Entries.keys procedures, "" ∉ Procedure.segments key) ∧
      ∀ key ∈ Entries.keys procedures, ∀ other ∈ Entries.keys procedures,
        ¬ ProperPrefix (Procedure.segments key) (Procedure.segments other) := by
  have hinsert : ofProcedures procedures = empty.insertAll procedures := rfl
  rw [hinsert, exists_insertAll_iff proper_empty]
  refine and_congr (by simp [empty, leaves, leavesAmong]) ⟨fun hpairs key hkey other hother => ?_,
    fun hapart => List.Nodup.pairwise_of_forall_ne hdistinct fun key hkey other hother hne => ?_⟩
  · rintro ⟨hlead, hne⟩
    have hsymm : Std.Symm fun key other =>
        Apart (Procedure.segments key) (Procedure.segments other) := ⟨fun _ _ h => h.symm⟩
    have happart := hpairs.forall hkey hother fun heq => hne (heq ▸ rfl)
    exact happart.1 hlead
  · have hne' := Procedure.segments_injective.ne hne
    exact (apart_iff_of_ne hne').mpr ⟨hapart key hkey other hother,
      hapart other hother key hkey⟩

/-- **The leaves of the tree of a map** are the procedures of the map. -/
theorem perm_leaves_ofProcedures {procedures : Entries Procedure} {tree : Service}
    (h : ofProcedures procedures = .ok tree) :
    tree.Proper ∧ tree.leaves.Perm
      (procedures.map fun entry => (Procedure.segments entry.1, entry.2)) := by
  obtain ⟨hproper, hperm⟩ := perm_leaves_insertAll proper_empty h
  exact ⟨hproper, by simpa [empty, leaves, leavesAmong] using hperm⟩

/-- No two procedures of a map that makes up a tree have one key, and no segment of a key is
empty. -/
theorem distinct_of_ofProcedures {procedures : Entries Procedure} {tree : Service}
    (h : ofProcedures procedures = .ok tree) :
    Entries.Distinct procedures ∧ ∀ key ∈ Entries.keys procedures, "" ∉ Procedure.segments key := by
  obtain ⟨hkeys, hpairs⟩ := (exists_insertAll_iff proper_empty).mp ⟨tree, h⟩
  refine ⟨hpairs.imp fun {key other} hapart heq => ?_, fun key hkey => (hkeys key hkey).1⟩
  exact hapart.1 (heq ▸ List.prefix_rfl)

/-- The leaves of the tree of a map, under the keys that their segments make up, are the procedures of
the map. -/
theorem perm_map_leaves_ofProcedures {procedures : Entries Procedure} {tree : Service}
    (h : ofProcedures procedures = .ok tree) :
    (tree.leaves.map fun leaf => (leaf.1.foldl keyBelow "", leaf.2)).Perm procedures := by
  obtain ⟨-, hsegments⟩ := distinct_of_ofProcedures h
  obtain ⟨-, hleaves⟩ := perm_leaves_ofProcedures h
  have hkeys : procedures.map
      (fun entry => ((Procedure.segments entry.1).foldl keyBelow "", entry.2)) = procedures := by
    conv_rhs => rw [← List.map_id procedures]
    refine List.map_congr_left fun entry hentry => ?_
    rw [foldl_keyBelow_segments (hsegments _ (List.mem_map_of_mem hentry))]
    rfl
  have hmapped := hleaves.map fun leaf => (leaf.1.foldl keyBelow "", leaf.2)
  rw [List.map_map] at hmapped
  exact hkeys ▸ hmapped

/-- **Flattening the tree of a map** lists its leaves in their order. -/
theorem flatten_eq_map_leaves {procedures : Entries Procedure} {tree : Service}
    (h : ofProcedures procedures = .ok tree) :
    tree.flatten = tree.leaves.map fun leaf => (leaf.1.foldl keyBelow "", leaf.2) := by
  obtain ⟨hdistinct, -⟩ := distinct_of_ofProcedures h
  have hperm := perm_map_leaves_ofProcedures h
  obtain ⟨children⟩ := tree
  rw [flatten, flattenChildren_eq, leaves]
  exact Entries.ofList_of_distinct ((hperm.map Prod.fst).nodup_iff.mpr hdistinct)

/-- Flattening the tree of a map gives the procedures of the map. -/
theorem perm_flatten_ofProcedures {procedures : Entries Procedure} {tree : Service}
    (h : ofProcedures procedures = .ok tree) : tree.flatten.Perm procedures := by
  rw [flatten_eq_map_leaves h]
  exact perm_map_leaves_ofProcedures h

/-- **From maps to trees and back.** The keys of a map make up a tree exactly when no segment of a
key is empty and no key leads on to another, in whatever order they are listed. Flattening the tree
gives the map again. -/
theorem ofProcedures_and_flatten {procedures : Entries Procedure}
    (hdistinct : Entries.Distinct procedures) :
    ((∃ tree, ofProcedures procedures = .ok tree) ↔
      (∀ key ∈ Entries.keys procedures, "" ∉ Procedure.segments key) ∧
      ∀ key ∈ Entries.keys procedures, ∀ other ∈ Entries.keys procedures,
        ¬ ProperPrefix (Procedure.segments key) (Procedure.segments other)) ∧
    (∀ reordered : Entries Procedure, reordered.Perm procedures →
      ((∃ tree, ofProcedures reordered = .ok tree) ↔ ∃ tree, ofProcedures procedures = .ok tree)) ∧
    ∀ tree, ofProcedures procedures = .ok tree →
      tree.flatten.Perm procedures ∧
        ∀ key, tree.flatten.lookup key = procedures.lookup key := by
  refine ⟨exists_ofProcedures_iff hdistinct, fun reordered hperm => ?_, fun tree htree => ?_⟩
  · have hkeys := hperm.map Prod.fst
    have hmem : ∀ key, key ∈ Entries.keys reordered ↔ key ∈ Entries.keys procedures :=
      fun _ => hkeys.mem_iff
    rw [exists_ofProcedures_iff hdistinct, exists_ofProcedures_iff (hkeys.nodup_iff.mpr hdistinct)]
    simp only [hmem]
  · have hperm := perm_flatten_ofProcedures htree
    have hflat : Entries.Distinct tree.flatten := (hperm.map Prod.fst).nodup_iff.mpr hdistinct
    exact ⟨hperm, Entries.lookup_eq_of_perm hflat hperm⟩

/-- The case of services inside a service, and of a key that leads on to others. -/
theorem ofProcedures_and_flatten_inner_service :
    let call : Procedure := { path := "/", method := .get }
    let procedures : Entries Procedure :=
      [("posts.comments.get", call), ("ping", call), ("posts.list", call)]
    let colliding : Entries Procedure := procedures ++ [("posts.comments", call)]
    Entries.Distinct procedures ∧ Entries.Distinct colliding ∧
      (∃ tree, ofProcedures procedures.reverse = .ok tree) ∧
      (∃ tree, ofProcedures procedures = .ok tree ∧ tree.flatten.Perm procedures) ∧
      ¬ ∃ tree, ofProcedures colliding = .ok tree := by
  intro call procedures colliding
  have hdistinct : Entries.Distinct procedures := by decide
  have hcolliding : Entries.Distinct colliding := by decide
  obtain ⟨hiff, hreordered, hflatten⟩ := ofProcedures_and_flatten hdistinct
  obtain ⟨tree, htree⟩ := hiff.mpr (by decide)
  refine ⟨hdistinct, hcolliding, (hreordered _ (List.reverse_perm _)).mpr ⟨tree, htree⟩,
    ⟨tree, htree, (hflatten tree htree).1⟩, fun hcollides => ?_⟩
  obtain ⟨-, hapart⟩ := (ofProcedures_and_flatten hcolliding).1.mp hcollides
  exact hapart "posts.comments" (by decide) "posts.comments.get" (by decide) (by decide)

end Service

end RpcSchema
