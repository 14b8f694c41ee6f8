import Mathlib.Data.List.Perm.Basic
import RpcSchema.Procedure.Tree
import RpcSchema.Proofs.Entries

set_option autoImplicit false

/-!
# The leaves of a tree of procedures

What a tree of procedures says is told by its leaves: the segments that lead to a procedure, and the
procedure. Adding a procedure adds one leaf. That is possible exactly when no leaf is in the way:
none lies on the way to the new one, and the new one does not lie on the way to any.

The second half needs that there is no service without procedures, for such a service would be in
the way without a leaf to show it.

## Main definitions

* `RpcSchema.Service.leaves` — the leaves of a tree.
* `RpcSchema.Service.Proper` — every level lists a segment once, and only the root may be empty.
* `RpcSchema.Apart` — neither of two lists of segments leads on to the other.

## Main results

* `RpcSchema.Service.exists_insertSegments_iff` — when a procedure can be added.
* `RpcSchema.Service.perm_leavesAmong_insertSegments` — the leaves with a procedure added.
-/

namespace RpcSchema

/-! ## Leaves -/

/-- **A leaf**: the segments that lead to a procedure, and the procedure. -/
abbrev Leaf : Type := List String × Procedure

/-- A leaf seen from one level further up. -/
def Leaf.under (segment : String) (leaf : Leaf) : Leaf := (segment :: leaf.1, leaf.2)

mutual

/-- The leaves of an entry. -/
def Branch.leaves : Branch → List Leaf
  | .procedure procedure => [([], procedure)]
  | .service service => service.leaves

/-- **The leaves of a tree**: its procedures, with the segments that lead to them. -/
def Service.leaves : Service → List Leaf
  | ⟨children⟩ => Service.leavesAmong children

/-- The leaves of the entries of a level. -/
def Service.leavesAmong : List (String × Branch) → List Leaf
  | [] => []
  | (segment, branch) :: rest =>
    branch.leaves.map (Leaf.under segment) ++ Service.leavesAmong rest

end

mutual

/-- An entry is proper: it is a procedure, or a service that is proper and not empty. -/
def Branch.Proper : Branch → Prop
  | .procedure _ => True
  | .service service => service.children ≠ [] ∧ service.Proper

/-- **A tree is proper**: every level lists a segment once, and no service below it is empty. -/
def Service.Proper : Service → Prop
  | ⟨children⟩ => Service.ProperAmong children

/-- The entries of a level are proper. -/
def Service.ProperAmong : List (String × Branch) → Prop
  | [] => True
  | (segment, branch) :: rest =>
    segment ∉ Entries.keys rest ∧ branch.Proper ∧ Service.ProperAmong rest

end

/-- **Two lists of segments are apart** if neither leads on to the other. -/
def Apart (path other : List String) : Prop := ¬ path <+: other ∧ ¬ other <+: path

instance (path other : List String) : Decidable (Apart path other) :=
  inferInstanceAs (Decidable (¬ path <+: other ∧ ¬ other <+: path))

theorem Apart.symm {path other : List String} (h : Apart path other) : Apart other path :=
  ⟨h.2, h.1⟩

/-- Behind a common segment lists are apart if what follows is; behind different ones they are. -/
theorem apart_cons_iff {segment segment' : String} {path other : List String} :
    Apart (segment :: path) (segment' :: other) ↔ segment ≠ segment' ∨ Apart path other := by
  simp only [Apart, List.cons_prefix_cons]
  grind

/-- A proper entry has a leaf. -/
theorem Branch.leaves_ne_nil : ∀ {branch : Branch}, branch.Proper → branch.leaves ≠ []
  | .procedure _, _ => by simp [Branch.leaves]
  | .service ⟨[]⟩, h => absurd rfl h.1
  | .service ⟨(segment, branch) :: rest⟩, h => by
    have hfirst : branch.leaves ≠ [] := Branch.leaves_ne_nil h.2.2.1
    simp [Branch.leaves, Service.leaves, Service.leavesAmong, hfirst]

namespace Service

variable {children children' : List (String × Branch)} {procedure : Procedure}
  {segment : String} {segments : List String}

theorem leavesAmong_eq_flatMap :
    leavesAmong children =
      children.flatMap fun child => child.2.leaves.map (Leaf.under child.1) := by
  induction children with
  | nil => rfl
  | cons child rest ih => rw [leavesAmong, ih, List.flatMap_cons]

theorem mem_leavesAmong_iff {leaf : Leaf} :
    leaf ∈ leavesAmong children ↔
      ∃ child ∈ children, ∃ inner ∈ child.2.leaves, inner.under child.1 = leaf := by
  simp only [leavesAmong_eq_flatMap, List.mem_flatMap, List.mem_map]

theorem properAmong_iff :
    ProperAmong children ↔ Entries.Distinct children ∧ ∀ child ∈ children, child.2.Proper := by
  induction children with
  | nil => simp [ProperAmong, Entries.Distinct, Entries.keys]
  | cons child rest ih =>
    rw [ProperAmong, ih, List.forall_mem_cons]
    simp only [Entries.Distinct, Entries.keys, List.map_cons, List.nodup_cons]
    grind

/-! ## Adding a procedure -/

/-- The branch to a procedure has the procedure as its one leaf. -/
theorem leaves_path (procedure : Procedure) (segments : List String) :
    (path procedure segments).leaves = [(segments, procedure)] := by
  induction segments with
  | nil => rfl
  | cons segment rest ih =>
    simp [path, Branch.leaves, leaves, leavesAmong, ih, Leaf.under]

theorem proper_path (procedure : Procedure) (segments : List String) :
    (path procedure segments).Proper := by
  induction segments with
  | nil => trivial
  | cons segment rest ih => exact ⟨List.cons_ne_nil _ _, List.not_mem_nil, ih, trivial⟩

/-- Setting an entry keeps the entries proper. -/
theorem ProperAmong.insert (h : ProperAmong children) {branch : Branch} (hbranch : branch.Proper) :
    ProperAmong (Entries.insert children segment branch) := by
  obtain ⟨hdistinct, hproper⟩ := properAmong_iff.mp h
  refine properAmong_iff.mpr ⟨Entries.distinct_insert hdistinct _ _, ?_⟩
  exact Entries.forall_mem_insert hproper hbranch

/-- A new entry adds its leaves. -/
theorem leavesAmong_insert_new (h : children.lookup segment = none) (branch : Branch) :
    leavesAmong (Entries.insert children segment branch) =
      leavesAmong children ++ branch.leaves.map (Leaf.under segment) := by
  rw [Entries.keys_insert_of_not_mem (Entries.lookup_eq_none_iff.mp h)]
  simp [leavesAmong_eq_flatMap]

/-- An entry with a leaf more than the one before it adds this leaf. -/
theorem perm_leavesAmong_insert {old new : Branch} {leaf : Leaf}
    (h : children.lookup segment = some old) (hleaves : new.leaves.Perm (leaf :: old.leaves)) :
    (leavesAmong (Entries.insert children segment new)).Perm
      (leaf.under segment :: leavesAmong children) := by
  obtain ⟨before, after, rfl, hinsert⟩ := Entries.exists_insert_eq h
  rw [hinsert]
  simp only [leavesAmong_eq_flatMap, List.flatMap_append, List.flatMap_cons]
  have hunder : (new.leaves.map (Leaf.under segment) ++
        after.flatMap fun child => child.2.leaves.map (Leaf.under child.1)).Perm
      (leaf.under segment :: (old.leaves.map (Leaf.under segment) ++
        after.flatMap fun child => child.2.leaves.map (Leaf.under child.1))) :=
    (hleaves.map (Leaf.under segment)).append_right _
  exact (hunder.append_left _).trans List.perm_middle

/-- Behind a new segment there is room for a procedure. -/
theorem insertSegments_of_none (h : children.lookup segment = none) :
    insertSegments procedure (segment :: segments) children =
      .ok (Entries.insert children segment (path procedure segments)) := by
  simp only [insertSegments, h]

/-- Nothing can be added behind a procedure. -/
theorem insertSegments_of_procedure {other : Procedure}
    (h : children.lookup segment = some (.procedure other)) :
    insertSegments procedure (segment :: segments) children = .error 1 := by
  simp only [insertSegments, h]

/-- A procedure cannot take the place of a service. -/
theorem insertSegments_singleton_of_service {service : Service}
    (h : children.lookup segment = some (.service service)) :
    insertSegments procedure [segment] children = .error 1 := by
  simp only [insertSegments, h]

/-- What is added behind a service is added to the service. -/
theorem insertSegments_of_service {inside : List (String × Branch)} (hsegments : segments ≠ [])
    (h : children.lookup segment = some (.service ⟨inside⟩)) :
    insertSegments procedure (segment :: segments) children = .ok children' ↔
      ∃ inside', insertSegments procedure segments inside = .ok inside' ∧
        Entries.insert children segment (.service ⟨inside'⟩) = children' := by
  obtain ⟨next, further, rfl⟩ := List.exists_cons_of_ne_nil hsegments
  rw [insertSegments.eq_def]
  cases hinside : insertSegments procedure (next :: further) inside with
  | ok inner => simp [h, hinside]
  | error depth => simp [h, hinside]

/-- **The leaves with a procedure added**: it is added where its segments lead to, and the entries
stay proper. -/
theorem perm_leavesAmong_insertSegments (hsegments : segments ≠ []) (hproper : ProperAmong children)
    (h : insertSegments procedure segments children = .ok children') :
    ProperAmong children' ∧ children' ≠ [] ∧
      (leavesAmong children').Perm ((segments, procedure) :: leavesAmong children) := by
  induction segments generalizing children children' with
  | nil => exact absurd rfl hsegments
  | cons segment rest ih =>
    rcases hfound : children.lookup segment with _ | other | ⟨⟨inside⟩⟩
    · rw [insertSegments_of_none hfound] at h
      cases h
      refine ⟨hproper.insert (proper_path procedure rest), Entries.insert_ne_nil _ _ _, ?_⟩
      rw [leavesAmong_insert_new hfound, leaves_path]
      exact List.perm_append_singleton _ _
    · rw [insertSegments_of_procedure hfound] at h
      cases h
    · rcases eq_or_ne rest [] with rfl | hrest
      · rw [insertSegments_singleton_of_service hfound] at h
        cases h
      · obtain ⟨inside', hinside, rfl⟩ := (insertSegments_of_service hrest hfound).mp h
        have hbranch := (properAmong_iff.mp hproper).2 _ (Entries.mem_of_lookup hfound)
        obtain ⟨hproper', hne, hleaves⟩ := ih hrest hbranch.2 hinside
        have hbelow : (Branch.service ⟨inside'⟩).leaves.Perm
            ((rest, procedure) :: (Branch.service ⟨inside⟩).leaves) := hleaves
        exact ⟨hproper.insert ⟨hne, hproper'⟩, Entries.insert_ne_nil _ _ _,
          perm_leavesAmong_insert hfound hbelow⟩

/-- A leaf of an entry is in the way if what follows its segment is. -/
theorem forall_apart_iff_of_lookup {branch : Branch} {rest : List String}
    (hproper : ProperAmong children) (h : children.lookup segment = some branch) :
    (∀ leaf ∈ leavesAmong children, Apart leaf.1 (segment :: rest)) ↔
      ∀ leaf ∈ branch.leaves, Apart leaf.1 rest := by
  have hmem : (segment, branch) ∈ children := Entries.mem_of_lookup h
  constructor
  · intro hall leaf hleaf
    have hapart := hall _ (mem_leavesAmong_iff.mpr ⟨_, hmem, leaf, hleaf, rfl⟩)
    exact (apart_cons_iff.mp hapart).resolve_left (absurd rfl)
  · intro hall leaf hleaf
    obtain ⟨⟨segment', branch'⟩, hchild, inner, hinner, rfl⟩ := mem_leavesAmong_iff.mp hleaf
    refine apart_cons_iff.mpr (or_iff_not_imp_left.mpr fun hsame => ?_)
    -- The segment is listed once, so that the entry is the one that is found.
    obtain rfl : segment' = segment := not_not.mp hsame
    have hfound := Entries.lookup_of_mem (properAmong_iff.mp hproper).1 hchild
    obtain rfl : branch' = branch := Option.some.inj (hfound.symm.trans h)
    exact hall inner hinner

/-- **A procedure can be added** exactly when no leaf is in the way. -/
theorem exists_insertSegments_iff (hsegments : segments ≠ []) (hproper : ProperAmong children) :
    (∃ children', insertSegments procedure segments children = .ok children') ↔
      ∀ leaf ∈ leavesAmong children, Apart leaf.1 segments := by
  induction segments generalizing children with
  | nil => exact absurd rfl hsegments
  | cons segment rest ih =>
    rcases hfound : children.lookup segment with _ | branch
    · -- All the leaves are behind other segments.
      refine iff_of_true ⟨_, insertSegments_of_none hfound⟩ fun leaf hleaf => ?_
      obtain ⟨child, hchild, inner, -, rfl⟩ := mem_leavesAmong_iff.mp hleaf
      refine apart_cons_iff.mpr (.inl fun hsame => Entries.lookup_eq_none_iff.mp hfound ?_)
      exact hsame ▸ Entries.mem_keys_of_mem hchild
    · rw [forall_apart_iff_of_lookup hproper hfound]
      have hbranch := (properAmong_iff.mp hproper).2 _ (Entries.mem_of_lookup hfound)
      rcases branch with other | ⟨⟨inside⟩⟩
      · rw [insertSegments_of_procedure hfound]
        refine iff_of_false (by simp) fun hall => ?_
        exact (hall _ (List.mem_singleton_self _)).1 List.nil_prefix
      · rcases eq_or_ne rest [] with rfl | hrest
        · -- The service is not empty: a leaf in it is in the way.
          rw [insertSegments_singleton_of_service hfound]
          obtain ⟨leaf, hleaf⟩ := List.exists_mem_of_ne_nil _ (Branch.leaves_ne_nil hbranch)
          exact iff_of_false (by simp) fun hall => (hall leaf hleaf).2 List.nil_prefix
        · simp only [insertSegments_of_service hrest hfound]
          rw [Branch.leaves, leaves, ← ih hrest hbranch.2]
          exact ⟨fun ⟨_, inside', h, _⟩ => ⟨inside', h⟩, fun ⟨inside', h⟩ => ⟨_, inside', h, rfl⟩⟩

end Service

end RpcSchema
