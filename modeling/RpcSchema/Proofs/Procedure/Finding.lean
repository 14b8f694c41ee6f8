import RpcSchema.Proofs.Procedure.Adding
import RpcSchema.Proofs.Procedure.Levels

set_option autoImplicit false

/-!
# What paths lead to

A path is cut at its points and followed segment by segment. It leads to a procedure exactly when the
tree has a leaf there, and to a service exactly when a leaf lies behind it. Adding a procedure changes
what is found on the way to it and nothing else.

## Main definitions

* `RpcSchema.Procedure.LeadsOn` — a key goes on behind a path.

## Main results

* `RpcSchema.Procedure.properPrefix_segments_iff` — the same by the segments of both.
* `RpcSchema.Service.findSegments_eq_procedure_iff`, `RpcSchema.Service.findSegments_eq_service_iff`
  — what segments lead to, by the leaves.
* `RpcSchema.Service.findSegments_insertSegments` — what is found besides a procedure that is added.
-/

namespace RpcSchema

/-! ## Paths and keys -/

namespace Procedure

/-- **A path leads on to a key** if the key goes on behind the path, after a point. -/
def LeadsOn (path key : String) : Prop := ∃ rest, key = path ++ "." ++ rest

/-- The segments of a path are followed by those behind it. -/
theorem segments_append (path rest : String) :
    segments (path ++ "." ++ rest) = segments path ++ segments rest :=
  Text.split_append (by decide) path rest

/-- **A path leads on to a key** exactly when its segments do. -/
theorem properPrefix_segments_iff {path key : String} :
    ProperPrefix (segments path) (segments key) ↔ LeadsOn path key := by
  constructor
  · rintro ⟨⟨behind, hbehind⟩, hne⟩
    have hbehind' : behind ≠ [] := fun hnil => hne (by rw [← hbehind, hnil, List.append_nil])
    refine ⟨".".intercalate behind, ?_⟩
    rw [← intercalate_segments key, ← hbehind]
    conv_rhs => rw [← intercalate_segments path]
    exact String.intercalate_append_of_ne_nil (segments_ne_nil path) hbehind'
  · rintro ⟨rest, rfl⟩
    rw [segments_append]
    refine ⟨List.prefix_append _ _, fun heq => segments_ne_nil rest ?_⟩
    exact List.append_right_eq_self.mp heq.symm

end Procedure

namespace Service

variable {children children' : List (String × Branch)} {procedure : Procedure} {segment : String}
  {segments path : List String} {branch : Branch}

/-! ## Leaves -/

/-- The leaves behind a segment are those of the entry under it. -/
theorem mem_leavesAmong_of_lookup (hproper : ProperAmong children)
    (h : children.lookup segment = some branch) {path : List String} :
    (segment :: path, procedure) ∈ leavesAmong children ↔ (path, procedure) ∈ branch.leaves := by
  rw [mem_leavesAmong_iff]
  constructor
  · rintro ⟨⟨other, inside⟩, hchild, ⟨rest, called⟩, hleaf, hunder⟩
    obtain ⟨hpath, rfl⟩ := Prod.mk.inj hunder
    obtain ⟨rfl, rfl⟩ := List.cons.inj hpath
    have hfound := Entries.lookup_of_mem (properAmong_iff.mp hproper).1 hchild
    obtain rfl : inside = branch := Option.some.inj (hfound.symm.trans h)
    exact hleaf
  · exact fun hleaf => ⟨_, Entries.mem_of_lookup h, _, hleaf, rfl⟩

/-- Segments lead on to a leaf when those behind the first lead on to one of the entry under it. -/
theorem exists_leadsOn_of_lookup (hproper : ProperAmong children)
    (h : children.lookup segment = some branch) :
    (∃ leaf ∈ leavesAmong children, ProperPrefix (segment :: segments) leaf.1) ↔
      ∃ leaf ∈ branch.leaves, ProperPrefix segments leaf.1 := by
  constructor
  · rintro ⟨⟨path, procedure⟩, hleaf, hprefix⟩
    cases path with
    | nil => exact absurd hprefix not_properPrefix_nil
    | cons other path =>
      obtain ⟨rfl, hbehind⟩ := properPrefix_cons_iff.mp hprefix
      exact ⟨(path, procedure), (mem_leavesAmong_of_lookup hproper h).mp hleaf, hbehind⟩
  · rintro ⟨⟨path, procedure⟩, hleaf, hprefix⟩
    exact ⟨(segment :: path, procedure), (mem_leavesAmong_of_lookup hproper h).mpr hleaf,
      properPrefix_cons_iff.mpr ⟨rfl, hprefix⟩⟩

/-- There are no leaves behind a segment under which nothing is. -/
theorem not_mem_leavesAmong_of_lookup (h : children.lookup segment = none) {path : List String} :
    (segment :: path, procedure) ∉ leavesAmong children := by
  intro hmem
  obtain ⟨child, hchild, leaf, -, hunder⟩ := mem_leavesAmong_iff.mp hmem
  obtain ⟨hpath, -⟩ := Prod.mk.inj hunder
  refine Entries.lookup_eq_none_iff.mp h ?_
  rw [← (List.cons.inj hpath).1]
  exact Entries.mem_keys_of_mem hchild

/-- The leaves of a level lie behind some segment. -/
theorem ne_nil_of_mem_leavesAmong {leaf : Leaf} (h : leaf ∈ leavesAmong children) :
    leaf.1 ≠ [] := by
  obtain ⟨child, -, inner, -, rfl⟩ := mem_leavesAmong_iff.mp h
  exact List.cons_ne_nil _ _

theorem nil_not_mem_leavesAmong : ([], procedure) ∉ leavesAmong children := fun h =>
  ne_nil_of_mem_leavesAmong h rfl

/-! ## Looking up -/

/-- Behind a service what is looked up is looked up in the service. -/
theorem findSegments_of_service {inside : List (String × Branch)} (hsegments : segments ≠ [])
    (h : children.lookup segment = some (.service ⟨inside⟩)) :
    findSegments children (segment :: segments) = findSegments inside segments := by
  obtain ⟨next, further, rfl⟩ := List.exists_cons_of_ne_nil hsegments
  simp only [findSegments, h]

/-- Behind a procedure nothing is found. -/
theorem findSegments_of_procedure {other : Procedure} (hsegments : segments ≠ [])
    (h : children.lookup segment = some (.procedure other)) :
    findSegments children (segment :: segments) = none := by
  obtain ⟨next, further, rfl⟩ := List.exists_cons_of_ne_nil hsegments
  simp only [findSegments, h]

/-- Behind a segment under which nothing is nothing is found. -/
theorem findSegments_of_none (h : children.lookup segment = none) :
    findSegments children (segment :: segments) = none := by
  cases segments with
  | nil => exact h
  | cons next further => simp only [findSegments, h]

/-- **Segments lead to a procedure** exactly when it is the leaf there. -/
theorem findSegments_eq_procedure_iff (hproper : ProperAmong children) :
    findSegments children segments = some (.procedure procedure) ↔
      (segments, procedure) ∈ leavesAmong children := by
  induction segments generalizing children with
  | nil => exact iff_of_false nofun nil_not_mem_leavesAmong
  | cons segment rest ih =>
    rcases hfound : children.lookup segment with _ | branch
    · rw [findSegments_of_none hfound]
      exact iff_of_false nofun (not_mem_leavesAmong_of_lookup hfound)
    · rw [mem_leavesAmong_of_lookup hproper hfound]
      rcases eq_or_ne rest [] with rfl | hrest
      · rw [findSegments, hfound]
        rcases branch with other | ⟨⟨inside⟩⟩
        · simp [Branch.leaves, eq_comm]
        · have hnil : ([], procedure) ∉ leavesAmong inside := nil_not_mem_leavesAmong
          exact iff_of_false nofun hnil
      · rcases branch with other | ⟨⟨inside⟩⟩
        · rw [findSegments_of_procedure hrest hfound]
          exact iff_of_false nofun (by simp [Branch.leaves, hrest])
        · rw [findSegments_of_service hrest hfound]
          exact ih ((properAmong_iff.mp hproper).2 _ (Entries.mem_of_lookup hfound)).2

/-- **Segments lead to a service** exactly when they lead on to a leaf. -/
theorem findSegments_eq_service_iff (hproper : ProperAmong children) (hsegments : segments ≠ []) :
    (∃ inner, findSegments children segments = some (.service inner)) ↔
      ∃ leaf ∈ leavesAmong children, ProperPrefix segments leaf.1 := by
  induction segments generalizing children with
  | nil => exact absurd rfl hsegments
  | cons segment rest ih =>
    rcases hfound : children.lookup segment with _ | branch
    · rw [findSegments_of_none hfound]
      refine iff_of_false nofun ?_
      rintro ⟨⟨path, procedure⟩, hleaf, hprefix⟩
      cases path with
      | nil => exact not_properPrefix_nil hprefix
      | cons other path =>
        obtain ⟨rfl, -⟩ := properPrefix_cons_iff.mp hprefix
        exact not_mem_leavesAmong_of_lookup hfound hleaf
    · rw [exists_leadsOn_of_lookup hproper hfound]
      have hbranch := (properAmong_iff.mp hproper).2 _ (Entries.mem_of_lookup hfound)
      rcases branch with other | ⟨⟨inside⟩⟩
      · have hnone : ∀ inner, findSegments children (segment :: rest) ≠ some (.service inner) := by
          intro inner
          rcases eq_or_ne rest [] with rfl | hrest
          · rw [findSegments, hfound]
            nofun
          · rw [findSegments_of_procedure hrest hfound]
            nofun
        refine iff_of_false (fun ⟨inner, hinner⟩ => hnone inner hinner) ?_
        rintro ⟨leaf, hleaf, hprefix⟩
        rw [List.mem_singleton.mp hleaf] at hprefix
        exact not_properPrefix_nil hprefix
      · rcases eq_or_ne rest [] with rfl | hrest
        · -- The service is not empty: there is a leaf in it.
          obtain ⟨leaf, hleaf⟩ : ∃ leaf, leaf ∈ leavesAmong inside :=
            List.exists_mem_of_ne_nil _ (Branch.leaves_ne_nil hbranch)
          exact iff_of_true ⟨_, hfound⟩
            ⟨leaf, hleaf, properPrefix_nil_iff.mpr (ne_nil_of_mem_leavesAmong hleaf)⟩
        · rw [findSegments_of_service hrest hfound]
          exact ih hbranch.2 hrest

/-! ## What an addition leaves as it is -/

/-- What is found depends on the entry under the first segment. -/
theorem findSegments_congr (h : children'.lookup segment = children.lookup segment) :
    findSegments children' (segment :: segments) = findSegments children (segment :: segments) := by
  cases segments with
  | nil => exact h
  | cons next further => simp only [findSegments, h]

/-- What is added is put under its first segment. -/
theorem exists_insert_of_insertSegments
    (h : insertSegments procedure (segment :: segments) children = .ok children') :
    ∃ branch, children' = Entries.insert children segment branch := by
  rcases hfound : children.lookup segment with _ | other | ⟨⟨inside⟩⟩
  · rw [insertSegments_of_none hfound] at h
    cases h
    exact ⟨_, rfl⟩
  · rw [insertSegments_of_procedure hfound] at h
    cases h
  · rcases eq_or_ne segments [] with rfl | hsegments
    · rw [insertSegments_singleton_of_service hfound] at h
      cases h
    · obtain ⟨inside', -, rfl⟩ := (insertSegments_of_service hsegments hfound).mp h
      exact ⟨_, rfl⟩

/-- **Besides a procedure that is added** and the services on the way to it, the same is found as
before. -/
theorem findSegments_insertSegments
    (h : insertSegments procedure segments children = .ok children') (hpath : ¬ path <+: segments) :
    findSegments children' path = findSegments children path := by
  induction segments generalizing children children' path with
  | nil =>
    cases h
    rfl
  | cons segment rest ih =>
    obtain ⟨other, further, rfl⟩ : ∃ other further, path = other :: further :=
      List.exists_cons_of_ne_nil fun hnil => hpath (hnil ▸ List.nil_prefix)
    rcases eq_or_ne other segment with rfl | hne
    · have hfurther : ¬ further <+: rest := fun hprefix =>
        hpath (List.cons_prefix_cons.mpr ⟨rfl, hprefix⟩)
      have hnil : further ≠ [] := fun hnil => hfurther (hnil ▸ List.nil_prefix)
      have hput : ∀ branch, (Entries.insert children other branch).lookup other = some branch :=
        fun branch => by rw [Entries.lookup_insert, if_pos rfl]
      rcases hfound : children.lookup other with _ | known | ⟨⟨inside⟩⟩
      · rw [insertSegments_of_none hfound] at h
        cases h
        rw [findSegments_of_none hfound]
        cases rest with
        | nil => exact findSegments_of_procedure hnil (hput _)
        | cons next rest =>
          -- The new services are those of a procedure that is added to nothing.
          have hnothing : findSegments [] further = none := by
            obtain ⟨first, behind, rfl⟩ := List.exists_cons_of_ne_nil hnil
            exact findSegments_of_none rfl
          rw [path, findSegments_of_service hnil (hput _), ← hnothing]
          exact @ih [] _ _ rfl hfurther
      · rw [insertSegments_of_procedure hfound] at h
        cases h
      · rcases eq_or_ne rest [] with rfl | hrest
        · rw [insertSegments_singleton_of_service hfound] at h
          cases h
        · obtain ⟨inside', hinside, rfl⟩ := (insertSegments_of_service hrest hfound).mp h
          rw [findSegments_of_service hnil (hput _), findSegments_of_service hnil hfound]
          exact ih hinside hfurther
    · obtain ⟨branch, rfl⟩ := exists_insert_of_insertSegments h
      exact findSegments_congr (by rw [Entries.lookup_insert, if_neg hne])

end Service

end RpcSchema
