import RpcSchema.Proofs.Procedure.Flatten

set_option autoImplicit false

/-!
# Adding a procedure in place

On the way down to its place a procedure that is added makes the services that are missing, before
it is known whether anything is in the way. Nothing is left behind all the same: once a service has
been made it is empty, and nothing can be in the way any more. So adding in place is the same as
adding to a copy, and a procedure that cannot be added leaves the tree as it was.

## Main definitions

* `RpcSchema.Service.Reached` — the trees that come about by adding procedures in place.

## Main results

* `RpcSchema.Service.addSegments_of_ok`, `RpcSchema.Service.addSegments_of_error` — adding in place
  against adding to a copy.
* `RpcSchema.Service.reached_iff` — the trees that come about are the trees of maps of procedures.
* `RpcSchema.Service.add_atomic` — a procedure is added as a whole, or nothing changes.
-/

namespace RpcSchema.Service

open Outcome (bind_eq_ok_iff)

variable {children children' : List (String × Branch)} {procedure : Procedure} {segment : String}
  {segments : List String} {branch : Branch}

/-! ## Services on the way -/

/-- What is under a segment stays there. -/
theorem opened_of_some (h : children.lookup segment = some branch) :
    opened children segment = children := by
  have hcontains : Entries.contains children segment = true :=
    Entries.contains_eq_true_iff.mpr (Entries.exists_lookup_iff.mp ⟨branch, h⟩)
  rw [opened, if_pos hcontains]

/-- If nothing is under a segment an empty service is put there. -/
theorem opened_of_none (h : children.lookup segment = none) :
    opened children segment = Entries.insert children segment (.service empty) := by
  have hcontains : ¬ Entries.contains children segment = true := fun hcontains =>
    Entries.lookup_eq_none_iff.mp h (Entries.contains_eq_true_iff.mp hcontains)
  rw [opened, if_neg hcontains]

/-- The last segment of a key has to be free. -/
theorem addSegments_singleton :
    addSegments procedure [segment] children =
      if segment ∈ Entries.keys children then (.error 1, children)
      else (.ok (), Entries.insert children segment (.procedure procedure)) := by
  simp only [addSegments, Entries.contains_eq_true_iff]

/-- Behind a service what is added in place is added to the service. -/
theorem addSegments_of_service {inside : List (String × Branch)} (hsegments : segments ≠ [])
    (h : children.lookup segment = some (.service ⟨inside⟩)) :
    addSegments procedure (segment :: segments) children =
      ((addSegments procedure segments inside).1.mapError (· + 1),
        Entries.insert children segment
          (.service ⟨(addSegments procedure segments inside).2⟩)) := by
  obtain ⟨next, further, rfl⟩ := List.exists_cons_of_ne_nil hsegments
  rw [addSegments, opened_of_some h]
  simp only [h]

/-- Behind a segment under which nothing is, what is added in place is added to a new service. -/
theorem addSegments_of_none (hsegments : segments ≠ []) (h : children.lookup segment = none) :
    addSegments procedure (segment :: segments) children =
      ((addSegments procedure segments []).1.mapError (· + 1),
        Entries.insert children segment (.service ⟨(addSegments procedure segments []).2⟩)) := by
  obtain ⟨next, further, rfl⟩ := List.exists_cons_of_ne_nil hsegments
  have hfound : (Entries.insert children segment (.service empty)).lookup segment =
      some (.service empty) := by
    rw [Entries.lookup_insert, if_pos rfl]
  rw [addSegments, opened_of_none h]
  simp only [hfound, Entries.insert_insert]
  rfl

/-- Behind a procedure nothing can be added in place. -/
theorem addSegments_of_procedure {other : Procedure}
    (h : children.lookup segment = some (.procedure other)) :
    addSegments procedure (segment :: segments) children = (.error 1, children) := by
  cases segments with
  | nil =>
    rw [addSegments_singleton, if_pos (Entries.exists_lookup_iff.mp ⟨_, h⟩)]
  | cons next further =>
    rw [addSegments, opened_of_some h]
    simp only [h]

/-! ## In place and on a copy -/

/-- **In a service that has just been made nothing is in the way**: what is added is the branch to
the procedure. -/
theorem addSegments_nil (segment : String) (segments : List String) :
    addSegments procedure (segment :: segments) [] =
      (.ok (), [(segment, path procedure segments)]) := by
  induction segments generalizing segment with
  | nil => simp [addSegments_singleton, Entries.keys, Entries.insert, path]
  | cons next further ih =>
    rw [addSegments_of_none (List.cons_ne_nil _ _) rfl, ih]
    rfl

/-- What can be added to a copy is added in place. -/
theorem addSegments_of_ok (h : insertSegments procedure segments children = .ok children') :
    addSegments procedure segments children = (.ok (), children') := by
  induction segments generalizing children children' with
  | nil =>
    cases h
    rfl
  | cons segment rest ih =>
    rcases hfound : children.lookup segment with _ | other | ⟨⟨inside⟩⟩
    · rw [insertSegments_of_none hfound] at h
      cases h
      rcases rest with _ | ⟨next, further⟩
      · rw [addSegments_singleton, if_neg (Entries.lookup_eq_none_iff.mp hfound)]
        rfl
      · rw [addSegments_of_none (List.cons_ne_nil _ _) hfound, addSegments_nil]
        rfl
    · rw [insertSegments_of_procedure hfound] at h
      cases h
    · rcases eq_or_ne rest [] with rfl | hrest
      · rw [insertSegments_singleton_of_service hfound] at h
        cases h
      · obtain ⟨inside', hinside, rfl⟩ := (insertSegments_of_service hrest hfound).mp h
        rw [addSegments_of_service hrest hfound, ih hinside]
        rfl

/-- What cannot be added behind a service cannot be added to the service. -/
theorem exists_error_of_service {inside : List (String × Branch)} {depth : Nat}
    (hsegments : segments ≠ []) (hfound : children.lookup segment = some (.service ⟨inside⟩))
    (h : insertSegments procedure (segment :: segments) children = .error depth) :
    ∃ below, insertSegments procedure segments inside = .error below ∧ depth = below + 1 := by
  obtain ⟨next, further, rfl⟩ := List.exists_cons_of_ne_nil hsegments
  rw [insertSegments.eq_def] at h
  cases hinside : insertSegments procedure (next :: further) inside with
  | ok inner => simp [hfound, hinside] at h
  | error below =>
    simp only [hfound, hinside, Except.error.injEq] at h
    exact ⟨below, rfl, h.symm⟩

/-- What cannot be added to a copy cannot be added in place, and the entries stay as they are. -/
theorem addSegments_of_error {depth : Nat}
    (h : insertSegments procedure segments children = .error depth) :
    addSegments procedure segments children = (.error depth, children) := by
  induction segments generalizing children depth with
  | nil => cases h
  | cons segment rest ih =>
    rcases hfound : children.lookup segment with _ | other | ⟨⟨inside⟩⟩
    · rw [insertSegments_of_none hfound] at h
      cases h
    · rw [insertSegments_of_procedure hfound] at h
      cases h
      exact addSegments_of_procedure hfound
    · rcases eq_or_ne rest [] with rfl | hrest
      · rw [insertSegments_singleton_of_service hfound] at h
        cases h
        rw [addSegments_singleton, if_pos (Entries.exists_lookup_iff.mp ⟨_, hfound⟩)]
      · obtain ⟨below, hinside, rfl⟩ := exists_error_of_service hrest hfound h
        rw [addSegments_of_service hrest hfound, ih hinside, Entries.insert_eq_self hfound]
        rfl

/-! ## Keys -/

variable {service service' : Service} {key : String}

/-- A procedure is added in place exactly when it can be added to a copy. -/
theorem add_of_ok (h : service.insert key procedure = .ok service') :
    service.add key procedure = (.ok (), service') := by
  simp only [insert] at h
  rw [add]
  split at h
  · cases h
  · rename_i hsegments
    rw [if_neg hsegments]
    split at h
    · rename_i children' hchildren
      cases h
      rw [addSegments_of_ok hchildren]
    · cases h

/-- **A procedure that cannot be added leaves the tree as it is**, with the same error. -/
theorem add_of_error {error : TreeError} (h : service.insert key procedure = .error error) :
    service.add key procedure = (.error error, service) := by
  obtain ⟨children⟩ := service
  simp only [insert] at h
  rw [add]
  split at h
  · rename_i hsegments
    cases h
    rw [if_pos hsegments]
  · rename_i hsegments
    rw [if_neg hsegments]
    split at h
    · cases h
    · rename_i depth hdepth
      cases h
      rw [addSegments_of_error hdepth]

/-- What adding in place comes to, next to adding to a copy. -/
theorem add_eq (service : Service) (key : String) (procedure : Procedure) :
    service.add key procedure =
      match service.insert key procedure with
      | .ok service' => (.ok (), service')
      | .error error => (.error error, service) := by
  cases h : service.insert key procedure with
  | ok service' => exact add_of_ok h
  | error error => exact add_of_error h

/-! ## Trees that come about -/

/-- **The trees that come about** from the empty one when procedures are added in place, whether
that succeeds or fails. -/
inductive Reached : Service → Prop
  | empty : Reached empty
  | add {service : Service} (key : String) (procedure : Procedure) :
    Reached service → Reached (service.add key procedure).2

/-- What is added at the end of a map is added to the tree of the map. -/
theorem ofProcedures_append {procedures : Entries Procedure}
    (h : ofProcedures procedures = .ok service) (key : String) (procedure : Procedure) :
    ofProcedures (procedures ++ [(key, procedure)]) = service.insert key procedure := by
  have happend : ofProcedures (procedures ++ [(key, procedure)]) =
      (ofProcedures procedures >>= fun service => service.insertAll [(key, procedure)]) :=
    List.foldlM_append
  rw [happend, h]
  exact bind_pure (service.insert key procedure)

/-- Trees to which the procedures of a map are added come about as well. -/
theorem Reached.insertAll {procedures : Entries Procedure} {tree : Service} (h : service.Reached)
    (htree : service.insertAll procedures = .ok tree) : tree.Reached := by
  induction procedures generalizing service with
  | nil =>
    cases htree
    exact h
  | cons entry rest ih =>
    rw [Service.insertAll, List.foldlM_cons] at htree
    obtain ⟨service', hservice', hrest⟩ := bind_eq_ok_iff.mp htree
    have hadd : service'.Reached := by
      have hnext := h.add entry.1 entry.2
      rwa [add_of_ok hservice'] at hnext
    exact ih hadd hrest

/-- **The trees that come about are the trees of maps of procedures**: what could not be added has
left no trace. -/
theorem reached_iff :
    service.Reached ↔ ∃ procedures, ofProcedures procedures = .ok service := by
  constructor
  · intro h
    induction h with
    | empty => exact ⟨[], rfl⟩
    | @add service key procedure _ ih =>
      obtain ⟨procedures, hprocedures⟩ := ih
      rw [add_eq]
      cases hinsert : service.insert key procedure with
      | ok service' =>
        exact ⟨procedures ++ [(key, procedure)],
          (ofProcedures_append hprocedures key procedure).trans hinsert⟩
      | error error => exact ⟨procedures, hprocedures⟩
  · rintro ⟨procedures, h⟩
    exact Reached.empty.insertAll h

/-- **A procedure is added as a whole, or nothing changes.** If it cannot be added, whether because
of an empty segment or because something is in the way at any depth, the tree is the one from
before. It cannot be added exactly when a segment of the key is empty or a procedure of the tree is
on the way to it or behind it; otherwise it is the one leaf that is new. -/
theorem add_atomic (h : service.Reached) (key : String) (procedure : Procedure) :
    (∀ error service', service.add key procedure = (.error error, service') →
      service' = service) ∧
    ((∃ error service', service.add key procedure = (.error error, service')) ↔
      "" ∈ Procedure.segments key ∨
        ∃ leaf ∈ service.leaves, ¬ Apart leaf.1 (Procedure.segments key)) ∧
    ∀ service', service.add key procedure = (.ok (), service') →
      service'.leaves.Perm ((Procedure.segments key, procedure) :: service.leaves) := by
  obtain ⟨procedures, hprocedures⟩ := reached_iff.mp h
  have hproper : service.Proper := (perm_leaves_ofProcedures hprocedures).1
  have hexists : (∃ service', service.insert key procedure = .ok service') ↔
      "" ∉ Procedure.segments key ∧
        ∀ leaf ∈ service.leaves, Apart leaf.1 (Procedure.segments key) :=
    exists_insert_iff hproper
  rw [add_eq]
  cases hinsert : service.insert key procedure with
  | ok service' =>
    obtain ⟨hsegments, hapart⟩ := hexists.mp ⟨service', hinsert⟩
    obtain ⟨-, -, hleaves⟩ := perm_leaves_insert hproper hinsert
    refine ⟨fun _ _ heq => (by cases heq), iff_of_false ?_ ?_, fun _ heq => ?_⟩
    · rintro ⟨_, _, heq⟩
      cases heq
    · rintro (hempty | ⟨leaf, hleaf, hway⟩)
      · exact hsegments hempty
      · exact hway (hapart leaf hleaf)
    · cases heq
      exact hleaves
  | error error =>
    refine ⟨fun _ _ heq => ?_, iff_of_true ⟨_, _, rfl⟩ ?_, fun _ heq => (by cases heq)⟩
    · cases heq
      rfl
    · by_contra hnone
      push Not at hnone
      obtain ⟨service', hinsert'⟩ := hexists.mpr ⟨hnone.1, hnone.2⟩
      rw [hinsert] at hinsert'
      cases hinsert'

/-- The tree of `posts.comments.get`: what collides in the middle, at the end or behind a procedure,
and a key with an empty segment, leave it as it is. -/
theorem add_atomic_posts :
    let call : Procedure := { path := "/", method := .get }
    Reached empty ∧ ∃ tree, Reached tree ∧ empty.add "posts.comments.get" call = (.ok (), tree) ∧
      (∀ key ∈ ["posts.comments", "posts", "posts.comments.get", "posts.comments.get.all.of",
        "posts..list"], ∃ error, tree.add key call = (.error error, tree)) ∧
      ∃ tree', tree.add "posts.comments.list" call = (.ok (), tree') ∧ tree'.leaves.Perm
        [(["posts", "comments", "list"], call), (["posts", "comments", "get"], call)] := by
  intro call
  obtain ⟨-, hfail, hleaves⟩ := add_atomic .empty "posts.comments.get" call
  rcases hadd : empty.add "posts.comments.get" call with ⟨_ | ⟨⟩, tree⟩
  · rcases hfail.mp ⟨_, _, hadd⟩ with hempty | ⟨leaf, hleaf, -⟩
    · exact absurd hempty (by decide)
    · cases hleaf
  have htree : tree.Reached := by
    have hreached := Reached.empty.add "posts.comments.get" call
    rwa [hadd] at hreached
  have hleaf : tree.leaves = [(["posts", "comments", "get"], call)] :=
    List.perm_singleton.mp (hleaves tree hadd)
  have hway : ∀ key ∈ ["posts.comments", "posts", "posts.comments.get",
      "posts.comments.get.all.of", "posts..list"], "" ∈ Procedure.segments key ∨
        ∃ leaf ∈ [(["posts", "comments", "get"], call)],
          ¬ Apart leaf.1 (Procedure.segments key) := by
    decide
  refine ⟨.empty, tree, htree, rfl, fun key hkey => ?_, ?_⟩
  · obtain ⟨hsame, hfail', -⟩ := add_atomic htree key call
    obtain ⟨error, tree', hadd'⟩ := hfail'.mpr (hleaf ▸ hway key hkey)
    exact ⟨error, hsame error tree' hadd' ▸ hadd'⟩
  · obtain ⟨-, hfail', hleaves'⟩ := add_atomic htree "posts.comments.list" call
    rcases hadd' : tree.add "posts.comments.list" call with ⟨_ | ⟨⟩, tree'⟩
    · have hnone := hleaf ▸ hfail'.mp ⟨_, _, hadd'⟩
      exact absurd hnone (by decide)
    · exact ⟨tree', rfl, hleaf ▸ hleaves' tree' hadd'⟩

end RpcSchema.Service
