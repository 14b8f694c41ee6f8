import RpcSchema.Proofs.Procedure.Finding

set_option autoImplicit false

/-!
# Trees are built again from their procedures

When the leaves of a tree are added one after the other to an empty tree, in the order in which the
tree lists them, the tree comes about again: a segment is new when the first leaf behind it is added,
and comes behind those that were there before, and all the other leaves behind it follow at once. So
nothing is lost when a tree is flattened, and the map that it is flattened to says what every path
leads to.

## Main results

* `RpcSchema.Service.insertLeaves_leaves` — a proper tree comes about from its leaves.
* `RpcSchema.Service.map_segments_flatten` — flattening lists the leaves in order.
* `RpcSchema.Service.rebuilt_and_found` — trees, the maps that they are flattened to, and what paths
  lead to.
-/

namespace RpcSchema.Service

open Outcome (bind_eq_ok_iff)

variable {children children' : List (String × Branch)} {procedure : Procedure} {segment : String}
  {segments path : List String} {service : Service}

/-! ## Adding leaves -/

/-- Adds leaves one after the other. -/
abbrev insertLeaves (children : List (String × Branch)) (leaves : List Leaf) :
    Except Nat (List (String × Branch)) :=
  leaves.foldlM (fun children leaf => insertSegments leaf.2 leaf.1 children) children

theorem insertLeaves_append {leaves leaves' : List Leaf}
    (h : insertLeaves children leaves = .ok children') :
    insertLeaves children (leaves ++ leaves') = insertLeaves children' leaves' := by
  have happend : insertLeaves children (leaves ++ leaves') =
      (insertLeaves children leaves >>= fun children => insertLeaves children leaves') :=
    List.foldlM_append
  rw [happend, h]
  rfl

/-- The leaf of a procedure is added under its segment. -/
theorem insertLeaves_of_procedure (hnew : children.lookup segment = none) :
    insertLeaves children ((Branch.procedure procedure).leaves.map (Leaf.under segment)) =
      .ok (Entries.insert children segment (.procedure procedure)) :=
  bind_eq_ok_iff.mpr ⟨_, insertSegments_of_none hnew, rfl⟩

/-- Leaves behind the segment of a service are added to the service. -/
theorem insertLeaves_map_under {leaves : List Leaf} {inside inside' : List (String × Branch)}
    (hleaves : ∀ leaf ∈ leaves, leaf.1 ≠ []) (h : insertLeaves inside leaves = .ok inside') :
    insertLeaves (Entries.insert children segment (.service ⟨inside⟩))
        (leaves.map (Leaf.under segment)) =
      .ok (Entries.insert children segment (.service ⟨inside'⟩)) := by
  induction leaves generalizing inside with
  | nil =>
    cases h
    rfl
  | cons leaf rest ih =>
    obtain ⟨hleaf, hrest⟩ := List.forall_mem_cons.mp hleaves
    rw [insertLeaves, List.foldlM_cons] at h
    obtain ⟨middle, hmiddle, h⟩ := bind_eq_ok_iff.mp h
    have hfound : (Entries.insert children segment (.service ⟨inside⟩)).lookup segment =
        some (.service ⟨inside⟩) := by
      rw [Entries.lookup_insert, if_pos rfl]
    have hfirst : insertSegments leaf.2 (segment :: leaf.1)
        (Entries.insert children segment (.service ⟨inside⟩)) =
          .ok (Entries.insert children segment (.service ⟨middle⟩)) := by
      refine (insertSegments_of_service hleaf hfound).mpr ⟨middle, hmiddle, ?_⟩
      exact Entries.insert_insert _ _ _ _
    rw [List.map_cons, insertLeaves, List.foldlM_cons]
    exact bind_eq_ok_iff.mpr ⟨_, hfirst, ih hrest h⟩

/-- **The leaves behind a new segment** make up the service under it. -/
theorem insertLeaves_of_none {leaves : List Leaf} {inside : List (String × Branch)}
    (hnew : children.lookup segment = none) (hne : leaves ≠ [])
    (hleaves : ∀ leaf ∈ leaves, leaf.1 ≠ []) (h : insertLeaves [] leaves = .ok inside) :
    insertLeaves children (leaves.map (Leaf.under segment)) =
      .ok (Entries.insert children segment (.service ⟨inside⟩)) := by
  obtain ⟨⟨path, procedure⟩, rest, rfl⟩ := List.exists_cons_of_ne_nil hne
  obtain ⟨hpath, hrest⟩ := List.forall_mem_cons.mp hleaves
  obtain ⟨next, further, rfl⟩ := List.exists_cons_of_ne_nil hpath
  rw [insertLeaves, List.foldlM_cons] at h
  obtain ⟨middle, hmiddle, h⟩ := bind_eq_ok_iff.mp h
  -- The first leaf makes the service, with the branch to it as its one entry.
  cases hmiddle
  rw [List.map_cons, insertLeaves, List.foldlM_cons]
  refine bind_eq_ok_iff.mpr ⟨_, insertSegments_of_none hnew, ?_⟩
  exact insertLeaves_map_under hrest h

mutual

/-- **A proper tree comes about from its leaves**, in the order in which it lists them. -/
theorem insertLeaves_leaves : ∀ {service : Service}, service.Proper →
    insertLeaves [] service.leaves = .ok service.children
  | ⟨_⟩, hproper => insertLeaves_leavesAmong [] hproper fun _ _ => List.not_mem_nil

/-- The entries of a level come about behind others from the leaves behind them. -/
theorem insertLeaves_leavesAmong : ∀ {children : List (String × Branch)}
    (before : List (String × Branch)), ProperAmong children →
    (∀ key ∈ Entries.keys children, key ∉ Entries.keys before) →
    insertLeaves before (leavesAmong children) = .ok (before ++ children)
  | [], before, _, _ => by
    rw [List.append_nil]
    rfl
  | (segment, branch) :: rest, before, hproper, hnew => by
    obtain ⟨hsegment, hbranch, hrest⟩ := hproper
    obtain ⟨hfirst, hothers⟩ := List.forall_mem_cons.mp hnew
    have hnone : before.lookup segment = none := Entries.lookup_eq_none_iff.mpr hfirst
    have hput : insertLeaves before (branch.leaves.map (Leaf.under segment)) =
        .ok (before ++ [(segment, branch)]) := by
      rw [← Entries.keys_insert_of_not_mem hfirst]
      match branch, hbranch with
      | .procedure procedure, _ => exact insertLeaves_of_procedure hnone
      | .service ⟨inside⟩, hservice =>
        refine insertLeaves_of_none hnone (Branch.leaves_ne_nil hservice) ?_
          (insertLeaves_leaves hservice.2)
        exact fun leaf hleaf => ne_nil_of_mem_leavesAmong hleaf
    have hbehind : ∀ key ∈ Entries.keys rest, key ∉ Entries.keys (before ++ [(segment, branch)]) := by
      intro key hkey
      simp only [Entries.keys, List.map_append, List.map_cons, List.map_nil, List.mem_append,
        List.mem_singleton, not_or]
      exact ⟨hothers key hkey, fun heq => hsegment (heq ▸ hkey)⟩
    rw [leavesAmong, insertLeaves_append hput, insertLeaves_leavesAmong _ hrest hbehind,
      List.append_assoc]
    rfl

end

/-! ## Maps of procedures -/

/-- The procedures of a map are added under the segments of their keys. -/
theorem insertAll_of_insertLeaves {procedures : Entries Procedure}
    (hsegments : ∀ key ∈ Entries.keys procedures, "" ∉ Procedure.segments key)
    (h : insertLeaves children
      (procedures.map fun entry => (Procedure.segments entry.1, entry.2)) = .ok children') :
    insertAll ⟨children⟩ procedures = .ok ⟨children'⟩ := by
  induction procedures generalizing children with
  | nil =>
    cases h
    rfl
  | cons entry rest ih =>
    obtain ⟨hkey, hrest⟩ := List.forall_mem_cons.mp hsegments
    rw [List.map_cons, insertLeaves, List.foldlM_cons] at h
    obtain ⟨middle, hmiddle, h⟩ := bind_eq_ok_iff.mp h
    have hfirst : insert ⟨children⟩ entry.1 entry.2 = .ok ⟨middle⟩ := by
      rw [insert, if_neg (by simpa using hkey), hmiddle]
    rw [insertAll, List.foldlM_cons]
    exact bind_eq_ok_iff.mpr ⟨_, hfirst, ih hrest h⟩

/-- **Flattening lists the leaves in order**, under keys that are cut into their segments again. -/
theorem map_segments_flatten {procedures : Entries Procedure}
    (h : ofProcedures procedures = .ok service) :
    service.flatten.map (fun entry => (Procedure.segments entry.1, entry.2)) = service.leaves := by
  obtain ⟨-, hsegments⟩ := distinct_of_ofProcedures h
  obtain ⟨-, hperm⟩ := perm_leaves_ofProcedures h
  rw [flatten_eq_map_leaves h, List.map_map]
  conv_rhs => rw [← List.map_id service.leaves]
  refine List.map_congr_left fun leaf hleaf => ?_
  obtain ⟨entry, hentry, rfl⟩ := List.mem_map.mp (hperm.mem_iff.mp hleaf)
  have hkey := foldl_keyBelow_segments (hsegments _ (List.mem_map_of_mem hentry))
  simp only [Function.comp_apply, hkey, id_eq]

/-- **A tree comes about again** from the map that it is flattened to. -/
theorem ofProcedures_flatten {procedures : Entries Procedure}
    (h : ofProcedures procedures = .ok service) : ofProcedures service.flatten = .ok service := by
  obtain ⟨hdistinct, hsegments⟩ := distinct_of_ofProcedures h
  obtain ⟨hproper, -⟩ := perm_leaves_ofProcedures h
  have hkeys := (perm_flatten_ofProcedures h).map Prod.fst
  have hleaves := map_segments_flatten h
  obtain ⟨children⟩ := service
  refine insertAll_of_insertLeaves (fun key hkey => hsegments key (hkeys.mem_iff.mp hkey)) ?_
  rw [hleaves]
  exact insertLeaves_leaves hproper

/-- What is listed in the map that a tree is flattened to are its leaves. -/
theorem lookup_flatten_eq_some_iff {procedures : Entries Procedure}
    (h : ofProcedures procedures = .ok service) {path : String} :
    service.flatten.lookup path = some procedure ↔
      (Procedure.segments path, procedure) ∈ service.leaves := by
  obtain ⟨hdistinct, -⟩ := distinct_of_ofProcedures h
  have hflat : Entries.Distinct service.flatten :=
    ((perm_flatten_ofProcedures h).map Prod.fst).nodup_iff.mpr hdistinct
  rw [← map_segments_flatten h, List.mem_map]
  constructor
  · exact fun hlookup => ⟨_, Entries.mem_of_lookup hlookup, rfl⟩
  · rintro ⟨⟨key, called⟩, hmem, heq⟩
    obtain ⟨hkey, rfl⟩ := Prod.mk.inj heq
    obtain rfl := Procedure.segments_injective hkey
    exact Entries.lookup_of_mem hflat hmem

/-! ## Trees, maps and paths -/

/-- **What a path leads to** is told by the map that a tree is flattened to: the procedure listed
under the path, or a service if the path leads on to a key. -/
theorem find?_iff_flatten {procedures : Entries Procedure}
    (h : ofProcedures procedures = .ok service) (path : String) :
    (∀ procedure, service.find? path = some (.procedure procedure) ↔
      service.flatten.lookup path = some procedure) ∧
    ((∃ inner, service.find? path = some (.service inner)) ↔
      ∃ key ∈ Entries.keys service.flatten, Procedure.LeadsOn path key) := by
  obtain ⟨hproper, -⟩ := perm_leaves_ofProcedures h
  have hleaves := map_segments_flatten h
  obtain ⟨children⟩ := service
  rw [leaves] at hleaves
  refine ⟨fun procedure => ?_, ?_⟩
  · rw [lookup_flatten_eq_some_iff h]
    exact findSegments_eq_procedure_iff hproper
  · refine (findSegments_eq_service_iff hproper (Procedure.segments_ne_nil path)).trans ?_
    rw [← hleaves]
    simp only [Entries.keys, List.mem_map, exists_exists_and_eq_and,
      Procedure.properPrefix_segments_iff]

/-- **Besides a key** under which a procedure is added, and the paths that lead on to it, every path
leads to what it led to before. -/
theorem find?_insert {service' : Service} {key : String}
    (h : service.insert key procedure = .ok service') {path : String} (hne : path ≠ key)
    (hbefore : ¬ Procedure.LeadsOn path key) : service'.find? path = service.find? path := by
  have hbehind : ¬ Procedure.segments path <+: Procedure.segments key := fun hsegments =>
    hbefore (Procedure.properPrefix_segments_iff.mp
      ⟨hsegments, Procedure.segments_injective.ne hne⟩)
  simp only [insert] at h
  split at h
  · cases h
  · split at h
    · rename_i children' hchildren
      cases h
      exact findSegments_insertSegments hchildren hbehind
    · cases h

/-- **Trees, the maps that they are flattened to, and what paths lead to.** A tree that has come about
by adding procedures, some of which may have been refused, comes about again, with all its entries in
the same order, from the map that it is flattened to. A path leads to the procedure that the map lists
under it, and to a service exactly when it leads on to a key of the map. A procedure that is added
changes what is found under its key and on the way to it only. -/
theorem rebuilt_and_found (h : service.Reached) :
    ofProcedures service.flatten = .ok service ∧
    (∀ path,
      (∀ procedure, service.find? path = some (.procedure procedure) ↔
        service.flatten.lookup path = some procedure) ∧
      ((∃ inner, service.find? path = some (.service inner)) ↔
        ∃ key ∈ Entries.keys service.flatten, Procedure.LeadsOn path key)) ∧
    ∀ key procedure service', service.add key procedure = (.ok (), service') →
      ∀ path, path ≠ key → ¬ Procedure.LeadsOn path key →
        service'.find? path = service.find? path := by
  obtain ⟨procedures, hprocedures⟩ := reached_iff.mp h
  refine ⟨ofProcedures_flatten hprocedures, find?_iff_flatten hprocedures, ?_⟩
  intro key procedure service' hadd path hne hbefore
  rw [add_eq] at hadd
  split at hadd
  · rename_i inserted hinsert
    cases hadd
    exact find?_insert hinsert hne hbefore
  · cases hadd

/-- The tree of `posts.comments.get`, `ping` and `posts.list`, to which `posts.comments` could not be
added, before and after another procedure is added. -/
theorem rebuilt_and_found_posts :
    let call : Procedure := { path := "/", method := .get }
    let comments : Service := ⟨[("get", .procedure call)]⟩
    let tree : Service := ⟨[("posts", .service ⟨[("comments", .service comments),
      ("list", .procedure call)]⟩), ("ping", .procedure call)]⟩
    tree.Reached ∧ ofProcedures tree.flatten = .ok tree ∧
      (∃ key ∈ Entries.keys tree.flatten, Procedure.LeadsOn "posts.comments" key) ∧
      (∃ service', tree.add "posts.comments.all" call = (.ok (), service') ∧
        "posts.list" ≠ "posts.comments.all" ∧
        ¬ Procedure.LeadsOn "posts.list" "posts.comments.all" ∧
        service'.find? "posts.list" = some (.procedure call)) := by
  intro call comments tree
  have htree : tree.Reached :=
    (((Reached.empty.add "posts.comments.get" call).add "posts.comments" call).add "ping" call).add
      "posts.list" call
  obtain ⟨hrebuilt, hfound, hkept⟩ := rebuilt_and_found htree
  obtain ⟨service', hadd⟩ : ∃ service', tree.add "posts.comments.all" call = (.ok (), service') :=
    ⟨_, rfl⟩
  have hbefore : ¬ Procedure.LeadsOn "posts.list" "posts.comments.all" := by
    rw [← Procedure.properPrefix_segments_iff]
    decide
  refine ⟨htree, hrebuilt, (hfound "posts.comments").2.mp ⟨comments, rfl⟩, service', hadd,
    by decide, hbefore, ?_⟩
  exact (hkept _ _ _ hadd _ (by decide) hbefore).trans rfl

end RpcSchema.Service
