import RpcSchema.Proofs.Procedure.Flatten

set_option autoImplicit false

/-!
# The levels of a tree of procedures

The services of a tree are its levels. They are listed depth first: the root, and then for every
service at the root the levels of the tree below it. The procedures of all the levels are the leaves
of the tree.

In a proper tree a service is there only for the sake of a procedure, so the segments that lead to a
level below the root are those that lead on to a leaf.

## Main definitions

* `RpcSchema.Service.levels` — the levels of a tree.
* `RpcSchema.Level.leaves` — the procedures of a level, with the segments that lead to them.
* `RpcSchema.Service.paths` — the segments that lead to the levels of a tree.
* `RpcSchema.Level.segments` — the segments that lead on from a level.

## Main results

* `RpcSchema.Service.perm_leaves_levels` — the procedures of the levels are the leaves.
* `RpcSchema.Service.nodup_paths` — no two levels have the same segments.
* `RpcSchema.Service.mem_paths_iff_of_ofProcedures` — the levels of the tree of a map.
* `RpcSchema.Service.mem_segments_iff_of_ofProcedures` — how its levels go on.
-/

namespace RpcSchema

/-- **A level**: the segments that lead to a service, and the service. -/
abbrev Level : Type := List String × Service

/-! ## Prefixes -/

theorem properPrefix_nil_iff {path : List String} : ProperPrefix [] path ↔ path ≠ [] := by
  simp [ProperPrefix, eq_comm]

theorem not_properPrefix_nil {path : List String} : ¬ ProperPrefix path [] := fun h =>
  h.2 (List.prefix_nil.mp h.1)

theorem properPrefix_cons_iff {segment other : String} {path rest : List String} :
    ProperPrefix (segment :: path) (other :: rest) ↔ segment = other ∧ ProperPrefix path rest := by
  simp only [ProperPrefix, List.cons_prefix_cons, ne_eq, List.cons.injEq]
  grind

/-- What goes on with a segment is a proper prefix. -/
theorem properPrefix_of_concat {path segments : List String} {segment : String}
    (h : path ++ [segment] <+: segments) : ProperPrefix path segments := by
  obtain ⟨rest, rfl⟩ := h
  refine ⟨⟨[segment] ++ rest, by simp⟩, fun heq => ?_⟩
  have hlength := congrArg List.length heq
  simp at hlength

/-! ## Levels -/

namespace Level

/-- A level seen from one level further up. -/
def under (segment : String) (level : Level) : Level := (segment :: level.1, level.2)

/-- The procedures of a level, with the segments that lead to them. -/
def leaves (level : Level) : List Leaf :=
  level.2.procedures.map fun entry => (level.1 ++ [entry.1], entry.2)

/-- **The segments that lead on from a level**: to a service below it or to a procedure. -/
def segments (level : Level) : List String :=
  Entries.keys level.2.services ++ Entries.keys level.2.procedures

theorem leaves_under (segment : String) (level : Level) :
    (level.under segment).leaves = level.leaves.map (Leaf.under segment) := by
  simp [leaves, under, Leaf.under]

end Level

mutual

/-- The levels of an entry. -/
def Branch.levels : Branch → List Level
  | .procedure _ => []
  | .service service => service.levels

/-- **The levels of a tree**, depth first: its root, and then those below the root in order. -/
def Service.levels : Service → List Level
  | ⟨children⟩ => ([], ⟨children⟩) :: Service.levelsAmong children

/-- The levels of the entries of a level. -/
def Service.levelsAmong : List (String × Branch) → List Level
  | [] => []
  | (segment, branch) :: rest =>
    branch.levels.map (Level.under segment) ++ Service.levelsAmong rest

end

/-- The segments that lead to the levels of a tree. -/
def Service.paths (service : Service) : List (List String) := service.levels.map Prod.fst

namespace Service

variable {children : List (String × Branch)}

/-! ## Procedures of levels -/

theorem leaves_flatMap_under (segment : String) (levels : List Level) :
    (levels.map (Level.under segment)).flatMap Level.leaves =
      (levels.flatMap Level.leaves).map (Leaf.under segment) := by
  simp only [List.flatMap_map, List.map_flatMap, Level.leaves_under]

mutual

/-- **The procedures of the levels** of a tree are its leaves. -/
theorem perm_leaves_levels : ∀ service : Service,
    (service.levels.flatMap Level.leaves).Perm service.leaves
  | ⟨children⟩ => by
    rw [levels, List.flatMap_cons, leaves]
    exact perm_leaves_levelsAmong children

/-- The procedures of a level and of the levels below it are the leaves of its entries. -/
theorem perm_leaves_levelsAmong : ∀ children : List (String × Branch),
    (Level.leaves ([], ⟨children⟩) ++ (levelsAmong children).flatMap Level.leaves).Perm
      (leavesAmong children)
  | [] => .refl _
  | (segment, .procedure procedure) :: rest => by
    have hrest := perm_leaves_levelsAmong rest
    rw [levelsAmong, leavesAmong, Branch.levels, Branch.leaves]
    exact hrest.cons _
  | (segment, .service service) :: rest => by
    have hrest := perm_leaves_levelsAmong rest
    have hbelow := (perm_leaves_levels service).map (Leaf.under segment)
    rw [levelsAmong, leavesAmong, Branch.levels, Branch.leaves, List.flatMap_append,
      leaves_flatMap_under]
    refine List.Perm.trans ?_ (hbelow.append hrest)
    rw [← List.append_assoc, ← List.append_assoc]
    exact List.perm_append_comm.append_right _

end

/-! ## Services of levels -/

theorem mem_levelsAmong_iff {level : Level} :
    level ∈ levelsAmong children ↔
      ∃ child ∈ children, ∃ inner ∈ child.2.levels, inner.under child.1 = level := by
  induction children with
  | nil => simp [levelsAmong]
  | cons child rest ih =>
    rw [levelsAmong, List.mem_append, ih, List.mem_map]
    simp only [List.mem_cons, exists_eq_or_imp]

theorem root_mem_levels : ∀ service : Service, ([], service) ∈ service.levels
  | ⟨children⟩ => by
    rw [levels]
    exact List.mem_cons_self

/-- The services at the root of a tree are levels of it. -/
theorem mem_levels_of_mem_services {service inner : Service} {segment : String}
    (h : (segment, inner) ∈ service.services) : ([segment], inner) ∈ service.levels := by
  obtain ⟨children⟩ := service
  obtain ⟨⟨key, branch⟩, hchild, hservice⟩ := List.mem_filterMap.mp h
  cases branch with
  | procedure procedure => cases hservice
  | service below =>
    cases hservice
    rw [levels]
    refine List.mem_cons_of_mem _ (mem_levelsAmong_iff.mpr ⟨_, hchild, ([], inner), ?_, rfl⟩)
    exact root_mem_levels inner

mutual

/-- **The services of a level** are levels too. -/
theorem mem_levels_of_level : ∀ (service : Service) {level : Level}, level ∈ service.levels →
    ∀ entry ∈ level.2.services, (level.1 ++ [entry.1], entry.2) ∈ service.levels
  | ⟨children⟩, level, h => by
    intro entry hentry
    rw [levels] at h
    rcases List.mem_cons.mp h with rfl | h
    · exact mem_levels_of_mem_services hentry
    · rw [levels]
      exact List.mem_cons_of_mem _ (mem_levelsAmong_of_level children h entry hentry)

/-- The services of a level below some entries are below them too. -/
theorem mem_levelsAmong_of_level : ∀ (children : List (String × Branch)) {level : Level},
    level ∈ levelsAmong children →
    ∀ entry ∈ level.2.services, (level.1 ++ [entry.1], entry.2) ∈ levelsAmong children
  | (_, .procedure _) :: rest, level, h => mem_levelsAmong_of_level rest h
  | (segment, .service service) :: rest, level, h => by
    intro entry hentry
    rw [levelsAmong] at h ⊢
    rcases List.mem_append.mp h with h | h
    · obtain ⟨inner, hinner, rfl⟩ := List.mem_map.mp h
      have hbelow := mem_levels_of_level service hinner entry hentry
      exact List.mem_append_left _ (List.mem_map.mpr ⟨_, hbelow, rfl⟩)
    · exact List.mem_append_right _ (mem_levelsAmong_of_level rest h entry hentry)

end

/-! ## Paths -/

/-- The segments that lead to the levels below some entries. -/
abbrev pathsAmong (children : List (String × Branch)) : List (List String) :=
  (levelsAmong children).map Prod.fst

theorem paths_eq (children : List (String × Branch)) :
    paths ⟨children⟩ = [] :: pathsAmong children := by
  rw [paths, levels, List.map_cons]

theorem nil_mem_paths : ∀ service : Service, [] ∈ service.paths
  | ⟨children⟩ => paths_eq children ▸ List.mem_cons_self

theorem pathsAmong_service (segment : String) (service : Service)
    (rest : List (String × Branch)) :
    pathsAmong ((segment, .service service) :: rest) =
      service.paths.map (segment :: ·) ++ pathsAmong rest := by
  simp [pathsAmong, levelsAmong, Branch.levels, paths, Level.under, Function.comp_def]

/-- Below a service that is proper and not empty there is a leaf. -/
theorem exists_leaf {service : Service} (hne : service.children ≠ []) (h : service.Proper) :
    ∃ leaf ∈ service.leaves, ProperPrefix [] leaf.1 := by
  have hleaves : (Branch.service service).leaves ≠ [] := Branch.leaves_ne_nil ⟨hne, h⟩
  obtain ⟨leaf, hleaf⟩ := List.exists_mem_of_ne_nil _ hleaves
  obtain ⟨children⟩ := service
  obtain ⟨child, -, inner, -, rfl⟩ := mem_leavesAmong_iff.mp hleaf
  exact ⟨_, hleaf, properPrefix_nil_iff.mpr (List.cons_ne_nil _ _)⟩

mutual

/-- **The segments that lead to a level** below the root lead on to a leaf. -/
theorem cons_mem_paths_iff : ∀ {service : Service}, service.Proper →
    ∀ {segment : String} {path : List String}, segment :: path ∈ service.paths ↔
      ∃ leaf ∈ service.leaves, ProperPrefix (segment :: path) leaf.1
  | ⟨children⟩, h, segment, path => by
    rw [paths_eq, List.mem_cons, cons_mem_pathsAmong_iff h, leaves]
    exact or_iff_right (List.cons_ne_nil _ _)

/-- The segments that lead to the levels below some entries lead on to a leaf. -/
theorem cons_mem_pathsAmong_iff : ∀ {children : List (String × Branch)}, ProperAmong children →
    ∀ {segment : String} {path : List String}, segment :: path ∈ pathsAmong children ↔
      ∃ leaf ∈ leavesAmong children, ProperPrefix (segment :: path) leaf.1
  | [], _, segment, path => by simp [pathsAmong, levelsAmong, leavesAmong]
  | (other, .procedure procedure) :: rest, h, segment, path => by
    have hown : ¬ ProperPrefix (segment :: path) [other] := fun hlead =>
      not_properPrefix_nil (properPrefix_cons_iff.mp hlead).2
    rw [show pathsAmong ((other, .procedure procedure) :: rest) = pathsAmong rest from rfl,
      cons_mem_pathsAmong_iff h.2.2]
    simp [leavesAmong, Branch.leaves, Leaf.under, hown]
  | (other, .service service) :: rest, h, segment, path => by
    have hbelow : path ∈ service.paths ↔ ∃ leaf ∈ service.leaves, ProperPrefix path leaf.1 := by
      cases path with
      | nil => exact iff_of_true (nil_mem_paths service) (exists_leaf h.2.1.1 h.2.1.2)
      | cons next path => exact cons_mem_paths_iff h.2.1.2
    rw [pathsAmong_service, List.mem_append, cons_mem_pathsAmong_iff h.2.2, leavesAmong,
      Branch.leaves]
    simp only [List.mem_map, List.cons.injEq, List.mem_append, or_and_right, exists_or,
      existsAndEq, Leaf.under, and_true, properPrefix_cons_iff, hbelow]
    grind

end

mutual

/-- **No two levels** of a proper tree have the same segments. -/
theorem nodup_paths : ∀ {service : Service}, service.Proper → service.paths.Nodup
  | ⟨children⟩, h => by
    obtain ⟨hnodup, hkeys⟩ := nodup_pathsAmong h
    rw [paths_eq]
    refine List.nodup_cons.mpr ⟨fun hnil => ?_, hnodup⟩
    obtain ⟨segment, -, path, hpath⟩ := hkeys [] hnil
    cases hpath

/-- No two levels below proper entries have the same segments, and the segments begin with those of
the entries. -/
theorem nodup_pathsAmong : ∀ {children : List (String × Branch)}, ProperAmong children →
    (pathsAmong children).Nodup ∧
      ∀ path ∈ pathsAmong children, ∃ segment ∈ Entries.keys children, ∃ rest,
        path = segment :: rest
  | [], _ => ⟨List.nodup_nil, fun _ h => absurd h List.not_mem_nil⟩
  | (segment, .procedure _) :: _, h => by
    obtain ⟨hnodup, hkeys⟩ := nodup_pathsAmong h.2.2
    refine ⟨hnodup, fun path hpath => ?_⟩
    obtain ⟨other, hother, hrest⟩ := hkeys path hpath
    exact ⟨other, List.mem_cons_of_mem _ hother, hrest⟩
  | (segment, .service service) :: rest, h => by
    obtain ⟨hnodup, hkeys⟩ := nodup_pathsAmong h.2.2
    rw [pathsAmong_service]
    refine ⟨List.nodup_append.mpr ⟨?_, hnodup, ?_⟩, fun path hpath => ?_⟩
    · exact (nodup_paths h.2.1.2).map fun _ _ heq => (List.cons.inj heq).2
    · rintro path hpath _ hother rfl
      obtain ⟨below, -, rfl⟩ := List.mem_map.mp hpath
      obtain ⟨other, hmem, further, heq⟩ := hkeys _ hother
      exact h.1 ((List.cons.inj heq).1 ▸ hmem)
    · rcases List.mem_append.mp hpath with hpath | hpath
      · obtain ⟨below, -, rfl⟩ := List.mem_map.mp hpath
        exact ⟨segment, List.mem_cons_self, below, rfl⟩
      · obtain ⟨other, hother, hrest⟩ := hkeys path hpath
        exact ⟨other, List.mem_cons_of_mem _ hother, hrest⟩

end

/-! ## Trees of maps -/

/-- **The levels of the tree of a map** that is not empty: one for every list of segments that leads
on to a key. -/
theorem mem_paths_iff_of_ofProcedures {procedures : Entries Procedure} {tree : Service}
    (hne : procedures ≠ []) (h : ofProcedures procedures = .ok tree) {path : List String} :
    path ∈ tree.paths ↔
      ∃ key ∈ Entries.keys procedures, ProperPrefix path (Procedure.segments key) := by
  obtain ⟨hproper, hleaves⟩ := perm_leaves_ofProcedures h
  have hkeys : (∃ leaf ∈ tree.leaves, ProperPrefix path leaf.1) ↔
      ∃ key ∈ Entries.keys procedures, ProperPrefix path (Procedure.segments key) := by
    simp only [hleaves.mem_iff, List.mem_map, Entries.keys, exists_exists_and_eq_and]
  rw [← hkeys]
  cases path with
  | cons segment path => exact cons_mem_paths_iff hproper
  | nil =>
    obtain ⟨entry, hentry⟩ := List.exists_mem_of_ne_nil _ hne
    refine iff_of_true (nil_mem_paths tree) (hkeys.mpr ⟨entry.1, List.mem_map_of_mem hentry, ?_⟩)
    exact properPrefix_nil_iff.mpr (Procedure.segments_ne_nil _)

/-- **The procedures of the levels** of the tree of a map are the procedures of the map. -/
theorem perm_levels_ofProcedures {procedures : Entries Procedure} {tree : Service}
    (h : ofProcedures procedures = .ok tree) :
    (tree.levels.flatMap Level.leaves).Perm
      (procedures.map fun entry => (Procedure.segments entry.1, entry.2)) :=
  (perm_leaves_levels tree).trans (perm_leaves_ofProcedures h).2

/-! ## Segments that lead on -/

/-- The services and the procedures of a level are its entries. -/
theorem perm_segments (path : List String) (children : List (String × Branch)) :
    (Level.segments (path, ⟨children⟩)).Perm (Entries.keys children) := by
  induction children with
  | nil => exact .refl _
  | cons child rest ih =>
    obtain ⟨segment, branch⟩ := child
    cases branch with
    | service service => exact ih.cons segment
    | procedure procedure => exact List.perm_middle.trans (ih.cons segment)

mutual

/-- The levels of a proper tree are proper. -/
theorem proper_of_mem_levels : ∀ {service : Service} {level : Level}, service.Proper →
    level ∈ service.levels → level.2.Proper
  | ⟨children⟩, level, h, hlevel => by
    rw [levels] at hlevel
    rcases List.mem_cons.mp hlevel with rfl | hlevel
    · exact h
    · exact proper_of_mem_levelsAmong h hlevel

/-- The levels below proper entries are proper. -/
theorem proper_of_mem_levelsAmong : ∀ {children : List (String × Branch)} {level : Level},
    ProperAmong children → level ∈ levelsAmong children → level.2.Proper
  | (_, .procedure _) :: rest, level, h, hlevel => proper_of_mem_levelsAmong h.2.2 hlevel
  | (segment, .service service) :: rest, level, h, hlevel => by
    rw [levelsAmong] at hlevel
    rcases List.mem_append.mp hlevel with hlevel | hlevel
    · obtain ⟨inner, hinner, rfl⟩ := List.mem_map.mp hlevel
      have hproper : inner.2.Proper := proper_of_mem_levels h.2.1.2 hinner
      exact hproper
    · exact proper_of_mem_levelsAmong h.2.2 hlevel

end

/-- **No segment leads on in two ways** from a level of a proper tree. -/
theorem nodup_segments {service : Service} (h : service.Proper) {level : Level}
    (hlevel : level ∈ service.levels) : level.segments.Nodup := by
  have hproper := proper_of_mem_levels h hlevel
  obtain ⟨path, ⟨children⟩⟩ := level
  exact (perm_segments path children).nodup_iff.mpr (properAmong_iff.mp hproper).1

/-- The level to which no segments lead is the root. -/
theorem eq_of_nil_mem_levels : ∀ {service inner : Service}, ([], inner) ∈ service.levels →
    inner = service
  | ⟨children⟩, inner, h => by
    rw [levels] at h
    rcases List.mem_cons.mp h with h | h
    · exact (Prod.mk.inj h).2
    · obtain ⟨child, -, below, -, heq⟩ := mem_levelsAmong_iff.mp h
      cases heq

mutual

/-- **Above a level** that is not the root there is one with its service. -/
theorem exists_above : ∀ (service : Service) {path : List String} {segment : String}
    {inner : Service}, (path ++ [segment], inner) ∈ service.levels →
      ∃ outer, (path, outer) ∈ service.levels ∧ (segment, inner) ∈ outer.services
  | ⟨children⟩, path, segment, inner, h => by
    rw [levels] at h
    rcases List.mem_cons.mp h with h | h
    · cases path <;> cases h
    · rcases exists_aboveAmong children h with ⟨rfl, hservice⟩ | ⟨outer, houter, hservice⟩
      · exact ⟨⟨children⟩, root_mem_levels _, hservice⟩
      · rw [levels]
        exact ⟨outer, List.mem_cons_of_mem _ houter, hservice⟩

/-- Above a level below some entries there is one of them, or the level of the entries. -/
theorem exists_aboveAmong : ∀ (children : List (String × Branch)) {path : List String}
    {segment : String} {inner : Service}, (path ++ [segment], inner) ∈ levelsAmong children →
      path = [] ∧ (segment, inner) ∈ Service.services ⟨children⟩ ∨
        ∃ outer, (path, outer) ∈ levelsAmong children ∧ (segment, inner) ∈ outer.services
  | (_, .procedure _) :: rest, path, segment, inner, h => exists_aboveAmong rest h
  | (other, .service service) :: rest, path, segment, inner, h => by
    rw [levelsAmong] at h ⊢
    rcases List.mem_append.mp h with h | h
    · obtain ⟨⟨below, inner'⟩, hbelow, heq⟩ := List.mem_map.mp h
      obtain ⟨hpath, rfl⟩ := Prod.mk.inj heq
      cases path with
      | nil =>
        obtain ⟨rfl, rfl⟩ : other = segment ∧ below = [] := by simpa using hpath
        obtain rfl := eq_of_nil_mem_levels hbelow
        exact .inl ⟨rfl, List.mem_cons_self⟩
      | cons first path =>
        obtain ⟨rfl, rfl⟩ : other = first ∧ below = path ++ [segment] := by simpa using hpath
        obtain ⟨outer, houter, hservice⟩ := exists_above service hbelow
        exact .inr ⟨outer, List.mem_append_left _ (List.mem_map.mpr ⟨_, houter, rfl⟩), hservice⟩
    · rcases exists_aboveAmong rest h with ⟨rfl, hservice⟩ | ⟨outer, houter, hservice⟩
      · exact .inl ⟨rfl, List.mem_cons_of_mem _ hservice⟩
      · exact .inr ⟨outer, List.mem_append_right _ houter, hservice⟩

end

section

variable {procedures : Entries Procedure} {tree : Service}

/-- A level of a tree is told by the segments that lead to it. -/
theorem eq_of_mem_levels (h : tree.Proper) {path : List String} {service service' : Service}
    (hlevel : (path, service) ∈ tree.levels) (hlevel' : (path, service') ∈ tree.levels) :
    service = service' := by
  have hsame := List.inj_on_of_nodup_map (nodup_paths h) hlevel hlevel' rfl
  exact (Prod.mk.inj hsame).2

/-- **The procedures of a level** of the tree of a map are those whose keys end there. -/
theorem mem_procedures_iff_of_ofProcedures (h : ofProcedures procedures = .ok tree) {level : Level}
    (hlevel : level ∈ tree.levels) {segment : String} {procedure : Procedure} :
    (segment, procedure) ∈ level.2.procedures ↔
      ∃ key, (key, procedure) ∈ procedures ∧ Procedure.segments key = level.1 ++ [segment] := by
  have hperm := perm_levels_ofProcedures h
  have hproper := (perm_leaves_ofProcedures h).1
  constructor
  · intro hentry
    have hleaf : (level.1 ++ [segment], procedure) ∈ tree.levels.flatMap Level.leaves :=
      List.mem_flatMap.mpr ⟨level, hlevel, List.mem_map.mpr ⟨_, hentry, rfl⟩⟩
    obtain ⟨⟨key, procedure'⟩, hkey, heq⟩ := List.mem_map.mp (hperm.mem_iff.mp hleaf)
    obtain ⟨hsegments, rfl⟩ := Prod.mk.inj heq
    exact ⟨key, hkey, hsegments⟩
  · rintro ⟨key, hkey, hsegments⟩
    have hleaf : (Procedure.segments key, procedure) ∈ tree.levels.flatMap Level.leaves :=
      hperm.mem_iff.mpr (List.mem_map.mpr ⟨_, hkey, rfl⟩)
    rw [hsegments] at hleaf
    obtain ⟨⟨path, service⟩, hother, hleaf⟩ := List.mem_flatMap.mp hleaf
    obtain ⟨⟨segment', procedure'⟩, hentry, heq⟩ := List.mem_map.mp hleaf
    obtain ⟨hpath, rfl⟩ := Prod.mk.inj heq
    obtain ⟨rfl, hsegment⟩ := List.append_inj' hpath rfl
    obtain rfl := List.singleton_inj.mp hsegment
    obtain rfl := eq_of_mem_levels hproper hother hlevel
    exact hentry

/-- **The services of a level** of the tree of a map are those that a key leads through. -/
theorem mem_keys_services_iff_of_ofProcedures (hne : procedures ≠ [])
    (h : ofProcedures procedures = .ok tree) {level : Level} (hlevel : level ∈ tree.levels)
    {segment : String} :
    segment ∈ Entries.keys level.2.services ↔
      ∃ key ∈ Entries.keys procedures,
        ProperPrefix (level.1 ++ [segment]) (Procedure.segments key) := by
  rw [← mem_paths_iff_of_ofProcedures hne h]
  constructor
  · intro hsegment
    obtain ⟨entry, hentry, rfl⟩ := List.mem_map.mp hsegment
    exact List.mem_map.mpr ⟨_, mem_levels_of_level tree hlevel entry hentry, rfl⟩
  · intro hpath
    obtain ⟨⟨path, inner⟩, hinner, rfl⟩ := List.mem_map.mp hpath
    obtain ⟨outer, houter, hservice⟩ := exists_above tree hinner
    obtain rfl := eq_of_mem_levels (perm_leaves_ofProcedures h).1 houter hlevel
    exact List.mem_map.mpr ⟨_, hservice, rfl⟩

/-- **The segments that lead on from a level** of the tree of a map are those with which keys go on
from there. -/
theorem mem_segments_iff_of_ofProcedures (hne : procedures ≠ [])
    (h : ofProcedures procedures = .ok tree) {level : Level} (hlevel : level ∈ tree.levels)
    {segment : String} :
    segment ∈ level.segments ↔
      ∃ key ∈ Entries.keys procedures, level.1 ++ [segment] <+: Procedure.segments key := by
  rw [Level.segments, List.mem_append, mem_keys_services_iff_of_ofProcedures hne h hlevel]
  constructor
  · rintro (⟨key, hkey, hprefix⟩ | hsegment)
    · exact ⟨key, hkey, hprefix.1⟩
    · obtain ⟨⟨segment, procedure⟩, hentry, rfl⟩ := List.mem_map.mp hsegment
      obtain ⟨key, hkey, hsegments⟩ := (mem_procedures_iff_of_ofProcedures h hlevel).mp hentry
      exact ⟨key, Entries.mem_keys_of_mem hkey, hsegments ▸ List.prefix_rfl⟩
  · rintro ⟨key, hkey, hprefix⟩
    by_cases heq : level.1 ++ [segment] = Procedure.segments key
    · obtain ⟨⟨key, procedure⟩, hentry, rfl⟩ := List.mem_map.mp hkey
      exact .inr (Entries.mem_keys_of_mem
        ((mem_procedures_iff_of_ofProcedures h hlevel).mpr ⟨key, hentry, heq.symm⟩))
    · exact .inl ⟨key, hkey, hprefix, heq⟩

end

end Service

end RpcSchema
