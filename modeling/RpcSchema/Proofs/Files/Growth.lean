import RpcSchema.Files.System
import RpcSchema.Proofs.Outcome

set_option autoImplicit false

/-!
# File systems that grow

Neither writing nor creating removes anything: a directory stays a directory, and a file stays a
file, perhaps with other contents. So a path that leads somewhere keeps leading there. Creating
directories changes nothing that is there, and writing changes one file, the one that the path leads
to.

## Main definitions

* `RpcSchema.FileSystem.Grows` — directories stay directories and files stay files.
* `RpcSchema.FileSystem.Extends` — everything stays as it is.
* `RpcSchema.FileSystem.PutAt` — one file has got its contents.

## Main results

* `RpcSchema.FileSystem.Grows.resolve` — paths keep leading to their places.
* `RpcSchema.FileSystem.extends_createDirectories` — directories are created beside what is there.
* `RpcSchema.FileSystem.putAt_of_write` — a file is written where its path leads.
-/

namespace RpcSchema.FileSystem

open Outcome (bind_eq_ok_iff)

variable {files files' files'' : FileSystem} {place here : Place} {node : FileNode}
  {path contents : String}

/-! ## Nodes -/

theorem lookup_putNode (place other : Place) (node : FileNode) (nodes : List (Place × FileNode)) :
    (putNode place node nodes).lookup other =
      if other = place then some node else nodes.lookup other := by
  have hcons (key : Place) (old : FileNode) (rest : List (Place × FileNode)) :
      ((key, old) :: rest).lookup other = if other = key then some old else rest.lookup other := by
    by_cases h : other = key <;> simp [List.lookup_cons, h, beq_eq_false_iff_ne.mpr]
  induction nodes with
  | nil => rw [putNode, hcons]
  | cons first rest ih =>
    obtain ⟨key, old⟩ := first
    rw [putNode, hcons]
    split
    · rename_i hkey
      rw [hcons, hkey]
      split <;> rfl
    · rename_i hkey
      rw [hcons, ih]
      grind

/-- What is at the places once something has been put at one of them. -/
theorem node?_put (hplace : place ≠ []) (node : FileNode) (other : Place) :
    (files.put place node).node? other =
      if other = place then some node else files.node? other := by
  simp only [node?, put, lookup_putNode]
  by_cases hroot : other = []
  · rw [if_pos hroot, if_neg (hroot ▸ hplace.symm), if_pos hroot]
  · rw [if_neg hroot, if_neg hroot]

/-! ## What stays -/

/-- **A file system grows**: what was a directory is one, and what was a file is one. -/
structure Grows (files files' : FileSystem) : Prop where
  workingDirectory : files'.workingDirectory = files.workingDirectory
  directory : ∀ place, files.node? place = some .directory → files'.node? place = some .directory
  file : ∀ place contents, files.node? place = some (.file contents) →
    ∃ contents', files'.node? place = some (.file contents')

/-- **A file system is extended**: what was there is there and is the same. -/
structure Extends (files files' : FileSystem) : Prop where
  workingDirectory : files'.workingDirectory = files.workingDirectory
  kept : ∀ place node, files.node? place = some node → files'.node? place = some node

theorem Grows.refl (files : FileSystem) : files.Grows files :=
  ⟨rfl, fun _ h => h, fun _ contents h => ⟨contents, h⟩⟩

theorem Grows.trans (h : files.Grows files') (h' : files'.Grows files'') :
    files.Grows files'' where
  workingDirectory := h'.workingDirectory.trans h.workingDirectory
  directory place hplace := h'.directory place (h.directory place hplace)
  file place contents hplace := by
    obtain ⟨contents', hplace'⟩ := h.file place contents hplace
    exact h'.file place contents' hplace'

theorem Extends.refl (files : FileSystem) : files.Extends files := ⟨rfl, fun _ _ h => h⟩

theorem Extends.trans (h : files.Extends files') (h' : files'.Extends files'') :
    files.Extends files'' where
  workingDirectory := h'.workingDirectory.trans h.workingDirectory
  kept place node hplace := h'.kept place node (h.kept place node hplace)

theorem Extends.grows (h : files.Extends files') : files.Grows files' where
  workingDirectory := h.workingDirectory
  directory place hplace := h.kept place _ hplace
  file place contents hplace := ⟨contents, h.kept place _ hplace⟩

/-- Putting something at a free place changes nothing that is there. -/
theorem extends_put (hplace : place ≠ []) (hfree : files.node? place = none) (node : FileNode) :
    files.Extends (files.put place node) where
  workingDirectory := rfl
  kept other old hold := by
    rw [node?_put hplace, if_neg fun heq => ?_]
    · exact hold
    · rw [heq, hfree] at hold
      cases hold

/-- Putting a file where no directory is lets a file system grow. -/
theorem grows_put_file (hplace : place ≠ []) (hfree : files.node? place ≠ some .directory)
    (contents : String) : files.Grows (files.put place (.file contents)) where
  workingDirectory := rfl
  directory other hother := by
    rw [node?_put hplace, if_neg fun heq : other = place => hfree (heq ▸ hother)]
    exact hother
  file other old hold := by
    rw [node?_put hplace]
    split
    · exact ⟨contents, rfl⟩
    · exact ⟨old, hold⟩

/-! ## Paths -/

/-- A step starts from a directory. -/
theorem step_eq_ok_iff {segment : String} {next : Place} :
    files.step here segment = .ok next ↔ files.node? here = some .directory ∧
      (if segment = ".." then here.dropLast
        else if Location.isStep segment then here ++ [segment] else here) = next := by
  unfold step
  split <;> simp_all

theorem Grows.foldlM_step (h : files.Grows files') {segments : List String} :
    ∀ {here : Place}, segments.foldlM files.step here = .ok place →
      segments.foldlM files'.step here = .ok place := by
  induction segments with
  | nil => exact id
  | cons segment rest ih =>
    intro here hwalk
    rw [List.foldlM_cons] at hwalk ⊢
    obtain ⟨next, hstep, hrest⟩ := bind_eq_ok_iff.mp hwalk
    obtain ⟨hhere, hnext⟩ := step_eq_ok_iff.mp hstep
    exact bind_eq_ok_iff.mpr
      ⟨next, step_eq_ok_iff.mpr ⟨h.directory here hhere, hnext⟩, ih hrest⟩

/-- **Paths keep leading to their places** when a file system grows. -/
theorem Grows.resolve (h : files.Grows files') (hpath : files.resolve path = .ok place) :
    files'.resolve path = .ok place := by
  unfold FileSystem.resolve at hpath ⊢
  split at hpath
  · cases hpath
  · rename_i hne
    rw [if_neg hne, start, h.workingDirectory]
    exact h.foldlM_step hpath

/-- A file is read where its path leads. -/
theorem read_eq_ok_iff :
    files.read path = .ok contents ↔
      ∃ place, files.resolve path = .ok place ∧ files.node? place = some (.file contents) := by
  unfold read find
  constructor
  · intro h
    obtain ⟨node, hfind, h⟩ := bind_eq_ok_iff.mp h
    obtain ⟨place, hplace, hfind⟩ := bind_eq_ok_iff.mp hfind
    refine ⟨place, hplace, ?_⟩
    split at hfind
    · rename_i hnode
      cases hfind
      cases node <;> cases h
      exact hnode
    · cases hfind
  · rintro ⟨place, hplace, hnode⟩
    refine bind_eq_ok_iff.mpr ⟨.file contents, bind_eq_ok_iff.mpr ⟨place, hplace, ?_⟩, rfl⟩
    rw [hnode]

/-- The last segment of a path is taken from a directory. -/
theorem lastStep_eq_ok_iff {segments : List String} {segment : String} :
    files.lastStep segments path = .ok (here, segment) ↔
      segments.dropLast.foldlM files.step (files.start path) = .ok here ∧
        files.node? here = some .directory ∧ segments.getLast?.getD "" = segment := by
  unfold lastStep
  constructor
  · intro h
    obtain ⟨place, hplace, h⟩ := bind_eq_ok_iff.mp h
    obtain ⟨_, hstep, h⟩ := bind_eq_ok_iff.mp h
    cases h
    exact ⟨hplace, (step_eq_ok_iff.mp hstep).1, rfl⟩
  · rintro ⟨hplace, hdirectory, rfl⟩
    refine bind_eq_ok_iff.mpr ⟨here, hplace, bind_eq_ok_iff.mpr ⟨here, ?_, rfl⟩⟩
    exact step_eq_ok_iff.mpr ⟨hdirectory, by simp [Location.isStep]⟩

/-! ## Operations -/

/-- **A file has got its contents**: its path leads to a place where these are now, and everything
else is the same. -/
structure PutAt (path contents : String) (place : Place) (files files' : FileSystem) : Prop where
  grows : files.Grows files'
  resolve : files'.resolve path = .ok place
  node : files'.node? place = some (.file contents)
  kept : ∀ other node, other ≠ place → files.node? other = some node →
    files'.node? other = some node

theorem write_eq_ok_iff :
    files.write path contents = .ok files' ↔ path ≠ "" ∧ ∃ here segment,
      files.lastStep (Text.split '/' path) path = .ok (here, segment) ∧
        (segment = ".." || !Location.isStep segment) = false ∧
          files.node? (here ++ [segment]) ≠ some .directory ∧
            files.put (here ++ [segment]) (.file contents) = files' := by
  unfold write
  by_cases hpath : path = ""
  · rw [if_pos hpath]
    exact iff_of_false nofun fun h => h.1 hpath
  · rw [if_neg hpath]
    change (files.lastStep (Text.split '/' path) path >>= _) = _ ↔ _
    rw [bind_eq_ok_iff, Prod.exists, and_iff_right hpath]
    refine exists_congr fun here => exists_congr fun segment => and_congr_right fun _ => ?_
    dsimp only
    split
    · rename_i hidle
      exact iff_of_false nofun fun h => absurd hidle (by simp [h.1])
    · rename_i hidle
      split
      · rename_i hnode
        exact iff_of_false nofun fun h => h.2.1 hnode
      · rename_i hnode
        exact ⟨fun h => ⟨by simpa using hidle, hnode, Except.ok.inj h⟩,
          fun h => congrArg Except.ok h.2.2⟩

theorem createDirectory_eq_ok_iff :
    files.createDirectory path = .ok files' ↔ path ≠ "" ∧ ∃ here segment,
      files.lastStep (trimmedSegments path) path = .ok (here, segment) ∧
        (segment = ".." || !Location.isStep segment) = false ∧
          files.node? (here ++ [segment]) = none ∧
            files.put (here ++ [segment]) .directory = files' := by
  unfold createDirectory
  by_cases hpath : path = ""
  · rw [if_pos hpath]
    exact iff_of_false nofun fun h => h.1 hpath
  · rw [if_neg hpath]
    change (files.lastStep (trimmedSegments path) path >>= _) = _ ↔ _
    rw [bind_eq_ok_iff, Prod.exists, and_iff_right hpath]
    refine exists_congr fun here => exists_congr fun segment => and_congr_right fun _ => ?_
    dsimp only
    split
    · rename_i hidle
      exact iff_of_false nofun fun h => absurd hidle (by simp [h.1])
    · rename_i hidle
      split
      · rename_i hnode
        exact iff_of_false nofun fun h => by simp [h.2.1] at hnode
      · rename_i hnode
        exact ⟨fun h => ⟨by simpa using hidle, by simpa using hnode, Except.ok.inj h⟩,
          fun h => congrArg Except.ok h.2.2⟩

/-- **A file is written** where its path leads. -/
theorem putAt_of_write (h : files.write path contents = .ok files') :
    ∃ place, PutAt path contents place files files' := by
  obtain ⟨hpath, here, segment, hlast, hsegment, hnode, rfl⟩ := write_eq_ok_iff.mp h
  obtain ⟨hwalk, hhere, hlast⟩ := lastStep_eq_ok_iff.mp hlast
  have hplace : here ++ [segment] ≠ [] := by simp
  have hgrows := grows_put_file hplace hnode contents
  have hstep : files.step here segment = .ok (here ++ [segment]) :=
    step_eq_ok_iff.mpr ⟨hhere, by simp_all⟩
  -- The segments of the path are those on the way to the directory, and the last one.
  have hresolve : files.resolve path = .ok (here ++ [segment]) := by
    have hne : Text.split '/' path ≠ [] := by simp [Text.split, Text.parts_ne_nil]
    rw [List.getLast?_eq_some_getLast hne, Option.getD_some] at hlast
    rw [resolve, if_neg hpath, ← List.dropLast_append_getLast hne, hlast, List.foldlM_append]
    refine bind_eq_ok_iff.mpr ⟨here, hwalk, ?_⟩
    rw [List.foldlM_cons, hstep]
    rfl
  refine ⟨here ++ [segment], hgrows, hgrows.resolve hresolve, ?_, fun other node hne hnode => ?_⟩
  · rw [node?_put hplace, if_pos rfl]
  · rw [node?_put hplace, if_neg hne]
    exact hnode

/-- A directory is created at a free place. -/
theorem extends_of_createDirectory (h : files.createDirectory path = .ok files') :
    files.Extends files' := by
  obtain ⟨-, here, segment, -, -, hnode, rfl⟩ := createDirectory_eq_ok_iff.mp h
  exact extends_put (by simp) hnode _

theorem extends_createAround (steps : Nat) : ∀ (path : String) (files : FileSystem),
    files.Extends (createAround steps path files).2 := by
  induction steps with
  | zero => exact fun _ files => .refl files
  | succ steps ih =>
    intro path files
    unfold createAround
    split
    · exact .refl files
    split
    · exact extends_of_createDirectory ‹_›
    · split
      · exact .refl files
      · rename_i outer _
        have hbelow := ih outer files
        split
        · rename_i heq
          rwa [heq] at hbelow
        · rename_i heq
          rw [heq] at hbelow
          split
          · exact hbelow.trans (extends_of_createDirectory ‹_›)
          · exact hbelow
    · exact .refl files

/-- **Creating directories** changes nothing that is there. -/
theorem extends_createDirectories (files : FileSystem) (path : String) :
    files.Extends (files.createDirectories path).2 :=
  extends_createAround _ path files

end RpcSchema.FileSystem
