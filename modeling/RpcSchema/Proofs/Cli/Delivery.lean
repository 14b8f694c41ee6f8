import RpcSchema.Cli.Command
import RpcSchema.Proofs.Effect
import RpcSchema.Proofs.Files.Growth

set_option autoImplicit false

/-!
# Delivering files

The files of generators are written one after the other. A later file replaces an earlier one when
the two paths lead to one place, and nothing asks whether they do. So what a path leads to
afterwards is what the last of the files has that lead to the same place.

## Main definitions

* `RpcSchema.FileSystem.lastAt` — the last of several files that lead to a place.
* `RpcSchema.Delivered` — files have been delivered, one after the other.

## Main results

* `RpcSchema.Session.delivered_of_deliverAll` — what the files of generators have been delivered as.
* `RpcSchema.Delivered.read` — what their paths lead to then.
-/

namespace RpcSchema

open Effect (bind_eq_ok_iff exists_ok_of_lift lift_eq_ok_iff adapt_eq_ok_iff pure_eq_ok_iff)
open FileSystem (PutAt)

/-! ## The last file at a place -/

/-- **The last of several files that lead to a place.** -/
def FileSystem.lastAt (files : FileSystem) (outputs : List GeneratedFile) (place : Place) :
    Option GeneratedFile :=
  outputs.reverse.find? fun file => (files.resolve file.path).toOption = some place

namespace FileSystem

variable {files middle files' : FileSystem} {outputs : List GeneratedFile} {place : Place}

theorem lastAt_append (files : FileSystem) (outputs later : List GeneratedFile) (place : Place) :
    files.lastAt (outputs ++ later) place =
      (files.lastAt later place).or (files.lastAt outputs place) := by
  rw [lastAt, List.reverse_append, List.find?_append]
  rfl

/-- Files whose paths lead somewhere lead there when the file system has grown. -/
theorem Grows.lastAt_eq (h : files.Grows files')
    (hleads : ∀ file ∈ outputs, ∃ place, files.resolve file.path = .ok place) :
    files'.lastAt outputs place = files.lastAt outputs place := by
  have hsame : ∀ file ∈ outputs.reverse, files'.resolve file.path = files.resolve file.path := by
    intro file hfile
    obtain ⟨there, hthere⟩ := hleads file (List.mem_reverse.mp hfile)
    rw [hthere, h.resolve hthere]
  unfold lastAt
  generalize outputs.reverse = backwards at hsame
  induction backwards with
  | nil => rfl
  | cons file rest ih =>
    obtain ⟨hfile, hrest⟩ := List.forall_mem_cons.mp hsame
    rw [List.find?_cons, List.find?_cons, hfile, ih hrest]

end FileSystem

/-! ## Files one after the other -/

/-- **Files have been delivered**, one after the other: each of their paths leads to a place, the
last file that leads to a place is there, and elsewhere nothing that was there has changed. -/
structure Delivered (outputs : List GeneratedFile) (files files' : FileSystem) : Prop where
  grows : files.Grows files'
  leads : ∀ file ∈ outputs, ∃ place, files'.resolve file.path = .ok place
  last : ∀ place file, files'.lastAt outputs place = some file →
    files'.node? place = some (.file file.contents)
  kept : ∀ place node, files'.lastAt outputs place = none → files.node? place = some node →
    files'.node? place = some node

namespace Delivered

variable {files middle files' : FileSystem} {outputs later : List GeneratedFile}

theorem nil (files : FileSystem) : Delivered [] files files where
  grows := .refl files
  leads := nofun
  last := nofun
  kept _ _ _ h := h

/-- A file that has got its contents has been delivered. -/
theorem singleton {file : GeneratedFile} {place : Place}
    (h : PutAt file.path file.contents place files files') : Delivered [file] files files' := by
  have hlast (other : Place) :
      files'.lastAt [file] other = if place = other then some file else none := by
    rw [FileSystem.lastAt, List.reverse_singleton, List.find?_singleton, h.resolve]
    simp [Except.toOption]
  refine ⟨h.grows, List.forall_mem_singleton.mpr ⟨place, h.resolve⟩, ?_, ?_⟩
  · intro other last hother
    rw [hlast] at hother
    split at hother
    · rename_i heq
      cases hother
      exact heq ▸ h.node
    · cases hother
  · intro other node hother hnode
    rw [hlast] at hother
    split at hother
    · cases hother
    · rename_i hne
      exact h.kept other node (Ne.symm hne) hnode

/-- **Files behind others**: the earlier ones stay where no later one leads. -/
theorem append (h : Delivered outputs files middle) (h' : Delivered later middle files') :
    Delivered (outputs ++ later) files files' := by
  have hearlier (place : Place) : files'.lastAt outputs place = middle.lastAt outputs place :=
    h'.grows.lastAt_eq h.leads
  refine ⟨h.grows.trans h'.grows, ?_, ?_, ?_⟩
  · intro file hfile
    rcases List.mem_append.mp hfile with hfile | hfile
    · obtain ⟨place, hplace⟩ := h.leads file hfile
      exact ⟨place, h'.grows.resolve hplace⟩
    · exact h'.leads file hfile
  · intro place file hlast
    rw [FileSystem.lastAt_append, hearlier] at hlast
    cases hlater : files'.lastAt later place with
    | some other =>
      rw [hlater] at hlast
      cases hlast
      exact h'.last place file hlater
    | none =>
      rw [hlater] at hlast
      exact h'.kept place _ hlater (h.last place file hlast)
  · intro place node hlast hnode
    rw [FileSystem.lastAt_append, hearlier, Option.or_eq_none_iff] at hlast
    exact h'.kept place node hlast.1 (h.kept place node hlast.2 hnode)

/-- **What the path of a file leads to** once all files have been delivered: what the last of the
later ones has that lead to the same place, and without any what it has itself. -/
theorem read {before after : List GeneratedFile} {file : GeneratedFile}
    (h : Delivered (before ++ file :: after) files files') :
    ∃ place, files'.resolve file.path = .ok place ∧
      files'.read file.path = .ok ((files'.lastAt after place).getD file).contents := by
  obtain ⟨place, hplace⟩ := h.leads file (by simp)
  have hown : files'.lastAt [file] place = some file := by
    rw [FileSystem.lastAt, List.reverse_singleton, List.find?_singleton, hplace]
    simp [Except.toOption]
  have hlast : files'.lastAt (before ++ file :: after) place =
      some ((files'.lastAt after place).getD file) := by
    rw [FileSystem.lastAt_append, ← List.singleton_append, FileSystem.lastAt_append, hown]
    cases files'.lastAt after place <;> rfl
  exact ⟨place, hplace, FileSystem.read_eq_ok_iff.mpr ⟨place, hplace, h.last place _ hlast⟩⟩

end Delivered

variable {session session' : Session}

namespace FileSystem

theorem PutAt.of_extends {path contents : String} {place : Place} {files middle files' : FileSystem}
    (h : files.Extends middle) (hput : PutAt path contents place middle files') :
    PutAt path contents place files files' where
  grows := h.grows.trans hput.grows
  resolve := hput.resolve
  node := hput.node
  kept other node hne hnode := hput.kept other node hne (h.kept other node hnode)

end FileSystem

namespace Session

/-- **A file that is put where it belongs** gets its contents. -/
theorem putAt_of_place {file : GeneratedFile}
    (h : (host.place file).run session = (.ok (), session')) :
    ∃ place, PutAt file.path file.contents place session.files session'.files := by
  -- The directories around the file are there before it is written.
  obtain ⟨middle, hextends, h⟩ : ∃ middle : Session, session.files.Extends middle.files ∧
      middle.write file.path file.contents = (.ok (), session') := by
    have hwritten {middle : Session}
        {next : Except OsError Unit → ExceptT CodegenError (StateM Session) Unit}
        (h : (liftM (host.write file.path file.contents) >>= next).run middle = (.ok (), session'))
        (hthrow : ∀ error last, (next (.error error)).run last ≠ (.ok (), session'))
        (hreturn : next (.ok ()) = pure ()) :
        middle.write file.path file.contents = (.ok (), session') := by
      obtain ⟨⟨⟩, last, hwrite, h⟩ := exists_ok_of_lift h hthrow
      rw [hreturn] at h
      obtain ⟨-, rfl⟩ := pure_eq_ok_iff.mp h
      exact hwrite
    unfold Host.place at h
    cases hparent : Location.parent? file.path with
    | none =>
      rw [hparent] at h
      exact ⟨session, .refl _, hwritten h nofun rfl⟩
    | some directory =>
      rw [hparent] at h
      dsimp only at h
      split at h
      · obtain ⟨⟨⟩, middle, hcreate, h⟩ := exists_ok_of_lift h nofun
        have hfiles : middle.files = (session.files.createDirectories directory).2 :=
          (congrArg (fun outcome => outcome.2.files) hcreate).symm
        refine ⟨middle, ?_, hwritten h nofun rfl⟩
        exact hfiles ▸ FileSystem.extends_createDirectories session.files directory
      · exact ⟨session, .refl _, hwritten h nofun rfl⟩
  unfold write at h
  split at h
  · rename_i files hfiles
    cases h
    obtain ⟨place, hput⟩ := FileSystem.putAt_of_write hfiles
    exact ⟨place, hput.of_extends hextends⟩
  · cases h

theorem putAt_of_deliver {run : GeneratorRun} {file : GeneratedFile}
    (h : (host.deliver run file).run session = (.ok (), session')) :
    ∃ place, PutAt file.path file.contents place session.files session'.files := by
  unfold Host.deliver at h
  obtain ⟨⟨⟩, middle, hplace, h⟩ := bind_eq_ok_iff.mp h
  obtain ⟨place, hput⟩ := putAt_of_place (adapt_eq_ok_iff.mp hplace)
  have h := lift_eq_ok_iff.mp h
  cases h
  exact ⟨place, hput⟩

/-- The files of one generator are delivered in their order. -/
theorem delivered_of_forIn {run : GeneratorRun} : ∀ {outputs : List GeneratedFile}
    {session : Session},
    (forIn outputs PUnit.unit fun file _ => do
        host.deliver run file
        pure (ForInStep.yield PUnit.unit) :
      ExceptT CommandError (StateM Session) PUnit).run session = (.ok (), session') →
    Delivered outputs session.files session'.files
  | [], session, h => by
    cases h
    exact .nil _
  | file :: rest, session, h => by
    rw [List.forIn_cons] at h
    obtain ⟨step, middle, hstep, h⟩ := bind_eq_ok_iff.mp h
    obtain ⟨⟨⟩, _, hdeliver, hstep⟩ := bind_eq_ok_iff.mp hstep
    obtain ⟨rfl, rfl⟩ := pure_eq_ok_iff.mp hstep
    obtain ⟨place, hput⟩ := putAt_of_deliver hdeliver
    exact (Delivered.singleton hput).append (delivered_of_forIn h)

/-- **The files of generators**: where none has failed, all of them are delivered in their order. -/
theorem delivered_of_deliverAll : ∀ {runs : List GeneratorRun} {session : Session},
    (host.deliverAll false runs).run session = (.ok 0, session') →
      ∃ outputs, List.Forall₂ (fun run files => run.result = .ok files) runs outputs ∧
        Delivered outputs.flatten session.files session'.files
  | [], session, h => by
    cases h
    exact ⟨[], .nil, .nil _⟩
  | run :: rest, session, h => by
    unfold Host.deliverAll at h
    cases hresult : run.result with
    | error error =>
      rw [hresult] at h
      obtain ⟨_, _, -, h⟩ := bind_eq_ok_iff.mp h
      obtain ⟨failed, _, -, h⟩ := bind_eq_ok_iff.mp h
      obtain ⟨hfailed, -⟩ := pure_eq_ok_iff.mp h
      cases hfailed
    | ok outputs =>
      rw [hresult] at h
      simp only [Bool.false_eq_true, ↓reduceIte] at h
      obtain ⟨⟨⟩, middle, hown, h⟩ := bind_eq_ok_iff.mp h
      obtain ⟨further, hresults, hrest⟩ := delivered_of_deliverAll h
      exact ⟨outputs :: further, .cons hresult hresults, (delivered_of_forIn hown).append hrest⟩

end Session

end RpcSchema
