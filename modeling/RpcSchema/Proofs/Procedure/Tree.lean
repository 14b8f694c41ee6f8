import RpcSchema.Procedure.Tree
import RpcSchema.Proofs.Entries
import RpcSchema.Proofs.Outcome

set_option autoImplicit false

/-!
# The procedures in a tree

A tree of procedures holds no others than those it has been made from.

## Main definitions

* `RpcSchema.Service.All` — every procedure in a tree has a property.

## Main results

* `RpcSchema.Service.all_insert` — adding a procedure.
* `RpcSchema.Service.all_ofProcedures` — the tree of a map of procedures.
-/

namespace RpcSchema

open Outcome (bind_eq_ok_iff)

variable {p : Procedure → Prop}

mutual

/-- Every procedure of an entry has a property. -/
def Branch.All (p : Procedure → Prop) : Branch → Prop
  | .procedure procedure => p procedure
  | .service service => service.All p

/-- **Every procedure in a tree has a property.** -/
def Service.All (p : Procedure → Prop) : Service → Prop
  | ⟨children⟩ => Service.AllChildren p children

/-- Every procedure of the entries of a level has a property. -/
def Service.AllChildren (p : Procedure → Prop) : List (String × Branch) → Prop
  | [] => True
  | (_, branch) :: rest => branch.All p ∧ Service.AllChildren p rest

end

namespace Service

theorem allChildren_iff {children : List (String × Branch)} :
    AllChildren p children ↔ ∀ child ∈ children, child.2.All p := by
  induction children with
  | nil => simp [AllChildren]
  | cons child rest ih => rw [AllChildren, ih, List.forall_mem_cons]

/-- A branch to a procedure holds this procedure only. -/
theorem all_path {procedure : Procedure} (h : p procedure) (segments : List String) :
    (path procedure segments).All p := by
  induction segments with
  | nil => exact h
  | cons segment rest ih => exact ⟨ih, trivial⟩

theorem all_insertSegments {procedure : Procedure} (h : p procedure) {segments : List String} :
    ∀ {children children' : List (String × Branch)}, (∀ child ∈ children, child.2.All p) →
      insertSegments procedure segments children = .ok children' →
      ∀ child ∈ children', child.2.All p := by
  induction segments with
  | nil =>
    intro children children' hchildren hinsert
    cases hinsert
    exact hchildren
  | cons segment rest ih =>
    intro children children' hchildren hinsert
    unfold insertSegments at hinsert
    split at hinsert
    · cases hinsert
      exact Entries.forall_mem_insert hchildren (all_path h _)
    · rename_i service next further hservice
      obtain ⟨below⟩ := service
      split at hinsert
      · rename_i inner hinner
        cases hinsert
        have hbelow : AllChildren p below := hchildren _ (Entries.mem_of_lookup hservice)
        have hinner := ih (allChildren_iff.mp hbelow) hinner
        exact Entries.forall_mem_insert hchildren (allChildren_iff.mpr hinner)
      · cases hinsert
    · cases hinsert

/-- **Adding a procedure** adds no others. -/
theorem all_insert {service service' : Service} {key : String} {procedure : Procedure}
    (hservice : service.All p) (h : p procedure)
    (hinsert : service.insert key procedure = .ok service') : service'.All p := by
  obtain ⟨children⟩ := service
  unfold insert at hinsert
  dsimp only at hinsert
  split at hinsert
  · cases hinsert
  · split at hinsert
    · rename_i children' hchildren
      cases hinsert
      exact allChildren_iff.mpr (all_insertSegments h (allChildren_iff.mp hservice) hchildren)
    · cases hinsert

/-- Adding procedures one after the other adds no others. -/
theorem all_foldlM_insert {procedures : Entries Procedure} :
    ∀ {service tree : Service}, service.All p → (∀ entry ∈ procedures, p entry.2) →
      procedures.foldlM (fun service entry => service.insert entry.1 entry.2) service = .ok tree →
      tree.All p := by
  induction procedures with
  | nil =>
    intro service tree hservice _ htree
    cases htree
    exact hservice
  | cons entry rest ih =>
    intro service tree hservice h htree
    obtain ⟨hfirst, hrest⟩ := List.forall_mem_cons.mp h
    rw [List.foldlM_cons] at htree
    obtain ⟨service', hservice', htree⟩ := bind_eq_ok_iff.mp htree
    exact ih (all_insert hservice hfirst hservice') hrest htree

/-- **The tree of a map of procedures** holds the procedures of the map only. -/
theorem all_ofProcedures {procedures : Entries Procedure} {tree : Service}
    (h : ∀ entry ∈ procedures, p entry.2) (htree : ofProcedures procedures = .ok tree) :
    tree.All p := by
  have hempty : empty.All p := trivial
  exact all_foldlM_insert hempty h htree

end Service

end RpcSchema
