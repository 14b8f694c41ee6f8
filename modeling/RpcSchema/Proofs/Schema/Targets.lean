import RpcSchema.Proofs.Schema.Induction

set_option autoImplicit false

/-!
# The references inside each form

The models that a schema refers to are those that the schemas inside it refer to, in their order;
where the schema stands does not matter.

## Main results

* `RpcSchema.Schema.targetsAmong_nodes` — references are the same at every place.
* `RpcSchema.Schema.targets_object`, `RpcSchema.Schema.targets_union`, … — the references inside
  each form.
-/

namespace RpcSchema.Schema

/-- The model that a schema refers to itself. -/
def target? (schema : Schema) : Option String :=
  match schema.form with
  | .ref target => some target
  | _ => none

/-- The references among nodes with their paths. -/
def targetsAmong (nodes : List (Path × Schema)) : List String :=
  nodes.filterMap fun node => node.2.target?

theorem targetsAmong_append (nodes others : List (Path × Schema)) :
    targetsAmong (nodes ++ others) = targetsAmong nodes ++ targetsAmong others :=
  List.filterMap_append

theorem targets_eq_targetsAmong (schema : Schema) :
    schema.targets = targetsAmong (schema.nodes []) := by
  rw [targets, references, targetsAmong, List.map_filterMap]
  congr 1
  funext node
  obtain ⟨path, form, nullable, metadata⟩ := node
  cases form <;> rfl

/-- The references among the schemas of a map, if those inside each schema are known. -/
theorem targetsAmong_childNodes {children : List (String × Schema)}
    (h : ∀ child ∈ children, ∀ place, targetsAmong (child.2.nodes place) = child.2.targets)
    (place : Path) :
    targetsAmong (childNodes place children) = children.flatMap fun child => child.2.targets := by
  induction children with
  | nil => rfl
  | cons child rest ih =>
    obtain ⟨key, schema⟩ := child
    obtain ⟨hfirst, hrest⟩ := List.forall_mem_cons.mp h
    rw [childNodes, targetsAmong_append, hfirst, ih hrest, List.flatMap_cons]

variable {nullable : Bool} {metadata : Metadata}

theorem targetsAmong_object {required optional : List (String × Schema)} {strict : Bool}
    (hrequired : ∀ child ∈ required, ∀ place,
      targetsAmong (child.2.nodes place) = child.2.targets)
    (hoptional : ∀ child ∈ optional, ∀ place,
      targetsAmong (child.2.nodes place) = child.2.targets) (place : Path) :
    targetsAmong (nodes place ⟨.object required optional strict, nullable, metadata⟩) =
      (required.flatMap fun child => child.2.targets) ++
        optional.flatMap fun child => child.2.targets := by
  rw [nodes, formNodes, ← targetsAmong_childNodes hrequired,
    ← targetsAmong_childNodes hoptional, ← targetsAmong_append]
  rfl

theorem targetsAmong_array {element : Schema}
    (h : ∀ place, targetsAmong (element.nodes place) = element.targets) (place : Path) :
    targetsAmong (nodes place ⟨.array element, nullable, metadata⟩) = element.targets := by
  rw [nodes, formNodes, ← h]
  rfl

theorem targetsAmong_record {value : Schema}
    (h : ∀ place, targetsAmong (value.nodes place) = value.targets) (place : Path) :
    targetsAmong (nodes place ⟨.record value, nullable, metadata⟩) = value.targets := by
  rw [nodes, formNodes, ← h]
  rfl

theorem targetsAmong_union {tag : String} {variants : List (String × Schema)}
    (h : ∀ child ∈ variants, ∀ place, targetsAmong (child.2.nodes place) = child.2.targets)
    (place : Path) :
    targetsAmong (nodes place ⟨.union tag variants, nullable, metadata⟩) =
      variants.flatMap fun child => child.2.targets := by
  rw [nodes, formNodes, ← targetsAmong_childNodes h]
  rfl

/-- **References are the same at every place.** -/
theorem targetsAmong_nodes (schema : Schema) :
    ∀ place, targetsAmong (schema.nodes place) = schema.targets := by
  induction schema using induct with
  | scalar kind nullable metadata => exact fun _ => rfl
  | enumeration values nullable metadata => exact fun _ => rfl
  | object required optional strict nullable metadata ihRequired ihOptional =>
    intro place
    rw [targets_eq_targetsAmong, targetsAmong_object ihRequired ihOptional,
      targetsAmong_object ihRequired ihOptional]
  | array element nullable metadata ih =>
    intro place
    rw [targets_eq_targetsAmong, targetsAmong_array ih, targetsAmong_array ih]
  | record value nullable metadata ih =>
    intro place
    rw [targets_eq_targetsAmong, targetsAmong_record ih, targetsAmong_record ih]
  | union tag variants nullable metadata ih =>
    intro place
    rw [targets_eq_targetsAmong, targetsAmong_union ih, targetsAmong_union ih]
  | ref target nullable metadata => exact fun _ => rfl

/-! ## Forms -/

theorem targets_object (required optional : List (String × Schema)) (strict : Bool) :
    targets ⟨.object required optional strict, nullable, metadata⟩ =
      (required.flatMap fun child => child.2.targets) ++
        optional.flatMap fun child => child.2.targets := by
  rw [targets_eq_targetsAmong, targetsAmong_object (fun child _ => targetsAmong_nodes child.2)
    fun child _ => targetsAmong_nodes child.2]

theorem targets_array (element : Schema) :
    targets ⟨.array element, nullable, metadata⟩ = element.targets := by
  rw [targets_eq_targetsAmong, targetsAmong_array (targetsAmong_nodes element)]

theorem targets_record (value : Schema) :
    targets ⟨.record value, nullable, metadata⟩ = value.targets := by
  rw [targets_eq_targetsAmong, targetsAmong_record (targetsAmong_nodes value)]

theorem targets_union (tag : String) (variants : List (String × Schema)) :
    targets ⟨.union tag variants, nullable, metadata⟩ =
      variants.flatMap fun child => child.2.targets := by
  rw [targets_eq_targetsAmong, targetsAmong_union fun child _ => targetsAmong_nodes child.2]

theorem targets_ref (target : String) : targets ⟨.ref target, nullable, metadata⟩ = [target] := rfl

end RpcSchema.Schema
