import RpcSchema.Validator.Program

set_option autoImplicit false
set_option linter.unusedSectionVars false

/-!
# Induction along programs

A walk through a value goes down the nodes of a program and, at a reference, on to a model with one
step less to go. The principles of this module follow such a walk: one case for each form of a node,
with the hypotheses for the nodes inside it.

## Main definitions

* `RpcSchema.Program.Shape.properties` — all the properties of a shape, as they are listed.

## Main results

* `RpcSchema.Program.Node.induct` — induction on nodes.
* `RpcSchema.Program.walkInduct` — induction on the steps that are left and on nodes.
-/

namespace RpcSchema.Program

/-- The properties of a shape in the order in which they are listed: those that have to be there
come first. -/
def Shape.properties (shape : Shape) : List (String × Node) := shape.required ++ shape.optional

theorem Shape.properties_mk (required optional : List (String × Node)) (strict : Bool) :
    Shape.properties ⟨required, optional, strict⟩ = required ++ optional := rfl

section

variable {motive : Node → Prop}
  (scalar : ∀ kind nullable, motive ⟨.scalar kind, nullable⟩)
  (enumeration : ∀ values nullable, motive ⟨.enumeration values, nullable⟩)
  (object : ∀ shape nullable, (∀ property ∈ shape.properties, motive property.2) →
    motive ⟨.object shape, nullable⟩)
  (array : ∀ element nullable, motive element → motive ⟨.array element, nullable⟩)
  (record : ∀ value nullable, motive value → motive ⟨.record value, nullable⟩)
  (union : ∀ tag variants nullable,
    (∀ variant ∈ variants, ∀ property ∈ variant.2.properties, motive property.2) →
    motive ⟨.union tag variants, nullable⟩)
  (ref : ∀ index nullable, motive ⟨.ref index, nullable⟩)

include scalar enumeration object array record union ref

mutual

/-- **Induction on nodes**: the hypothesis of an object is about its properties, that of a union
about the properties of its variants. -/
theorem Node.induct : ∀ node, motive node
  | ⟨.scalar kind, nullable⟩ => scalar kind nullable
  | ⟨.enumeration values, nullable⟩ => enumeration values nullable
  | ⟨.object shape, nullable⟩ => object shape nullable (Shape.induct shape)
  | ⟨.array element, nullable⟩ => array element nullable (Node.induct element)
  | ⟨.record value, nullable⟩ => record value nullable (Node.induct value)
  | ⟨.union tag variants, nullable⟩ => union tag variants nullable (Shape.inductVariants variants)
  | ⟨.ref index, nullable⟩ => ref index nullable

/-- The properties of a shape. -/
private theorem Shape.induct : ∀ shape : Shape, ∀ property ∈ shape.properties, motive property.2
  | ⟨required, optional, _⟩, property, h =>
    (List.mem_append.mp h).elim (Node.inductProperties required property)
      (Node.inductProperties optional property)

/-- The nodes of a list of properties. -/
private theorem Node.inductProperties :
    ∀ (properties : List (String × Node)), ∀ property ∈ properties, motive property.2
  | [], _, h => absurd h List.not_mem_nil
  | (_, node) :: rest, property, h => by
    rcases List.mem_cons.mp h with rfl | h
    · exact Node.induct node
    · exact Node.inductProperties rest property h

/-- The properties of the variants of a union. -/
private theorem Shape.inductVariants : ∀ (variants : List (String × Shape)),
    ∀ variant ∈ variants, ∀ property ∈ variant.2.properties, motive property.2
  | [], _, h => absurd h List.not_mem_nil
  | (_, shape) :: rest, variant, h => by
    rcases List.mem_cons.mp h with rfl | h
    · exact Shape.induct shape
    · exact Shape.inductVariants rest variant h

end

end

/-- **Induction along a walk**: as for nodes, but a reference with a step left leads on to its
model, for which the motive is known with one step less. -/
theorem walkInduct (program : Program) {motive : Nat → Node → Prop}
    (scalar : ∀ steps kind nullable, motive steps ⟨.scalar kind, nullable⟩)
    (enumeration : ∀ steps values nullable, motive steps ⟨.enumeration values, nullable⟩)
    (object : ∀ steps shape nullable, (∀ property ∈ shape.properties, motive steps property.2) →
      motive steps ⟨.object shape, nullable⟩)
    (array : ∀ steps element nullable, motive steps element →
      motive steps ⟨.array element, nullable⟩)
    (record : ∀ steps value nullable, motive steps value → motive steps ⟨.record value, nullable⟩)
    (union : ∀ steps tag variants nullable,
      (∀ variant ∈ variants, ∀ property ∈ variant.2.properties, motive steps property.2) →
      motive steps ⟨.union tag variants, nullable⟩)
    (stop : ∀ index nullable, motive 0 ⟨.ref index, nullable⟩)
    (step : ∀ steps index nullable,
      (∀ node, program.models[index]? = some node → motive steps node) →
      motive (steps + 1) ⟨.ref index, nullable⟩) :
    ∀ steps node, motive steps node := by
  intro steps
  induction steps with
  | zero =>
    exact Node.induct (scalar 0) (enumeration 0) (object 0) (array 0) (record 0) (union 0) stop
  | succ steps ih =>
    exact Node.induct (scalar _) (enumeration _) (object _) (array _) (record _) (union _)
      fun index nullable => step steps index nullable fun node _ => ih node

end RpcSchema.Program
