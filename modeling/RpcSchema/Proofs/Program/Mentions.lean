import RpcSchema.Proofs.Program.Induction

set_option autoImplicit false

/-!
# The models that a node mentions

A node mentions the models to which references anywhere inside it refer. A walk along the node goes
on along these and no others.

## Main definitions

* `RpcSchema.Program.Node.Mentions` — a reference inside a node refers to a position.

## Main results

* `RpcSchema.Program.Node.mentions_object_iff`, `RpcSchema.Program.Node.mentions_union_iff`, … —
  what nodes of each form mention.
-/

namespace RpcSchema.Program

/-- **A node mentions a position** when a reference inside it refers there. -/
inductive Node.Mentions (index : Nat) : Node → Prop
  | ref (nullable : Bool) : Node.Mentions index ⟨.ref index, nullable⟩
  | property {shape : Shape} {nullable : Bool} {property : String × Node} :
    property ∈ shape.properties → Node.Mentions index property.2 →
    Node.Mentions index ⟨.object shape, nullable⟩
  | element {element : Node} {nullable : Bool} : Node.Mentions index element →
    Node.Mentions index ⟨.array element, nullable⟩
  | value {value : Node} {nullable : Bool} : Node.Mentions index value →
    Node.Mentions index ⟨.record value, nullable⟩
  | variant {tag : String} {variants : List (String × Shape)} {nullable : Bool}
    {variant : String × Shape} {property : String × Node} :
    variant ∈ variants → property ∈ variant.2.properties → Node.Mentions index property.2 →
    Node.Mentions index ⟨.union tag variants, nullable⟩

namespace Node

variable {index : Nat} {nullable : Bool}

/-- A reference mentions what it refers to. -/
theorem mentions_of_target? {node : Node} (h : node.target? = some index) :
    node.Mentions index := by
  obtain ⟨kind, nullable⟩ := node
  cases kind <;> simp only [target?, Option.some.injEq, reduceCtorEq] at h
  subst h
  exact .ref nullable

theorem not_mentions_scalar {kind : ScalarKind} :
    ¬ (⟨.scalar kind, nullable⟩ : Node).Mentions index := nofun

theorem not_mentions_enumeration {values : List String} :
    ¬ (⟨.enumeration values, nullable⟩ : Node).Mentions index := nofun

theorem mentions_object_iff {shape : Shape} :
    (⟨.object shape, nullable⟩ : Node).Mentions index ↔
      ∃ property ∈ shape.properties, property.2.Mentions index :=
  ⟨fun | .property hproperty h => ⟨_, hproperty, h⟩, fun ⟨_, hproperty, h⟩ => .property hproperty h⟩

theorem mentions_array_iff {element : Node} :
    (⟨.array element, nullable⟩ : Node).Mentions index ↔ element.Mentions index :=
  ⟨fun | .element h => h, .element⟩

theorem mentions_record_iff {value : Node} :
    (⟨.record value, nullable⟩ : Node).Mentions index ↔ value.Mentions index :=
  ⟨fun | .value h => h, .value⟩

theorem mentions_union_iff {tag : String} {variants : List (String × Shape)} :
    (⟨.union tag variants, nullable⟩ : Node).Mentions index ↔
      ∃ variant ∈ variants, ∃ property ∈ variant.2.properties, property.2.Mentions index :=
  ⟨fun | .variant hvariant hproperty h => ⟨_, hvariant, _, hproperty, h⟩,
    fun ⟨_, hvariant, _, hproperty, h⟩ => .variant hvariant hproperty h⟩

theorem mentions_ref_iff {other : Nat} :
    (⟨.ref other, nullable⟩ : Node).Mentions index ↔ index = other :=
  ⟨fun | .ref _ => rfl, fun h => h ▸ .ref nullable⟩

end Node

end RpcSchema.Program
