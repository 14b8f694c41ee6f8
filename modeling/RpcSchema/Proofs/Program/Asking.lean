import RpcSchema.Proofs.Program.Matching
import RpcSchema.Validator.Guard

set_option autoImplicit false

/-!
# When a value belongs to a node

The guard says yes when it does so for all the parts of a value: the items of a list, the fields
along the properties that are present.

## Main definitions

* `RpcSchema.Program.Node.Holds` — the guard says yes.

## Main results

* `RpcSchema.Program.Shape.holds_iff` — fields along a shape.
* `RpcSchema.Program.Kind.holds_array_iff`, `RpcSchema.Program.Kind.holds_record_iff`,
  `RpcSchema.Program.variantHolds_iff` — the other forms with parts.
-/

namespace RpcSchema.Program

variable {follow : Nat → Value → Walk Bool}

/-- **A value belongs to a node.** -/
abbrev Node.Holds (follow : Nat → Value → Walk Bool) (node : Node) (value : Value) : Prop :=
  node.holds follow value = some true

theorem allHold_iff {α : Type} {test : α → Walk Bool} :
    ∀ {list : List α}, allHold test list = some true ↔ ∀ a ∈ list, test a = some true
  | [] => by simp [allHold]
  | a :: rest => by
    rw [List.forall_mem_cons, ← allHold_iff]
    simp only [allHold, Option.bind_eq_bind, Option.bind_eq_some_iff]
    constructor
    · rintro ⟨outcome, houtcome, h⟩
      cases outcome with
      | true => exact ⟨houtcome, h⟩
      | false => cases h
    · rintro ⟨ha, hrest⟩
      exact ⟨true, ha, hrest⟩

theorem requiredHold_iff {fields : Entries Value} :
    ∀ {properties : List (String × Node)}, requiredHold follow fields properties = some true ↔
      ∀ property ∈ properties, ∃ value, fields.lookup property.1 = some value ∧
        property.2.Holds follow value
  | [] => by simp [requiredHold]
  | (key, node) :: rest => by
    rw [List.forall_mem_cons, ← requiredHold_iff]
    cases hkey : fields.lookup key with
    | none => simp [requiredHold, hkey]
    | some value =>
      simp only [requiredHold, hkey, Option.bind_eq_bind, Option.bind_eq_some_iff,
        Option.some.injEq, exists_eq_left']
      constructor
      · rintro ⟨outcome, houtcome, h⟩
        cases outcome with
        | true => exact ⟨houtcome, h⟩
        | false => cases h
      · rintro ⟨hvalue, hrest⟩
        exact ⟨true, hvalue, hrest⟩

theorem optionalHold_iff {fields : Entries Value} :
    ∀ {properties : List (String × Node)}, optionalHold follow fields properties = some true ↔
      ∀ property ∈ properties.filter fun property => Entries.contains fields property.1,
        ∃ value, fields.lookup property.1 = some value ∧ property.2.Holds follow value
  | [] => by simp [optionalHold]
  | (key, node) :: rest => by
    cases hkey : fields.lookup key with
    | none =>
      have hcontains : ¬ Entries.contains fields key = true := by
        rw [Entries.contains_eq_true_iff]
        exact Entries.lookup_eq_none_iff.mp hkey
      rw [List.filter_cons, if_neg hcontains, ← optionalHold_iff]
      simp only [optionalHold, hkey]
    | some value =>
      have hcontains : Entries.contains fields key = true := by
        rw [Entries.contains_eq_true_iff]
        exact Entries.mem_keys_of_mem (Entries.mem_of_lookup hkey)
      rw [List.filter_cons, if_pos hcontains, List.forall_mem_cons, ← optionalHold_iff]
      simp only [optionalHold, hkey, Option.bind_eq_bind, Option.bind_eq_some_iff,
        Option.some.injEq, exists_eq_left']
      constructor
      · rintro ⟨outcome, houtcome, h⟩
        cases outcome with
        | true => exact ⟨houtcome, h⟩
        | false => cases h
      · rintro ⟨hvalue, hrest⟩
        exact ⟨true, hvalue, hrest⟩

theorem Shape.coversKeys_iff {shape : Shape} {tag : Option String} {fields : Entries Value} :
    shape.coversKeys tag fields = true ↔ shape.Admits tag (Entries.keys fields) := by
  unfold Shape.coversKeys Shape.Admits
  cases shape.strict <;> simp [Entries.keys]

/-- **Fields have a shape** when they hold along the properties that are present and no key is
refused. -/
theorem Shape.holds_iff {shape : Shape} {tag : Option String} {fields : Entries Value} :
    shape.holds follow tag fields = some true ↔
      (∀ property ∈ shape.presentIn fields, ∃ value, fields.lookup property.1 = some value ∧
        property.2.Holds follow value) ∧ shape.Admits tag (Entries.keys fields) := by
  obtain ⟨required, optional, strict⟩ := shape
  rw [← Shape.coversKeys_iff, Shape.presentIn, List.forall_mem_append, ← requiredHold_iff,
    ← optionalHold_iff]
  simp only [Shape.holds, Option.bind_eq_bind, Option.bind_eq_some_iff, Option.pure_def,
    Option.some.injEq, Bool.and_eq_true]
  constructor
  · rintro ⟨present, hpresent, further, hfurther, ⟨rfl, rfl⟩, hcovers⟩
    exact ⟨⟨hpresent, hfurther⟩, hcovers⟩
  · rintro ⟨⟨hpresent, hfurther⟩, hcovers⟩
    exact ⟨true, hpresent, true, hfurther, ⟨rfl, rfl⟩, hcovers⟩

theorem variantHolds_iff {tag : Option String} {name : String} {fields : Entries Value} :
    ∀ {variants : List (String × Shape)},
      variantHolds follow tag name variants fields = some true ↔
        ∃ shape, variants.lookup name = some shape ∧ shape.holds follow tag fields = some true
  | [] => by simp [variantHolds]
  | (other, shape) :: rest => by
    rw [variantHolds, Entries.lookup_cons_ite]
    by_cases hname : name = other
    · simp [hname]
    · rw [if_neg (by simpa using Ne.symm hname), if_neg hname]
      exact variantHolds_iff

theorem Kind.holds_array_iff {element : Node} {items : List Value} :
    Kind.holds follow (.array element) (.array items) = some true ↔
      ∀ item ∈ items, element.Holds follow item := allHold_iff

theorem Kind.holds_record_iff {node : Node} {fields : Entries Value} :
    Kind.holds follow (.record node) (.object fields) = some true ↔
      ∀ field ∈ fields, node.Holds follow field.2 := allHold_iff

/-- Values other than `null` are asked about along what a node demands. -/
theorem Node.holds_of_not_null {kind : Kind} {nullable : Bool} {value : Value}
    (h : value.isNull = false) :
    (⟨kind, nullable⟩ : Node).holds follow value = kind.holds follow value := by
  simp [Node.holds, h]

theorem Node.holds_null {kind : Kind} {nullable : Bool} :
    (⟨kind, nullable⟩ : Node).holds follow .null = some nullable := rfl

end RpcSchema.Program
