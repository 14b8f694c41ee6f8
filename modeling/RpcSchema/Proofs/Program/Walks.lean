import RpcSchema.Proofs.Entries
import RpcSchema.Proofs.Program.Budget
import RpcSchema.Proofs.Program.Mentions
import RpcSchema.Validator.Decode
import RpcSchema.Validator.Encode
import RpcSchema.Validator.Guard

set_option autoImplicit false

/-!
# Decoding, asking and encoding are walks

The three walks keep the rules of `RpcSchema.Program.IsWalk`: below a node they only go to parts of
the input, and a reference is the only node that hands its own input on. So the number of steps
that the definitions give them is no limit.

## Main definitions

* `RpcSchema.Program.Follows` — two ways of following references compare wherever a walk along a
  node may ask.
* `RpcSchema.Program.decodeAt`, `RpcSchema.Program.holdsAt`, `RpcSchema.Program.encodeAt` —
  following a reference to a model for good.

## Main results

* `RpcSchema.Program.Node.holds_rel`, `RpcSchema.Program.Node.encode_rel`,
  `RpcSchema.Program.Node.decode_rel` — the walks compare when the ways of following references do.
* `RpcSchema.Program.isWalk_decode`, `RpcSchema.Program.isWalk_holds`,
  `RpcSchema.Program.isWalk_encode` — the three are walks.
* `RpcSchema.Program.decode_eq`, `RpcSchema.Program.holds_eq`, `RpcSchema.Program.encode_eq` —
  along a program they follow references for good.
-/

namespace RpcSchema

/-! ## Depth -/

theorem Json.depth_le_depthItems {items : List Json} {item : Json} (h : item ∈ items) :
    item.depth ≤ depthItems items := by
  induction items with
  | nil => simp at h
  | cons first rest ih =>
    simp only [depthItems]
    rcases List.mem_cons.mp h with rfl | h
    · exact Nat.le_max_left ..
    · exact (ih h).trans (Nat.le_max_right ..)

theorem Json.depth_le_depthEntries {entries : Entries Json} {key : String} {item : Json}
    (h : (key, item) ∈ entries) : item.depth ≤ depthEntries entries := by
  induction entries with
  | nil => simp at h
  | cons first rest ih =>
    simp only [depthEntries]
    rcases List.mem_cons.mp h with rfl | h
    · exact Nat.le_max_left ..
    · exact (ih h).trans (Nat.le_max_right ..)

/-- An item lies less deep than its array. -/
theorem Json.depth_lt_of_mem {items : List Json} {item : Json} (h : item ∈ items) :
    item.depth < (Json.array items).depth := Nat.lt_succ_of_le (depth_le_depthItems h)

/-- An entry lies less deep than its object. -/
theorem Json.depth_lt_of_entry {entries : Entries Json} {key : String} {item : Json}
    (h : (key, item) ∈ entries) : item.depth < (Json.object entries).depth :=
  Nat.lt_succ_of_le (depth_le_depthEntries h)

theorem Value.depth_le_depthItems {items : List Value} {item : Value} (h : item ∈ items) :
    item.depth ≤ depthItems items := by
  induction items with
  | nil => simp at h
  | cons first rest ih =>
    simp only [depthItems]
    rcases List.mem_cons.mp h with rfl | h
    · exact Nat.le_max_left ..
    · exact (ih h).trans (Nat.le_max_right ..)

/-- A field lies no deeper than the deepest. -/
theorem Value.depth_le_depthFields {fields : Entries Value} {key : String} {value : Value}
    (h : (key, value) ∈ fields) : value.depth ≤ depthFields fields := by
  induction fields with
  | nil => simp at h
  | cons first rest ih =>
    simp only [depthFields]
    rcases List.mem_cons.mp h with rfl | h
    · exact Nat.le_max_left ..
    · exact (ih h).trans (Nat.le_max_right ..)

namespace Program

variable (c : Walk.Comparison)

/-! ## What a walk asks for -/

/-- **Two ways of following references compare wherever a walk along a node may ask**: at the models
that the node mentions for lesser inputs, and for the input itself if the node is a reference. -/
structure Follows {X R : Type} (size : X → Nat) (node : Node) (x : X) (f g : Nat → X → Walk R) :
    Prop where
  below : ∀ index y, node.Mentions index → size y < size x → c.rel (f index y) (g index y)
  here : ∀ index, node.target? = some index → c.rel (f index x) (g index x)

/-- A walk goes down to a node inside with a lesser input only. -/
theorem Follows.part {X R : Type} {c : Walk.Comparison} {size : X → Nat} {whole inner : Node}
    {x y : X} {f g : Nat → X → Walk R} (h : Follows c size whole x f g)
    (hinner : ∀ index, inner.Mentions index → whole.Mentions index) (hlt : size y < size x) :
    Follows c size inner y f g where
  below index z hindex hz := h.below index z (hinner index hindex) (hz.trans hlt)
  here index hindex := h.below index y (hinner index (Node.mentions_of_target? hindex)) hlt

/-! ## Asking -/

section Holds

variable {f g : Nat → Value → Walk Bool}

theorem allHold_rel {α : Type} {test test' : α → Walk Bool} :
    ∀ {list : List α}, (∀ a ∈ list, c.rel (test a) (test' a)) →
      c.rel (allHold test list) (allHold test' list)
  | [], _ => c.outcome true
  | a :: rest, h => by
    refine c.bind (h a List.mem_cons_self) fun b => ?_
    cases b with
    | false => exact c.outcome false
    | true => exact allHold_rel fun b hb => h b (List.mem_cons_of_mem a hb)

theorem requiredHold_rel {fields : Entries Value} :
    ∀ {properties : List (String × Node)},
      (∀ property ∈ properties, ∀ value, fields.lookup property.1 = some value →
        c.rel (property.2.holds f value) (property.2.holds g value)) →
      c.rel (requiredHold f fields properties) (requiredHold g fields properties)
  | [], _ => c.outcome true
  | (key, node) :: rest, h => by
    simp only [requiredHold]
    cases hkey : fields.lookup key with
    | none => exact c.outcome false
    | some value =>
      refine c.bind (h _ List.mem_cons_self value hkey) fun b => ?_
      cases b with
      | false => exact c.outcome false
      | true => exact requiredHold_rel fun p hp => h p (List.mem_cons_of_mem _ hp)

theorem optionalHold_rel {fields : Entries Value} :
    ∀ {properties : List (String × Node)},
      (∀ property ∈ properties, ∀ value, fields.lookup property.1 = some value →
        c.rel (property.2.holds f value) (property.2.holds g value)) →
      c.rel (optionalHold f fields properties) (optionalHold g fields properties)
  | [], _ => c.outcome true
  | (key, node) :: rest, h => by
    simp only [optionalHold]
    cases hkey : fields.lookup key with
    | none => exact optionalHold_rel fun p hp => h p (List.mem_cons_of_mem _ hp)
    | some value =>
      refine c.bind (h _ List.mem_cons_self value hkey) fun b => ?_
      cases b with
      | false => exact c.outcome false
      | true => exact optionalHold_rel fun p hp => h p (List.mem_cons_of_mem _ hp)

theorem Shape.holds_rel {shape : Shape} {fields : Entries Value} {tag : Option String}
    (h : ∀ property ∈ shape.properties, ∀ value, fields.lookup property.1 = some value →
      c.rel (property.2.holds f value) (property.2.holds g value)) :
    c.rel (shape.holds f tag fields) (shape.holds g tag fields) := by
  obtain ⟨required, optional, strict⟩ := shape
  simp only [Shape.holds]
  refine c.bind (requiredHold_rel c fun p hp => h p (List.mem_append_left _ hp)) fun present => ?_
  refine c.bind (optionalHold_rel c fun p hp => h p (List.mem_append_right _ hp)) fun further => ?_
  exact c.outcome _

theorem variantHolds_rel {fields : Entries Value} {tag : Option String} {name : String} :
    ∀ {variants : List (String × Shape)},
      (∀ variant ∈ variants, ∀ property ∈ variant.2.properties, ∀ value,
        fields.lookup property.1 = some value →
        c.rel (property.2.holds f value) (property.2.holds g value)) →
      c.rel (variantHolds f tag name variants fields) (variantHolds g tag name variants fields)
  | [], _ => c.outcome false
  | (other, shape) :: rest, h => by
    simp only [variantHolds]
    split
    · exact Shape.holds_rel c (h _ List.mem_cons_self)
    · exact variantHolds_rel fun v hv => h v (List.mem_cons_of_mem _ hv)

/-- **Asking** hangs only on what following gives where the walk may ask. -/
theorem Node.holds_rel (node : Node) : ∀ (value : Value), Follows c Value.depth node value f g →
    c.rel (node.holds f value) (node.holds g value) := by
  -- below a node the induction hypothesis is only put to values that lie deeper
  induction node using Node.induct with
  | scalar | enumeration => intro value _; cases value <;> exact c.outcome _
  | object shape nullable ih =>
    intro value h
    cases value with
    | object fields =>
      exact Shape.holds_rel c fun p hp v hv => ih p hp v (h.part (fun _ => .property hp)
        (Nat.lt_succ_of_le (Value.depth_le_depthFields (Entries.mem_of_lookup hv))))
    | _ => exact c.outcome _
  | array element nullable ih =>
    intro value h
    cases value with
    | array items =>
      exact allHold_rel c fun v hv => ih v (h.part (fun _ => .element)
        (Nat.lt_succ_of_le (Value.depth_le_depthItems hv)))
    | _ => exact c.outcome _
  | record node nullable ih =>
    intro value h
    cases value with
    | object fields =>
      exact allHold_rel c fun v hv => ih v.2 (h.part (fun _ => .value)
        (Nat.lt_succ_of_le (Value.depth_le_depthFields (show (v.1, v.2) ∈ fields from hv))))
    | _ => exact c.outcome _
  | union tag variants nullable ih =>
    intro value h
    have hpart (fields : Entries Value) (hfields : value.depth = Value.depthFields fields + 1) :
        ∀ variant ∈ variants, ∀ property ∈ variant.2.properties, ∀ part,
          fields.lookup property.1 = some part →
          c.rel (property.2.holds f part) (property.2.holds g part) :=
      fun v hv p hp part hlookup => ih v hv p hp part (h.part (fun _ => .variant hv hp)
        (hfields ▸ Nat.lt_succ_of_le (Value.depth_le_depthFields (Entries.mem_of_lookup hlookup))))
    cases value with
    | object fields =>
      simp only [Node.holds, Value.isNull, Kind.holds, Bool.false_eq_true, ↓reduceIte]
      split
      · exact variantHolds_rel c (hpart fields rfl)
      · exact c.outcome _
    | variant name fields => exact variantHolds_rel c (hpart fields rfl)
    | _ => exact c.outcome _
  | ref index nullable =>
    intro value h
    simp only [Node.holds]
    split
    · exact c.outcome _
    · exact h.here index rfl

end Holds

/-! ## Encoding -/

section Encode

variable {f g : Nat → Value → Attempt Json}

theorem encodeRequired_rel {fields : Entries Value} :
    ∀ {properties : List (String × Node)},
      (∀ property ∈ properties, ∀ value, fields.lookup property.1 = some value →
        c.rel (property.2.encode f value) (property.2.encode g value)) →
      c.rel (encodeRequired f fields properties) (encodeRequired g fields properties)
  | [], _ => c.outcome _
  | (key, node) :: rest, h => by
    simp only [encodeRequired]
    cases hkey : fields.lookup key with
    | none => exact c.outcome _
    | some value =>
      refine c.attemptBind (c.attemptUnder _ _ (h _ List.mem_cons_self value hkey)) fun item => ?_
      refine c.attemptBind (encodeRequired_rel fun p hp => h p (List.mem_cons_of_mem _ hp)) ?_
      exact fun entries => c.outcome _

theorem encodeOptional_rel {fields : Entries Value} :
    ∀ {properties : List (String × Node)},
      (∀ property ∈ properties, ∀ value, fields.lookup property.1 = some value →
        c.rel (property.2.encode f value) (property.2.encode g value)) →
      c.rel (encodeOptional f fields properties) (encodeOptional g fields properties)
  | [], _ => c.outcome _
  | (key, node) :: rest, h => by
    simp only [encodeOptional]
    cases hkey : fields.lookup key with
    | none => exact encodeOptional_rel fun p hp => h p (List.mem_cons_of_mem _ hp)
    | some value =>
      refine c.attemptBind (c.attemptUnder _ _ (h _ List.mem_cons_self value hkey)) fun item => ?_
      refine c.attemptBind (encodeOptional_rel fun p hp => h p (List.mem_cons_of_mem _ hp)) ?_
      exact fun entries => c.outcome _

theorem Shape.encode_rel {shape : Shape} {fields : Entries Value}
    (h : ∀ property ∈ shape.properties, ∀ value, fields.lookup property.1 = some value →
      c.rel (property.2.encode f value) (property.2.encode g value)) :
    c.rel (shape.encode f fields) (shape.encode g fields) := by
  obtain ⟨required, optional, strict⟩ := shape
  simp only [Shape.encode]
  refine c.attemptBind (encodeRequired_rel c fun p hp => h p (List.mem_append_left _ hp)) ?_
  intro present
  refine c.attemptBind (encodeOptional_rel c fun p hp => h p (List.mem_append_right _ hp)) ?_
  exact fun further => c.outcome _

theorem encodeVariant_rel {fields : Entries Value} {tag name : String} :
    ∀ {variants : List (String × Shape)},
      (∀ variant ∈ variants, ∀ property ∈ variant.2.properties, ∀ value,
        fields.lookup property.1 = some value →
        c.rel (property.2.encode f value) (property.2.encode g value)) →
      c.rel (encodeVariant f tag name variants fields) (encodeVariant g tag name variants fields)
  | [], _ => c.outcome _
  | (other, shape) :: rest, h => by
    simp only [encodeVariant]
    split
    · refine c.attemptBind (c.attemptUnder _ _ (Shape.encode_rel c (h _ List.mem_cons_self))) ?_
      exact fun entries => c.outcome _
    · exact encodeVariant_rel fun v hv => h v (List.mem_cons_of_mem _ hv)

/-- **Encoding** hangs only on what following gives where the walk may ask. -/
theorem Node.encode_rel (node : Node) : ∀ (value : Value), Follows c Value.depth node value f g →
    c.rel (node.encode f value) (node.encode g value) := by
  induction node using Node.induct with
  | scalar kind nullable =>
    intro value _
    simp only [Node.encode, Kind.encode]
    split
    · split <;> exact c.outcome _
    · cases kind.write value <;> exact c.outcome _
  | enumeration values nullable =>
    intro value _
    cases value with
    | string text =>
      simp only [Node.encode, Value.isNull, Bool.false_eq_true, ↓reduceIte, Kind.encode,
        encodeListed]
      split <;> exact c.outcome _
    | null => cases nullable <;> exact c.outcome _
    | _ => exact c.outcome _
  | object shape nullable ih =>
    intro value h
    cases value with
    | object fields =>
      refine c.attemptBind (Shape.encode_rel c fun p hp v hv => ?_) fun entries => c.outcome _
      exact ih p hp v (h.part (fun _ => .property hp)
        (Nat.lt_succ_of_le (Value.depth_le_depthFields (Entries.mem_of_lookup hv))))
    | null => cases nullable <;> exact c.outcome _
    | _ => exact c.outcome _
  | array element nullable ih =>
    intro value h
    cases value with
    | array items =>
      refine c.attemptBind (c.attemptMapM fun v hv => ?_) fun items => c.outcome _
      refine c.attemptUnder _ _ (ih v.1 (h.part (fun _ => .element) ?_))
      exact Nat.lt_succ_of_le (Value.depth_le_depthItems (List.fst_mem_of_mem_zipIdx hv))
    | null => cases nullable <;> exact c.outcome _
    | _ => exact c.outcome _
  | record node nullable ih =>
    intro value h
    cases value with
    | object fields =>
      refine c.attemptBind (c.attemptMapM fun v hv => ?_) fun entries => c.outcome _
      refine c.attemptBind (c.attemptUnder _ _ (ih v.2 (h.part (fun _ => .value) ?_))) ?_
      · exact Nat.lt_succ_of_le (Value.depth_le_depthFields (show (v.1, v.2) ∈ fields from hv))
      · exact fun item => c.outcome _
    | null => cases nullable <;> exact c.outcome _
    | _ => exact c.outcome _
  | union tag variants nullable ih =>
    intro value h
    have hpart (fields : Entries Value) (hfields : value.depth = Value.depthFields fields + 1) :
        ∀ variant ∈ variants, ∀ property ∈ variant.2.properties, ∀ part,
          fields.lookup property.1 = some part →
          c.rel (property.2.encode f part) (property.2.encode g part) :=
      fun v hv p hp part hlookup => ih v hv p hp part (h.part (fun _ => .variant hv hp)
        (hfields ▸ Nat.lt_succ_of_le (Value.depth_le_depthFields (Entries.mem_of_lookup hlookup))))
    cases value with
    | object fields =>
      simp only [Node.encode, Value.isNull, Kind.encode, Bool.false_eq_true, ↓reduceIte]
      split
      · exact encodeVariant_rel c (hpart fields rfl)
      · exact c.outcome _
    | variant name fields => exact encodeVariant_rel c (hpart fields rfl)
    | null => cases nullable <;> exact c.outcome _
    | _ => exact c.outcome _
  | ref index nullable =>
    intro value h
    simp only [Node.encode, Kind.encode]
    split
    · split <;> exact c.outcome _
    · exact h.here index rfl

end Encode

/-! ## Decoding -/

section Decode

variable {reading : Reading} {f g : Nat → Json → Walk (Report Value)}

theorem decodeRequired_rel {entries : Entries Json} :
    ∀ {properties : List (String × Node)},
      (∀ property ∈ properties, ∀ item, entries.lookup property.1 = some item →
        c.rel (property.2.decode reading f item) (property.2.decode reading g item)) →
      c.rel (decodeRequired reading f entries properties)
        (decodeRequired reading g entries properties)
  | [], _ => c.outcome []
  | (key, node) :: rest, h => by
    have hrest : c.rel (decodeRequired reading f entries rest)
        (decodeRequired reading g entries rest) :=
      decodeRequired_rel fun p hp => h p (List.mem_cons_of_mem _ hp)
    simp only [decodeRequired]
    cases hkey : entries.lookup key with
    | none => exact c.bind (c.outcome _) fun _ => c.bind hrest fun _ => c.outcome _
    | some item =>
      refine c.bind (h _ List.mem_cons_self item hkey) fun _ => c.bind (c.outcome _) fun _ => ?_
      exact c.bind hrest fun _ => c.outcome _

theorem decodeOptional_rel {entries : Entries Json} :
    ∀ {properties : List (String × Node)},
      (∀ property ∈ properties, ∀ item, entries.lookup property.1 = some item →
        c.rel (property.2.decode reading f item) (property.2.decode reading g item)) →
      c.rel (decodeOptional reading f entries properties)
        (decodeOptional reading g entries properties)
  | [], _ => c.outcome []
  | (key, node) :: rest, h => by
    simp only [decodeOptional]
    cases hkey : entries.lookup key with
    | none => exact decodeOptional_rel fun p hp => h p (List.mem_cons_of_mem _ hp)
    | some item =>
      refine c.bind (h _ List.mem_cons_self item hkey) fun _ => c.bind ?_ fun _ => c.outcome _
      exact decodeOptional_rel fun p hp => h p (List.mem_cons_of_mem _ hp)

theorem Shape.decode_rel {shape : Shape} {entries : Entries Json} {tag : Option String}
    (h : ∀ property ∈ shape.properties, ∀ item, entries.lookup property.1 = some item →
      c.rel (property.2.decode reading f item) (property.2.decode reading g item)) :
    c.rel (shape.decode reading f tag (.object entries))
      (shape.decode reading g tag (.object entries)) := by
  obtain ⟨required, optional, strict⟩ := shape
  simp only [Shape.decode]
  refine c.bind (decodeRequired_rel c fun p hp => h p (List.mem_append_left _ hp)) fun _ => ?_
  refine c.bind (decodeOptional_rel c fun p hp => h p (List.mem_append_right _ hp)) fun _ => ?_
  exact c.outcome _

theorem decodeVariant_rel {entries : Entries Json} {tag name : String} :
    ∀ {variants : List (String × Shape)},
      (∀ variant ∈ variants, ∀ property ∈ variant.2.properties, ∀ item,
        entries.lookup property.1 = some item →
        c.rel (property.2.decode reading f item) (property.2.decode reading g item)) →
      c.rel (decodeVariant reading f tag name variants (.object entries))
        (decodeVariant reading g tag name variants (.object entries))
  | [], _ => c.outcome none
  | (other, shape) :: rest, h => by
    simp only [decodeVariant]
    split
    · exact c.bind (Shape.decode_rel c (h _ List.mem_cons_self)) fun _ => c.outcome _
    · exact decodeVariant_rel fun v hv => h v (List.mem_cons_of_mem _ hv)

/-- **Decoding** hangs only on what following gives where the walk may ask. -/
theorem Node.decode_rel (node : Node) : ∀ (input : Json), Follows c Json.depth node input f g →
    c.rel (node.decode reading f input) (node.decode reading g input) := by
  induction node using Node.induct with
  | scalar | enumeration =>
    intro input _
    simp only [Node.decode, Kind.decode]
    split <;> exact c.outcome _
  | object shape nullable ih =>
    intro input h
    simp only [Node.decode, Kind.decode]
    split
    · exact c.outcome _
    · refine c.bind ?_ fun _ => c.outcome _
      cases input with
      | object entries =>
        exact Shape.decode_rel c fun p hp j hj => ih p hp j (h.part (fun _ => .property hp)
          (Json.depth_lt_of_entry (Entries.mem_of_lookup hj)))
      | _ => obtain ⟨required, optional, strict⟩ := shape; exact c.outcome _
  | array element nullable ih =>
    intro input h
    cases input with
    | array items =>
      refine c.bind (c.mapM fun j hj => ?_) fun _ => c.outcome _
      refine c.bind (ih j.1 (h.part (fun _ => .element) ?_)) fun _ => c.outcome _
      exact Json.depth_lt_of_mem (List.fst_mem_of_mem_zipIdx hj)
    | null => cases nullable <;> exact c.outcome _
    | _ => exact c.outcome _
  | record value nullable ih =>
    intro input h
    cases input with
    | object entries =>
      refine c.bind (c.mapM fun j hj => ?_) fun _ => c.outcome _
      refine c.bind (ih j.2 (h.part (fun _ => .value) ?_)) fun _ => c.outcome _
      exact Json.depth_lt_of_entry (show (j.1, j.2) ∈ entries from hj)
    | null => cases nullable <;> exact c.outcome _
    | _ => exact c.outcome _
  | union tag variants nullable ih =>
    intro input h
    cases input with
    | object entries =>
      simp only [Node.decode, Json.isNull, Kind.decode, Bool.false_and, Bool.false_eq_true,
        ↓reduceIte]
      split
      · refine c.bind (decodeVariant_rel c fun v hv p hp j hj => ?_) fun result => ?_
        · exact ih v hv p hp j (h.part (fun _ => .variant hv hp)
            (Json.depth_lt_of_entry (Entries.mem_of_lookup hj)))
        · cases result <;> exact c.outcome _
      · exact c.outcome _
      · exact c.outcome _
    | null => cases nullable <;> exact c.outcome _
    | _ => exact c.outcome _
  | ref index nullable =>
    intro input h
    simp only [Node.decode, Kind.decode]
    split
    · exact c.outcome _
    · exact h.here index rfl

end Decode

/-! ## Walks along a program -/

variable (program : Program)

theorem isWalk_holds : IsWalk program Value.depth Node.holds program.modelHolds where
  run_zero _ _ := rfl
  run_succ _ _ _ := rfl
  walk_le node value h h' := node.holds_rel .le value ⟨fun index y _ => h index y, h'⟩

theorem isWalk_encode : IsWalk program Value.depth Node.encode program.encodeModel where
  run_zero _ _ := rfl
  run_succ _ _ _ := rfl
  walk_le node value h h' := node.encode_rel .le value ⟨fun index y _ => h index y, h'⟩

theorem isWalk_decode (reading : Reading) :
    IsWalk program Json.depth (Node.decode reading) (program.decodeModel reading) where
  run_zero _ _ := rfl
  run_succ _ _ _ := rfl
  walk_le node input h h' := node.decode_rel .le input ⟨fun index y _ => h index y, h'⟩

/-- Whether a value belongs to the model at a position. -/
def holdsAt : Nat → Value → Walk Bool := settled program Value.depth program.modelHolds

/-- Encoding along the model at a position. -/
def encodeAt : Nat → Value → Attempt Json := settled program Value.depth program.encodeModel

/-- Decoding along the model at a position. -/
def decodeAt (reading : Reading) : Nat → Json → Walk (Report Value) :=
  settled program Json.depth (program.decodeModel reading)

/-- Asking along a program follows references for good. -/
theorem holds_eq (value : Value) : program.holds value = program.root.holds program.holdsAt value :=
  program.isWalk_holds.walk_settled program.root le_rfl

theorem encode_eq (value : Value) :
    program.encode value = program.root.encode program.encodeAt value :=
  program.isWalk_encode.walk_settled program.root le_rfl

theorem decode_eq (reading : Reading) (input : Json) :
    program.decode reading input = program.root.decode reading (program.decodeAt reading) input :=
  (program.isWalk_decode reading).walk_settled program.root le_rfl

variable {program} {index : Nat} {node : Node}

/-- The model at a position is walked along for good. -/
theorem holdsAt_eq (h : program.models[index]? = some node) (value : Value) :
    program.holdsAt index value = node.holds program.holdsAt value := by
  rw [holdsAt, program.isWalk_holds.settled_eq, h]

theorem encodeAt_eq (h : program.models[index]? = some node) (value : Value) :
    program.encodeAt index value = node.encode program.encodeAt value := by
  rw [encodeAt, program.isWalk_encode.settled_eq, h]

end Program

end RpcSchema
