import RpcSchema.Proofs.Program.Matching
import RpcSchema.Proofs.Program.Walks
import RpcSchema.Proofs.Report

set_option autoImplicit false

/-!
# Values that are encoded alike

Encoding looks the properties of a shape up, in the order of the shape. So the order in which the
fields of an object or of a variant are listed makes no difference, nor do fields that the shape
does not have, whatever is inside them. An object that stands for a variant has to have the same
text under the tag. The entries of a map are written in their own order.

## Main definitions

* `RpcSchema.Value.asVariant?` — the variant that a value is or stands for.
* `RpcSchema.Program.Coincide` — two values differ in the order of fields and in fields that are not
  declared, at most.

## Main results

* `RpcSchema.Program.Coincide.of_perm`, `RpcSchema.Program.Coincide.of_insert` — other orders and
  further fields.
* `RpcSchema.Program.Coincide.variant_object` — the two spellings of a variant.
* `RpcSchema.Program.encode_eq_of_coincide` — values that coincide are encoded alike.
-/

namespace RpcSchema

/-- **The variant that a value is or stands for**, by its name and with its fields: an object stands
for the variant whose name is the text under the tag. -/
def Value.asVariant? (tag : String) : Value → Option (String × Entries Value)
  | .variant name fields => some (name, fields)
  | .object fields =>
    match fields.lookup tag with
    | some (.string name) => some (name, fields)
    | _ => none
  | _ => none

theorem Value.isNull_of_asVariant? {tag : String} {value : Value}
    {variant : String × Entries Value} (h : value.asVariant? tag = some variant) :
    value.isNull = false := by
  cases value with
  | null => cases h
  | _ => rfl

/-- Attempts along two lists are the same when they are for the members at each position. -/
theorem Attempt.mapM_eq_of_map_eq {α β : Type} {f : α → Attempt β} {list list' : List α}
    (h : list.map f = list'.map f) : (list.mapM f : Attempt (List β)) = list'.mapM f := by
  have hmap : ∀ list : List α, ((list.map f).mapM id : Attempt (List β)) = list.mapM f :=
    fun list => List.mapM_map
  rw [← hmap, ← hmap, h]

namespace Program

/-! ## Values that coincide -/

/-- **What a node does not go into**: an array, an object or a variant where it asks for something
else. -/
def Kind.Refuses (kind : Kind) (value : Value) : Prop :=
  match kind, value with
  | .array _, .array _ | .object _, .object _ | .record _, .object _ | .union _ _, .object _
  | .union _ _, .variant _ _ | .ref _, _ => False
  | _, .array _ | _, .object _ | _, .variant _ _ => True
  | _, _ => False

/-- **Two values coincide along a node** if they differ in the order of fields and in fields that
are not declared, at most. That goes for objects and for variants, and for whatever is inside them;
what a node does not go into need only be of the same kind. -/
inductive Coincide (program : Program) : Node → Value → Value → Prop
  | refl (node : Node) (value : Value) : Coincide program node value value
  /-- Under the keys of the properties there are values that coincide, or none. -/
  | object {shape : Shape} {nullable : Bool} {fields fields' : Entries Value} :
    (∀ property ∈ shape.properties,
      fields.lookup property.1 = none ↔ fields'.lookup property.1 = none) →
    (∀ property ∈ shape.properties, ∀ value value', fields.lookup property.1 = some value →
      fields'.lookup property.1 = some value' → Coincide program property.2 value value') →
    Coincide program ⟨.object shape, nullable⟩ (.object fields) (.object fields')
  | array {element : Node} {nullable : Bool} {items items' : List Value} :
    items.length = items'.length →
    (∀ (i : Nat) (item item' : Value), items[i]? = some item → items'[i]? = some item' →
      Coincide program element item item') →
    Coincide program ⟨.array element, nullable⟩ (.array items) (.array items')
  /-- The entries of a map keep their order. -/
  | record {node : Node} {nullable : Bool} {fields fields' : Entries Value} :
    Entries.keys fields = Entries.keys fields' →
    (∀ (i : Nat) (field field' : String × Value), fields[i]? = some field →
      fields'[i]? = some field' → Coincide program node field.2 field'.2) →
    Coincide program ⟨.record node, nullable⟩ (.object fields) (.object fields')
  /-- Variants of one name, each in one spelling or in the other. -/
  | union {tag name : String} {variants : List (String × Shape)} {nullable : Bool}
    {value value' : Value} {fields fields' : Entries Value} :
    value.asVariant? tag = some (name, fields) → value'.asVariant? tag = some (name, fields') →
    (∀ shape, variants.lookup name = some shape → ∀ property ∈ shape.properties,
      fields.lookup property.1 = none ↔ fields'.lookup property.1 = none) →
    (∀ shape, variants.lookup name = some shape → ∀ property ∈ shape.properties,
      ∀ inner inner', fields.lookup property.1 = some inner →
        fields'.lookup property.1 = some inner' → Coincide program property.2 inner inner') →
    Coincide program ⟨.union tag variants, nullable⟩ value value'
  /-- Objects that stand for no variant. -/
  | untagged {tag : String} {variants : List (String × Shape)} {nullable : Bool}
    {fields fields' : Entries Value} :
    (Value.object fields).asVariant? tag = none → (Value.object fields').asVariant? tag = none →
    Coincide program ⟨.union tag variants, nullable⟩ (.object fields) (.object fields')
  | ref {index : Nat} {nullable : Bool} {model : Node} {value value' : Value} :
    program.models[index]? = some model → Coincide program model value value' →
    Coincide program ⟨.ref index, nullable⟩ value value'
  | refused {kind : Kind} {nullable : Bool} {value value' : Value} :
    kind.Refuses value → kind.Refuses value' → value.kind = value'.kind →
    Coincide program ⟨kind, nullable⟩ value value'

theorem Kind.Refuses.not_null {kind : Kind} {value : Value} (h : kind.Refuses value) :
    value.isNull = false := by
  cases value with
  | null => cases kind <;> cases h
  | _ => rfl

/-- What is set under a key that a shape does not have is not found under those that it has. -/
theorem Shape.lookup_insert_of_not_declares (shape : Shape) {fields : Entries Value}
    {key other : String} (hkey : shape.declares key = false) (hother : shape.declares other = true)
    (value : Value) : (Entries.insert fields key value).lookup other = fields.lookup other := by
  have hne : other ≠ key := by
    rintro rfl
    rw [hkey] at hother
    cases hother
  rw [Entries.lookup_insert, if_neg hne]

namespace Coincide

variable {program : Program} {node : Node} {value value' : Value}

/-- Values that coincide are `null` both or neither. -/
theorem isNull_eq (h : Coincide program node value value') : value.isNull = value'.isNull := by
  induction h with
  | refl => rfl
  | object | array | record | untagged => rfl
  | union hvalue hvalue' _ _ =>
    rw [Value.isNull_of_asVariant? hvalue, Value.isNull_of_asVariant? hvalue']
  | ref _ _ ih => exact ih
  | refused hvalue hvalue' _ => rw [hvalue.not_null, hvalue'.not_null]

variable {shape : Shape} {nullable : Bool} {fields fields' : Entries Value}

/-- Objects with the same values under the keys of the properties coincide. -/
theorem of_lookup_eq
    (h : ∀ key, shape.declares key = true → fields.lookup key = fields'.lookup key) :
    Coincide program ⟨.object shape, nullable⟩ (.object fields) (.object fields') := by
  have hlookup : ∀ property ∈ shape.properties,
      fields.lookup property.1 = fields'.lookup property.1 := fun property hproperty =>
    h _ (Shape.declares_iff.mpr (List.mem_map_of_mem hproperty))
  refine .object (fun property hproperty => by rw [hlookup property hproperty]) ?_
  intro property hproperty value value' hvalue hvalue'
  rw [hlookup property hproperty, hvalue'] at hvalue
  exact Option.some.inj hvalue ▸ .refl _ _

/-- Variants of one name with the same values under the keys of the properties coincide. -/
theorem union_of_lookup_eq {tag name : String} {variants : List (String × Shape)}
    (hvalue : value.asVariant? tag = some (name, fields))
    (hvalue' : value'.asVariant? tag = some (name, fields'))
    (h : ∀ shape, variants.lookup name = some shape →
      ∀ key, shape.declares key = true → fields.lookup key = fields'.lookup key) :
    Coincide program ⟨.union tag variants, nullable⟩ value value' := by
  have hlookup : ∀ shape, variants.lookup name = some shape → ∀ property ∈ shape.properties,
      fields.lookup property.1 = fields'.lookup property.1 := fun shape hshape property hproperty =>
    h shape hshape _ (Shape.declares_iff.mpr (List.mem_map_of_mem hproperty))
  refine .union hvalue hvalue' (fun shape hshape property hproperty => ?_) ?_
  · rw [hlookup shape hshape property hproperty]
  · intro shape hshape property hproperty inner inner' hinner hinner'
    rw [hlookup shape hshape property hproperty, hinner'] at hinner
    exact Option.some.inj hinner ▸ .refl _ _

/-- **Both spellings of a variant** coincide, as its shape leaves the tag to the union. -/
theorem variant_object {tag name : String} {variants : List (String × Shape)}
    (htag : ∀ shape, variants.lookup name = some shape → shape.declares tag = false) :
    Coincide program ⟨.union tag variants, nullable⟩ (.variant name fields)
      (.object (Entries.insert fields tag (.string name))) := by
  have hobject : (Value.object (Entries.insert fields tag (.string name))).asVariant? tag =
      some (name, Entries.insert fields tag (.string name)) := by
    simp [Value.asVariant?, Entries.lookup_insert]
  exact union_of_lookup_eq rfl hobject fun shape hshape key hkey =>
    (shape.lookup_insert_of_not_declares (htag shape hshape) hkey _).symm

/-- The fields of an object may come in any order. -/
theorem of_perm (hdistinct : Entries.Distinct fields) (h : fields.Perm fields') :
    Coincide program ⟨.object shape, nullable⟩ (.object fields) (.object fields') :=
  of_lookup_eq fun key _ => Entries.lookup_eq_of_perm hdistinct h key

/-- An object may have further fields that are not declared. -/
theorem of_insert {key : String} (hkey : shape.declares key = false) (value : Value) :
    Coincide program ⟨.object shape, nullable⟩ (.object fields)
      (.object (Entries.insert fields key value)) :=
  of_lookup_eq fun _ hother =>
    (shape.lookup_insert_of_not_declares hkey hother value).symm

end Coincide

/-! ## Encoding -/

variable {follow : Nat → Value → Attempt Json} {fields fields' : Entries Value}

/-- A value other than `null` is encoded along what a node demands. -/
theorem Node.encode_of_not_null {kind : Kind} {nullable : Bool} {value : Value}
    (h : value.isNull = false) :
    (⟨kind, nullable⟩ : Node).encode follow value = kind.encode follow value := by
  simp [Node.encode, h]

/-- **What a node does not go into** is refused for its kind. -/
theorem Kind.encode_of_refuses {kind : Kind} {value : Value} (h : kind.Refuses value) :
    kind.encode follow value =
      .fail [] [kind.refusal.1] (.expected kind.refusal.2 value.kind) := by
  cases kind with
  | scalar kind =>
    cases value with
    | array | object | variant => cases kind <;> rfl
    | _ => exact h.elim
  | _ => cases value <;> first | exact h.elim | rfl

/-- **The variant that a value is or stands for** is encoded along its shape. -/
theorem Kind.encode_of_asVariant? {tag name : String} {variants : List (String × Shape)}
    {value : Value} (h : value.asVariant? tag = some (name, fields)) :
    Kind.encode follow (.union tag variants) value =
      encodeVariant follow tag name variants fields := by
  cases value with
  | variant name' fields' =>
    cases h
    rfl
  | object fields' =>
    simp only [Value.asVariant?] at h
    split at h
    · rename_i name' hname
      cases h
      simp only [Kind.encode, hname]
    · cases h
  | _ => cases h

/-- An object that stands for no variant misses the tag. -/
theorem Kind.encode_of_untagged {tag : String} {variants : List (String × Shape)}
    (h : (Value.object fields).asVariant? tag = none) :
    Kind.encode follow (.union tag variants) (.object fields) =
      .fail [tag] ["discriminator"] (.missingTag tag) := by
  rw [Kind.encode]
  split
  · rename_i name hname
    simp only [Value.asVariant?, hname] at h
    cases h
  · rfl

/-- Properties are encoded alike when what is found under their keys is. -/
theorem encodeRequired_congr_fields {properties : List (String × Node)}
    (h : ∀ property ∈ properties, (fields.lookup property.1).map (property.2.encode follow) =
      (fields'.lookup property.1).map (property.2.encode follow)) :
    encodeRequired follow fields properties = encodeRequired follow fields' properties := by
  induction properties with
  | nil => rfl
  | cons property rest ih =>
    obtain ⟨key, node⟩ := property
    obtain ⟨hfirst, hrest⟩ := List.forall_mem_cons.mp h
    rw [encodeRequired, encodeRequired, ih hrest]
    cases hvalue : fields.lookup key with
    | none =>
      rw [hvalue] at hfirst
      rw [Option.map_eq_none_iff.mp hfirst.symm]
    | some value =>
      rw [hvalue] at hfirst
      obtain ⟨value', hvalue', heq⟩ := Option.map_eq_some_iff.mp hfirst.symm
      simp only [hvalue', heq]

theorem encodeOptional_congr_fields {properties : List (String × Node)}
    (h : ∀ property ∈ properties, (fields.lookup property.1).map (property.2.encode follow) =
      (fields'.lookup property.1).map (property.2.encode follow)) :
    encodeOptional follow fields properties = encodeOptional follow fields' properties := by
  induction properties with
  | nil => rfl
  | cons property rest ih =>
    obtain ⟨key, node⟩ := property
    obtain ⟨hfirst, hrest⟩ := List.forall_mem_cons.mp h
    rw [encodeOptional, encodeOptional, ih hrest]
    cases hvalue : fields.lookup key with
    | none =>
      rw [hvalue] at hfirst
      rw [Option.map_eq_none_iff.mp hfirst.symm]
    | some value =>
      rw [hvalue] at hfirst
      obtain ⟨value', hvalue', heq⟩ := Option.map_eq_some_iff.mp hfirst.symm
      simp only [hvalue', heq]

/-- **Fields are encoded alike along a shape** when what is found under the keys of its properties
is. -/
theorem Shape.encode_congr_fields {shape : Shape}
    (hnone : ∀ property ∈ shape.properties,
      fields.lookup property.1 = none ↔ fields'.lookup property.1 = none)
    (hsome : ∀ property ∈ shape.properties, ∀ value value',
      fields.lookup property.1 = some value → fields'.lookup property.1 = some value' →
        property.2.encode follow value = property.2.encode follow value') :
    shape.encode follow fields = shape.encode follow fields' := by
  have hfound : ∀ property ∈ shape.properties,
      (fields.lookup property.1).map (property.2.encode follow) =
        (fields'.lookup property.1).map (property.2.encode follow) := by
    intro property hproperty
    cases hvalue : fields.lookup property.1 with
    | none => rw [(hnone property hproperty).mp hvalue]
    | some value =>
      cases hvalue' : fields'.lookup property.1 with
      | none =>
        rw [(hnone property hproperty).mpr hvalue'] at hvalue
        cases hvalue
      | some value' => exact congrArg some (hsome property hproperty _ _ hvalue hvalue')
  obtain ⟨required, optional, strict⟩ := shape
  obtain ⟨hrequired, hoptional⟩ := List.forall_mem_append.mp hfound
  rw [Shape.encode, Shape.encode, encodeRequired_congr_fields hrequired,
    encodeOptional_congr_fields hoptional]

/-- A variant is encoded alike when it is along the shape that has its name. -/
theorem encodeVariant_congr_fields {tag name : String} {variants : List (String × Shape)}
    (h : ∀ shape, variants.lookup name = some shape →
      shape.encode follow fields = shape.encode follow fields') :
    encodeVariant follow tag name variants fields =
      encodeVariant follow tag name variants fields' := by
  induction variants with
  | nil => rfl
  | cons variant rest ih =>
    obtain ⟨other, shape⟩ := variant
    simp only [Entries.lookup_cons_ite] at h
    rw [encodeVariant, encodeVariant]
    by_cases hname : name = other
    · rw [h shape (if_pos hname)]
      simp [hname]
    · simp only [if_neg hname] at h
      rw [if_neg (by simpa using Ne.symm hname), if_neg (by simpa using Ne.symm hname), ih h]

/-- **Values that coincide are encoded alike**, as the same document or with the same error,
however many references are followed. -/
theorem Node.encode_eq_of_coincide {program : Program} {node : Node} {value value' : Value}
    (h : Coincide program node value value') :
    ∀ steps, node.encode (program.encodeModel steps) value =
      node.encode (program.encodeModel steps) value' := by
  induction h with
  | refl => exact fun _ => rfl
  | object hnone _ ih =>
    intro steps
    have hshape := Shape.encode_congr_fields hnone fun property hproperty inner inner' hinner
      hinner' => ih property hproperty inner inner' hinner hinner' steps
    rw [Node.encode_of_not_null rfl, Node.encode_of_not_null rfl, Kind.encode, Kind.encode, hshape]
  | @array element nullable items items' hlength _ ih =>
    intro steps
    have hitems : List.Forall₂ (fun item item' =>
        element.encode (program.encodeModel steps) item =
          element.encode (program.encodeModel steps) item') items items' :=
      Outcome.forall₂_iff_getElem?.mpr
        ⟨hlength, fun i item item' hitem hitem' => ih i item item' hitem hitem' steps⟩
    rw [Node.encode_of_not_null rfl, Node.encode_of_not_null rfl, Kind.encode, Kind.encode]
    refine congrArg (· >>= _) (Attempt.mapM_eq_of_map_eq (Outcome.map_zipIdx_eq_of_forall₂ ?_ 0))
    exact hitems.imp fun item item' heq i => by simp only [heq]
  | @record node nullable fields fields' hkeys _ ih =>
    intro steps
    have hlength : fields.length = fields'.length := by
      simpa [Entries.keys] using congrArg List.length hkeys
    have hfields : List.Forall₂ (fun field field' : String × Value => field.1 = field'.1 ∧
        node.encode (program.encodeModel steps) field.2 =
          node.encode (program.encodeModel steps) field'.2) fields fields' := by
      refine Outcome.forall₂_iff_getElem?.mpr
        ⟨hlength, fun i field field' hfield hfield' => ⟨?_, ?_⟩⟩
      · have hkey := congrArg (·[i]?) hkeys
        simpa [Entries.keys, hfield, hfield'] using hkey
      · exact ih i field field' hfield hfield' steps
    rw [Node.encode_of_not_null rfl, Node.encode_of_not_null rfl, Kind.encode, Kind.encode]
    refine congrArg (· >>= _) (Attempt.mapM_eq_of_map_eq (Outcome.map_eq_map_of_forall₂ ?_))
    exact hfields.imp fun field field' heq => by simp only [heq.1, heq.2]
  | @union tag name variants nullable value value' fields fields' hvalue hvalue' hnone _ ih =>
    intro steps
    have hshape : encodeVariant (program.encodeModel steps) tag name variants fields =
        encodeVariant (program.encodeModel steps) tag name variants fields' := by
      refine encodeVariant_congr_fields fun shape hvariant =>
        Shape.encode_congr_fields (hnone shape hvariant) ?_
      exact fun property hproperty inner inner' hinner hinner' =>
        ih shape hvariant property hproperty inner inner' hinner hinner' steps
    rw [Node.encode_of_not_null (Value.isNull_of_asVariant? hvalue),
      Node.encode_of_not_null (Value.isNull_of_asVariant? hvalue'),
      Kind.encode_of_asVariant? hvalue, Kind.encode_of_asVariant? hvalue', hshape]
  | untagged hfields hfields' =>
    intro steps
    rw [Node.encode_of_not_null rfl, Node.encode_of_not_null rfl,
      Kind.encode_of_untagged hfields, Kind.encode_of_untagged hfields']
  | @ref index nullable model value value' hmodel h ih =>
    intro steps
    cases hnull : value.isNull with
    | true =>
      obtain rfl := Value.isNull_iff.mp hnull
      obtain rfl := Value.isNull_iff.mp (h.isNull_eq ▸ hnull)
      rfl
    | false =>
      rw [Node.encode_of_not_null hnull, Node.encode_of_not_null (h.isNull_eq ▸ hnull)]
      cases steps with
      | zero => rfl
      | succ steps => simp only [Kind.encode, encodeModel, hmodel, ih steps]
  | @refused kind nullable value value' hvalue hvalue' hkind =>
    intro steps
    rw [Node.encode_of_not_null hvalue.not_null, Node.encode_of_not_null hvalue'.not_null,
      Kind.encode_of_refuses hvalue, Kind.encode_of_refuses hvalue', hkind]

/-- **Values that coincide are encoded alike** along a program.

**Proof sketch.** The values need not be of the same depth: both walks are given as many steps as
the deeper one needs. -/
theorem encode_eq_of_coincide {program : Program} {value value' : Value}
    (h : Coincide program program.root value value') :
    program.encode value = program.encode value' := by
  have hwalk := program.isWalk_encode
  calc program.encode value
      = program.root.encode (program.encodeModel
          (max (program.budget value.depth) (program.budget value'.depth))) value :=
        hwalk.walk_of_budget_le program.root (Nat.le_max_left _ _)
    _ = program.root.encode (program.encodeModel
          (max (program.budget value.depth) (program.budget value'.depth))) value' :=
        Node.encode_eq_of_coincide h _
    _ = program.encode value' :=
        (hwalk.walk_of_budget_le program.root (Nat.le_max_right _ _)).symm

end Program

end RpcSchema
