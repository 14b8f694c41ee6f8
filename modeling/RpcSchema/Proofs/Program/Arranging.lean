import RpcSchema.Proofs.Program.Coincide
import RpcSchema.Proofs.Program.Compiling
import RpcSchema.Proofs.Program.Encoding
import RpcSchema.Proofs.Program.RoundTrip
import RpcSchema.Proofs.Program.Sections
import RpcSchema.Proofs.ScalarRoundTrip

set_option autoImplicit false

/-!
# The order of keys in encoded documents

What order the keys of an encoded object have is said by the schema: first comes the tag of a union,
then the required properties, then those optional ones that are there. The entries of a map keep
the order of the value. Together with the fact that values are encoded alike when they differ in
nothing else, this makes encoding canonical.

## Main definitions

* `RpcSchema.Schema.keysWritten` — the keys that are written of the fields of an object.
* `RpcSchema.Schema.Arranges` — a document has its keys in the order that a schema says.

## Main results

* `RpcSchema.Program.arranges_of_encode` — what is encoded has its keys in order.
* `RpcSchema.Validator.encode_canonical` — encoding is canonical.
-/

namespace RpcSchema

/-! ## Documents in order -/

/-- **A document without keys**: neither an array nor an object. -/
def Json.IsPlain : Json → Prop
  | .array _ | .object _ => False
  | _ => True

/-- Scalars are written without keys. -/
theorem ScalarKind.isPlain_of_write {kind : ScalarKind} {value : Value} {document : Json}
    (h : kind.write value = .ok document) : document.IsPlain := by
  have hinteger : ∀ {n : Int}, kind.writeInteger n = .ok document → document.IsPlain := by
    intro n h
    obtain ⟨wrapped, -, ⟨i, -, rfl⟩ | ⟨u, -, rfl⟩⟩ := writeInteger_eq_ok h <;> split <;> trivial
  have hfloat : ∀ {kind : ScalarKind} {x : Binary64}, writeFloat kind x = .ok document →
      document.IsPlain := by
    intro kind x h
    unfold writeFloat at h
    split at h
    · cases h
    · split at h <;> cases h
      trivial
  unfold write at h
  split at h
  · cases h
    trivial
  · cases h
    trivial
  · cases h
    trivial
  · exact hfloat h
  · exact hfloat h
  · split at h
    · exact hinteger h
    · cases h

namespace Schema

/-- **The keys that are written of the fields of an object**: the required ones, and the optional
ones that are listed, in the order of the schema. -/
def keysWritten (required optional : List (String × Schema)) (fields : Entries Value) :
    List String :=
  Entries.keys required ++ (Entries.keys optional).filter fun key => Entries.contains fields key

/-- **A document has its keys in the order that a schema says**, at every depth, as far as objects
list no key twice; where one does, what is inside is in the order of the last property of the
key. -/
inductive Arranges (models : Models) : Schema → Value → Json → Prop
  | null (schema : Schema) : Arranges models schema .null .null
  | scalar {kind : ScalarKind} {nullable : Bool} {metadata : Metadata} {value : Value}
    {document : Json} :
    document.IsPlain → Arranges models ⟨.scalar kind, nullable, metadata⟩ value document
  | enumeration {values : List String} {nullable : Bool} {metadata : Metadata} {value : Value}
    {document : Json} :
    document.IsPlain → Arranges models ⟨.enumeration values, nullable, metadata⟩ value document
  /-- The required properties come before the optional ones. -/
  | object {required optional : List (String × Schema)} {strict nullable : Bool}
    {metadata : Metadata} {fields : Entries Value} {entries : Entries Json} :
    (∀ key ∈ Entries.keys required, key ∈ Entries.keys fields) →
    (Entries.Distinct (required ++ optional) →
      Entries.keys entries = keysWritten required optional fields) →
    (∀ key child value item, (required ++ optional).reverse.lookup key = some child →
      fields.lookup key = some value → entries.lookup key = some item →
      Arranges models child value item) →
    Arranges models ⟨.object required optional strict, nullable, metadata⟩ (.object fields)
      (.object entries)
  | array {element : Schema} {nullable : Bool} {metadata : Metadata} {items : List Value}
    {documents : List Json} :
    items.length = documents.length →
    (∀ (i : Nat) (item : Value) (document : Json), items[i]? = some item →
      documents[i]? = some document → Arranges models element item document) →
    Arranges models ⟨.array element, nullable, metadata⟩ (.array items) (.array documents)
  /-- The entries of a map are in the order of the value. -/
  | record {value : Schema} {nullable : Bool} {metadata : Metadata} {fields : Entries Value}
    {entries : Entries Json} :
    Entries.keys entries = Entries.keys fields →
    (∀ (i : Nat) (field : String × Value) (entry : String × Json), fields[i]? = some field →
      entries[i]? = some entry → Arranges models value field.2 entry.2) →
    Arranges models ⟨.record value, nullable, metadata⟩ (.object fields) (.object entries)
  /-- The tag of a union comes first, and only there. -/
  | union {tag name : String} {variants : List (String × Schema)} {nullable : Bool}
    {metadata : Metadata} {variant : Schema} {value : Value} {fields : Entries Value}
    {entries : Entries Json} :
    value.asVariant? tag = some (name, fields) → variants.lookup name = some variant →
    tag ∉ Entries.keys entries → Arranges models variant (.object fields) (.object entries) →
    Arranges models ⟨.union tag variants, nullable, metadata⟩ value
      (.object ((tag, .string name) :: entries))
  | ref {target : String} {nullable : Bool} {metadata : Metadata} {model : Schema} {value : Value}
    {document : Json} :
    models.lookup target = some model → Arranges models model value document →
    Arranges models ⟨.ref target, nullable, metadata⟩ value document

end Schema

namespace Program

open Schema (Arranges keysWritten)

variable {models : Models} {number : String → Nat} {follow : Nat → Value → Attempt Json}

/-! ## Images of properties and of variants -/

theorem propertiesOf_eq_map (children : List (String × Schema)) :
    propertiesOf number children = children.map fun child => (child.1, nodeOf number child.2) := by
  induction children with
  | nil => rfl
  | cons child rest ih => rw [propertiesOf, ih, List.map_cons]

/-- What rules a key of an image is the image of the last property of the key. -/
theorem ruling_propertiesOf {required optional : List (String × Schema)} {strict : Bool}
    {key : String} {child : Schema} (h : (required ++ optional).reverse.lookup key = some child) :
    (⟨propertiesOf number required, propertiesOf number optional, strict⟩ : Shape).ruling key =
      some (nodeOf number child) := by
  rw [Shape.ruling, Shape.properties_mk, propertiesOf_eq_map, propertiesOf_eq_map,
    ← List.map_append, ← List.map_reverse]
  generalize (required ++ optional).reverse = children at h
  induction children with
  | nil => cases h
  | cons first rest ih =>
    obtain ⟨other, schema⟩ := first
    rw [Entries.lookup_cons_ite] at h
    rw [List.map_cons, Entries.lookup_cons_ite]
    split
    · rename_i hkey
      rw [if_pos hkey] at h
      rw [Option.some.inj h]
    · rename_i hkey
      rw [if_neg hkey] at h
      exact ih h

/-- The shape of a name is the image of the variant of that name. -/
theorem exists_variant_of_lookup {tag name : String} {variants : List (String × Schema)}
    {shape : Shape} (hvariants : ∀ variant ∈ variants, Schema.IsVariant tag variant.2)
    (h : (shapesOf number variants).lookup name = some shape) :
    ∃ variant, variants.lookup name = some variant ∧
      nodeOf number variant = ⟨.object shape, variant.nullable⟩ ∧
      tag ∉ Entries.keys shape.properties := by
  induction variants with
  | nil => cases h
  | cons first rest ih =>
    obtain ⟨other, form, nullable, metadata⟩ := first
    obtain ⟨hfirst, hrest⟩ := List.forall_mem_cons.mp hvariants
    rw [shapesOf] at h
    rw [Entries.lookup_cons_ite]
    cases form with
    | object required optional strict =>
      rw [kindOf, addShape, Entries.lookup_cons_ite] at h
      split
      · rename_i hname
        rw [if_pos hname] at h
        obtain rfl := Option.some.inj h
        refine ⟨_, rfl, by rw [nodeOf, kindOf], ?_⟩
        rw [Shape.properties_mk, Entries.keys, List.map_append, ← Entries.keys, ← Entries.keys,
          keys_propertiesOf, keys_propertiesOf, List.mem_append, not_or,
          ← Entries.contains_eq_true_iff, ← Entries.contains_eq_true_iff, Bool.not_eq_true,
          Bool.not_eq_true]
        exact Bool.or_eq_false_iff.mp hfirst
      · rename_i hname
        rw [if_neg hname] at h
        exact ih hrest h
    | _ => cases hfirst

/-! ## What is encoded -/

/-- **An object** has its keys in order when what is inside has. -/
theorem arranges_object {required optional : List (String × Schema)} {strict nullable : Bool}
    {metadata : Metadata} {fields : Entries Value} {pairs : List (String × Json)}
    (ih : ∀ child ∈ required ++ optional, ∀ {value : Value} {document : Json},
      (nodeOf number child.2).Encodes follow value document →
        child.2.Arranges models value document)
    (hpairs : Matched (Node.Encodes follow) fields
      (Shape.presentIn ⟨propertiesOf number required, propertiesOf number optional, strict⟩ fields)
      pairs) :
    Arranges models ⟨.object required optional strict, nullable, metadata⟩ (.object fields)
      (.object (Entries.ofList pairs)) := by
  refine .object ?_ ?_ ?_
  · intro key hkey
    refine hpairs.mem_keys_source ?_
    rw [Shape.presentIn, Entries.keys, List.map_append, List.mem_append]
    exact .inl (by rwa [← Entries.keys, keys_propertiesOf])
  · intro hdistinct
    have hproperties : Entries.Distinct (⟨propertiesOf number required,
        propertiesOf number optional, strict⟩ : Shape).properties := by
      simpa [Entries.Distinct, Entries.keys, Shape.properties, propertiesOf_eq_map,
        Function.comp_def] using hdistinct
    rw [hpairs.ofList_eq hproperties, hpairs.keys_eq]
    simp [Shape.presentIn, keysWritten, Entries.keys, propertiesOf_eq_map, Function.comp_def,
      List.filter_map]
  · intro key child value item hchild hvalue hitem
    have hkey : key ∈ Entries.keys pairs :=
      Matched.mem_keys_ofList.mp (Entries.exists_lookup_iff.mp ⟨item, hitem⟩)
    rw [hpairs.keys_eq] at hkey
    obtain ⟨property, hproperty, rfl⟩ := List.mem_map.mp hkey
    obtain ⟨node, value', item', hnode, hvalue', hencodes, hitem'⟩ := hpairs.ruled hproperty
    rw [ruling_propertiesOf hchild] at hnode
    obtain rfl := Option.some.inj hnode
    obtain rfl := Option.some.inj (hvalue.symm.trans hvalue')
    obtain rfl := Option.some.inj (hitem.symm.trans hitem')
    exact ih _ (List.mem_reverse.mp (Entries.mem_of_lookup hchild)) hencodes

/-- **A variant** has the tag in front, and then its keys in order. -/
theorem arranges_variant {tag name : String} {variants : List (String × Schema)} {nullable : Bool}
    {metadata : Metadata} {value : Value} {fields : Entries Value} {document : Json}
    (hvariants : ∀ variant ∈ variants, Schema.IsVariant tag variant.2)
    (hvalue : value.asVariant? tag = some (name, fields))
    (ih : ∀ variant ∈ variants, ∀ {value : Value} {document : Json},
      (nodeOf number variant.2).Encodes follow value document →
        variant.2.Arranges models value document)
    (h : encodeVariant follow tag name (shapesOf number variants) fields = some (.ok document)) :
    Arranges models ⟨.union tag variants, nullable, metadata⟩ value document := by
  obtain ⟨shape, pairs, hshape, hpairs, rfl⟩ := encodeVariant_eq_ok_iff.mp h
  obtain ⟨variant, hvariant, hnode, htag⟩ := exists_variant_of_lookup hvariants hshape
  have htag' : tag ∉ Entries.keys pairs := by
    rw [hpairs.keys_eq]
    exact fun hmem => htag (((shape.presentIn_sublist fields).map _).subset hmem)
  rw [Entries.ofList_cons htag']
  refine .union hvalue hvariant (fun hmem => htag' (Matched.mem_keys_ofList.mp hmem)) ?_
  refine ih (name, variant) (Entries.mem_of_lookup hvariant) ?_
  rw [hnode]
  exact Node.encode_eq_ok_iff.mpr (.inr ⟨rfl, Kind.encode_object_iff.mpr ⟨pairs, hpairs, rfl⟩⟩)

/-- What is encoded along a union is a variant or stands for one. -/
theorem exists_asVariant?_of_encode {tag : String} {variants : List (String × Shape)}
    {value : Value} {document : Json}
    (h : Kind.encode follow (.union tag variants) value = some (.ok document)) :
    ∃ name fields, value.asVariant? tag = some (name, fields) := by
  cases value with
  | variant name fields => exact ⟨name, fields, rfl⟩
  | object fields =>
    cases hvariant : (Value.object fields).asVariant? tag with
    | some variant => exact ⟨variant.1, variant.2, rfl⟩
    | none =>
      rw [Kind.encode_of_untagged hvariant] at h
      exact absurd h Attempt.fail_ne_ok
  | _ => exact absurd h Attempt.fail_ne_ok

/-- **What is encoded along the image of a schema** has its keys in order when what is encoded along
references has. -/
theorem arranges_of_follow {schema : Schema} (hlowerable : schema.Lowerable models)
    (hfollow : ∀ target ∈ schema.targets, ∀ {value : Value} {document : Json},
      follow (number target) value = some (.ok document) →
        ∃ model, models.lookup target = some model ∧ model.Arranges models value document) :
    ∀ {value : Value} {document : Json}, (nodeOf number schema).Encodes follow value document →
      schema.Arranges models value document := by
  induction hlowerable with
  | scalar kind nullable metadata =>
    intro value document h
    obtain ⟨rfl, -, rfl⟩ | ⟨-, hkind⟩ := Node.encode_eq_ok_iff.mp h
    · exact .null _
    · exact .scalar (ScalarKind.isPlain_of_write (Attempt.ofScalar_eq_ok_iff.mp hkind))
  | enumeration values nullable metadata =>
    intro value document h
    obtain ⟨rfl, -, rfl⟩ | ⟨-, hkind⟩ := Node.encode_eq_ok_iff.mp h
    · exact .null _
    · cases value with
      | string text =>
        obtain ⟨-, rfl⟩ := encodeListed_eq_ok_iff.mp hkind
        exact .enumeration trivial
      | _ => exact absurd hkind Attempt.fail_ne_ok
  | @object required optional strict nullable metadata _ _ ihRequired ihOptional =>
    rw [Schema.targets_object, ← List.flatMap_append] at hfollow
    intro value document h
    obtain ⟨rfl, -, rfl⟩ | ⟨-, hkind⟩ := Node.encode_eq_ok_iff.mp h
    · exact .null _
    · cases value with
      | object fields =>
        obtain ⟨pairs, hpairs, rfl⟩ := Kind.encode_object_iff.mp hkind
        refine arranges_object (fun child hchild {value document} hencodes => ?_) hpairs
        have htargets : ∀ target ∈ child.2.targets, target ∈
            (required ++ optional).flatMap fun child => child.2.targets :=
          fun target htarget => List.mem_flatMap.mpr ⟨child, hchild, htarget⟩
        rcases List.mem_append.mp hchild with hrequired | hoptional
        · exact ihRequired child hrequired
            (fun target htarget => hfollow target (htargets target htarget)) hencodes
        · exact ihOptional child hoptional
            (fun target htarget => hfollow target (htargets target htarget)) hencodes
      | _ => exact absurd hkind Attempt.fail_ne_ok
  | @array element nullable metadata _ ih =>
    rw [Schema.targets_array] at hfollow
    intro value document h
    obtain ⟨rfl, -, rfl⟩ | ⟨-, hkind⟩ := Node.encode_eq_ok_iff.mp h
    · exact .null _
    · cases value with
      | array items =>
        obtain ⟨documents, hdocuments, rfl⟩ := Kind.encode_array_iff.mp hkind
        obtain ⟨hlength, hitems⟩ := Outcome.forall₂_iff_getElem?.mp hdocuments
        exact .array hlength fun i item document hitem hdocument =>
          ih hfollow (hitems i item document hitem hdocument)
      | _ => exact absurd hkind Attempt.fail_ne_ok
  | @record node nullable metadata _ ih =>
    rw [Schema.targets_record] at hfollow
    intro value document h
    obtain ⟨rfl, -, rfl⟩ | ⟨-, hkind⟩ := Node.encode_eq_ok_iff.mp h
    · exact .null _
    · cases value with
      | object fields =>
        obtain ⟨entries, hentries, rfl⟩ := Kind.encode_record_iff.mp hkind
        obtain ⟨hlength, hfields⟩ := Outcome.forall₂_iff_getElem?.mp hentries
        have hkeys : Entries.keys fields = Entries.keys entries :=
          Outcome.map_eq_map_of_forall₂ (hentries.imp fun field entry hentry => hentry.1.symm)
        exact .record hkeys.symm fun i field entry hfield hentry =>
          ih hfollow (hfields i field entry hfield hentry).2
      | _ => exact absurd hkind Attempt.fail_ne_ok
  | @union tag variants nullable metadata hcheck _ ih =>
    rw [Schema.targets_union] at hfollow
    intro value document h
    obtain ⟨rfl, -, rfl⟩ | ⟨-, hkind⟩ := Node.encode_eq_ok_iff.mp h
    · exact .null _
    · rw [kindOf] at hkind
      obtain ⟨name, fields, hvalue⟩ := exists_asVariant?_of_encode hkind
      rw [Kind.encode_of_asVariant? hvalue] at hkind
      refine arranges_variant hcheck hvalue (fun variant hvariant => ?_) hkind
      refine ih variant hvariant fun target htarget => ?_
      exact hfollow target (List.mem_flatMap.mpr ⟨variant, hvariant, htarget⟩)
  | @ref target nullable metadata _ =>
    intro value document h
    obtain ⟨rfl, -, rfl⟩ | ⟨-, hkind⟩ := Node.encode_eq_ok_iff.mp h
    · exact .null _
    · rw [kindOf, Kind.encode] at hkind
      obtain ⟨model, hmodel, harranges⟩ := hfollow target List.mem_cons_self hkind
      exact .ref hmodel harranges

/-- However many references are followed, what is encoded along a model that is reached has its keys
in order.

The induction is on the number of references that are followed. -/
theorem arranges_of_encodeModel {schema : Schema} {program : Program}
    (h : compile schema models = .ok program) (steps : Nat) {name : String}
    (hname : Reaches models schema.targets name) {value : Value} {document : Json}
    (hencode : program.encodeModel steps (program.position name) value = some (.ok document)) :
    ∃ model, models.lookup name = some model ∧ model.Arranges models value document := by
  obtain ⟨-, hreached⟩ := exists_compile_iff.mp ⟨program, h⟩
  induction steps generalizing name value document with
  | zero => cases hencode
  | succ steps ih =>
    obtain ⟨model, hmodel, hlowerable⟩ := hreached name hname
    simp only [encodeModel, model_of_compile h hname hmodel] at hencode
    refine ⟨model, hmodel, arranges_of_follow hlowerable (fun target htarget => ?_) hencode⟩
    exact ih (.next hname hmodel htarget)

/-- **What a compiled program encodes** has its keys in the order of the schema. -/
theorem arranges_of_encode {schema : Schema} {program : Program}
    (h : compile schema models = .ok program) {value : Value} {document : Json}
    (hencode : program.encode value = some (.ok document)) :
    schema.Arranges models value document := by
  obtain ⟨hlowerable, -⟩ := exists_compile_iff.mp ⟨program, h⟩
  rw [encode, root_of_compile h] at hencode
  exact arranges_of_follow hlowerable
    (fun target htarget => arranges_of_encodeModel h _ (.start htarget)) hencode

end Program

/-- **Encoding is canonical.** Values that differ in the order of fields and in fields that are not
declared, at most, are encoded alike: as the same document, with the same order of keys, or with
the same error. That order is the one that the schema says. -/
theorem Validator.encode_canonical (validator : Validator) :
    (∀ value value', Program.Coincide validator.program validator.program.root value value' →
      validator.encode value = validator.encode value') ∧
    ∀ schema models, compile schema models = .ok validator →
      ∀ value document, validator.encode value = some (.ok document) →
        schema.Arranges models value document :=
  ⟨fun _ _ => Program.encode_eq_of_coincide,
    fun _ _ hcompile _ _ => Program.arranges_of_encode (compile_eq_ok_iff.mp hcompile)⟩

/-- The case of a variant in both spellings, with its fields in another order and with a field that
is not declared. -/
theorem Validator.encode_canonical_cat :
    let cat := (Schema.object.property "name" (.scalar .string)).optionalProperty "age"
      (.scalar .uint8)
    let schema := (Schema.union "type").variant "cat" cat
    let shape : Program.Shape :=
      ⟨[("name", ⟨.scalar .string, false⟩)], [("age", ⟨.scalar .uint8, false⟩)], true⟩
    let validator : Validator := ⟨⟨⟨.union "type" [("cat", shape)], false⟩, [], []⟩⟩
    let value : Value :=
      .object [("age", .uint 3), ("name", .string "Tom"), ("type", .string "cat")]
    let value' : Value :=
      .variant "cat" [("name", .string "Tom"), ("mood", .null), ("age", .uint 3)]
    let document : Json :=
      .object [("type", .string "cat"), ("name", .string "Tom"), ("age", .number (.ofUInt64 3))]
    compile schema [] = .ok validator ∧
      Program.Coincide validator.program validator.program.root value value' ∧
      validator.encode value = some (.ok document) ∧
      validator.encode value' = some (.ok document) ∧ schema.Arranges [] value document := by
  intro cat schema shape validator value value' document
  have hcompile : compile schema [] = .ok validator := rfl
  have hcoincide : Program.Coincide validator.program validator.program.root value value' := by
    refine .union rfl rfl ?_ ?_
    · rintro _ ⟨rfl⟩
      decide
    · rintro _ ⟨rfl⟩ property hproperty inner inner' hinner hinner'
      rcases List.mem_pair.mp hproperty with rfl | rfl <;> cases hinner <;> cases hinner' <;>
        exact .refl _ _
  have hencode : validator.encode value = some (.ok document) := rfl
  obtain ⟨hsame, harranges⟩ := encode_canonical validator
  exact ⟨hcompile, hcoincide, hencode, hsame value value' hcoincide ▸ hencode,
    harranges schema [] hcompile value document hencode⟩

end RpcSchema
