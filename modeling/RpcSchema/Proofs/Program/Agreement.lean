import RpcSchema.Proofs.Program.Accepting
import RpcSchema.Proofs.Program.Decoding
import RpcSchema.Validator.Basic

set_option autoImplicit false

/-!
# Decoding agrees with the guard and the encoder, up to two slips

What is decoded belongs to the schema and can be encoded again, unless the walk through the document
passes one of two slips. Behind a reference that does not allow `null` itself, the decoder takes the
word of the model that allows it; and of several properties with one key the decoder keeps the value
of the last, while guard and encoder put that value to all of them.

## Main definitions

* `RpcSchema.Program.Visits` — decoding along a node comes past another with a part of the document.
* `RpcSchema.Program.Slips` — the two slips.
* `RpcSchema.Validator.reads` — decoding or coercing.

## Main results

* `RpcSchema.Program.accepts_iff_of_decodes` — what is decoded is accepted where nothing slips.
* `RpcSchema.Validator.validate_and_encode_iff` — the same for validators.
-/

namespace RpcSchema

namespace Program

variable (program : Program) (reading : Reading)

/-- **Following references within some steps** gives proper reports. -/
theorem followsProperly_decodeModel (steps : Nat) :
    FollowsProperly (program.decodeModel reading steps) := by
  induction steps with
  | zero =>
    intro index input report h
    cases h
  | succ steps ih =>
    intro index input report h
    rw [decodeModel] at h
    split at h
    · exact Node.decode_proper ih h
    · cases h

variable {program reading}

/-- What is decoded within some steps is decoded for good. -/
theorem Node.Decodes.settled {steps : Nat} {node : Node} {input : Json} {value : Value}
    (h : node.Decodes reading (program.decodeModel reading steps) input value) :
    node.Decodes reading (program.decodeAt reading) input value :=
  ((program.isWalk_decode reading).walk_run_le node input steps).eq_some h

/-- **`null` is decoded as `null`** and nothing else is. -/
theorem isNull_of_decodes {steps : Nat} {node : Node} : ∀ {input : Json} {value : Value},
    node.Decodes reading (program.decodeModel reading steps) input value →
      value.isNull = input.isNull := by
  have hfollow := followsProperly_decodeModel program reading
  induction steps, node using walkInduct program with
  | scalar steps kind nullable =>
    intro input value h
    rcases Node.decode_eq_ok_iff.mp h with ⟨rfl, -, rfl⟩ | ⟨-, h⟩
    · rfl
    · obtain ⟨hholds, hinput⟩ := decodeScalar_eq_ok (Option.some.inj h)
      rw [hinput]
      cases value <;> first | rfl | cases hholds
  | enumeration steps values nullable =>
    intro input value h
    rcases Node.decode_eq_ok_iff.mp h with ⟨rfl, -, rfl⟩ | ⟨-, h⟩
    · rfl
    · obtain ⟨text, rfl, -, rfl⟩ := decodeListed_eq_ok_iff.mp (Option.some.inj h)
      rfl
  | object steps shape nullable _ =>
    intro input value h
    rcases Node.decode_eq_ok_iff.mp h with ⟨rfl, -, rfl⟩ | ⟨-, h⟩
    · rfl
    · obtain ⟨fields, hfields, rfl⟩ := Kind.decode_object_iff.mp h
      obtain ⟨entries, -, rfl, -⟩ := (Shape.decode_eq_ok_iff (hfollow steps)).mp hfields
      rfl
  | array steps element nullable _ =>
    intro input value h
    rcases Node.decode_eq_ok_iff.mp h with ⟨rfl, -, rfl⟩ | ⟨-, h⟩
    · rfl
    · obtain ⟨items, values, rfl, -, rfl⟩ := (Kind.decode_array_iff (hfollow steps)).mp h
      rfl
  | record steps node nullable _ =>
    intro input value h
    rcases Node.decode_eq_ok_iff.mp h with ⟨rfl, -, rfl⟩ | ⟨-, h⟩
    · rfl
    · obtain ⟨entries, fields, rfl, -, rfl⟩ := (Kind.decode_record_iff (hfollow steps)).mp h
      rfl
  | union steps tag variants nullable _ =>
    intro input value h
    rcases Node.decode_eq_ok_iff.mp h with ⟨rfl, -, rfl⟩ | ⟨-, h⟩
    · rfl
    · obtain ⟨entries, name, shape, fields, rfl, -, -, -, rfl⟩ := Kind.decode_union_iff.mp h
      rfl
  | stop index nullable =>
    intro input value h
    rcases Node.decode_eq_ok_iff.mp h with ⟨rfl, -, rfl⟩ | ⟨-, h⟩
    · rfl
    · cases h
  | step steps index nullable ih =>
    intro input value h
    rcases Node.decode_eq_ok_iff.mp h with ⟨rfl, -, rfl⟩ | ⟨-, h⟩
    · rfl
    · rw [Kind.decode, decodeModel] at h
      split at h
      · exact ih _ ‹_› h
      · cases h

/-! ## Visited nodes -/

/-- The shape along which an object with the given entries is decoded. -/
def Node.shape? (node : Node) (entries : Entries Json) : Option Shape :=
  match node.kind with
  | .object shape => some shape
  | .union tag variants =>
    match entries.lookup tag with
    | some (.string name) => variants.lookup name
    | _ => none
  | _ => none

/-- **Decoding along a node visits** another with a part of the document. Under a key of an object
it is the property that rules the key whose value is kept. -/
inductive Visits (program : Program) : Node → Json → Node → Json → Prop
  | here (node : Node) (input : Json) : Visits program node input node input
  | item {element node : Node} {nullable : Bool} {items : List Json} {item part : Json} :
    item ∈ items → Visits program element item node part →
    Visits program ⟨.array element, nullable⟩ (.array items) node part
  | entry {value node : Node} {nullable : Bool} {entries : Entries Json} {key : String}
    {item part : Json} :
    (key, item) ∈ entries → Visits program value item node part →
    Visits program ⟨.record value, nullable⟩ (.object entries) node part
  | field {outer inner node : Node} {shape : Shape} {entries : Entries Json} {key : String}
    {item part : Json} :
    outer.shape? entries = some shape → shape.ruling key = some inner →
    entries.lookup key = some item → Visits program inner item node part →
    Visits program outer (.object entries) node part
  | model {index : Nat} {nullable : Bool} {model node : Node} {input part : Json} :
    ¬ (input = .null ∧ nullable = true) → program.models[index]? = some model →
    Visits program model input node part →
    Visits program ⟨.ref index, nullable⟩ input node part

/-- **The two slips.** A reference that does not allow `null` meets `null`; or a property shares its
key with the one that rules it, and does not accept the value that is decoded along that one. -/
inductive Slips (program : Program) (reading : Reading) : Node → Json → Prop
  | null (index : Nat) : Slips program reading ⟨.ref index, false⟩ .null
  | overruled {node ruler other : Node} {shape : Shape} {entries : Entries Json} {key : String}
    {item : Json} {value : Value} :
    node.shape? entries = some shape → (key, other) ∈ shape.properties →
    shape.ruling key = some ruler → other ≠ ruler → entries.lookup key = some item →
    ruler.Decodes reading (program.decodeAt reading) item value → ¬ program.Accepts other value →
    Slips program reading node (.object entries)

/-- **Nothing slips** on the way along a node. -/
def Sound (program : Program) (reading : Reading) (node : Node) (input : Json) : Prop :=
  ∀ inner part, program.Visits node input inner part → ¬ program.Slips reading inner part

/-- What is the same for matching members is the same for all of them. -/
theorem forall_mem_congr_of_forall₂ {α β : Type} {p : α → Prop} {q : β → Prop} {list : List α}
    {results : List β} (h : List.Forall₂ (fun a b => q b ↔ p a) list results) :
    (∀ b ∈ results, q b) ↔ ∀ a ∈ list, p a := by
  induction h with
  | nil => simp
  | cons hab _ ih => rw [List.forall_mem_cons, List.forall_mem_cons, hab, ih]

theorem sound_array_iff {element : Node} {nullable : Bool} {items : List Json} :
    program.Sound reading ⟨.array element, nullable⟩ (.array items) ↔
      ∀ item ∈ items, program.Sound reading element item := by
  constructor
  · intro h item hitem inner part hvisit
    exact h inner part (.item hitem hvisit)
  · intro h inner part hvisit
    cases hvisit with
    | here =>
      intro hslip
      cases hslip
    | item hitem hvisit => exact h _ hitem inner part hvisit

theorem sound_record_iff {node : Node} {nullable : Bool} {entries : Entries Json} :
    program.Sound reading ⟨.record node, nullable⟩ (.object entries) ↔
      ∀ entry ∈ entries, program.Sound reading node entry.2 := by
  constructor
  · intro h entry hentry inner part hvisit
    exact h inner part (.entry (show (entry.1, entry.2) ∈ entries from hentry) hvisit)
  · intro h inner part hvisit
    cases hvisit with
    | here =>
      intro hslip
      cases hslip with
      | overruled hshape => cases hshape
    | entry hentry hvisit => exact h _ hentry inner part hvisit
    | field hshape => cases hshape

theorem sound_ref_iff {index : Nat} {nullable : Bool} {model : Node} {input : Json}
    (hmodel : program.models[index]? = some model) (h : input ≠ .null) :
    program.Sound reading ⟨.ref index, nullable⟩ input ↔ program.Sound reading model input := by
  constructor
  · intro hsound inner part hvisit
    exact hsound inner part (.model (fun hnull => h hnull.1) hmodel hvisit)
  · intro hsound inner part hvisit
    cases hvisit with
    | here =>
      intro hslip
      cases hslip with
      | null => exact h rfl
      | overruled hshape => cases hshape
    | field hshape => cases hshape
    | model _ hmodel' hvisit =>
      obtain rfl : model = _ := Option.some.inj (hmodel.symm.trans hmodel')
      exact hsound inner part hvisit

/-- Nothing slips where `null` is allowed and met. -/
theorem sound_null {kind : Kind} : program.Sound reading ⟨kind, true⟩ .null := by
  intro inner part hvisit hslip
  cases hvisit with
  | here => cases hslip
  | model hnull => exact hnull ⟨rfl, rfl⟩

/-- **The fields that are decoded along a shape are accepted** when nothing slips, provided that
this holds for the properties.

**Proof sketch.** The field under a key is decoded along the property that rules it. This property
is visited, so for it the hypothesis is the claim; for another of the same key not to accept the
field is one of the slips. -/
theorem acceptsFields_iff_sound {follow : Nat → Json → Walk (Report Value)} {node : Node}
    {shape : Shape} {entries : Entries Json} {pairs : List (String × Value)}
    (hshape : node.shape? entries = some shape)
    (hsettled : ∀ (inner : Node) item value, inner.Decodes reading follow item value →
      inner.Decodes reading (program.decodeAt reading) item value)
    (ih : ∀ property ∈ shape.properties, ∀ item value,
      property.2.Decodes reading follow item value →
      (program.Accepts property.2 value ↔ program.Sound reading property.2 item))
    (hpairs : Matched (Node.Decodes reading follow) entries (shape.presentIn entries) pairs) :
    program.AcceptsFields shape (Entries.ofList pairs) ↔
      program.Sound reading node (.object entries) := by
  constructor
  · intro haccepts inner part hvisit
    have hpresent : ∀ {key : String} {item : Json} {other : Node},
        entries.lookup key = some item → (key, other) ∈ shape.properties →
        ∃ ruler value, shape.ruling key = some ruler ∧ ruler.Decodes reading follow item value ∧
          program.Accepts other value := by
      intro key item other hitem hother
      have hmem : (key, other) ∈ shape.presentIn entries := by
        rw [Shape.mem_presentIn]
        rcases List.mem_append.mp hother with h | h
        · exact .inl h
        · exact .inr ⟨h, Entries.mem_keys_of_mem (Entries.mem_of_lookup hitem)⟩
      obtain ⟨ruler, item', value, hruler, hitem', hdecodes, hvalue⟩ := hpairs.ruled hmem
      obtain rfl : item = item' := Option.some.inj (hitem.symm.trans hitem')
      obtain ⟨value', hvalue', haccept⟩ := haccepts _ (hpairs.presentIn_ofList ▸ hmem)
      obtain rfl : value = value' := Option.some.inj (hvalue.symm.trans hvalue')
      exact ⟨ruler, value, hruler, hdecodes, haccept⟩
    cases hvisit with
    | here =>
      intro hslip
      cases hslip with
      | @overruled _ ruler other shape' _ key item value hshape' hother hruler _ hitem hdecodes
          hrefuses =>
        obtain rfl : shape = shape' := Option.some.inj (hshape.symm.trans hshape')
        obtain ⟨ruler', value', hruler', hdecodes', haccept⟩ := hpresent hitem hother
        obtain rfl : ruler = ruler' := Option.some.inj (hruler.symm.trans hruler')
        have hsame := hdecodes.symm.trans (hsettled _ _ _ hdecodes')
        rw [Option.some.injEq, Report.ok_inj] at hsame
        exact hrefuses (hsame ▸ haccept)
    | entry => cases hshape
    | @field _ inner' _ shape' _ key item _ hshape' hruling hitem hvisit =>
      obtain rfl : shape = shape' := Option.some.inj (hshape.symm.trans hshape')
      have hmem := Shape.mem_of_ruling hruling
      obtain ⟨ruler, value, hruler, hdecodes, haccept⟩ := hpresent hitem hmem
      obtain rfl : inner' = ruler := Option.some.inj (hruling.symm.trans hruler)
      exact (ih _ hmem item value hdecodes).mp haccept inner part hvisit
    | model => cases hshape
  · intro hsound property hproperty
    rw [hpairs.presentIn_ofList] at hproperty
    obtain ⟨ruler, item, value, hruler, hitem, hdecodes, hvalue⟩ := hpairs.ruled hproperty
    refine ⟨value, hvalue, ?_⟩
    by_cases hsame : property.2 = ruler
    · rw [hsame, ih _ (Shape.mem_of_ruling hruler) item value hdecodes]
      intro inner part hvisit
      exact hsound inner part (.field hshape hruler hitem hvisit)
    · by_contra hrefuses
      have hmem := Shape.mem_properties_of_mem_presentIn hproperty
      exact hsound _ _ (.here _ _) (.overruled hshape hmem hruler hsame hitem
        (hsettled _ _ _ hdecodes) hrefuses)

/-- **What is decoded is accepted exactly when nothing slips** on the way.

**Proof sketch.** Induction along the decoding walk. A list or a map is accepted when its members
are, and each of them is visited; an object by `acceptsFields_iff_sound`. At a reference to a model
the claim is that about the model, but for `null`: a reference that allows it stops there, and one
that does not refuses it, which is the other slip. -/
theorem accepts_iff_of_decodes {steps : Nat} {node : Node} : ∀ {input : Json} {value : Value},
    node.Decodes reading (program.decodeModel reading steps) input value →
      (program.Accepts node value ↔ program.Sound reading node input) := by
  have hfollow := followsProperly_decodeModel program reading
  have hnull {kind : Kind} {nullable : Bool} (h : nullable = true) :
      program.Accepts ⟨kind, nullable⟩ .null ↔ program.Sound reading ⟨kind, nullable⟩ .null := by
    subst h
    exact iff_of_true (accepts_null_iff.mpr rfl) sound_null
  induction steps, node using walkInduct program with
  | scalar steps kind nullable =>
    intro input value h
    rcases Node.decode_eq_ok_iff.mp h with ⟨rfl, hnullable, rfl⟩ | ⟨-, hkind⟩
    · exact hnull hnullable
    · obtain ⟨hholds, hinput⟩ := decodeScalar_eq_ok (Option.some.inj hkind)
      have hvalue : value.isNull = false := (isNull_of_decodes h).trans hinput
      refine iff_of_true ((accepts_scalar_iff hvalue).mpr hholds) ?_
      intro inner part hvisit hslip
      cases hvisit with
      | here =>
        cases hslip with
        | overruled hshape => cases hshape
      | field hshape => cases hshape
  | enumeration steps values nullable =>
    intro input value h
    rcases Node.decode_eq_ok_iff.mp h with ⟨rfl, hnullable, rfl⟩ | ⟨-, hkind⟩
    · exact hnull hnullable
    · obtain ⟨text, rfl, hmem, rfl⟩ := decodeListed_eq_ok_iff.mp (Option.some.inj hkind)
      refine iff_of_true (accepts_enumeration_iff.mpr hmem) ?_
      intro inner part hvisit hslip
      cases hvisit with
      | here => cases hslip
  | object steps shape nullable ih =>
    intro input value h
    rcases Node.decode_eq_ok_iff.mp h with ⟨rfl, hnullable, rfl⟩ | ⟨-, hkind⟩
    · exact hnull hnullable
    · obtain ⟨fields, hfields, rfl⟩ := Kind.decode_object_iff.mp hkind
      obtain ⟨entries, pairs, rfl, -, hpairs, rfl⟩ :=
        (Shape.decode_eq_ok_iff (hfollow steps)).mp hfields
      rw [accepts_object_iff, and_iff_left (hpairs.admits_ofList none)]
      exact acceptsFields_iff_sound rfl (fun _ _ _ => Node.Decodes.settled)
        (fun property hproperty _ _ => ih property hproperty) hpairs
  | array steps element nullable ih =>
    intro input value h
    rcases Node.decode_eq_ok_iff.mp h with ⟨rfl, hnullable, rfl⟩ | ⟨-, hkind⟩
    · exact hnull hnullable
    · obtain ⟨items, values, rfl, hvalues, rfl⟩ := (Kind.decode_array_iff (hfollow steps)).mp hkind
      rw [accepts_array_iff, sound_array_iff]
      exact forall_mem_congr_of_forall₂ (hvalues.imp fun item value => ih)
  | record steps node nullable ih =>
    intro input value h
    rcases Node.decode_eq_ok_iff.mp h with ⟨rfl, hnullable, rfl⟩ | ⟨-, hkind⟩
    · exact hnull hnullable
    · obtain ⟨entries, fields, rfl, hfields, rfl⟩ :=
        (Kind.decode_record_iff (hfollow steps)).mp hkind
      rw [accepts_record_iff, sound_record_iff]
      exact forall_mem_congr_of_forall₂ (hfields.imp fun entry field hfield => ih hfield.2)
  | union steps tag variants nullable ih =>
    intro input value h
    rcases Node.decode_eq_ok_iff.mp h with ⟨rfl, hnullable, rfl⟩ | ⟨-, hkind⟩
    · exact hnull hnullable
    · obtain ⟨entries, name, shape, fields, rfl, htag, hshape, hfields, rfl⟩ :=
        Kind.decode_union_iff.mp hkind
      obtain ⟨entries', pairs, hentries, -, hpairs, rfl⟩ :=
        (Shape.decode_eq_ok_iff (hfollow steps)).mp hfields
      cases hentries
      have hvariant : (name, shape) ∈ variants := Entries.mem_of_lookup hshape
      have houter : Node.shape? ⟨.union tag variants, nullable⟩ entries = some shape := by
        simp only [Node.shape?, htag, hshape]
      rw [accepts_variant_iff, ← acceptsFields_iff_sound houter
        (fun _ _ _ => Node.Decodes.settled)
        (fun property hproperty _ _ => ih (name, shape) hvariant property hproperty) hpairs]
      constructor
      · rintro ⟨shape', hshape', hfields, -⟩
        obtain rfl : shape = shape' := Option.some.inj (hshape.symm.trans hshape')
        exact hfields
      · intro hfields
        exact ⟨shape, hshape, hfields, hpairs.admits_ofList none⟩
  | stop index nullable =>
    intro input value h
    rcases Node.decode_eq_ok_iff.mp h with ⟨rfl, hnullable, rfl⟩ | ⟨-, hkind⟩
    · exact hnull hnullable
    · cases hkind
  | step steps index nullable ih =>
    intro input value h
    rcases Node.decode_eq_ok_iff.mp h with ⟨rfl, hnullable, rfl⟩ | ⟨hinput, hkind⟩
    · exact hnull hnullable
    · rw [Kind.decode, decodeModel] at hkind
      split at hkind
      · rename_i model hmodel
        have hisNull := isNull_of_decodes h
        by_cases hnone : input = .null
        · subst hnone
          obtain rfl : nullable = false := by simpa using hinput
          obtain rfl := Value.isNull_iff.mp hisNull
          refine iff_of_false (by simp [accepts_null_iff]) fun hsound => ?_
          exact hsound _ _ (.here _ _) (.null index)
        · have hvalue : value.isNull = false := by
            rw [hisNull]
            exact Json.isNull_eq_false_iff.mpr hnone
          rw [accepts_ref_iff hmodel hvalue, sound_ref_iff hmodel hnone]
          exact ih model hmodel hkind
      · cases hkind

end Program

namespace Validator

open Program (Reading)

/-- Decoding, or coercing. -/
def reads (validator : Validator) : Reading → Json → Walk (Except (List ValueError) Value)
  | .strict => validator.decode
  | .converting => validator.coerce

theorem decodes_of_reads {validator : Validator} {reading : Reading} {input : Json}
    {value : Value} (h : validator.reads reading input = some (.ok value)) :
    validator.program.decode reading input = some (.ok value) := by
  have hmap : (validator.program.decode reading input).map Report.result = some (.ok value) := by
    cases reading <;> exact h
  obtain ⟨report, hreport, hresult⟩ := Option.map_eq_some_iff.mp hmap
  rw [hreport, Report.result_eq_ok_iff.mp hresult]

/-- **What is decoded or coerced belongs to the schema and can be encoded** exactly when nothing
slips on the way. -/
theorem validate_and_encode_iff {validator : Validator} {reading : Reading} {input : Json}
    {value : Value} (h : validator.reads reading input = some (.ok value)) :
    (validator.validate value = some true ∧
        ∃ document, validator.encode value = some (.ok document)) ↔
      ∀ node part, validator.program.Visits validator.program.root input node part →
        ¬ validator.program.Slips reading node part := by
  have hdecodes := decodes_of_reads h
  have hiff := Program.accepts_iff_of_decodes hdecodes
  rw [validate, encode, Program.holds_eq]
  have hencode : ∀ document, (validator.program.encode value).run = some (.ok document) ↔
      validator.program.root.Encodes validator.program.encodeAt value document := by
    intro document
    rw [Program.encode_eq]
    rfl
  simp only [hencode]
  exact hiff

/-- The case of a text behind a reference, in a list. -/
theorem validate_and_encode_iff_listed_text :
    let validator : Validator :=
      ⟨⟨⟨.array ⟨.ref 0, false⟩, false⟩, [⟨.scalar .string, true⟩], ["Name"]⟩⟩
    let input : Json := .array [.string "a"]
    let value : Value := .array [.string "a"]
    validator.reads .strict input = some (.ok value) ∧
      ((validator.validate value = some true ∧
          ∃ document, validator.encode value = some (.ok document)) ↔
        ∀ node part, validator.program.Visits validator.program.root input node part →
          ¬ validator.program.Slips .strict node part) :=
  ⟨rfl, validate_and_encode_iff rfl⟩

/-- `null` behind a reference that does not allow it, to a model that does, is decoded and coerced,
but does not belong to the schema and cannot be encoded. -/
theorem decode_null_behind_reference :
    ∃ schema model validator,
      Schema.ofJson (.object [("ref", .string "M")]) = .ok schema ∧
      Schema.ofJson (.object [("type", .string "string"), ("nullable", .bool true)]) = .ok model ∧
      Validator.compile schema [("M", model)] = .ok validator ∧
      validator.decode .null = some (.ok .null) ∧ validator.coerce .null = some (.ok .null) ∧
      validator.validate .null = some false ∧
      validator.encode .null = some (.error ⟨[], [], .expected "non-null value" "null"⟩) :=
  ⟨Schema.reference "M", (Schema.scalar .string).orNull,
    ⟨⟨⟨.ref 0, false⟩, [⟨.scalar .string, true⟩], ["M"]⟩⟩, rfl, rfl, rfl, rfl, rfl, rfl, rfl⟩

/-- A key that has to be there, with a field, and may be there, without one: what is decoded lacks
the field, and does not belong to the schema. -/
example :
    let text : Program.Node := ⟨.scalar .string, false⟩
    let strict : Program.Node := ⟨.object ⟨[("a", text)], [], true⟩, false⟩
    let open' : Program.Node := ⟨.object ⟨[], [], false⟩, false⟩
    let both : Program.Node := ⟨.object ⟨[("k", strict)], [("k", open')], true⟩, false⟩
    let validator : Validator := ⟨⟨both, [], []⟩⟩
    validator.decode (.object [("k", .object [("a", .string "x")])]) =
        some (.ok (.object [("k", .object [])])) ∧
      validator.validate (.object [("k", .object [])]) = some false := ⟨rfl, rfl⟩

end Validator

end RpcSchema
