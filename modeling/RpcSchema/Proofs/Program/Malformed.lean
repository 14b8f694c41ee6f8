import RpcSchema.Path
import RpcSchema.Proofs.Program.LenientErrors
import RpcSchema.Proofs.Program.LenientOutput
import RpcSchema.Proofs.Program.Places

set_option autoImplicit false

/-!
# What becomes of malformed values

Lenient reading treats a value that does not fit a node like one that is missing. At a node that is
no reference it then puts `null` where the node allows it, and a default of its kind elsewhere. A
reference hands a value that is there on to its model without a word of its own, so that it is the
node behind the references that decides: where this one does not allow `null`, a default is put in,
even if the reference does allow it.

## Main definitions

* `RpcSchema.Value.at?` — the part of a value at a path.
* `RpcSchema.Program.behind?` — the node behind references.
* `RpcSchema.Program.Kind.Malformed` — a document does not fit what a node demands.
* `RpcSchema.Program.ComesLeniently` — lenient reading comes to a node with a part of the document.
* `RpcSchema.Program.IsDefault` — a value is the default of a node.

## Main results

* `RpcSchema.Program.readLeniently_of_malformed` — malformed values are read like missing ones.
* `RpcSchema.Program.isDefault_of_readLeniently` — missing values are read as defaults.
* `RpcSchema.Validator.eq_null_iff_of_malformed` — where malformed values become `null`.
-/

namespace RpcSchema

/-! ## Parts of a value -/

/-- The field of an object or of a variant under a key, or the item of a list at a position. -/
def Value.step? (value : Value) : Step → Option Value
  | .key name => value.get? name
  | .index position =>
    match value with
    | .array items => items[position]?
    | _ => none
  | .unknown => none

/-- **The part of a value at a path.** -/
def Value.at? : Value → Path → Option Value
  | value, [] => some value
  | value, step :: rest => (value.step? step).bind (at? · rest)

namespace Program

/-! ## Behind references -/

/-- A reference goes on to its model; any other node is come to. -/
def Node.behind (follow : Nat → Unit → Walk Node) (node : Node) (x : Unit) : Walk Node :=
  match node.target? with
  | some index => follow index x
  | none => some node

/-- The node behind the model at a position, following so many references at most. -/
def modelBehind (program : Program) : Nat → Nat → Unit → Walk Node
  | 0, _, _ => none
  | steps + 1, index, x =>
    match program.models[index]? with
    | some node => node.behind (modelBehind program steps) x
    | none => none

/-- **The node behind references**: the node itself if it is no reference, and otherwise the one
behind the model that it refers to. There is none if the references never end. -/
def behind? (program : Program) (node : Node) : Option Node :=
  node.behind (program.modelBehind (program.budget 0)) ()

variable {program : Program}

theorem isWalk_behind (program : Program) :
    IsWalk program (fun _ => 0) Node.behind program.modelBehind where
  run_zero _ _ := rfl
  run_succ _ _ _ := rfl
  walk_le node x _ h := by
    unfold Node.behind
    cases htarget : node.target? with
    | none => exact .refl _
    | some index => exact h index htarget

theorem behind?_of_target?_eq_none {node : Node} (h : node.target? = none) :
    program.behind? node = some node := by
  rw [behind?, Node.behind, h]

/-- **Behind a reference** is what is behind its model. -/
theorem behind?_ref {index : Nat} {nullable : Bool} {model : Node}
    (h : program.models[index]? = some model) :
    program.behind? ⟨.ref index, nullable⟩ = program.behind? model := by
  have hsettled := program.isWalk_behind.settled_eq index ()
  rw [h] at hsettled
  exact hsettled

/-- **Lenient reading comes to the node behind references** with the same value, unless it is out of
steps before. -/
theorem readLeniently_of_behind {item : Json} (hitem : item.isNull = false) (inside : Nat)
    {final : Node} {count : Nat} : ∀ {node : Node},
      node.behind (program.modelBehind count) () = some final → ∀ steps,
        (∃ steps', node.readLeniently (program.readModelLeniently steps) inside (some item) =
          final.readLeniently (program.readModelLeniently steps') inside (some item)) ∨
        steps < count ∧
          node.readLeniently (program.readModelLeniently steps) inside (some item) = none := by
  induction count with
  | zero =>
    rintro ⟨kind, nullable⟩ h steps
    cases kind with
    | ref index => cases h
    | _ => exact .inl ⟨steps, by rw [← Option.some.inj h]⟩
  | succ count ih =>
    rintro ⟨kind, nullable⟩ h steps
    cases kind with
    | ref index =>
      have hbehind : program.modelBehind (count + 1) index () = some final := h
      rw [modelBehind] at hbehind
      split at hbehind
      · rename_i model hmodel
        rw [Node.readLeniently_of_given hitem, Kind.readLeniently]
        cases steps with
        | zero => exact .inr ⟨Nat.succ_pos _, rfl⟩
        | succ steps =>
          rw [readModelLeniently_succ hmodel, if_pos Option.isSome_some]
          exact (ih hbehind steps).imp id fun hstops => ⟨Nat.succ_lt_succ hstops.1, hstops.2⟩
      · cases hbehind
    | _ => exact .inl ⟨steps, by rw [← Option.some.inj h]⟩

/-! ## Malformed values -/

/-- **A document does not fit what a node demands**: it is a value of the wrong kind, a text that an
enumeration does not list, or one that a scalar cannot be read from. `null` counts as missing, and
what does not fit a union is an error. -/
def Kind.Malformed (kind : Kind) (item : Json) : Prop :=
  item.isNull = false ∧
    match kind with
    | .scalar kind => kind.readFreely? item = none
    | .enumeration values => ∀ text ∈ values, item ≠ .string text
    | .object _ | .record _ => ∀ entries, item ≠ .object entries
    | .array _ => ∀ items, item ≠ .array items
    | .union _ _ | .ref _ => False

variable {follow : Nat → Nat → Option Json → Attempt Value} {inside : Nat}

/-- **Malformed values are read like missing ones.** -/
theorem readLeniently_of_malformed {node : Node} {item : Json} (h : node.kind.Malformed item) :
    node.readLeniently follow inside (some item) = node.readLeniently follow inside none := by
  obtain ⟨kind, nullable⟩ := node
  obtain ⟨hitem, h⟩ := h
  cases kind with
  | scalar kind =>
    have hread : kind.readFreely? item = none := h
    rw [Node.readLeniently_of_given hitem]
    cases nullable <;> simp [Node.readLeniently, Kind.readLeniently, given?, scalarOr, hread]
  | enumeration values =>
    rw [Node.readLeniently_of_given hitem]
    have hlisted : ∀ fallback, listedOr fallback values (some item) = fallback := by
      intro fallback
      cases item with
      | string text =>
        have htext : text ∉ values := fun hmem => h text hmem rfl
        simp [listedOr, htext]
      | _ => rfl
    rw [Kind.readLeniently, hlisted]
    cases nullable <;> rfl
  | object shape =>
    refine Node.readLeniently_of_not_isObjectGiven ?_
    cases item with
    | object entries => exact absurd rfl (h entries)
    | _ => rfl
  | array element =>
    rw [Node.readLeniently_of_given hitem]
    cases item with
    | array items => exact absurd rfl (h items)
    | _ => cases nullable <;> rfl
  | record value =>
    rw [Node.readLeniently_of_given hitem]
    cases item with
    | object entries => exact absurd rfl (h entries)
    | _ => cases nullable <;> rfl
  | union tag variants => exact h.elim
  | ref index => exact h.elim

/-! ## Defaults -/

/-- **The default of a node**: `null` if that is allowed, and otherwise what stands in for a value
of its kind; of an object the defaults of the properties that have to be there, and of a reference
the default of its model. -/
inductive IsDefault (program : Program) : Node → Value → Prop
  | null (kind : Kind) : IsDefault program ⟨kind, true⟩ .null
  | scalar (kind : ScalarKind) : IsDefault program ⟨.scalar kind, false⟩ kind.default
  | enumeration (values : List String) :
    IsDefault program ⟨.enumeration values, false⟩ (.string (values.head?.getD ""))
  | object {shape : Shape} {values : List Value} : shape.required.length = values.length →
    (∀ entry ∈ shape.required.zip values, IsDefault program entry.1.2 entry.2) →
    IsDefault program ⟨.object shape, false⟩
      (.object (Entries.ofList ((Entries.keys shape.required).zip values)))
  | array (element : Node) : IsDefault program ⟨.array element, false⟩ (.array [])
  | record (value : Node) : IsDefault program ⟨.record value, false⟩ (.object [])
  | ref {index : Nat} {model : Node} {value : Value} : program.models[index]? = some model →
    IsDefault program model value → IsDefault program ⟨.ref index, false⟩ value

/-- Without entries only the properties that have to be there are present. -/
theorem Shape.presentIn_nil (shape : Shape) :
    shape.presentIn ([] : Entries Json) = shape.required := by
  simp [presentIn, Entries.contains]

/-- **Missing values are read as defaults.** -/
theorem isDefault_of_readLeniently {steps : Nat} {node : Node} : ∀ (inside : Nat) (value : Value),
    node.readLeniently (program.readModelLeniently steps) inside none = some (.ok value) →
      program.IsDefault node value := by
  have hwhole : ∀ {steps : Nat} {kind : Kind} {nullable : Bool},
      (∀ (inside : Nat) (value : Value),
        kind.readLeniently (program.readModelLeniently steps) inside false none =
          some (.ok value) → program.IsDefault ⟨kind, false⟩ value) →
      ∀ (inside : Nat) (value : Value),
        (⟨kind, nullable⟩ : Node).readLeniently (program.readModelLeniently steps) inside none =
          some (.ok value) → program.IsDefault ⟨kind, nullable⟩ value := by
    intro steps kind nullable hkind inside value h
    cases nullable with
    | true =>
      obtain rfl := Attempt.pure_eq_ok_iff.mp h
      exact .null kind
    | false => exact hkind inside value h
  induction steps, node using walkInduct program with
  | scalar steps kind nullable =>
    refine hwhole fun inside value h => ?_
    obtain rfl := Attempt.pure_eq_ok_iff.mp h
    exact .scalar kind
  | enumeration steps values nullable =>
    refine hwhole fun inside value h => ?_
    obtain rfl := Attempt.pure_eq_ok_iff.mp h
    exact .enumeration values
  | object steps shape nullable ih =>
    refine hwhole fun inside value h => ?_
    obtain ⟨hnullable, -, -⟩ | ⟨-, pairs, hpairs, rfl⟩ := Kind.readLeniently_object_iff.mp h
    · cases hnullable
    · rw [show entriesOf none = [] from rfl, Shape.presentIn_nil] at hpairs
      have hzip : pairs = (Entries.keys shape.required).zip (pairs.map Prod.snd) :=
        List.zip_of_prod (keys_of_readAs hpairs) rfl
      obtain ⟨hlength, hread⟩ := List.forall₂_iff_zip.mp hpairs
      rw [hzip]
      refine .object (by rw [hlength, List.length_map]) fun entry hentry => ?_
      rw [List.zip_map_right] at hentry
      obtain ⟨⟨property, pair⟩, hpair, rfl⟩ := List.mem_map.mp hentry
      have hproperty := (List.of_mem_zip hpair).1
      exact ih property (List.mem_append_left _ hproperty) _ _ (hread hpair).2
  | array steps element nullable ih =>
    refine hwhole fun inside value h => ?_
    obtain rfl := Attempt.pure_eq_ok_iff.mp h
    exact .array element
  | record steps node nullable ih =>
    refine hwhole fun inside value h => ?_
    obtain rfl := Attempt.pure_eq_ok_iff.mp h
    exact .record node
  | union steps tag variants nullable ih =>
    exact hwhole fun inside value h => absurd h Attempt.fail_ne_ok
  | stop index nullable => exact hwhole nofun
  | step steps index nullable ih =>
    refine hwhole fun inside value h => ?_
    rw [Kind.readLeniently, readModelLeniently] at h
    split at h
    · cases h
    · rename_i model hmodel
      rw [if_neg (by simp)] at h
      split at h
      · exact absurd h Attempt.fail_ne_ok
      · exact .ref hmodel (ih model hmodel _ _ h)

/-- The default of a node that is no reference is `null` where the node allows that, and only
there. -/
theorem IsDefault.eq_null_iff {node : Node} {value : Value} (h : program.IsDefault node value)
    (htarget : node.target? = none) : value = .null ↔ node.nullable = true := by
  cases h with
  | null kind => exact iff_of_true rfl rfl
  | scalar kind => exact iff_of_false (by cases kind <;> exact nofun) nofun
  | enumeration | object | array | record => exact iff_of_false nofun nofun
  | ref => cases htarget

/-- Nothing fits a reference badly; what fits badly fits a node of another form. -/
theorem Kind.Malformed.target?_eq_none {node : Node} {item : Json} (h : node.kind.Malformed item) :
    node.target? = none := by
  obtain ⟨kind, nullable⟩ := node
  cases kind with
  | ref index => exact h.2.elim
  | _ => rfl

/-! ## Where lenient reading comes to -/

/-- **Lenient reading comes to a node at a path** with a part of the document that is there: to the
items of a list and the entries of a map, to the entries of an object that have a property, along
the property that rules the key, and at a reference to the model with the same part. -/
inductive ComesLeniently (program : Program) : Node → Json → Path → Node → Json → Prop
  | here (node : Node) (input : Json) : ComesLeniently program node input [] node input
  | item {element node : Node} {nullable : Bool} {items : List Json} {i : Nat} {place : Path}
    {item part : Json} : items[i]? = some item →
    ComesLeniently program element item place node part →
    ComesLeniently program ⟨.array element, nullable⟩ (.array items) (.index i :: place) node part
  | entry {value node : Node} {nullable : Bool} {entries : Entries Json} {key : String}
    {place : Path} {item part : Json} : entries.lookup key = some item →
    ComesLeniently program value item place node part →
    ComesLeniently program ⟨.record value, nullable⟩ (.object entries) (.key key :: place) node part
  | field {outer inner node : Node} {shape : Shape} {entries : Entries Json} {key : String}
    {place : Path} {item part : Json} : outer.shape? entries = some shape →
    shape.ruling key = some inner → entries.lookup key = some item →
    ComesLeniently program inner item place node part →
    ComesLeniently program outer (.object entries) (.key key :: place) node part
  | model {index : Nat} {nullable : Bool} {model node : Node} {place : Path} {item part : Json} :
    item.isNull = false → program.models[index]? = some model →
    ComesLeniently program model item place node part →
    ComesLeniently program ⟨.ref index, nullable⟩ item place node part

/-- **What lenient reading gives at a path** is read along the node that it comes to there. -/
theorem ComesLeniently.exists_at? {node inner : Node} {input part : Json} {place : Path}
    (h : program.ComesLeniently node input place inner part) : ∀ {steps : Nat} {value : Value},
      node.readLeniently (program.readModelLeniently steps) 0 (some input) = some (.ok value) →
      ∃ steps piece, value.at? place = some piece ∧
        inner.readLeniently (program.readModelLeniently steps) 0 (some part) =
          some (.ok piece) := by
  induction h with
  | here node input => exact fun hread => ⟨_, _, rfl, hread⟩
  | @item element node nullable items i place item part hitem _ ih =>
    intro steps value hread
    rw [Node.readLeniently_of_given rfl] at hread
    obtain ⟨items', values, hitems, hvalues, rfl⟩ | ⟨hnone, -⟩ :=
      Kind.readLeniently_array_iff.mp hread
    · cases hitems
      obtain ⟨hlt, hget⟩ := List.getElem?_eq_some_iff.mp hitem
      have hlt' : i < values.length := hvalues.length_eq ▸ hlt
      have hitem' := hvalues.get hlt hlt'
      simp only [List.get_eq_getElem, hget] at hitem'
      obtain ⟨steps', piece, hpiece, hread'⟩ := ih hitem'
      refine ⟨steps', piece, ?_, hread'⟩
      rw [Value.at?, Value.step?, List.getElem?_eq_getElem hlt', Option.bind_some, hpiece]
    · exact absurd rfl (hnone _)
  | entry hentry _ ih =>
    intro steps value hread
    rw [Node.readLeniently_of_given rfl] at hread
    obtain ⟨entries', fields, hentries, hfields, rfl⟩ | ⟨hnone, -⟩ :=
      Kind.readLeniently_record_iff.mp hread
    · cases hentries
      obtain ⟨field, hfield, -, hitem⟩ :=
        Entries.exists_lookup_of_forall₂ (fun _ _ hpair => hpair.1) hfields hentry
      obtain ⟨steps', piece, hpiece, hread'⟩ := ih hitem
      refine ⟨steps', piece, ?_, hread'⟩
      rw [Value.at?, Value.step?, Value.get?, Value.fields?, Option.bind_some, hfield,
        Option.bind_some, hpiece]
    · exact absurd rfl (hnone _)
  | @field outer inner node shape entries key place item part hshape hruling hitem _ ih =>
    intro steps value hread
    obtain ⟨pairs, hpairs, hfields⟩ := exists_readAs_of_shape? hread hshape
    have hkey : key ∈ Entries.keys entries := Entries.mem_keys_of_mem (Entries.mem_of_lookup hitem)
    rw [← Shape.lookup_reverse_presentIn hkey] at hruling
    obtain ⟨field, hfield, -, hread'⟩ :=
      Entries.exists_lookup_of_forall₂ (fun _ _ hpair => hpair.1) (List.rel_reverse hpairs) hruling
    rw [← Entries.lookup_ofList] at hfield
    rw [hitem] at hread'
    obtain ⟨steps', piece, hpiece, hread''⟩ := ih hread'
    refine ⟨steps', piece, ?_, hread''⟩
    rw [Value.at?, Value.step?, Value.get?, hfields, Option.bind_some, hfield, Option.bind_some,
      hpiece]
  | model hitem hmodel _ ih =>
    intro steps value hread
    rw [Node.readLeniently_of_given hitem] at hread
    cases steps with
    | zero => cases hread
    | succ steps =>
      rw [Kind.readLeniently, readModelLeniently_succ hmodel] at hread
      exact ih hread

/-! ## Reading along a node alone -/

/-- The root of a program has no say in how references are followed. -/
theorem readModelLeniently_withRoot (program : Program) (node : Node) :
    readModelLeniently { program with root := node } = readModelLeniently program := by
  funext steps
  induction steps with
  | zero => rfl
  | succ steps ih =>
    funext index inside input
    rw [readModelLeniently, readModelLeniently, ih]

/-- **A malformed value is read like a missing one behind references** as well, unless lenient
reading is out of steps before. -/
theorem readLeniently_of_behind_malformed {node final : Node} {item : Json}
    (hfinal : program.behind? node = some final) (hitem : final.kind.Malformed item)
    (steps : Nat) :
    (∃ steps', node.readLeniently (program.readModelLeniently steps) 0 (some item) =
      final.readLeniently (program.readModelLeniently steps') 0 none) ∨
    steps < program.budget 0 ∧
      node.readLeniently (program.readModelLeniently steps) 0 (some item) = none := by
  refine (readLeniently_of_behind hitem.1 0 hfinal steps).imp ?_ id
  rintro ⟨steps', hsteps⟩
  exact ⟨steps', hsteps.trans (readLeniently_of_malformed hitem)⟩

end Program

/-! ## Validators -/

namespace Validator

/-- **What becomes of malformed values.** Let a document be malformed for the node behind a node,
that is for the node itself if it is no reference, and otherwise for what its references lead to.
Read along the node alone the document becomes `null` exactly when the node behind allows `null`.
And wherever reading a whole document comes to the node with such a part, there stands in the value
at the same path the default of the node behind: `null` if that node allows it, and something else
if it does not. -/
theorem eq_null_iff_of_malformed {validator : Validator} {node final : Program.Node} {item : Json}
    (hfinal : validator.program.behind? node = some final) (hitem : final.kind.Malformed item) :
    ((validator.withRoot node).parseLenient item = some (.ok .null) ↔ final.nullable = true) ∧
      ∀ input value place, validator.parseLenient input = some (.ok value) →
        validator.program.ComesLeniently validator.program.root input place node item →
        ∃ part, value.at? place = some part ∧ validator.program.IsDefault final part ∧
          (part = .null ↔ final.nullable = true) := by
  have htarget := hitem.target?_eq_none
  have hdefault : ∀ {steps : Nat} {part : Value},
      final.readLeniently (validator.program.readModelLeniently steps) 0 none =
        some (.ok part) → validator.program.IsDefault final part :=
    fun hread => Program.isDefault_of_readLeniently _ _ hread
  constructor
  · have hread := Program.readLeniently_of_behind_malformed hfinal hitem
      (validator.program.budget item.depth + validator.program.models.length + 2)
    have hbudget := validator.program.budget_eq 0
    obtain ⟨steps', hsteps⟩ := hread.resolve_right (by omega)
    have hparse : (validator.withRoot node).parseLenient item =
        final.readLeniently (validator.program.readModelLeniently steps') 0 none := by
      rw [← hsteps, ← Program.readModelLeniently_withRoot _ node]
      rfl
    rw [hparse]
    constructor
    · exact fun hnull => ((hdefault hnull).eq_null_iff htarget).mp rfl
    · intro hnullable
      obtain ⟨kind, nullable⟩ := final
      obtain rfl : nullable = true := hnullable
      rfl
  · intro input value place h hcomes
    obtain ⟨steps, part, hpart, hread⟩ := hcomes.exists_at? h
    obtain ⟨steps', hsteps⟩ | ⟨-, hnone⟩ :=
      Program.readLeniently_of_behind_malformed hfinal hitem steps
    · have hisDefault := hdefault (hsteps.symm.trans hread)
      exact ⟨part, hpart, hisDefault, hisDefault.eq_null_iff htarget⟩
    · rw [hnone] at hread
      cases hread

/-- The case of a list that may be `null` beside a reference that may be, to an object that may
not. -/
theorem eq_null_iff_of_malformed_list_and_reference :
    let tags : Program.Node := ⟨.array ⟨.scalar .string, false⟩, true⟩
    let user : Program.Node := ⟨.object ⟨[("name", ⟨.scalar .string, false⟩)], [], true⟩, false⟩
    let owner : Program.Node := ⟨.ref 0, true⟩
    let validator : Validator :=
      ⟨⟨⟨.object ⟨[("tags", tags), ("owner", owner)], [], true⟩, false⟩, [user], ["User"]⟩⟩
    let item : Json := .string "x"
    let input : Json := .object [("tags", item), ("owner", item)]
    let value : Value := .object [("tags", .null), ("owner", .object [("name", .string "")])]
    validator.program.behind? tags = some tags ∧ tags.kind.Malformed item ∧
      validator.program.behind? owner = some user ∧ user.kind.Malformed item ∧
      validator.parseLenient input = some (.ok value) ∧
      (∃ part, value.at? [.key "tags"] = some part ∧ validator.program.IsDefault tags part ∧
        (part = .null ↔ tags.nullable = true)) ∧
      ∃ part, value.at? [.key "owner"] = some part ∧ validator.program.IsDefault user part ∧
        (part = .null ↔ user.nullable = true) := by
  intro tags user owner validator item input value
  have htags : validator.program.behind? tags = some tags :=
    Program.behind?_of_target?_eq_none rfl
  have howner : validator.program.behind? owner = some user :=
    (Program.behind?_ref rfl).trans (Program.behind?_of_target?_eq_none rfl)
  have htagsItem : tags.kind.Malformed item := ⟨rfl, nofun⟩
  have huserItem : user.kind.Malformed item := ⟨rfl, nofun⟩
  have hread : validator.parseLenient input = some (.ok value) := rfl
  exact ⟨htags, htagsItem, howner, huserItem, hread,
    (eq_null_iff_of_malformed htags htagsItem).2 input value _ hread
      (.field rfl rfl rfl (.here _ _)),
    (eq_null_iff_of_malformed howner huserItem).2 input value _ hread
      (.field rfl rfl rfl (.here _ _))⟩

/-- A number is malformed for a reference to a text. The reference allows `null`, and yet the number
becomes the empty text. -/
theorem parseLenient_malformed_behind_nullable_reference :
    ∃ schema validator input, Schema.ofJson (.object [("ref", .string "M"),
        ("nullable", .bool true)]) = .ok schema ∧
      compile schema [("M", Schema.scalar .string)] = .ok validator ∧
      validator.program.root.nullable = true ∧
      validator.program.behind? validator.program.root = some ⟨.scalar .string, false⟩ ∧
      (Program.Kind.scalar .string).Malformed input ∧
      validator.parseLenient input = some (.ok (.string "")) := by
  refine ⟨(Schema.reference "M").orNull, ⟨⟨⟨.ref 0, true⟩, [⟨.scalar .string, false⟩], ["M"]⟩⟩,
    .number (.whole 5 (by decide)), rfl, rfl, rfl, rfl, ⟨rfl, rfl⟩, rfl⟩

end Validator

end RpcSchema
