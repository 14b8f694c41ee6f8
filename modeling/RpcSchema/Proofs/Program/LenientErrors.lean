import RpcSchema.Proofs.Program.Agreement
import RpcSchema.Proofs.Program.Defaults
import RpcSchema.Proofs.Program.Positions

set_option autoImplicit false

/-!
# When lenient reading fails

Lenient reading goes down a document along the nodes and replaces what does not fit. It gets stuck
in two places only: at a union whose tag does not hold a known name, and where it has to make a
default of a node that has none.

## Main definitions

* `RpcSchema.Program.VisitsLeniently` — lenient reading along a node comes past another with a part
  of the document.
* `RpcSchema.Program.HasToDefault` — lenient reading has to make a default of a node.
* `RpcSchema.Program.Stuck` — the two places where it gets stuck.

## Main results

* `RpcSchema.Program.fails_readLeniently_iff` — lenient reading fails exactly where it gets stuck.
* `RpcSchema.Validator.parseLenient_fails_iff` — the same for validators, with what becomes of
  missing values.
-/

namespace RpcSchema

namespace Program

/-! ## Visited nodes -/

/-- **Lenient reading along a node visits** another with a part of the document. In an object these
are the properties that have to be there, whether they are or not, and of the others those that
are. Without a document it visits nothing further. -/
inductive VisitsLeniently (program : Program) :
    Node → Option Json → Node → Option Json → Prop
  | here (node : Node) (input : Option Json) : VisitsLeniently program node input node input
  | item {element node : Node} {nullable : Bool} {items : List Json} {item : Json}
    {part : Option Json} :
    item ∈ items → VisitsLeniently program element (some item) node part →
    VisitsLeniently program ⟨.array element, nullable⟩ (some (.array items)) node part
  | entry {value node : Node} {nullable : Bool} {entries : Entries Json} {entry : String × Json}
    {part : Option Json} :
    entry ∈ entries → VisitsLeniently program value (some entry.2) node part →
    VisitsLeniently program ⟨.record value, nullable⟩ (some (.object entries)) node part
  | field {outer node : Node} {shape : Shape} {entries : Entries Json} {property : String × Node}
    {part : Option Json} :
    outer.shape? entries = some shape → property ∈ shape.presentIn entries →
    VisitsLeniently program property.2 (entries.lookup property.1) node part →
    VisitsLeniently program outer (some (.object entries)) node part
  | model {index : Nat} {nullable : Bool} {model node : Node} {item : Json} {part : Option Json} :
    item.isNull = false → program.models[index]? = some model →
    VisitsLeniently program model (some item) node part →
    VisitsLeniently program ⟨.ref index, nullable⟩ (some item) node part

/-- **Lenient reading has to make a default of a node** when the document is missing or `null`, and
of an object also when it is no object. Scalars, enumerations, lists and maps are replaced in more
cases, but they always have a default. -/
def HasToDefault (node : Node) (part : Option Json) : Prop :=
  given? part = none ∨ (∃ shape, node.kind = .object shape) ∧ isObjectGiven part = false

/-- **The two places where lenient reading gets stuck.** No text under the tag of a union names one
of its variants; or a default is due where there is none. -/
inductive Stuck (program : Program) : Node → Option Json → Prop
  | tag {tag : String} {variants : List (String × Shape)} {nullable : Bool} {item : Json} :
    item.isNull = false →
    Node.shape? ⟨.union tag variants, nullable⟩ (entriesOf (some item)) = none →
    Stuck program ⟨.union tag variants, nullable⟩ (some item)
  | default {node : Node} {part : Option Json} :
    HasToDefault node part → ¬ program.Defaultable node → Stuck program node part

variable {program : Program}

/-! ## What is read along the way -/

/-- The shape of an object or of a variant is that along which its fields are read. -/
theorem exists_readAs_of_shape? {follow : Nat → Nat → Option Json → Attempt Value} {inside : Nat}
    {outer : Node} {entries : Entries Json} {shape : Shape} {value : Value}
    (h : outer.readLeniently follow inside (some (.object entries)) = some (.ok value))
    (hshape : outer.shape? entries = some shape) :
    ∃ pairs, List.Forall₂ (ReadAs follow inside entries) (shape.presentIn entries) pairs ∧
      value.fields? = some (Entries.ofList pairs) := by
  obtain ⟨kind, nullable⟩ := outer
  rw [Node.readLeniently_of_given rfl] at h
  cases kind with
  | object shape' =>
    obtain rfl := Option.some.inj hshape
    obtain ⟨-, hinput, -⟩ | ⟨-, pairs, hpairs, rfl⟩ := Kind.readLeniently_object_iff.mp h
    · cases hinput
    · exact ⟨pairs, hpairs, rfl⟩
  | union tag variants =>
    obtain ⟨name, shape', pairs, htag, hshape', hpairs, rfl⟩ := Kind.readLeniently_union_iff.mp h
    have htag' : entries.lookup tag = some (.string name) := htag
    obtain rfl : shape' = shape := by
      simpa only [Node.shape?, htag', hshape', Option.some.injEq] using hshape
    exact ⟨pairs, hpairs, rfl⟩
  | _ => cases hshape

/-- **Where lenient reading gives something** it does so at every node that is visited. -/
theorem VisitsLeniently.exists_read {node inner : Node} {input part : Option Json}
    (h : program.VisitsLeniently node input inner part) : ∀ {steps : Nat} {value : Value},
      node.readLeniently (program.readModelLeniently steps) 0 input = some (.ok value) →
      ∃ steps value, inner.readLeniently (program.readModelLeniently steps) 0 part =
        some (.ok value) := by
  induction h with
  | here node input => exact fun hread => ⟨_, _, hread⟩
  | item hitem _ ih =>
    intro steps value hread
    rw [Node.readLeniently_of_given rfl] at hread
    obtain ⟨items', values, hitems, hvalues, -⟩ | ⟨hnone, -⟩ :=
      Kind.readLeniently_array_iff.mp hread
    · cases hitems
      obtain ⟨_, -, hread⟩ := Outcome.exists_of_forall₂_right hvalues.flip _ hitem
      exact ih hread
    · exact absurd rfl (hnone _)
  | entry hentry _ ih =>
    intro steps value hread
    rw [Node.readLeniently_of_given rfl] at hread
    obtain ⟨entries', fields, hentries, hfields, -⟩ | ⟨hnone, -⟩ :=
      Kind.readLeniently_record_iff.mp hread
    · cases hentries
      obtain ⟨_, -, -, hread⟩ := Outcome.exists_of_forall₂_right hfields.flip _ hentry
      exact ih hread
    · exact absurd rfl (hnone _)
  | field hshape hproperty _ ih =>
    intro steps value hread
    obtain ⟨pairs, hpairs, -⟩ := exists_readAs_of_shape? hread hshape
    obtain ⟨pair, -, -, hread⟩ := Outcome.exists_of_forall₂_right hpairs.flip _ hproperty
    exact ih hread
  | model hitem hmodel _ ih =>
    intro steps value hread
    rw [Node.readLeniently_of_given hitem] at hread
    cases steps with
    | zero => cases hread
    | succ steps =>
      rw [Kind.readLeniently, readModelLeniently_succ hmodel] at hread
      exact ih hread

/-- An object that is not given is read like one that is missing. -/
theorem Node.readLeniently_of_not_isObjectGiven
    {follow : Nat → Nat → Option Json → Attempt Value} {inside : Nat} {shape : Shape}
    {nullable : Bool} {part : Option Json} (h : isObjectGiven part = false) :
    (⟨.object shape, nullable⟩ : Node).readLeniently follow inside part =
      (⟨.object shape, nullable⟩ : Node).readLeniently follow inside none := by
  rcases part with _ | item
  · rfl
  · cases item with
    | object entries => cases h
    | _ => cases nullable <;> rfl

/-- A node that has to default is read like one without a document. -/
theorem HasToDefault.readLeniently_eq {follow : Nat → Nat → Option Json → Attempt Value}
    {inside : Nat} {node : Node} {part : Option Json} (h : HasToDefault node part) :
    node.readLeniently follow inside part = node.readLeniently follow inside none := by
  rcases h with h | ⟨⟨shape, hshape⟩, h⟩
  · exact Node.readLeniently_of_given?_eq_none h
  · obtain ⟨kind, nullable⟩ := node
    obtain rfl : kind = .object shape := hshape
    exact Node.readLeniently_of_not_isObjectGiven h

/-- **Where lenient reading gets stuck** it gives nothing. -/
theorem Stuck.ne_ok {node : Node} {part : Option Json} (h : program.Stuck node part) (steps : Nat)
    (value : Value) :
    node.readLeniently (program.readModelLeniently steps) 0 part ≠ some (.ok value) := by
  intro hread
  cases h with
  | tag hitem hshape =>
    rw [Node.readLeniently_of_given hitem] at hread
    obtain ⟨name, shape, pairs, htag, hvariant, -⟩ := Kind.readLeniently_union_iff.mp hread
    simp [Node.shape?, htag, hvariant] at hshape
  | default hdefault hnone =>
    rw [hdefault.readLeniently_eq] at hread
    exact hnone (defaultable_of_readLeniently hread)

/-! ## Where lenient reading fails -/

/-- A failure is one where a default is due. -/
theorem HasToDefault.stuck_of_fails {node : Node} {part : Option Json} {steps : Nat}
    (h : HasToDefault node part)
    (hfails : (node.readLeniently (program.readModelLeniently steps) 0 part).Fails) :
    program.Stuck node part := by
  rw [h.readLeniently_eq] at hfails
  exact .default h fun hdefaultable => hdefaultable.not_fails steps hfails

/-- **Lenient reading fails** only where it gets stuck on the way.

**Proof sketch.** Induction along the walk. Without a document a default is due. With one, a node
with parts fails at a part, which is visited; the exceptions are a union without a variant and a
document that is no object where one is demanded, and both are stuck. -/
theorem exists_stuck_of_fails {steps : Nat} {node : Node} : ∀ {input : Option Json},
    (node.readLeniently (program.readModelLeniently steps) 0 input).Fails →
      ∃ inner part, program.VisitsLeniently node input inner part ∧ program.Stuck inner part := by
  have hmissing {steps : Nat} {node : Node} {input : Option Json} (h : given? input = none)
      (hfails : (node.readLeniently (program.readModelLeniently steps) 0 input).Fails) :
      ∃ inner part, program.VisitsLeniently node input inner part ∧ program.Stuck inner part :=
    ⟨node, input, .here node input, HasToDefault.stuck_of_fails (.inl h) hfails⟩
  induction steps, node using walkInduct program with
  | scalar steps kind nullable =>
    intro input h
    rcases given?_cases input with hinput | ⟨item, rfl, hitem⟩
    · exact hmissing hinput h
    · rw [Node.readLeniently_of_given hitem] at h
      exact absurd h Attempt.not_fails_pure
  | enumeration steps values nullable =>
    intro input h
    rcases given?_cases input with hinput | ⟨item, rfl, hitem⟩
    · exact hmissing hinput h
    · rw [Node.readLeniently_of_given hitem] at h
      exact absurd h Attempt.not_fails_pure
  | object steps shape nullable ih =>
    intro input h
    by_cases hinput : isObjectGiven input = true
    · obtain ⟨entries, rfl⟩ : ∃ entries, input = some (.object entries) := by
        unfold isObjectGiven at hinput
        split at hinput
        · exact ⟨_, rfl⟩
        · cases hinput
      rw [Node.readLeniently_of_given rfl] at h
      obtain ⟨property, hproperty, h⟩ := Kind.exists_of_fails_object h
      obtain ⟨inner, part, hvisit, hstuck⟩ :=
        ih property (Shape.mem_properties_of_mem_presentIn hproperty) h
      exact ⟨inner, part, .field rfl hproperty hvisit, hstuck⟩
    · exact ⟨_, input, .here _ input,
        HasToDefault.stuck_of_fails (.inr ⟨⟨shape, rfl⟩, by simpa using hinput⟩) h⟩
  | array steps element nullable ih =>
    intro input h
    rcases given?_cases input with hinput | ⟨item, rfl, hitem⟩
    · exact hmissing hinput h
    · rw [Node.readLeniently_of_given hitem] at h
      obtain ⟨items, hitems, member, hmember, hfails⟩ := Kind.exists_of_fails_array h
      cases hitems
      obtain ⟨inner, part, hvisit, hstuck⟩ := ih hfails
      exact ⟨inner, part, .item hmember hvisit, hstuck⟩
  | record steps node nullable ih =>
    intro input h
    rcases given?_cases input with hinput | ⟨item, rfl, hitem⟩
    · exact hmissing hinput h
    · rw [Node.readLeniently_of_given hitem] at h
      obtain ⟨entries, hentries, entry, hentry, hfails⟩ := Kind.exists_of_fails_record h
      cases hentries
      obtain ⟨inner, part, hvisit, hstuck⟩ := ih hfails
      exact ⟨inner, part, .entry hentry hvisit, hstuck⟩
  | union steps tag variants nullable ih =>
    intro input h
    rcases given?_cases input with hinput | ⟨item, rfl, hitem⟩
    · exact hmissing hinput h
    · cases hshape : Node.shape? ⟨.union tag variants, nullable⟩ (entriesOf (some item)) with
      | none => exact ⟨_, _, .here _ _, .tag hitem hshape⟩
      | some shape =>
        obtain ⟨name, htag, hvariant⟩ : ∃ name,
            (entriesOf (some item)).lookup tag = some (.string name) ∧
              variants.lookup name = some shape := by
          simp only [Node.shape?] at hshape
          split at hshape
          · exact ⟨_, ‹_›, hshape⟩
          · cases hshape
        obtain ⟨entries, rfl⟩ : ∃ entries, item = .object entries := by
          cases item with
          | object entries => exact ⟨entries, rfl⟩
          | _ => cases htag
        rw [Node.readLeniently_of_given rfl] at h
        obtain ⟨property, hproperty, h⟩ := Kind.exists_of_fails_union h htag hvariant
        obtain ⟨inner, part, hvisit, hstuck⟩ := ih (name, shape) (Entries.mem_of_lookup hvariant)
          property (Shape.mem_properties_of_mem_presentIn hproperty) h
        exact ⟨inner, part, .field hshape hproperty hvisit, hstuck⟩
  | stop index nullable =>
    intro input h
    rcases given?_cases input with hinput | ⟨item, rfl, hitem⟩
    · exact hmissing hinput h
    · rw [Node.readLeniently_of_given hitem] at h
      obtain ⟨_, h⟩ := h
      cases h
  | step steps index nullable ih =>
    intro input h
    rcases given?_cases input with hinput | ⟨item, rfl, hitem⟩
    · exact hmissing hinput h
    · rw [Node.readLeniently_of_given hitem, Kind.readLeniently] at h
      cases hmodel : program.models[index]? with
      | none =>
        rw [readModelLeniently, hmodel] at h
        obtain ⟨_, h⟩ := h
        cases h
      | some model =>
        rw [readModelLeniently_succ hmodel] at h
        obtain ⟨inner, part, hvisit, hstuck⟩ := ih model hmodel h
        exact ⟨inner, part, .model hitem hmodel hvisit, hstuck⟩

/-- **Lenient reading fails exactly where it gets stuck** on the way, whenever it ends. -/
theorem fails_readLeniently_iff {steps : Nat} {node : Node} {input : Option Json}
    (hends : Option.isSome
      (node.readLeniently (program.readModelLeniently steps) 0 input) = true) :
    (node.readLeniently (program.readModelLeniently steps) 0 input).Fails ↔
      ∃ inner part, program.VisitsLeniently node input inner part ∧ program.Stuck inner part := by
  refine ⟨exists_stuck_of_fails, ?_⟩
  rintro ⟨inner, part, hvisit, hstuck⟩
  by_contra hfails
  obtain ⟨value, hvalue⟩ := Attempt.exists_ok_of_not_fails hends hfails
  obtain ⟨steps', value', hread⟩ := hvisit.exists_read hvalue
  exact hstuck.ne_ok steps' value' hread

end Program

namespace Validator

open Program (Node)

/-- **Where lenient reading makes defaults and where it fails.** A missing value is read exactly
when the node has a default, in as many steps as there are kept for that: the bound on models inside
each other rejects no default and cuts off whatever would go on. If no model leads back to itself
through references only, lenient reading fails exactly when it gets stuck on the way, at a union
without a known name under its tag or at a default that there is not.

**Proof sketch.** The first part is `readLeniently_missing`, as references stay inside the table of a
compiled program. Without endless models lenient reading ends, so `fails_readLeniently_iff` gives the
second. -/
theorem parseLenient_fails_iff {schema : Schema} {models : Models} {validator : Validator}
    (h : compile schema models = .ok validator) :
    (∀ node : Node, (∀ index, node.Mentions index → index < validator.program.models.length) →
      ∀ steps, validator.program.models.length + 1 < steps →
        ∃ outcome, node.readLeniently (validator.program.readModelLeniently steps) 0 none =
            some outcome ∧
          ((∃ value, outcome = .ok value) ↔ validator.program.Defaultable node)) ∧
      ((∀ index, ¬ validator.program.Endless index) → ∀ input,
        ((∃ error, validator.parseLenient input = some (.error error)) ↔
          ∃ node part, validator.program.VisitsLeniently validator.program.root (some input)
              node part ∧ validator.program.Stuck node part)) := by
  have hclosed := Program.closed_of_compile (compile_eq_ok_iff.mp h)
  refine ⟨fun node hnode steps hsteps => Program.readLeniently_missing hclosed hnode hsteps, ?_⟩
  intro hends input
  exact Program.fails_readLeniently_iff (Program.isSome_readLeniently hclosed hends input)

/-- The case of trees that always have a further tree inside, which therefore have no default. -/
theorem parseLenient_fails_iff_endless_tree :
    let schema := Schema.object.property "tree" (Schema.reference "Tree")
    let models : Models := [("Tree", Schema.object.property "left" (Schema.reference "Tree"))]
    let tree : Node := ⟨.object ⟨[("left", ⟨.ref 0, false⟩)], [], true⟩, false⟩
    let validator : Validator :=
      ⟨⟨⟨.object ⟨[("tree", ⟨.ref 0, false⟩)], [], true⟩, false⟩, [tree], ["Tree"]⟩⟩
    let input : Json := .object []
    compile schema models = .ok validator ∧
      (∀ index, tree.Mentions index → index < validator.program.models.length) ∧
      validator.program.models.length + 1 < 3 ∧ (∀ index, ¬ validator.program.Endless index) ∧
      (∃ outcome, tree.readLeniently (validator.program.readModelLeniently 3) 0 none =
          some outcome ∧
        ((∃ value, outcome = .ok value) ↔ validator.program.Defaultable tree)) ∧
      (validator.parseLenient input =
        some (.error ⟨["tree", "left", "left"], ["properties", "tree", "properties", "left",
          "properties", "left"], .endlessDefault "Tree"⟩)) ∧
      ∃ node part, validator.program.VisitsLeniently validator.program.root (some input)
        node part ∧ validator.program.Stuck node part := by
  intro schema models tree validator input
  have hcompile : compile schema models = .ok validator := rfl
  have hmentions : ∀ index, tree.Mentions index → index < validator.program.models.length := by
    intro index h
    obtain ⟨property, hproperty, h⟩ := Program.Node.mentions_object_iff.mp h
    obtain rfl := List.mem_singleton.mp hproperty
    obtain rfl := Program.Node.mentions_ref_iff.mp h
    exact Nat.zero_lt_one
  have hends : ∀ index, ¬ validator.program.Endless index := by
    intro index hendless
    cases hendless with
    | one hnode htarget | more hnode htarget =>
      obtain rfl := List.mem_singleton.mp (List.mem_of_getElem? hnode)
      cases htarget
  have hfails : validator.parseLenient input =
      some (.error ⟨["tree", "left", "left"], ["properties", "tree", "properties", "left",
        "properties", "left"], .endlessDefault "Tree"⟩) := rfl
  obtain ⟨hmissing, herrors⟩ := parseLenient_fails_iff hcompile
  exact ⟨hcompile, hmentions, by decide, hends, hmissing tree hmentions 3 (by decide), hfails,
    (herrors hends input).mp ⟨_, hfails⟩⟩

end Validator

end RpcSchema
