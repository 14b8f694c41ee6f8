import RpcSchema.Proofs.Program.Discovery
import RpcSchema.Proofs.Program.Mentions
import RpcSchema.Proofs.Program.Regular

set_option autoImplicit false

/-!
# Positions and names

A compiled program keeps the models in the order in which their names were found. References by
position lead where references by name lead: no position is out of the table, every position is
mentioned before its turn comes, and models that lead back to themselves through references only
are the same in the program and in the arena.

## Main definitions

* `RpcSchema.Program.Numbers` — the positions that lowering a schema gives away.
* `RpcSchema.Program.Lowered` — some of the models that were found have been lowered.
* `RpcSchema.Program.Closed` — references stay inside the table.
* `RpcSchema.Program.RefChain` — one name leads to another through references only.

## Main results

* `RpcSchema.Program.lowered_of_compile` — in a compiled program all of them have been lowered.
* `RpcSchema.Program.closed_of_compile` — compiled programs are closed.
* `RpcSchema.Program.exists_endless_iff` — a compiled program has an endless model when a name that
  is reached leads back to itself.
-/

namespace RpcSchema.Program

variable {models : Models} {found between found' : List String}

/-! ## Positions that are given away -/

/-- **The positions that lowering gives away**: all that it mentions are those of names that are
found in the end, and the positions of names that are new are mentioned. -/
structure Numbers (mentions : Nat → Prop) (found found' : List String) : Prop where
  le : found.length ≤ found'.length
  lt : ∀ index, mentions index → index < found'.length
  new : ∀ index, found.length ≤ index → index < found'.length → mentions index

namespace Numbers

variable {mentions others : Nat → Prop}

theorem refl (h : ∀ index, ¬ mentions index) : Numbers mentions found found where
  le := Nat.le_refl _
  lt index hindex := absurd hindex (h index)
  new _ hle hlt := absurd hlt (Nat.not_lt.mpr hle)

theorem trans (h : Numbers mentions found between) (h' : Numbers others between found') :
    Numbers (fun index => mentions index ∨ others index) found found' where
  le := Nat.le_trans h.le h'.le
  lt index hindex :=
    hindex.elim (fun hfirst => Nat.lt_of_lt_of_le (h.lt index hfirst) h'.le) (h'.lt index)
  new index hle hlt := by
    by_cases hbetween : index < between.length
    · exact .inl (h.new index hle hbetween)
    · exact .inr (h'.new index (Nat.le_of_not_lt hbetween) hlt)

theorem congr (h : Numbers mentions found found') (hiff : ∀ index, others index ↔ mentions index) :
    Numbers others found found' where
  le := h.le
  lt index hindex := h.lt index ((hiff index).mp hindex)
  new index hle hlt := (hiff index).mpr (h.new index hle hlt)

end Numbers

/-- A reference mentions the position of its target. -/
theorem numbers_of_indexOf {place : Path} {target : String} {index : Nat}
    (h : indexOf models place target found = .ok (index, found')) :
    Numbers (· = index) found found' ∧ found'[index]? = some target := by
  unfold indexOf at h
  cases hindex : found.idxOf? target with
  | some position =>
    rw [hindex] at h
    obtain ⟨rfl, rfl⟩ := Prod.mk.inj (Except.ok.inj h)
    obtain ⟨hlt, htarget, -⟩ := List.idxOf?_eq_some_iff.mp hindex
    refine ⟨⟨Nat.le_refl _, ?_, fun other hle hother => absurd hother (Nat.not_lt.mpr hle)⟩, ?_⟩
    · rintro other rfl
      exact hlt
    · rw [List.getElem?_eq_getElem hlt, htarget]
  | none =>
    rw [hindex] at h
    dsimp only at h
    split at h
    · obtain ⟨rfl, rfl⟩ := Prod.mk.inj (Except.ok.inj h)
      have hlength : (found ++ [target]).length = found.length + 1 := by simp
      refine ⟨⟨by omega, by omega, by omega⟩, List.getElem?_concat_length⟩
    · cases h

section

variable {children : List (String × Schema)}
  (h : ∀ child ∈ children, ∀ {place : Path} {found found' : List String} {kind : Kind},
    lowerForm models place child.2.form found = .ok (kind, found') →
      ∀ nullable, Numbers (fun index => (⟨kind, nullable⟩ : Node).Mentions index) found found')

include h

theorem numbers_of_lowerChildren {place : Path} {nodes : List (String × Node)}
    (hlower : lowerChildren models place children found = .ok (nodes, found')) :
    Numbers (fun index => ∃ property ∈ nodes, property.2.Mentions index) found found' := by
  induction children generalizing found nodes with
  | nil =>
    obtain ⟨rfl, rfl⟩ := lowerChildren_nil_iff.mp hlower
    exact .refl (by simp)
  | cons child rest ih =>
    obtain ⟨key, form, nullable, metadata⟩ := child
    obtain ⟨hfirst, hrest⟩ := List.forall_mem_cons.mp h
    obtain ⟨node, between, others, hnode, hothers, rfl⟩ := lowerChildren_cons_iff.mp hlower
    obtain ⟨kind, hkind, rfl⟩ := lower_eq_ok_iff.mp hnode
    exact ((hfirst hkind nullable).trans (ih hrest hothers)).congr fun index =>
      List.exists_mem_cons_iff ..

/-- The shapes of variants mention what their properties do, as all variants are objects. -/
theorem numbers_of_lowerVariants {place : Path} {shapes : List (String × Shape)}
    (hobject : ∀ child ∈ children, ∃ required optional strict,
      child.2.form = .object required optional strict)
    (hlower : lowerVariants models place children found = .ok (shapes, found')) :
    Numbers (fun index => ∃ variant ∈ shapes, ∃ property ∈ variant.2.properties,
      property.2.Mentions index) found found' := by
  induction children generalizing found shapes with
  | nil =>
    obtain ⟨rfl, rfl⟩ := lowerVariants_nil_iff.mp hlower
    exact .refl (by simp)
  | cons child rest ih =>
    obtain ⟨hfirst, hrest⟩ := List.forall_mem_cons.mp h
    obtain ⟨⟨required, optional, strict, hform⟩, hobjects⟩ := List.forall_mem_cons.mp hobject
    obtain ⟨kind, between, others, hkind, hothers, rfl⟩ := lowerVariants_cons_iff.mp hlower
    have hnumbers := hfirst hkind false
    rw [hform] at hkind
    obtain ⟨required', between', optional', -, -, rfl⟩ := lowerObject_eq_ok_iff.mp hkind
    refine (hnumbers.trans (ih hrest hobjects hothers)).congr fun index => ?_
    rw [Node.mentions_object_iff]
    exact List.exists_mem_cons_iff ..

end

/-- **Lowering a form** gives away the positions that a node of the kind mentions. -/
theorem numbers_of_lowerForm (schema : Schema) : ∀ {place : Path} {found found' : List String}
    {kind : Kind}, lowerForm models place schema.form found = .ok (kind, found') →
      ∀ nullable, Numbers (fun index => (⟨kind, nullable⟩ : Node).Mentions index) found found' := by
  induction schema using Schema.induct with
  | scalar kind _ metadata =>
    intro place found found' kind' h nullable
    obtain ⟨rfl, rfl⟩ := (lowerLeaf_eq_ok_iff rfl).mp h
    exact .refl fun _ => Node.not_mentions_scalar
  | enumeration values _ metadata =>
    intro place found found' kind' h nullable
    obtain ⟨rfl, rfl⟩ := (lowerLeaf_eq_ok_iff rfl).mp h
    exact .refl fun _ => Node.not_mentions_enumeration
  | object required optional strict _ metadata ihRequired ihOptional =>
    intro place found found' kind' h nullable
    obtain ⟨required', between, optional', hrequired, hoptional, rfl⟩ :=
      lowerObject_eq_ok_iff.mp h
    refine ((numbers_of_lowerChildren ihRequired hrequired).trans
      (numbers_of_lowerChildren ihOptional hoptional)).congr fun index => ?_
    rw [Node.mentions_object_iff, Shape.properties_mk]
    simp only [List.mem_append, or_and_right, exists_or]
  | array element _ metadata ih =>
    intro place found found' kind' h nullable
    obtain ⟨form, nullable', metadata'⟩ := element
    obtain ⟨node, hnode, rfl⟩ := lowerArray_eq_ok_iff.mp h
    obtain ⟨inner, hinner, rfl⟩ := lower_eq_ok_iff.mp hnode
    exact (ih hinner nullable').congr fun index => Node.mentions_array_iff
  | record value _ metadata ih =>
    intro place found found' kind' h nullable
    obtain ⟨form, nullable', metadata'⟩ := value
    obtain ⟨node, hnode, rfl⟩ := lowerRecord_eq_ok_iff.mp h
    obtain ⟨inner, hinner, rfl⟩ := lower_eq_ok_iff.mp hnode
    exact (ih hinner nullable').congr fun index => Node.mentions_record_iff
  | union tag variants _ metadata ih =>
    intro place found found' kind' h nullable
    obtain ⟨hcheck, shapes, hshapes, rfl⟩ := lowerUnion_eq_ok_iff.mp h
    exact (numbers_of_lowerVariants ih (form_of_checkVariants hcheck) hshapes).congr fun index =>
      Node.mentions_union_iff
  | ref target _ metadata =>
    intro place found found' kind' h nullable
    obtain ⟨index, hindex, rfl⟩ := lowerRef_eq_ok_iff.mp h
    exact (numbers_of_indexOf hindex).1.congr fun other => Node.mentions_ref_iff

theorem numbers_of_lower {schema : Schema} {place : Path} {node : Node}
    (h : lower models place schema found = .ok (node, found')) :
    Numbers (fun index => node.Mentions index) found found' := by
  obtain ⟨form, nullable, metadata⟩ := schema
  obtain ⟨kind, hkind, rfl⟩ := lower_eq_ok_iff.mp h
  exact numbers_of_lowerForm ⟨form, nullable, metadata⟩ hkind nullable

/-- **A reference is lowered to a reference**, to the position of the name; and nothing else is. -/
theorem target?_of_lower {schema : Schema} {place : Path} {node : Node}
    (h : lower models place schema found = .ok (node, found')) :
    (∀ target, schema.target? = some target →
        ∃ index, node.target? = some index ∧ found'[index]? = some target) ∧
      ∀ index, node.target? = some index →
        ∃ target, schema.target? = some target ∧ found'[index]? = some target := by
  obtain ⟨form, nullable, metadata⟩ := schema
  obtain ⟨kind, hkind, rfl⟩ := lower_eq_ok_iff.mp h
  cases form with
  | ref target =>
    obtain ⟨index, hindex, rfl⟩ := lowerRef_eq_ok_iff.mp hkind
    have hname := (numbers_of_indexOf hindex).2
    refine ⟨?_, ?_⟩
    · rintro _ ⟨⟩
      exact ⟨index, rfl, hname⟩
    · rintro _ ⟨⟩
      exact ⟨target, rfl, hname⟩
  | scalar kind =>
    obtain ⟨rfl, -⟩ := (lowerLeaf_eq_ok_iff rfl).mp hkind
    exact ⟨nofun, nofun⟩
  | enumeration values =>
    obtain ⟨rfl, -⟩ := (lowerLeaf_eq_ok_iff rfl).mp hkind
    exact ⟨nofun, nofun⟩
  | object required optional strict =>
    obtain ⟨required', between, optional', -, -, rfl⟩ := lowerObject_eq_ok_iff.mp hkind
    exact ⟨nofun, nofun⟩
  | array element =>
    obtain ⟨inner, -, rfl⟩ := lowerArray_eq_ok_iff.mp hkind
    exact ⟨nofun, nofun⟩
  | record value =>
    obtain ⟨inner, -, rfl⟩ := lowerRecord_eq_ok_iff.mp hkind
    exact ⟨nofun, nofun⟩
  | union tag variants =>
    obtain ⟨-, shapes, -, rfl⟩ := lowerUnion_eq_ok_iff.mp hkind
    exact ⟨nofun, nofun⟩

/-! ## Lowering the models that are found -/

/-- **Some of the models that were found have been lowered**, in their order. The names are
distinct, they have models and are reached; what has been lowered refers to names that were found,
and every name was found at the root or at a model before it. -/
structure Lowered (models : Models) (schema : Schema) (root : Node) (done : List Node)
    (found : List String) : Prop where
  nodup : found.Nodup
  keys : ∀ name ∈ found, name ∈ Entries.keys models
  reaches : ∀ name ∈ found, Reaches models schema.targets name
  le : done.length ≤ found.length
  start : ∃ after, lower models [] schema [] = .ok (root, after) ∧ after <+: found
  node : ∀ (index : Nat) (node : Node), done[index]? = some node →
    ∃ name model place before after, found[index]? = some name ∧ models.lookup name = some model ∧
      lower models place model before = .ok (node, after) ∧ after <+: found
  mentioned : ∀ index < found.length, root.Mentions index ∨
    ∃ earlier < index, ∃ node, done[earlier]? = some node ∧ node.Mentions index

variable {schema : Schema}

/-- What is found at a position of some names is there in all of them. -/
theorem getElem?_of_prefix {names others : List String} (h : names <+: others) {index : Nat}
    {name : String} (hname : names[index]? = some name) : others[index]? = some name := by
  obtain ⟨added, rfl⟩ := h
  rw [List.getElem?_append_left (List.getElem?_eq_some_iff.mp hname).1, hname]

/-- One model more. -/
theorem Lowered.step {root node : Node} {done : List Node} {name : String} {model : Schema}
    {place : Path} (h : Lowered models schema root done found)
    (hname : found[done.length]? = some name) (hmodel : models.lookup name = some model)
    (hlower : lower models place model found = .ok (node, between)) :
    Lowered models schema root (done ++ [node]) between := by
  have hfound := discovers_of_lower hlower
  have hnumbers := numbers_of_lower hlower
  obtain ⟨added, hadded⟩ := exists_discover_eq_append model.targets found
  have hstart : found <+: between := ⟨added, (hfound.eq_discover.trans hadded).symm⟩
  have hlt : done.length < found.length := (List.getElem?_eq_some_iff.mp hname).1
  refine ⟨hfound.eq_discover ▸ nodup_discover _ _ h.nodup, hfound.mem_keys h.keys, ?_, ?_, ?_, ?_,
    ?_⟩
  · intro other hother
    rw [hfound.eq_discover, mem_discover_iff] at hother
    refine hother.elim (h.reaches other) fun htarget => ?_
    exact .next (h.reaches name (List.mem_of_getElem? hname)) hmodel htarget
  · have := hnumbers.le
    rw [List.length_append, List.length_singleton]
    omega
  · obtain ⟨after, hroot, hafter⟩ := h.start
    exact ⟨after, hroot, hafter.trans hstart⟩
  · intro index other hother
    rcases Nat.lt_trichotomy index done.length with hindex | rfl | hindex
    · rw [List.getElem?_append_left hindex] at hother
      obtain ⟨name', model', place', before, after, hname', hmodel', hlower', hafter⟩ :=
        h.node index other hother
      exact ⟨name', model', place', before, after, getElem?_of_prefix hstart hname', hmodel',
        hlower', hafter.trans hstart⟩
    · rw [List.getElem?_concat_length, Option.some.injEq] at hother
      subst hother
      exact ⟨name, model, place, found, between, getElem?_of_prefix hstart hname, hmodel, hlower,
        List.prefix_refl between⟩
    · rw [List.getElem?_eq_none (by simp; omega)] at hother
      cases hother
  · intro index hindex
    by_cases hold : index < found.length
    · refine (h.mentioned index hold).imp id ?_
      rintro ⟨earlier, hearlier, other, hother, hmentions⟩
      refine ⟨earlier, hearlier, other, ?_, hmentions⟩
      rw [List.getElem?_append_left (List.getElem?_eq_some_iff.mp hother).1, hother]
    · refine .inr ⟨done.length, by omega, node, List.getElem?_concat_length, ?_⟩
      exact hnumbers.new index (Nat.le_of_not_lt hold) hindex

/-- **All models that are found have been lowered** when there are enough steps. -/
theorem lowered_of_lowerModels {root : Node} {nodes : List Node} {names : List String}
    {steps : Nat} : ∀ {done : List Node} {found : List String},
      Lowered models schema root done found → models.length ≤ done.length + steps →
      lowerModels models steps done found = .ok (nodes, names) →
      Lowered models schema root nodes names ∧ nodes.length = names.length := by
  induction steps with
  | zero =>
    intro done found hlowered hsteps h
    obtain ⟨rfl, rfl⟩ := Discovery.pure_eq_ok_iff.mp h
    have := length_le_of_nodup hlowered.nodup hlowered.keys
    have := hlowered.le
    exact ⟨hlowered, by omega⟩
  | succ steps ih =>
    intro done found hlowered hsteps h
    rcases lowerModels_succ_iff.mp h with ⟨hnone, rfl, rfl⟩ | ⟨name, model, node, between, hname,
      hmodel, hlower, hrest⟩
    · have := List.getElem?_eq_none_iff.mp hnone
      have := hlowered.le
      exact ⟨hlowered, by omega⟩
    · refine ih (hlowered.step hname hmodel hlower) ?_ hrest
      rw [List.length_append, List.length_singleton]
      omega

/-! ## Compiled programs -/

variable {program : Program}

/-- **In a compiled program** all models that were found have been lowered. -/
theorem lowered_of_compile (h : compile schema models = .ok program) :
    Lowered models schema program.root program.models program.modelNames ∧
      program.models.length = program.modelNames.length := by
  obtain ⟨found, hroot, hmodels⟩ := compile_eq_ok_iff.mp h
  have hfound := discovers_of_lower hroot
  refine lowered_of_lowerModels ⟨?_, hfound.mem_keys (by simp), ?_, Nat.zero_le _,
    ⟨found, hroot, List.prefix_refl found⟩, by simp, ?_⟩ (by simp) hmodels
  · exact hfound.eq_discover ▸ nodup_discover _ _ List.nodup_nil
  · intro name hname
    rw [hfound.eq_discover, mem_discover_iff] at hname
    exact .start (hname.resolve_left List.not_mem_nil)
  · exact fun index hindex => .inl ((numbers_of_lower hroot).new index (Nat.zero_le _) hindex)

/-- **References stay inside the table** of a program. -/
structure Closed (program : Program) : Prop where
  root : ∀ index, program.root.Mentions index → index < program.models.length
  models : ∀ node ∈ program.models, ∀ index, node.Mentions index → index < program.models.length

theorem closed_of_compile (h : compile schema models = .ok program) : program.Closed := by
  obtain ⟨hlowered, hlength⟩ := lowered_of_compile h
  constructor
  · intro index hindex
    obtain ⟨after, hroot, hafter⟩ := hlowered.start
    have := (numbers_of_lower hroot).lt index hindex
    have := hafter.length_le
    omega
  · intro node hnode index hindex
    obtain ⟨position, hposition⟩ := List.mem_iff_getElem?.mp hnode
    obtain ⟨name, model, place, before, after, -, -, hlower, hafter⟩ :=
      hlowered.node position node hposition
    have := (numbers_of_lower hlower).lt index hindex
    have := hafter.length_le
    omega

/-! ## References to references -/

/-- **One name leads to another through references only**: the model of the name is a reference to
the other name, or to one that leads on to it. -/
inductive RefChain (models : Models) : String → String → Prop
  | one {start stop : String} {schema : Schema} :
    models.lookup start = some schema → schema.target? = some stop → RefChain models start stop
  | more {start middle stop : String} {schema : Schema} :
    models.lookup start = some schema → schema.target? = some middle →
    RefChain models middle stop → RefChain models start stop

/-- A reference in the table is one in the arena. -/
theorem Lowered.target?_of_node {root : Node} {nodes : List Node} {names : List String}
    (h : Lowered models schema root nodes names) {start stop : Nat} {node : Node}
    (hnode : nodes[start]? = some node) (hstop : node.target? = some stop) :
    ∃ name target model, names[start]? = some name ∧ models.lookup name = some model ∧
      model.target? = some target ∧ names[stop]? = some target := by
  obtain ⟨name, model, place, before, after, hname, hmodel, hlower, hafter⟩ :=
    h.node start node hnode
  obtain ⟨target, htarget, hfound⟩ := (target?_of_lower hlower).2 stop hstop
  exact ⟨name, target, model, hname, hmodel, htarget, getElem?_of_prefix hafter hfound⟩

/-- References in the table lead where they lead in the arena. -/
theorem Lowered.refChain_of_chain
    (h : Lowered models schema program.root program.models program.modelNames) {start stop : Nat}
    (hchain : Chain program start stop) : ∃ name target, program.modelNames[start]? = some name ∧
      program.modelNames[stop]? = some target ∧ RefChain models name target := by
  induction hchain with
  | one hnode hstop =>
    obtain ⟨name, target, model, hname, hmodel, htarget, hfound⟩ := h.target?_of_node hnode hstop
    exact ⟨name, target, hname, hfound, .one hmodel htarget⟩
  | more hnode hmiddle _ ih =>
    obtain ⟨name, target, model, hname, hmodel, htarget, hfound⟩ := h.target?_of_node hnode hmiddle
    obtain ⟨name', target', hname', htarget', hchain⟩ := ih
    obtain rfl : target = name' := Option.some.inj (hfound.symm.trans hname')
    exact ⟨name, target', hname, htarget', .more hmodel htarget hchain⟩

/-- When all have been lowered, a model that was found has been. -/
theorem Lowered.exists_node {root : Node} {nodes : List Node} {names : List String}
    (h : Lowered models schema root nodes names) (hlength : nodes.length = names.length)
    {index : Nat} {name : String} {model : Schema} (hname : names[index]? = some name)
    (hmodel : models.lookup name = some model) : ∃ node place before after,
    nodes[index]? = some node ∧ lower models place model before = .ok (node, after) ∧
      after <+: names := by
  have hlt : index < nodes.length := hlength ▸ (List.getElem?_eq_some_iff.mp hname).1
  obtain ⟨name', model', place, before, after, hname', hmodel', hlower, hafter⟩ :=
    h.node index _ (List.getElem?_eq_getElem hlt)
  obtain rfl : name = name' := Option.some.inj (hname.symm.trans hname')
  obtain rfl : model = model' := Option.some.inj (hmodel.symm.trans hmodel')
  exact ⟨_, place, before, after, List.getElem?_eq_getElem hlt, hlower, hafter⟩

/-- References in the arena lead where they lead in the table. -/
theorem Lowered.chain_of_refChain
    (h : Lowered models schema program.root program.models program.modelNames)
    (hlength : program.models.length = program.modelNames.length) {name target : String}
    (hchain : RefChain models name target) : ∀ {start : Nat},
      program.modelNames[start]? = some name →
      ∃ stop, program.modelNames[stop]? = some target ∧ Chain program start stop := by
  have hstep : ∀ {name target : String} {model : Schema} {start : Nat},
      program.modelNames[start]? = some name → models.lookup name = some model →
      model.target? = some target → ∃ node stop, program.models[start]? = some node ∧
        node.target? = some stop ∧ program.modelNames[stop]? = some target := by
    intro name target model start hname hmodel htarget
    obtain ⟨node, place, before, after, hnode, hlower, hafter⟩ := h.exists_node hlength hname hmodel
    obtain ⟨stop, hstop, hfound⟩ := (target?_of_lower hlower).1 target htarget
    exact ⟨node, stop, hnode, hstop, getElem?_of_prefix hafter hfound⟩
  induction hchain with
  | one hmodel htarget =>
    intro start hname
    obtain ⟨node, stop, hnode, hstop, hfound⟩ := hstep hname hmodel htarget
    exact ⟨stop, hfound, .one hnode hstop⟩
  | more hmodel htarget _ ih =>
    intro start hname
    obtain ⟨node, middle, hnode, hmiddle, hfound⟩ := hstep hname hmodel htarget
    obtain ⟨stop, hstop, hchain⟩ := ih hfound
    exact ⟨stop, hstop, .more hnode hmiddle hchain⟩

/-- What a schema refers to has been found once the schema is lowered. -/
theorem mem_of_lower {model : Schema} {place : Path} {node : Node} {names : List String}
    (h : lower models place model found = .ok (node, found')) (hstart : found' <+: names)
    {target : String} (htarget : target ∈ model.targets) : target ∈ names := by
  refine hstart.subset ?_
  rw [(discovers_of_lower h).eq_discover, mem_discover_iff]
  exact .inr htarget

/-- **The names that are reached** are those of the models of the program. -/
theorem Lowered.mem_of_reaches
    (h : Lowered models schema program.root program.models program.modelNames)
    (hlength : program.models.length = program.modelNames.length) {name : String}
    (hname : Reaches models schema.targets name) : name ∈ program.modelNames := by
  induction hname with
  | start htarget =>
    obtain ⟨after, hroot, hafter⟩ := h.start
    exact mem_of_lower hroot hafter htarget
  | next _ hmodel htarget ih =>
    obtain ⟨index, hindex⟩ := List.mem_iff_getElem?.mp ih
    obtain ⟨node, place, before, after, -, hlower, hafter⟩ := h.exists_node hlength hindex hmodel
    exact mem_of_lower hlower hafter htarget

/-- **A compiled program has an endless model** exactly when a name that is reached leads back to
itself through references only. -/
theorem exists_endless_iff (h : compile schema models = .ok program) :
    (∃ index, program.Endless index) ↔
      ∃ name, Reaches models schema.targets name ∧ RefChain models name name := by
  obtain ⟨hlowered, hlength⟩ := lowered_of_compile h
  constructor
  · rintro ⟨index, hendless⟩
    obtain ⟨name, target, hname, htarget, hchain⟩ := hlowered.refChain_of_chain hendless
    obtain rfl : name = target := Option.some.inj (hname.symm.trans htarget)
    exact ⟨name, hlowered.reaches name (List.mem_of_getElem? hname), hchain⟩
  · rintro ⟨name, hreaches, hchain⟩
    obtain ⟨index, hname⟩ :=
      List.mem_iff_getElem?.mp (hlowered.mem_of_reaches hlength hreaches)
    obtain ⟨stop, hstop, hchain⟩ := hlowered.chain_of_refChain hlength hchain hname
    have hlt := (List.getElem?_eq_some_iff.mp hname).1
    obtain rfl : index = stop :=
      (List.getElem?_inj hlt hlowered.nodup).mp (hname.trans hstop.symm)
    exact ⟨index, hchain⟩

end RpcSchema.Program
