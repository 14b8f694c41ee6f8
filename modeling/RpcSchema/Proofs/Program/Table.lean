import RpcSchema.Proofs.Program.Compiling
import RpcSchema.Proofs.Program.Image

set_option autoImplicit false

/-!
# The table of models

Positions are given out before the models are lowered, and further names are found while the models
are lowered one after the other. So the table is right only if the list of names and the list of
nodes stay in step until no model is left. They do: the loop comes to its end, and what it leaves
are the models that a search finds which lowers nothing and drops repeated names at another moment.

## Main definitions

* `RpcSchema.Program.Drains` — lowering the models that are left, however many steps it takes.
* `RpcSchema.Program.Compiles` — compiling a schema, however many steps it takes.
* `RpcSchema.Program.IsTable` — a program is the table of a schema and of the models it reaches.

## Main results

* `RpcSchema.Program.compiles_iff` — compiling comes to an end, with one outcome.
* `RpcSchema.Program.names_of_drains` — the names are those that the search finds, in its order.
* `RpcSchema.Program.compile_table` — which schemas compile, and to what.
-/

namespace RpcSchema.Program

variable {models : Models} {done : List Node} {found : List String}

/-! ## The loop -/

/-- What lowering the next model comes to, with the names found by then, if a model is left. -/
def lowerNext? (models : Models) (done : List Node) (found : List String) :
    Option (Except SchemaError (Node × List String)) :=
  found[done.length]?.map fun name =>
    match models.lookup name with
    | none => .error ⟨[], .unresolvedReference name⟩
    | some model => lower models [.key "models", .key name] model found

/-- **Lowering the models that are left**, one after the other, until none is or one fails. -/
inductive Drains (models : Models) :
    List Node → List String → Except SchemaError (List Node × List String) → Prop
  | drained {done : List Node} {found : List String} :
    lowerNext? models done found = none → Drains models done found (.ok (done, found))
  | stopped {done : List Node} {found : List String} {error : SchemaError} :
    lowerNext? models done found = some (.error error) → Drains models done found (.error error)
  | next {done : List Node} {found between : List String} {node : Node}
    {outcome : Except SchemaError (List Node × List String)} :
    lowerNext? models done found = some (.ok (node, between)) →
    Drains models (done ++ [node]) between outcome → Drains models done found outcome

theorem lowerNext?_of_some {name : String} {model : Schema}
    (hname : found[done.length]? = some name) (hmodel : models.lookup name = some model) :
    lowerNext? models done found =
      some (lower models [.key "models", .key name] model found) := by
  simp [lowerNext?, hname, hmodel]

/-- **The loop comes to an end** when no name is found twice and all have models: each step lowers
another model, so that there are no more steps than models.

**Proof sketch.** Induction on the steps that are allowed. When there are none, all models have
been lowered; otherwise the next one is, and the names that it adds are new and have models too. -/
theorem drains_lowerModels (steps : Nat) : ∀ (done : List Node) (found : List String),
    found.Nodup → (∀ name ∈ found, name ∈ Entries.keys models) →
      models.length ≤ done.length + steps →
      Drains models done found (lowerModels models steps done found) := by
  induction steps with
  | zero =>
    intro done found hnodup hkeys hsteps
    have hle : found.length ≤ done.length := by
      have := length_le_of_nodup hnodup hkeys
      omega
    have hnone : found[done.length]? = none := List.getElem?_eq_none hle
    rw [lowerModels_of_none hnone]
    exact .drained (by rw [lowerNext?, hnone, Option.map_none])
  | succ steps ih =>
    intro done found hnodup hkeys hsteps
    cases hname : found[done.length]? with
    | none =>
      rw [lowerModels_of_none hname]
      exact .drained (by rw [lowerNext?, hname, Option.map_none])
    | some name =>
      obtain ⟨model, hmodel⟩ :=
        Entries.exists_lookup_iff.mpr (hkeys name (List.mem_of_getElem? hname))
      have hnext := lowerNext?_of_some hname hmodel
      rw [lowerModels_of_some hname]
      simp only [hmodel]
      cases hlower : lower models [.key "models", .key name] model found with
      | error error =>
        rw [hlower] at hnext
        exact .stopped hnext
      | ok result =>
        obtain ⟨node, between⟩ := result
        rw [hlower] at hnext
        have hbetween := discovers_of_lower hlower
        have hnodup' : between.Nodup := hbetween.eq_discover ▸ nodup_discover _ found hnodup
        have hsteps' : models.length ≤ (done ++ [node]).length + steps := by
          rw [List.length_append, List.length_singleton]
          omega
        exact .next hnext (ih (done ++ [node]) between hnodup' (hbetween.mem_keys hkeys) hsteps')

/-- The loop has one outcome. -/
theorem Drains.unique {outcome outcome' : Except SchemaError (List Node × List String)}
    (h : Drains models done found outcome) (h' : Drains models done found outcome') :
    outcome = outcome' := by
  induction h with
  | drained hnext =>
    cases h' with
    | drained _ => rfl
    | stopped hnext' | next hnext' _ => simp [hnext] at hnext'
  | stopped hnext =>
    cases h' with
    | stopped hnext' => rw [Except.error.inj (Option.some.inj (hnext.symm.trans hnext'))]
    | drained hnext' | next hnext' _ => simp [hnext] at hnext'
  | next hnext _ ih =>
    cases h' with
    | drained hnext' => simp [hnext] at hnext'
    | stopped hnext' => simp [hnext] at hnext'
    | next hnext' hrest =>
      obtain ⟨rfl, rfl⟩ :=
        Prod.mk.inj (Except.ok.inj (Option.some.inj (hnext.symm.trans hnext')))
      exact ih hrest

/-! ## Compiling -/

/-- **Compiling a schema**, however many models there are to lower. -/
inductive Compiles (models : Models) (schema : Schema) : Except SchemaError Program → Prop
  /-- The schema itself cannot be lowered. -/
  | refused {error : SchemaError} : lower models [] schema [] = .error error →
    Compiles models schema (.error error)
  /-- One of the models cannot. -/
  | stopped {root : Node} {found : List String} {error : SchemaError} :
    lower models [] schema [] = .ok (root, found) → Drains models [] found (.error error) →
    Compiles models schema (.error error)
  | compiled {root : Node} {found names : List String} {nodes : List Node} :
    lower models [] schema [] = .ok (root, found) → Drains models [] found (.ok (nodes, names)) →
    Compiles models schema (.ok ⟨root, nodes, names⟩)

variable {schema : Schema} {root : Node}

/-- What the loop starts with: the models that the schema refers to, none of them twice. -/
theorem start_of_lower (h : lower models [] schema [] = .ok (root, found)) :
    found = discover [] schema.targets ∧ found.Nodup ∧
      ∀ name ∈ found, name ∈ Entries.keys models := by
  have hfound := discovers_of_lower h
  refine ⟨hfound.eq_discover, ?_, hfound.mem_keys nofun⟩
  rw [hfound.eq_discover]
  exact nodup_discover schema.targets [] List.nodup_nil

/-- The loop that follows the schema ends as the definition says. -/
theorem drains_iff (h : lower models [] schema [] = .ok (root, found))
    {outcome : Except SchemaError (List Node × List String)} :
    Drains models [] found outcome ↔ outcome = lowerModels models models.length [] found := by
  obtain ⟨-, hnodup, hkeys⟩ := start_of_lower h
  have hdrains := drains_lowerModels models.length [] found hnodup hkeys (by simp)
  constructor
  · exact fun houtcome => houtcome.unique hdrains
  · rintro rfl
    exact hdrains

theorem compile_of_lower_eq_error {error : SchemaError}
    (h : lower models [] schema [] = .error error) : compile schema models = .error error := by
  change (lower models [] schema [] >>= _) = _
  rw [h]
  rfl

theorem compile_of_lower_eq_ok (h : lower models [] schema [] = .ok (root, found)) :
    compile schema models =
      lowerModels models models.length [] found >>= fun pair => .ok ⟨root, pair.1, pair.2⟩ := by
  change (lower models [] schema [] >>= _) = _
  rw [h]
  rfl

/-- **Compiling comes to an end**, with one outcome and no other. -/
theorem compiles_iff {outcome : Except SchemaError Program} :
    Compiles models schema outcome ↔ outcome = compile schema models := by
  constructor
  · intro h
    cases h with
    | refused hroot => rw [compile_of_lower_eq_error hroot]
    | stopped hroot hdrains =>
      rw [compile_of_lower_eq_ok hroot, ← (drains_iff hroot).mp hdrains]
      rfl
    | compiled hroot hdrains =>
      rw [compile_of_lower_eq_ok hroot, ← (drains_iff hroot).mp hdrains]
      rfl
  · rintro rfl
    cases hroot : lower models [] schema [] with
    | error error =>
      rw [compile_of_lower_eq_error hroot]
      exact .refused hroot
    | ok result =>
      obtain ⟨root, found⟩ := result
      have hdrains := (drains_iff hroot).mpr rfl
      rw [compile_of_lower_eq_ok hroot]
      cases hmodels : lowerModels models models.length [] found with
      | error error => exact .stopped hroot (hmodels ▸ hdrains)
      | ok pair => exact .compiled hroot (hmodels ▸ hdrains)

/-! ## The names -/

/-- **The loop leaves the names that the search finds**, in the order in which it finds them.

**Proof sketch.** Induction along the search. `processed` are the names whose models have been
lowered, which the search has left out of `rest`; what the loop has found are these and the new
names in the queue of the search. So a name that the search drops has been lowered before, and a
model that it finds is the next one that the loop lowers. -/
theorem names_of_drains {rest : Models} {queue : List String} : ∀ {processed found : List String}
    {done nodes : List Node} {names : List String},
    (∀ name, rest.lookup name = if name ∈ processed then none else models.lookup name) →
      found = discover processed queue → processed.length = done.length →
      (∀ name ∈ found, name ∈ Entries.keys models) →
      Drains models done found (.ok (nodes, names)) →
      names = processed ++ Entries.keys (reachableFrom rest queue) := by
  induction rest, queue using reachableFrom.induct with
  | case1 rest =>
    intro processed found done nodes names _ hfound hlength _ h
    have hnone : lowerNext? models done found = none := by
      rw [lowerNext?, hfound, discover, List.foldl_nil, ← hlength, List.getElem?_length,
        Option.map_none]
    obtain ⟨-, rfl⟩ := Prod.mk.inj (Except.ok.inj (h.unique (.drained hnone)))
    rw [hfound, reachableFrom, Entries.keys, List.map_nil, List.append_nil]
    rfl
  | case2 rest first queue hfirst ih =>
    intro processed found done nodes names hrest hfound hlength hkeys h
    have hprocessed : first ∈ processed := by
      by_contra hnew
      rw [hrest, if_neg hnew] at hfirst
      have hmem : first ∈ found := by
        rw [hfound, mem_discover_iff]
        exact .inr List.mem_cons_self
      exact Entries.lookup_eq_none_iff.mp hfirst (hkeys first hmem)
    have hskip : discover processed (first :: queue) = discover processed queue := by
      rw [discover, List.foldl_cons, if_pos hprocessed, discover]
    rw [reachableFrom_of_lookup_eq_none hfirst]
    exact ih hrest (hfound.trans hskip) hlength hkeys h
  | case3 rest first queue model hfirst ih =>
    intro processed found done nodes names hrest hfound hlength hkeys h
    have hnew : first ∉ processed := by
      intro hmem
      rw [hrest, if_pos hmem] at hfirst
      cases hfirst
    have hmodel : models.lookup first = some model := by
      rw [← hfirst, hrest, if_neg hnew]
    have hopen : discover processed (first :: queue) = discover (processed ++ [first]) queue := by
      rw [discover, List.foldl_cons, if_neg hnew, discover]
    obtain ⟨added, hadded⟩ := exists_discover_eq_append queue (processed ++ [first])
    have hname : found[done.length]? = some first := by
      rw [hfound, hopen, hadded, ← hlength, List.append_assoc,
        List.getElem?_append_right (Nat.le_refl _)]
      simp
    have hnext := lowerNext?_of_some hname hmodel
    cases h with
    | drained hnone => simp [hnext] at hnone
    | @next _ _ between node _ hlower hrest' =>
      rw [hnext, Option.some.injEq] at hlower
      have hbetween := discovers_of_lower hlower
      rw [reachableFrom_of_lookup_eq_some hfirst, Entries.keys, List.map_cons, ← Entries.keys,
        List.append_cons]
      refine ih (fun name => ?_) ?_ ?_ (hbetween.mem_keys hkeys) hrest'
      · rw [lookup_without, hrest]
        by_cases heq : name = first <;> simp [heq]
      · rw [hbetween.eq_discover, hfound, hopen, discover_append]
      · rw [List.length_append, List.length_append, hlength]
        rfl

/-! ## The table -/

section

variable {number : String → Nat} {index : Nat}

theorem exists_of_mentions_propertiesOf {children : List (String × Schema)}
    (h : ∀ child ∈ children, (nodeOf number child.2).Mentions index →
      ∃ target ∈ child.2.targets, number target = index) :
    (∃ property ∈ propertiesOf number children, property.2.Mentions index) →
      ∃ target ∈ children.flatMap fun child => child.2.targets, number target = index := by
  induction children with
  | nil =>
    rintro ⟨property, hproperty, -⟩
    cases hproperty
  | cons child rest ih =>
    obtain ⟨hfirst, hrest⟩ := List.forall_mem_cons.mp h
    rintro ⟨property, hproperty, hmentions⟩
    rw [List.flatMap_cons]
    rcases List.mem_cons.mp hproperty with rfl | hproperty
    · obtain ⟨target, htarget, hnumber⟩ := hfirst hmentions
      exact ⟨target, List.mem_append_left _ htarget, hnumber⟩
    · obtain ⟨target, htarget, hnumber⟩ := ih hrest ⟨property, hproperty, hmentions⟩
      exact ⟨target, List.mem_append_right _ htarget, hnumber⟩

theorem exists_of_mentions_shapesOf {variants : List (String × Schema)}
    (h : ∀ variant ∈ variants, (nodeOf number variant.2).Mentions index →
      ∃ target ∈ variant.2.targets, number target = index) :
    (∃ variant ∈ shapesOf number variants, ∃ property ∈ variant.2.properties,
      property.2.Mentions index) →
      ∃ target ∈ variants.flatMap fun variant => variant.2.targets, number target = index := by
  induction variants with
  | nil =>
    rintro ⟨variant, hvariant, -⟩
    cases hvariant
  | cons variant rest ih =>
    obtain ⟨name, form, nullable, metadata⟩ := variant
    obtain ⟨hfirst, hrest⟩ := List.forall_mem_cons.mp h
    rw [List.flatMap_cons]
    have hlater : (∃ variant ∈ shapesOf number rest, ∃ property ∈ variant.2.properties,
        property.2.Mentions index) → ∃ target ∈
          Schema.targets ⟨form, nullable, metadata⟩ ++ rest.flatMap fun variant =>
            variant.2.targets, number target = index := by
      intro hmentions
      obtain ⟨target, htarget, hnumber⟩ := ih hrest hmentions
      exact ⟨target, List.mem_append_right _ htarget, hnumber⟩
    rw [shapesOf]
    dsimp only [nodeOf] at hfirst
    generalize kindOf number form = kind at hfirst
    cases kind with
    | object shape =>
      rintro ⟨variant, hvariant, property, hproperty, hmentions⟩
      rcases List.mem_cons.mp hvariant with rfl | hvariant
      · obtain ⟨target, htarget, hnumber⟩ :=
          hfirst (Node.mentions_object_iff.mpr ⟨property, hproperty, hmentions⟩)
        exact ⟨target, List.mem_append_left _ htarget, hnumber⟩
      · exact hlater ⟨variant, hvariant, property, hproperty, hmentions⟩
    | _ => exact hlater

/-- **The positions in the image of a schema** come from its references. -/
theorem exists_of_mentions_nodeOf (schema : Schema) : (nodeOf number schema).Mentions index →
    ∃ target ∈ schema.targets, number target = index := by
  induction schema using Schema.induct with
  | scalar kind nullable metadata => exact fun h => absurd h Node.not_mentions_scalar
  | enumeration values nullable metadata => exact fun h => absurd h Node.not_mentions_enumeration
  | object required optional strict nullable metadata ihRequired ihOptional =>
    intro h
    obtain ⟨property, hproperty, hmentions⟩ := Node.mentions_object_iff.mp h
    rw [Schema.targets_object]
    rcases List.mem_append.mp hproperty with hproperty | hproperty
    · obtain ⟨target, htarget, hnumber⟩ :=
        exists_of_mentions_propertiesOf ihRequired ⟨property, hproperty, hmentions⟩
      exact ⟨target, List.mem_append_left _ htarget, hnumber⟩
    · obtain ⟨target, htarget, hnumber⟩ :=
        exists_of_mentions_propertiesOf ihOptional ⟨property, hproperty, hmentions⟩
      exact ⟨target, List.mem_append_right _ htarget, hnumber⟩
  | array element nullable metadata ih =>
    intro h
    rw [Schema.targets_array]
    exact ih (Node.mentions_array_iff.mp h)
  | record value nullable metadata ih =>
    intro h
    rw [Schema.targets_record]
    exact ih (Node.mentions_record_iff.mp h)
  | union tag variants nullable metadata ih =>
    intro h
    rw [Schema.targets_union]
    exact exists_of_mentions_shapesOf ih (Node.mentions_union_iff.mp h)
  | ref target nullable metadata =>
    intro h
    have hindex : index = number target := Node.mentions_ref_iff.mp h
    exact ⟨target, List.mem_singleton.mpr rfl, hindex.symm⟩

end

/-- **A node has been made of a schema** with the positions of a program: every reference has become
the position of the model that it names, and there is a model at this position. -/
structure IsNodeOf (program : Program) (schema : Schema) (node : Node) : Prop where
  eq_nodeOf : node = nodeOf program.position schema
  named : ∀ target ∈ schema.targets, program.modelNames[program.position target]? = some target
  mentioned : ∀ index, node.Mentions index → index < program.models.length ∧
    ∃ target ∈ schema.targets, program.modelNames[index]? = some target

/-- **A program is the table of a schema**: its models are those that the schema reaches, in the
order of the search, each lowered once. -/
structure IsTable (models : Models) (schema : Schema) (program : Program) : Prop where
  root : program.IsNodeOf schema program.root
  names : program.modelNames = Entries.keys (reachable schema models)
  nodup : program.modelNames.Nodup
  length : program.models.length = program.modelNames.length
  node : ∀ (index : Nat) (name : String), program.modelNames[index]? = some name →
    ∃ model node place before after, models.lookup name = some model ∧
      program.models[index]? = some node ∧ program.IsNodeOf model node ∧
      lower models place model before = .ok (node, after) ∧ after <+: program.modelNames

variable {program : Program}

/-- What is lowered while a program is compiled is made of a schema with its positions. -/
theorem isNodeOf_of_lower (h : compile schema models = .ok program) {model : Schema} {node : Node}
    {place : Path} {before after : List String}
    (hlower : lower models place model before = .ok (node, after))
    (hafter : after <+: program.modelNames) : program.IsNodeOf model node := by
  obtain ⟨hlowered, hlength⟩ := lowered_of_compile h
  have hnumber : Numbering program.position program.modelNames := numbering_idxOf hlowered.nodup
  have hnode := nodeOf_of_lower hnumber hlower hafter
  have hnamed : ∀ target ∈ model.targets,
      program.modelNames[program.position target]? = some target := by
    intro target htarget
    obtain ⟨index, hindex⟩ := List.mem_iff_getElem?.mp (mem_of_lower hlower hafter htarget)
    rw [hnumber index target hindex, hindex]
  refine ⟨hnode, hnamed, fun index hindex => ?_⟩
  rw [hnode] at hindex
  obtain ⟨target, htarget, rfl⟩ := exists_of_mentions_nodeOf model hindex
  have hlt := (List.getElem?_eq_some_iff.mp (hnamed target htarget)).1
  exact ⟨by omega, target, htarget, hnamed target htarget⟩

/-- The names of a program are those that the search finds. -/
theorem modelNames_of_compile (h : compile schema models = .ok program) :
    program.modelNames = Entries.keys (reachable schema models) := by
  obtain ⟨found, hroot, hmodels⟩ := compile_eq_ok_iff.mp h
  obtain ⟨hfound, -, hkeys⟩ := start_of_lower hroot
  have hdrains := (drains_iff hroot).mpr hmodels.symm
  have hnames := names_of_drains (fun name => (if_neg List.not_mem_nil).symm) hfound rfl hkeys
    hdrains
  rwa [List.nil_append] at hnames

/-- **A compiled program is the table** of its schema. -/
theorem isTable_of_compile (h : compile schema models = .ok program) :
    IsTable models schema program := by
  obtain ⟨hlowered, hlength⟩ := lowered_of_compile h
  obtain ⟨after, hroot, hafter⟩ := hlowered.start
  refine ⟨isNodeOf_of_lower h hroot hafter, modelNames_of_compile h, hlowered.nodup, hlength, ?_⟩
  intro index name hname
  obtain ⟨model, hmodel⟩ :=
    Entries.exists_lookup_iff.mpr (hlowered.keys name (List.mem_of_getElem? hname))
  obtain ⟨node, place, before, after, hnode, hlower, hafter⟩ :=
    hlowered.exists_node hlength hname hmodel
  exact ⟨model, node, place, before, after, hmodel, hnode, isNodeOf_of_lower h hlower hafter,
    hlower, hafter⟩

/-- Models that are not reached do not matter: where those are the same that the search finds, so is
the program. -/
theorem compile_of_reachable (h : compile schema models = .ok program) {models' : Models}
    (hsame : ∀ entry ∈ reachable schema models, models'.lookup entry.1 = some entry.2) :
    compile schema models' = .ok program := by
  rw [← h]
  refine (compile_congr fun name hname => ?_).symm
  obtain ⟨model, hmodel⟩ := Entries.exists_lookup_iff.mpr (mem_keys_of_compile h hname)
  have hmem : (name, model) ∈ reachable schema models :=
    mem_reachableFrom_iff.mpr ⟨hname, hmodel⟩
  rw [hmodel, hsame (name, model) hmem]

/-- **Lowering builds a closed table.** Compiling a schema comes to an end with one outcome. It
succeeds exactly when every reference in the schema and in each model that is reached has a model,
and the variants of every union there are objects that leave the tag to the union. The program is
then the table of the schema, in which all references are positions of the models that they name;
and it is the same with any other models that agree on those that are reached. -/
theorem compile_table (schema : Schema) (models : Models) :
    (∀ outcome, Compiles models schema outcome ↔ outcome = compile schema models) ∧
    ((∃ program, compile schema models = .ok program) ↔ schema.Lowerable models ∧
      ∀ name, Reaches models schema.targets name →
        ∃ model, models.lookup name = some model ∧ model.Lowerable models) ∧
    ∀ program, compile schema models = .ok program → IsTable models schema program ∧
      ∀ models' : Models,
        (∀ entry ∈ reachable schema models, models'.lookup entry.1 = some entry.2) →
          compile schema models' = .ok program := by
  refine ⟨fun outcome => compiles_iff, exists_compile_iff, fun program h => ?_⟩
  exact ⟨isTable_of_compile h, fun models' => compile_of_reachable h⟩

/-- The case of two models that refer to each other, met through lists and twice, beside one that
is not reached. -/
theorem compile_table_cyclic :
    let schema := Schema.array (.reference "A")
    let forth := Schema.object.property "b" (.reference "B")
    let back := (Schema.object.property "a" (.array (.reference "A"))).optionalProperty "b"
      (.reference "B")
    let models : Models := [("Unused", .reference "Ghost"), ("B", back), ("A", forth)]
    let program : Program := ⟨⟨.array ⟨.ref 0, false⟩, false⟩,
      [⟨.object ⟨[("b", ⟨.ref 1, false⟩)], [], true⟩, false⟩,
        ⟨.object ⟨[("a", ⟨.array ⟨.ref 0, false⟩, false⟩)], [("b", ⟨.ref 1, false⟩)], true⟩,
          false⟩],
      ["A", "B"]⟩
    compile schema models = .ok program ∧ IsTable models schema program ∧
      compile schema [("A", forth), ("B", back)] = .ok program := by
  intro schema forth back models program
  have hcompile : compile schema models = .ok program := rfl
  obtain ⟨htable, hothers⟩ := (compile_table schema models).2.2 program hcompile
  have hreachable : reachable schema models = [("A", forth), ("B", back)] := by
    change reachableFrom models ["A"] = _
    have hunused : reachableFrom [("Unused", .reference "Ghost")] ["A", "B"] = [] := by
      rw [reachableFrom_of_lookup_eq_none rfl, reachableFrom_of_lookup_eq_none rfl, reachableFrom]
    have hback : reachableFrom [("Unused", .reference "Ghost"), ("B", back)] ["B"] =
        [("B", back)] := by
      rw [@reachableFrom_of_lookup_eq_some _ _ back rfl]
      exact congrArg (_ :: ·) hunused
    rw [@reachableFrom_of_lookup_eq_some _ _ forth rfl]
    exact congrArg (_ :: ·) hback
  refine ⟨hcompile, htable, hothers _ ?_⟩
  rw [hreachable, List.forall_mem_cons, List.forall_mem_singleton]
  exact ⟨rfl, rfl⟩

end RpcSchema.Program
