import RpcSchema.Proofs.Program.Positions
import RpcSchema.Proofs.Schema.Closed

set_option autoImplicit false

/-!
# When schemas compile

Lowering can only fail at a reference without a model and at a union whose variants break a rule. A
schema compiles exactly when neither is there, in the schema itself and in every model that it
reaches; so closed schemas compile with closed models.

## Main definitions

* `RpcSchema.Schema.Lowerable` — nothing in a schema itself stands against lowering it.

## Main results

* `RpcSchema.Program.exists_lower_iff` — which schemas are lowered.
* `RpcSchema.Program.exists_compile_iff` — which schemas compile.
* `RpcSchema.Validator.exists_compile` — closed schemas compile.
-/

namespace RpcSchema

/-! ## What can be lowered -/

/-- **A schema can be lowered**: every reference in it has a model, and the variants of every union
in it are objects that leave the tag to the union. -/
inductive Schema.Lowerable (models : Models) : Schema → Prop
  | scalar (kind : ScalarKind) (nullable : Bool) (metadata : Metadata) :
    Lowerable models ⟨.scalar kind, nullable, metadata⟩
  | enumeration (values : List String) (nullable : Bool) (metadata : Metadata) :
    Lowerable models ⟨.enumeration values, nullable, metadata⟩
  | object {required optional : List (String × Schema)} (strict nullable : Bool)
    (metadata : Metadata) : (∀ child ∈ required, Lowerable models child.2) →
    (∀ child ∈ optional, Lowerable models child.2) →
    Lowerable models ⟨.object required optional strict, nullable, metadata⟩
  | array {element : Schema} (nullable : Bool) (metadata : Metadata) :
    Lowerable models element → Lowerable models ⟨.array element, nullable, metadata⟩
  | record {value : Schema} (nullable : Bool) (metadata : Metadata) :
    Lowerable models value → Lowerable models ⟨.record value, nullable, metadata⟩
  | union {tag : String} {variants : List (String × Schema)} (nullable : Bool)
    (metadata : Metadata) : (∀ variant ∈ variants, IsVariant tag variant.2) →
    (∀ variant ∈ variants, Lowerable models variant.2) →
    Lowerable models ⟨.union tag variants, nullable, metadata⟩
  | ref {target : String} (nullable : Bool) (metadata : Metadata) :
    target ∈ Entries.keys models → Lowerable models ⟨.ref target, nullable, metadata⟩

/-- Closed schemas can be lowered. -/
theorem Schema.Closed.lowerable {models : Models} {schema : Schema} :
    schema.Closed models → schema.Lowerable models := by
  induction schema using Schema.induct with
  | scalar kind nullable metadata => exact fun _ => .scalar kind nullable metadata
  | enumeration values nullable metadata => exact fun _ => .enumeration values nullable metadata
  | object required optional strict nullable metadata ihRequired ihOptional =>
    intro h
    obtain ⟨hrequired, hoptional⟩ := h.object
    exact .object strict nullable metadata
      (fun child hchild => ihRequired child hchild (hrequired child hchild))
      fun child hchild => ihOptional child hchild (hoptional child hchild)
  | array element nullable metadata ih => exact fun h => .array nullable metadata (ih h.array)
  | record value nullable metadata ih => exact fun h => .record nullable metadata (ih h.record)
  | union tag variants nullable metadata ih =>
    intro h
    obtain ⟨hvariants, hcheck⟩ := h.union
    exact .union nullable metadata hcheck fun variant hvariant =>
      ih variant hvariant (hvariants variant hvariant)
  | ref target nullable metadata => exact fun h => .ref nullable metadata h.ref

namespace Program

variable {models : Models}

/-! ## Lowering succeeds -/

/-- A model that is there has a position, or gets one. -/
theorem exists_indexOf {target : String} (h : target ∈ Entries.keys models) (place : Path)
    (found : List String) :
    ∃ index found', indexOf models place target found = .ok (index, found') := by
  rw [indexOf]
  split
  · exact ⟨_, _, rfl⟩
  · rw [if_pos (Entries.contains_eq_true_iff.mpr h)]
    exact ⟨_, _, rfl⟩

section

variable {children : List (String × Schema)}
  (h : ∀ child ∈ children, ∀ (place : Path) (found : List String),
    ∃ kind found', lowerForm models place child.2.form found = .ok (kind, found'))

include h

theorem exists_lowerChildren (place : Path) (found : List String) :
    ∃ nodes found', lowerChildren models place children found = .ok (nodes, found') := by
  induction children generalizing found with
  | nil => exact ⟨_, _, lowerChildren_nil_iff.mpr ⟨rfl, rfl⟩⟩
  | cons child rest ih =>
    obtain ⟨key, form, nullable, metadata⟩ := child
    obtain ⟨hfirst, hrest⟩ := List.forall_mem_cons.mp h
    obtain ⟨kind, between, hkind⟩ := hfirst (place ++ [.key key]) found
    obtain ⟨nodes, found', hnodes⟩ := ih hrest between
    exact ⟨_, _, lowerChildren_cons_iff.mpr
      ⟨_, between, nodes, lower_eq_ok_iff.mpr ⟨kind, hkind, rfl⟩, hnodes, rfl⟩⟩

theorem exists_lowerVariants (place : Path) (found : List String) :
    ∃ shapes found', lowerVariants models place children found = .ok (shapes, found') := by
  induction children generalizing found with
  | nil => exact ⟨_, _, lowerVariants_nil_iff.mpr ⟨rfl, rfl⟩⟩
  | cons child rest ih =>
    obtain ⟨hfirst, hrest⟩ := List.forall_mem_cons.mp h
    obtain ⟨kind, between, hkind⟩ := hfirst (place ++ [.key child.1]) found
    obtain ⟨shapes, found', hshapes⟩ := ih hrest between
    exact ⟨_, _, lowerVariants_cons_iff.mpr ⟨kind, between, shapes, hkind, hshapes, rfl⟩⟩

end

/-- The form of a schema that can be lowered is lowered. -/
theorem exists_lowerForm {schema : Schema} (h : schema.Lowerable models) : ∀ (place : Path)
    (found : List String), ∃ kind found',
      lowerForm models place schema.form found = .ok (kind, found') := by
  induction h with
  | scalar kind nullable metadata =>
    exact fun place found => ⟨_, _, (lowerLeaf_eq_ok_iff rfl).mpr ⟨rfl, rfl⟩⟩
  | enumeration values nullable metadata =>
    exact fun place found => ⟨_, _, (lowerLeaf_eq_ok_iff rfl).mpr ⟨rfl, rfl⟩⟩
  | object strict nullable metadata _ _ ihRequired ihOptional =>
    intro place found
    obtain ⟨present, between, hpresent⟩ :=
      exists_lowerChildren ihRequired (place ++ [.key "properties"]) found
    obtain ⟨further, found', hfurther⟩ :=
      exists_lowerChildren ihOptional (place ++ [.key "optionalProperties"]) between
    exact ⟨_, _, lowerObject_eq_ok_iff.mpr ⟨present, between, further, hpresent, hfurther, rfl⟩⟩
  | @array element nullable metadata _ ih =>
    intro place found
    obtain ⟨form, nullable', metadata'⟩ := element
    obtain ⟨kind, found', hkind⟩ := ih (place ++ [.key "elements"]) found
    exact ⟨_, _, lowerArray_eq_ok_iff.mpr ⟨_, lower_eq_ok_iff.mpr ⟨kind, hkind, rfl⟩, rfl⟩⟩
  | @record value nullable metadata _ ih =>
    intro place found
    obtain ⟨form, nullable', metadata'⟩ := value
    obtain ⟨kind, found', hkind⟩ := ih (place ++ [.key "values"]) found
    exact ⟨_, _, lowerRecord_eq_ok_iff.mpr ⟨_, lower_eq_ok_iff.mpr ⟨kind, hkind, rfl⟩, rfl⟩⟩
  | union nullable metadata hcheck _ ih =>
    intro place found
    obtain ⟨shapes, found', hshapes⟩ := exists_lowerVariants ih (place ++ [.key "mapping"]) found
    exact ⟨_, _, lowerUnion_eq_ok_iff.mpr
      ⟨checkVariants_eq_ok_iff.mpr hcheck, shapes, hshapes, rfl⟩⟩
  | ref nullable metadata htarget =>
    intro place found
    obtain ⟨index, found', hindex⟩ := exists_indexOf htarget place found
    exact ⟨_, _, lowerRef_eq_ok_iff.mpr ⟨index, hindex, rfl⟩⟩

/-- A schema that can be lowered is lowered. -/
theorem exists_lower {schema : Schema} (h : schema.Lowerable models) (place : Path)
    (found : List String) :
    ∃ node found', lower models place schema found = .ok (node, found') := by
  obtain ⟨form, nullable, metadata⟩ := schema
  obtain ⟨kind, found', hkind⟩ := exists_lowerForm h place found
  exact ⟨_, _, lower_eq_ok_iff.mpr ⟨kind, hkind, rfl⟩⟩

/-! ## What has been lowered can be -/

section

variable {children : List (String × Schema)}
  (h : ∀ child ∈ children, ∀ {place : Path} {found found' : List String} {kind : Kind},
    lowerForm models place child.2.form found = .ok (kind, found') →
      (∀ name ∈ found, name ∈ Entries.keys models) → child.2.Lowerable models)

include h

theorem lowerable_of_lowerChildren {place : Path} {found found' : List String}
    {nodes : List (String × Node)}
    (hlower : lowerChildren models place children found = .ok (nodes, found'))
    (hfound : ∀ name ∈ found, name ∈ Entries.keys models) :
    ∀ child ∈ children, child.2.Lowerable models := by
  induction children generalizing found nodes with
  | nil => exact nofun
  | cons child rest ih =>
    obtain ⟨key, form, nullable, metadata⟩ := child
    obtain ⟨hfirst, hrest⟩ := List.forall_mem_cons.mp h
    obtain ⟨node, between, others, hnode, hothers, rfl⟩ := lowerChildren_cons_iff.mp hlower
    have hbetween := (discovers_of_lower hnode).mem_keys hfound
    obtain ⟨kind, hkind, rfl⟩ := lower_eq_ok_iff.mp hnode
    exact List.forall_mem_cons.mpr ⟨hfirst hkind hfound, ih hrest hothers hbetween⟩

theorem lowerable_of_lowerVariants {place : Path} {found found' : List String}
    {shapes : List (String × Shape)}
    (hlower : lowerVariants models place children found = .ok (shapes, found'))
    (hfound : ∀ name ∈ found, name ∈ Entries.keys models) :
    ∀ child ∈ children, child.2.Lowerable models := by
  induction children generalizing found shapes with
  | nil => exact nofun
  | cons child rest ih =>
    obtain ⟨hfirst, hrest⟩ := List.forall_mem_cons.mp h
    obtain ⟨kind, between, others, hkind, hothers, rfl⟩ := lowerVariants_cons_iff.mp hlower
    have hbetween := (discovers_of_lowerForm child.2 hkind).mem_keys hfound
    exact List.forall_mem_cons.mpr ⟨hfirst hkind hfound, ih hrest hothers hbetween⟩

end

/-- A schema whose form has been lowered can be lowered, if what was found before has models. -/
theorem lowerable_of_lowerForm (schema : Schema) : ∀ {place : Path} {found found' : List String}
    {kind : Kind}, lowerForm models place schema.form found = .ok (kind, found') →
      (∀ name ∈ found, name ∈ Entries.keys models) → schema.Lowerable models := by
  induction schema using Schema.induct with
  | scalar kind nullable metadata => exact fun _ _ => .scalar kind nullable metadata
  | enumeration values nullable metadata => exact fun _ _ => .enumeration values nullable metadata
  | object required optional strict nullable metadata ihRequired ihOptional =>
    intro place found found' kind h hfound
    obtain ⟨present, between, further, hpresent, hfurther, -⟩ := lowerObject_eq_ok_iff.mp h
    have hbetween := (discovers_of_lowerChildren
      (fun child _ => discovers_of_lowerForm child.2) hpresent).mem_keys hfound
    exact .object strict nullable metadata (lowerable_of_lowerChildren ihRequired hpresent hfound)
      (lowerable_of_lowerChildren ihOptional hfurther hbetween)
  | array element nullable metadata ih =>
    intro place found found' kind h hfound
    obtain ⟨form, nullable', metadata'⟩ := element
    obtain ⟨node, hnode, -⟩ := lowerArray_eq_ok_iff.mp h
    obtain ⟨inner, hinner, -⟩ := lower_eq_ok_iff.mp hnode
    exact .array nullable metadata (ih hinner hfound)
  | record value nullable metadata ih =>
    intro place found found' kind h hfound
    obtain ⟨form, nullable', metadata'⟩ := value
    obtain ⟨node, hnode, -⟩ := lowerRecord_eq_ok_iff.mp h
    obtain ⟨inner, hinner, -⟩ := lower_eq_ok_iff.mp hnode
    exact .record nullable metadata (ih hinner hfound)
  | union tag variants nullable metadata ih =>
    intro place found found' kind h hfound
    obtain ⟨hcheck, shapes, hshapes, -⟩ := lowerUnion_eq_ok_iff.mp h
    exact .union nullable metadata (checkVariants_eq_ok_iff.mp hcheck)
      (lowerable_of_lowerVariants ih hshapes hfound)
  | ref target nullable metadata =>
    intro place found found' kind h hfound
    have hfound' := discovers_of_lowerForm ⟨.ref target, nullable, metadata⟩ h
    refine .ref nullable metadata (hfound'.mem_keys hfound target ?_)
    rw [hfound'.eq_discover, mem_discover_iff]
    exact .inr List.mem_cons_self

/-- **The schemas that are lowered** are those that can be, if what was found before has models. -/
theorem exists_lower_iff {schema : Schema} {place : Path} {found : List String}
    (hfound : ∀ name ∈ found, name ∈ Entries.keys models) :
    (∃ node found', lower models place schema found = .ok (node, found')) ↔
      schema.Lowerable models := by
  refine ⟨?_, fun h => exists_lower h place found⟩
  rintro ⟨node, found', h⟩
  obtain ⟨form, nullable, metadata⟩ := schema
  obtain ⟨kind, hkind, -⟩ := lower_eq_ok_iff.mp h
  exact lowerable_of_lowerForm ⟨form, nullable, metadata⟩ hkind hfound

/-! ## Programs -/

section

variable {starts : List String}
  (h : ∀ name, Reaches models starts name →
    ∃ model, models.lookup name = some model ∧ model.Lowerable models)

include h

/-- Models that can be lowered are, as only those are found that are reached. -/
theorem exists_lowerModels (steps : Nat) : ∀ (done : List Node) (found : List String),
    (∀ name ∈ found, Reaches models starts name) →
      ∃ nodes names, lowerModels models steps done found = .ok (nodes, names) := by
  induction steps with
  | zero => exact fun done found _ => ⟨done, found, rfl⟩
  | succ steps ih =>
    intro done found hfound
    cases hnext : found[done.length]? with
    | none => exact ⟨_, _, lowerModels_of_none hnext⟩
    | some name =>
      have hreaches := hfound name (List.mem_of_getElem? hnext)
      obtain ⟨model, hmodel, hlowerable⟩ := h name hreaches
      obtain ⟨node, between, hnode⟩ := exists_lower hlowerable [.key "models", .key name] found
      have hbetween : ∀ other ∈ between, Reaches models starts other := by
        intro other hother
        rw [(discovers_of_lower hnode).eq_discover, mem_discover_iff] at hother
        exact hother.elim (hfound other) (.next hreaches hmodel)
      obtain ⟨nodes, names, hnodes⟩ := ih (done ++ [node]) between hbetween
      exact ⟨_, _, lowerModels_succ_iff.mpr
        (.inr ⟨name, model, node, between, hnext, hmodel, hnode, hnodes⟩)⟩

end

/-- **The schemas that compile** are those that can be lowered, together with the models of all
names that they reach. -/
theorem exists_compile_iff {schema : Schema} :
    (∃ program, compile schema models = .ok program) ↔ schema.Lowerable models ∧
      ∀ name, Reaches models schema.targets name →
        ∃ model, models.lookup name = some model ∧ model.Lowerable models := by
  have hnil : ∀ name ∈ ([] : List String), name ∈ Entries.keys models := nofun
  constructor
  · rintro ⟨program, h⟩
    obtain ⟨hlowered, hlength⟩ := lowered_of_compile h
    obtain ⟨after, hroot, -⟩ := hlowered.start
    refine ⟨(exists_lower_iff hnil).mp ⟨_, _, hroot⟩, fun name hname => ?_⟩
    have hmem := hlowered.mem_of_reaches hlength hname
    obtain ⟨index, hindex⟩ := List.mem_iff_getElem?.mp hmem
    obtain ⟨model, hmodel⟩ := Entries.exists_lookup_iff.mpr (hlowered.keys name hmem)
    obtain ⟨node, place, before, after, -, hlower, hafter⟩ :=
      hlowered.exists_node hlength hindex hmodel
    -- What was found before the model is among the names of the program.
    have hbefore : ∀ other ∈ before, other ∈ Entries.keys models := by
      intro other hother
      refine hlowered.keys other (hafter.subset ?_)
      rw [(discovers_of_lower hlower).eq_discover, mem_discover_iff]
      exact .inl hother
    exact ⟨model, hmodel, (exists_lower_iff hbefore).mp ⟨_, _, hlower⟩⟩
  · rintro ⟨hschema, hreached⟩
    obtain ⟨root, found, hroot⟩ := exists_lower hschema [] []
    have hfound : ∀ name ∈ found, Reaches models schema.targets name := by
      intro name hname
      rw [(discovers_of_lower hroot).eq_discover, mem_discover_iff] at hname
      exact .start (hname.resolve_left List.not_mem_nil)
    obtain ⟨nodes, names, hnodes⟩ := exists_lowerModels hreached models.length [] found hfound
    exact ⟨⟨root, nodes, names⟩, compile_eq_ok_iff.mpr ⟨found, hroot, hnodes⟩⟩

/-- In a closed schema with closed models every name that is reached has a closed model. -/
theorem exists_closed_of_reaches {schema : Schema} (h : schema.Closed models)
    (hmodels : ∀ model ∈ models, model.2.Closed models) {name : String}
    (hname : Reaches models schema.targets name) :
    ∃ model, models.lookup name = some model ∧ model.Closed models := by
  have hclosed : ∀ {name : String} {model : Schema}, models.lookup name = some model →
      model.Closed models := fun hmodel => hmodels _ (Entries.mem_of_lookup hmodel)
  have hkey : name ∈ Entries.keys models := by
    cases hname with
    | start htarget => exact h.resolves name htarget
    | next _ hmodel htarget => exact (hclosed hmodel).resolves name htarget
  obtain ⟨model, hmodel⟩ := Entries.exists_lookup_iff.mpr hkey
  exact ⟨model, hmodel, hclosed hmodel⟩

end Program

/-- **Closed schemas compile** with closed models. -/
theorem Validator.exists_compile {schema : Schema} {models : Models} (h : schema.Closed models)
    (hmodels : ∀ model ∈ models, model.2.Closed models) :
    ∃ validator, compile schema models = .ok validator := by
  obtain ⟨program, hprogram⟩ := Program.exists_compile_iff.mpr ⟨h.lowerable, fun name hname => by
    obtain ⟨model, hmodel, hclosed⟩ := Program.exists_closed_of_reaches h hmodels hname
    exact ⟨model, hmodel, hclosed.lowerable⟩⟩
  exact ⟨⟨program⟩, compile_eq_ok_iff.mpr hprogram⟩

end RpcSchema
