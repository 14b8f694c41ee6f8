import RpcSchema.Proofs.Program.Positions

set_option autoImplicit false

/-!
# The program as an image of the schemas

What lowering makes of a schema hangs on the position of each name and on nothing else: not on the
place of the schema, and not on the names that were found before it. With the positions given, the
node of a schema can be written down at once. A compiled program consists of these images, one for
the schema and one for every model that is reached.

## Main definitions

* `RpcSchema.Program.nodeOf` — the node of a schema, with the positions of names given.
* `RpcSchema.Program.Numbering` — positions that agree with a list of names.
* `RpcSchema.Program.position` — the position of a name in a program.

## Main results

* `RpcSchema.Program.nodeOf_of_lower` — lowering gives the image of a schema.
* `RpcSchema.Program.root_of_compile`, `RpcSchema.Program.model_of_compile` — a compiled program
  consists of images.
-/

namespace RpcSchema.Program

/-! ## Images -/

section

variable (number : String → Nat)

mutual

/-- **The image of a schema**, with every name in the place of its position. -/
def nodeOf : Schema → Node
  | ⟨form, nullable, _⟩ => ⟨kindOf form, nullable⟩

/-- The image of a form. -/
def kindOf : Form → Kind
  | .scalar kind => .scalar kind
  | .enumeration values => .enumeration values
  | .object required optional strict =>
    .object ⟨propertiesOf required, propertiesOf optional, strict⟩
  | .array element => .array (nodeOf element)
  | .record value => .record (nodeOf value)
  | .union tag variants => .union tag (shapesOf variants)
  | .ref target => .ref (number target)

/-- The images of properties. -/
def propertiesOf : List (String × Schema) → List (String × Node)
  | [] => []
  | (key, schema) :: rest => (key, nodeOf schema) :: propertiesOf rest

/-- The images of the variants of a union. -/
def shapesOf : List (String × Schema) → List (String × Shape)
  | [] => []
  | (name, ⟨form, _, _⟩) :: rest => addShape name (kindOf form) (shapesOf rest)

end

end

/-- **Positions agree with a list of names** if they are those in the list. -/
def Numbering (number : String → Nat) (names : List String) : Prop :=
  ∀ (index : Nat) (name : String), names[index]? = some name → number name = index

/-- The place of each name in a list without repetitions. -/
theorem numbering_idxOf {names : List String} (h : names.Nodup) :
    Numbering (fun name => names.idxOf name) names := by
  intro index name hname
  obtain ⟨hlt, rfl⟩ := List.getElem?_eq_some_iff.mp hname
  exact h.idxOf_getElem index hlt

/-! ## Lowering gives images -/

variable {models : Models} {number : String → Nat} {names found found' : List String}

/-- What has been found stays where it is. -/
theorem Discovers.isPrefix {targets : List String} (h : Discovers models targets found found') :
    found <+: found' := by
  obtain ⟨added, hadded⟩ := exists_discover_eq_append targets found
  exact ⟨added, (h.eq_discover.trans hadded).symm⟩

section

variable {children : List (String × Schema)}
  (h : ∀ child ∈ children, ∀ {place : Path} {found found' : List String} {kind : Kind},
    lowerForm models place child.2.form found = .ok (kind, found') → found' <+: names →
      kind = kindOf number child.2.form)

include h

theorem propertiesOf_of_lowerChildren {place : Path} {nodes : List (String × Node)}
    (hlower : lowerChildren models place children found = .ok (nodes, found'))
    (hnames : found' <+: names) : nodes = propertiesOf number children := by
  induction children generalizing found nodes with
  | nil =>
    obtain ⟨rfl, -⟩ := lowerChildren_nil_iff.mp hlower
    rfl
  | cons child rest ih =>
    obtain ⟨key, form, nullable, metadata⟩ := child
    obtain ⟨hfirst, hrest⟩ := List.forall_mem_cons.mp h
    obtain ⟨node, between, others, hnode, hothers, rfl⟩ := lowerChildren_cons_iff.mp hlower
    obtain ⟨kind, hkind, rfl⟩ := lower_eq_ok_iff.mp hnode
    have hbetween : between <+: found' :=
      (discovers_of_lowerChildren (fun child _ => discovers_of_lowerForm child.2) hothers).isPrefix
    rw [propertiesOf, nodeOf, hfirst hkind (hbetween.trans hnames), ih hrest hothers]

theorem shapesOf_of_lowerVariants {place : Path} {shapes : List (String × Shape)}
    (hlower : lowerVariants models place children found = .ok (shapes, found'))
    (hnames : found' <+: names) : shapes = shapesOf number children := by
  induction children generalizing found shapes with
  | nil =>
    obtain ⟨rfl, -⟩ := lowerVariants_nil_iff.mp hlower
    rfl
  | cons child rest ih =>
    obtain ⟨name, form, nullable, metadata⟩ := child
    obtain ⟨hfirst, hrest⟩ := List.forall_mem_cons.mp h
    obtain ⟨kind, between, others, hkind, hothers, rfl⟩ := lowerVariants_cons_iff.mp hlower
    have hbetween : between <+: found' :=
      (discovers_of_lowerVariants (fun child _ => discovers_of_lowerForm child.2) hothers).isPrefix
    rw [shapesOf, hfirst hkind (hbetween.trans hnames), ih hrest hothers]

end

/-- A form is lowered to its image, if positions agree with what is found in the end. -/
theorem kindOf_of_lowerForm (hnumber : Numbering number names) (schema : Schema) :
    ∀ {place : Path} {found found' : List String} {kind : Kind},
      lowerForm models place schema.form found = .ok (kind, found') → found' <+: names →
        kind = kindOf number schema.form := by
  induction schema using Schema.induct with
  | scalar kind nullable metadata =>
    intro place found found' kind' h _
    exact ((lowerLeaf_eq_ok_iff rfl).mp h).1
  | enumeration values nullable metadata =>
    intro place found found' kind' h _
    exact ((lowerLeaf_eq_ok_iff rfl).mp h).1
  | object required optional strict nullable metadata ihRequired ihOptional =>
    intro place found found' kind h hnames
    obtain ⟨required', between, optional', hrequired, hoptional, rfl⟩ :=
      lowerObject_eq_ok_iff.mp h
    have hbetween : between <+: found' :=
      (discovers_of_lowerChildren (fun child _ => discovers_of_lowerForm child.2)
        hoptional).isPrefix
    rw [kindOf, propertiesOf_of_lowerChildren ihRequired hrequired (hbetween.trans hnames),
      propertiesOf_of_lowerChildren ihOptional hoptional hnames]
  | array element nullable metadata ih =>
    intro place found found' kind h hnames
    obtain ⟨form, nullable', metadata'⟩ := element
    obtain ⟨node, hnode, rfl⟩ := lowerArray_eq_ok_iff.mp h
    obtain ⟨inner, hinner, rfl⟩ := lower_eq_ok_iff.mp hnode
    rw [kindOf, nodeOf, ih hinner hnames]
  | record value nullable metadata ih =>
    intro place found found' kind h hnames
    obtain ⟨form, nullable', metadata'⟩ := value
    obtain ⟨node, hnode, rfl⟩ := lowerRecord_eq_ok_iff.mp h
    obtain ⟨inner, hinner, rfl⟩ := lower_eq_ok_iff.mp hnode
    rw [kindOf, nodeOf, ih hinner hnames]
  | union tag variants nullable metadata ih =>
    intro place found found' kind h hnames
    obtain ⟨-, shapes, hshapes, rfl⟩ := lowerUnion_eq_ok_iff.mp h
    rw [kindOf, shapesOf_of_lowerVariants ih hshapes hnames]
  | ref target nullable metadata =>
    intro place found found' kind h hnames
    obtain ⟨index, hindex, rfl⟩ := lowerRef_eq_ok_iff.mp h
    have htarget := getElem?_of_prefix hnames (numbers_of_indexOf hindex).2
    rw [kindOf, hnumber index target htarget]

/-- **Lowering gives the image of a schema.** -/
theorem nodeOf_of_lower (hnumber : Numbering number names) {schema : Schema} {place : Path}
    {node : Node} (h : lower models place schema found = .ok (node, found'))
    (hnames : found' <+: names) : node = nodeOf number schema := by
  obtain ⟨form, nullable, metadata⟩ := schema
  obtain ⟨kind, hkind, rfl⟩ := lower_eq_ok_iff.mp h
  rw [nodeOf, kindOf_of_lowerForm hnumber ⟨form, nullable, metadata⟩ hkind hnames]

/-! ## Compiled programs -/

/-- The position of a name in a program. -/
def position (program : Program) (name : String) : Nat := program.modelNames.idxOf name

variable {schema : Schema} {program : Program}

/-- The root of a compiled program is the image of the schema. -/
theorem root_of_compile (h : compile schema models = .ok program) :
    program.root = nodeOf program.position schema := by
  obtain ⟨hlowered, -⟩ := lowered_of_compile h
  obtain ⟨after, hroot, hafter⟩ := hlowered.start
  exact nodeOf_of_lower (numbering_idxOf hlowered.nodup) hroot hafter

/-- **The model of a name that is reached** stands in a compiled program as its image. -/
theorem model_of_compile (h : compile schema models = .ok program) {name : String} {model : Schema}
    (hreaches : Reaches models schema.targets name) (hmodel : models.lookup name = some model) :
    program.models[program.position name]? = some (nodeOf program.position model) := by
  obtain ⟨hlowered, hlength⟩ := lowered_of_compile h
  have hnumber : Numbering program.position program.modelNames := numbering_idxOf hlowered.nodup
  obtain ⟨index, hname⟩ := List.mem_iff_getElem?.mp (hlowered.mem_of_reaches hlength hreaches)
  obtain ⟨node, place, before, after, hnode, hlower, hafter⟩ :=
    hlowered.exists_node hlength hname hmodel
  rw [hnumber index name hname, hnode, nodeOf_of_lower hnumber hlower hafter]

end RpcSchema.Program
