import RpcSchema.Proofs.Entries
import RpcSchema.Proofs.Program.Induction
import RpcSchema.Proofs.Program.Lowering
import RpcSchema.Proofs.Schema.Rules

set_option autoImplicit false

/-!
# Regular programs

In a regular program no object lists a key twice, and no variant of a union lists the tag. Schemas
that do not list a key twice are compiled into regular programs; that variants leave the tag to the
union is checked on the way.

## Main definitions

* `RpcSchema.Schema.ListsKeysOnce` — no object in a schema lists a key twice.
* `RpcSchema.Program.Regular` — a regular program.

## Main results

* `RpcSchema.Program.regular_of_compile` — schemas that list keys once give regular programs.
-/

namespace RpcSchema

/-! ## Schemas -/

namespace Schema

mutual

/-- **No object in a schema lists a key twice**, be it in one of its two sections or in both. -/
def ListsKeysOnce : Schema → Prop
  | ⟨form, _, _⟩ => FormListsKeysOnce form

/-- No object in a form lists a key twice. -/
def FormListsKeysOnce : Form → Prop
  | .object required optional _ =>
    Entries.Distinct (required ++ optional) ∧ ChildrenListKeysOnce required ∧
      ChildrenListKeysOnce optional
  | .array element => element.ListsKeysOnce
  | .record value => value.ListsKeysOnce
  | .union _ variants => ChildrenListKeysOnce variants
  | _ => True

/-- No object in the schemas of a map lists a key twice. -/
def ChildrenListKeysOnce : List (String × Schema) → Prop
  | [] => True
  | (_, schema) :: rest => schema.ListsKeysOnce ∧ ChildrenListKeysOnce rest

end

theorem childrenListKeysOnce_iff {children : List (String × Schema)} :
    ChildrenListKeysOnce children ↔ ∀ child ∈ children, child.2.ListsKeysOnce := by
  induction children with
  | nil => simp [ChildrenListKeysOnce]
  | cons child rest ih =>
    rw [ChildrenListKeysOnce, ih, List.forall_mem_cons]

end Schema

namespace Program

/-! ## Programs -/

mutual

/-- **A regular node**: no shape in it lists a key twice, and no variant of a union the tag. -/
def Node.Regular : Node → Prop
  | ⟨kind, _⟩ => kind.Regular

/-- What a regular node demands. -/
def Kind.Regular : Kind → Prop
  | .object shape => shape.Regular
  | .array element => element.Regular
  | .record value => value.Regular
  | .union tag variants => RegularVariants tag variants
  | _ => True

/-- A regular shape. -/
def Shape.Regular : Shape → Prop
  | ⟨required, optional, _⟩ =>
    Entries.Distinct (required ++ optional) ∧ RegularProperties required ∧
      RegularProperties optional

/-- The properties are regular. -/
def RegularProperties : List (String × Node) → Prop
  | [] => True
  | (_, node) :: rest => node.Regular ∧ RegularProperties rest

/-- The variants are regular and leave the tag to the union. -/
def RegularVariants (tag : String) : List (String × Shape) → Prop
  | [] => True
  | (_, shape) :: rest =>
    (tag ∉ Entries.keys shape.properties ∧ shape.Regular) ∧ RegularVariants tag rest

end

/-- **A regular program**: the root and the models are regular. -/
structure Regular (program : Program) : Prop where
  root : program.root.Regular
  models : ∀ node ∈ program.models, node.Regular

theorem regularProperties_iff {properties : List (String × Node)} :
    RegularProperties properties ↔ ∀ property ∈ properties, property.2.Regular := by
  induction properties with
  | nil => simp [RegularProperties]
  | cons property rest ih => rw [RegularProperties, ih, List.forall_mem_cons]

theorem Shape.regular_iff {shape : Shape} :
    shape.Regular ↔ Entries.Distinct shape.properties ∧
      ∀ property ∈ shape.properties, property.2.Regular := by
  obtain ⟨required, optional, strict⟩ := shape
  rw [Shape.Regular, regularProperties_iff, regularProperties_iff, Shape.properties_mk,
    List.forall_mem_append]

theorem regularVariants_iff {tag : String} {variants : List (String × Shape)} :
    RegularVariants tag variants ↔ ∀ variant ∈ variants,
      tag ∉ Entries.keys variant.2.properties ∧ variant.2.Regular := by
  induction variants with
  | nil => simp [RegularVariants]
  | cons variant rest ih => rw [RegularVariants, ih, List.forall_mem_cons]

/-! ## Lowering -/

variable {models : Models} {place : Path} {found found' : List String}

/-- The variants that pass the check are objects without the tag. -/
theorem exists_object_of_checkVariants {tag : String} :
    ∀ {variants : List (String × Schema)}, checkVariants place tag variants = .ok () →
      ∀ child ∈ variants, ∃ required optional strict,
        child.2.form = .object required optional strict ∧
          tag ∉ Entries.keys (required ++ optional) := by
  intro variants h child hchild
  have hvariant := checkVariants_eq_ok_iff.mp h child hchild
  obtain ⟨name, form, nullable, metadata⟩ := child
  cases form with
  | object required optional strict =>
    have hdeclares : ¬ Schema.declares required optional tag = true :=
      Bool.eq_false_iff.mp hvariant
    refine ⟨required, optional, strict, rfl, ?_⟩
    simpa [Schema.declares, Entries.keys] using hdeclares
  | _ => cases hvariant

/-- The variants of a union are objects. -/
theorem form_of_checkVariants {tag : String} {variants : List (String × Schema)}
    (h : checkVariants place tag variants = .ok ()) : ∀ child ∈ variants,
    ∃ required optional strict, child.2.form = .object required optional strict := by
  intro child hchild
  obtain ⟨required, optional, strict, hform, -⟩ := exists_object_of_checkVariants h child hchild
  exact ⟨required, optional, strict, hform⟩

/-- The shape of an object has its keys. -/
theorem keys_of_lowerObject {required optional : List (String × Schema)} {strict : Bool}
    {shape : Shape}
    (h : lowerForm models place (.object required optional strict) found =
      .ok (.object shape, found')) :
    Entries.keys shape.properties = Entries.keys (required ++ optional) := by
  obtain ⟨required', between, optional', hrequired, hoptional, hshape⟩ :=
    lowerObject_eq_ok_iff.mp h
  obtain rfl := Kind.object.inj hshape
  have hkeys := congrArg₂ (· ++ ·) (keys_of_lowerChildren hrequired)
    (keys_of_lowerChildren hoptional)
  simpa [Entries.keys, Shape.properties] using hkeys

/-- **A schema that lists keys once** is lowered to a regular node. -/
theorem regular_of_lower {schema : Schema} : ∀ {place : Path} {found found' : List String}
    {node : Node}, lower models place schema found = .ok (node, found') → schema.ListsKeysOnce →
      node.Regular := by
  induction schema using Schema.induct with
  | scalar kind nullable metadata =>
    intro place found found' node h _
    obtain ⟨kind', hkind, rfl⟩ := lower_eq_ok_iff.mp h
    obtain ⟨rfl, -⟩ := (lowerLeaf_eq_ok_iff rfl).mp hkind
    trivial
  | enumeration values nullable metadata =>
    intro place found found' node h _
    obtain ⟨kind', hkind, rfl⟩ := lower_eq_ok_iff.mp h
    obtain ⟨rfl, -⟩ := (lowerLeaf_eq_ok_iff rfl).mp hkind
    trivial
  | object required optional strict nullable metadata ihRequired ihOptional =>
    intro place found found' node h honce
    obtain ⟨kind', hkind, rfl⟩ := lower_eq_ok_iff.mp h
    obtain ⟨required', between, optional', hrequired, hoptional, rfl⟩ :=
      lowerObject_eq_ok_iff.mp hkind
    obtain ⟨hdistinct, honceRequired, honceOptional⟩ := honce
    rw [Schema.childrenListKeysOnce_iff] at honceRequired honceOptional
    refine Shape.regular_iff.mpr ⟨?_, ?_⟩
    · rw [Entries.Distinct, keys_of_lowerObject hkind]
      exact hdistinct
    · rw [Shape.properties_mk, List.forall_mem_append]
      constructor
      · intro property hproperty
        obtain ⟨child, hchild, place', before, after, hlower⟩ :=
          exists_of_mem_lowerChildren hrequired property hproperty
        exact ihRequired child hchild hlower (honceRequired child hchild)
      · intro property hproperty
        obtain ⟨child, hchild, place', before, after, hlower⟩ :=
          exists_of_mem_lowerChildren hoptional property hproperty
        exact ihOptional child hchild hlower (honceOptional child hchild)
  | array element nullable metadata ih =>
    intro place found found' node h honce
    obtain ⟨kind', hkind, rfl⟩ := lower_eq_ok_iff.mp h
    obtain ⟨inner, hinner, rfl⟩ := lowerArray_eq_ok_iff.mp hkind
    have hregular : inner.Regular := ih hinner honce
    exact hregular
  | record value nullable metadata ih =>
    intro place found found' node h honce
    obtain ⟨kind', hkind, rfl⟩ := lower_eq_ok_iff.mp h
    obtain ⟨inner, hinner, rfl⟩ := lowerRecord_eq_ok_iff.mp hkind
    have hregular : inner.Regular := ih hinner honce
    exact hregular
  | union tag variants nullable metadata ih =>
    intro place found found' node h honce
    obtain ⟨kind', hkind, rfl⟩ := lower_eq_ok_iff.mp h
    obtain ⟨hcheck, shapes, hshapes, rfl⟩ := lowerUnion_eq_ok_iff.mp hkind
    refine regularVariants_iff.mpr fun variant hvariant => ?_
    obtain ⟨child, hchild, place', before, after, hlower⟩ :=
      exists_of_mem_lowerVariants hshapes variant hvariant
    obtain ⟨required, optional, strict, hform, htag⟩ :=
      exists_object_of_checkVariants hcheck child hchild
    constructor
    · rw [hform] at hlower
      rw [keys_of_lowerObject hlower]
      exact htag
    · obtain ⟨name, form', nullable', metadata'⟩ := child
      have hnode : lower models place' ⟨form', nullable', metadata'⟩ before =
          .ok (⟨.object variant.2, nullable'⟩, after) :=
        lower_eq_ok_iff.mpr ⟨_, hlower, rfl⟩
      have hregular : (⟨.object variant.2, nullable'⟩ : Node).Regular :=
        ih _ hchild hnode (Schema.childrenListKeysOnce_iff.mp honce _ hchild)
      exact hregular
  | ref target nullable metadata =>
    intro place found found' node h _
    obtain ⟨kind', hkind, rfl⟩ := lower_eq_ok_iff.mp h
    obtain ⟨index, -, rfl⟩ := lowerRef_eq_ok_iff.mp hkind
    trivial

theorem regular_of_lowerModels (hmodels : ∀ pair ∈ models, pair.2.ListsKeysOnce) {steps : Nat} :
    ∀ {done nodes : List Node} {found : List String}, (∀ node ∈ done, node.Regular) →
      lowerModels models steps done found = .ok (nodes, found') → ∀ node ∈ nodes, node.Regular := by
  induction steps with
  | zero =>
    intro done nodes found hdone h
    obtain ⟨rfl, -⟩ := Discovery.pure_eq_ok_iff.mp h
    exact hdone
  | succ steps ih =>
    intro done nodes found hdone h
    rcases lowerModels_succ_iff.mp h with ⟨-, rfl, -⟩ | ⟨name, schema, node, between, -, hlookup,
      hlower, h⟩
    · exact hdone
    · have hnode := regular_of_lower hlower (hmodels _ (Entries.mem_of_lookup hlookup))
      refine ih ?_ h
      intro other hother
      rcases List.mem_append.mp hother with hother | hother
      · exact hdone other hother
      · rw [List.mem_singleton.mp hother]
        exact hnode

/-- **Schemas that list keys once** are compiled into regular programs. -/
theorem regular_of_compile {schema : Schema} {program : Program}
    (h : compile schema models = .ok program) (hschema : schema.ListsKeysOnce)
    (hmodels : ∀ pair ∈ models, pair.2.ListsKeysOnce) : program.Regular := by
  obtain ⟨found, hroot, hrest⟩ := compile_eq_ok_iff.mp h
  exact ⟨regular_of_lower hroot hschema, regular_of_lowerModels hmodels (by simp) hrest⟩

end Program

end RpcSchema
