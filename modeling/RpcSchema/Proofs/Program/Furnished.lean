import RpcSchema.Proofs.Program.Positions
import RpcSchema.Proofs.Program.Regular

set_option autoImplicit false

/-!
# Programs whose defaults belong to them

What lenient reading puts in the place of a document is not always a value of the node: of an
enumeration without values there is none, `null` may come from a model that allows it to a reference
that does not, and of a key that an object lists twice only one property may be missing. In a
*furnished* program this does not happen. Schemas that are read list values in every enumeration, so
that they are compiled into furnished programs unless they allow `null` in a model or list a key
twice.

## Main definitions

* `RpcSchema.Program.Node.Lists` — an enumeration inside a node has these values.
* `RpcSchema.Program.Furnished` — a furnished program.

## Main results

* `RpcSchema.Program.furnished_of_compile` — the schemas that give furnished programs.
-/

namespace RpcSchema.Program

/-! ## Enumerations inside a node -/

/-- **A node lists values** when an enumeration inside it has them. -/
inductive Node.Lists (values : List String) : Node → Prop
  | enumeration (nullable : Bool) : Node.Lists values ⟨.enumeration values, nullable⟩
  | property {shape : Shape} {nullable : Bool} {property : String × Node} :
    property ∈ shape.properties → Node.Lists values property.2 →
    Node.Lists values ⟨.object shape, nullable⟩
  | element {element : Node} {nullable : Bool} : Node.Lists values element →
    Node.Lists values ⟨.array element, nullable⟩
  | value {value : Node} {nullable : Bool} : Node.Lists values value →
    Node.Lists values ⟨.record value, nullable⟩
  | variant {tag : String} {variants : List (String × Shape)} {nullable : Bool}
    {variant : String × Shape} {property : String × Node} :
    variant ∈ variants → property ∈ variant.2.properties → Node.Lists values property.2 →
    Node.Lists values ⟨.union tag variants, nullable⟩

variable {models : Models}

/-- **A well-formed schema** is lowered to a node in which every enumeration has values. -/
theorem ne_nil_of_lists_of_lower {values : List String} {schema : Schema} :
    ∀ {place : Path} {found found' : List String} {node : Node},
      lower models place schema found = .ok (node, found') → schema.WellFormed →
        node.Lists values → values ≠ [] := by
  induction schema using Schema.induct with
  | scalar kind nullable metadata =>
    intro place found found' node h _ hlists
    obtain ⟨kind', hkind, rfl⟩ := lower_eq_ok_iff.mp h
    obtain ⟨rfl, -⟩ := (lowerLeaf_eq_ok_iff rfl).mp hkind
    cases hlists
  | enumeration values' nullable metadata =>
    intro place found found' node h hformed hlists
    obtain ⟨kind', hkind, rfl⟩ := lower_eq_ok_iff.mp h
    obtain ⟨rfl, -⟩ := (lowerLeaf_eq_ok_iff rfl).mp hkind
    cases hlists
    exact hformed.1
  | object required optional strict nullable metadata ihRequired ihOptional =>
    intro place found found' node h hformed hlists
    obtain ⟨kind', hkind, rfl⟩ := lower_eq_ok_iff.mp h
    obtain ⟨required', between, optional', hrequired, hoptional, rfl⟩ :=
      lowerObject_eq_ok_iff.mp hkind
    obtain ⟨hformedRequired, hformedOptional⟩ := hformed
    rw [Schema.wellFormedChildren_iff] at hformedRequired hformedOptional
    cases hlists with
    | @property _ _ property hproperty hlists =>
    rcases List.mem_append.mp hproperty with hproperty | hproperty
    · obtain ⟨child, hchild, place', before, after, hlower⟩ :=
        exists_of_mem_lowerChildren hrequired property hproperty
      exact ihRequired child hchild hlower (hformedRequired child hchild) hlists
    · obtain ⟨child, hchild, place', before, after, hlower⟩ :=
        exists_of_mem_lowerChildren hoptional property hproperty
      exact ihOptional child hchild hlower (hformedOptional child hchild) hlists
  | array element nullable metadata ih =>
    intro place found found' node h hformed hlists
    obtain ⟨kind', hkind, rfl⟩ := lower_eq_ok_iff.mp h
    obtain ⟨inner, hinner, rfl⟩ := lowerArray_eq_ok_iff.mp hkind
    cases hlists with
    | element hlists => exact ih hinner hformed hlists
  | record value nullable metadata ih =>
    intro place found found' node h hformed hlists
    obtain ⟨kind', hkind, rfl⟩ := lower_eq_ok_iff.mp h
    obtain ⟨inner, hinner, rfl⟩ := lowerRecord_eq_ok_iff.mp hkind
    cases hlists with
    | value hlists => exact ih hinner hformed hlists
  | union tag variants nullable metadata ih =>
    intro place found found' node h hformed hlists
    obtain ⟨kind', hkind, rfl⟩ := lower_eq_ok_iff.mp h
    obtain ⟨-, shapes, hshapes, rfl⟩ := lowerUnion_eq_ok_iff.mp hkind
    cases hlists with
    | @variant _ _ _ variant property hvariant hproperty hlists =>
    obtain ⟨⟨name, form', nullable', metadata'⟩, hchild, place', before, after, hlower⟩ :=
      exists_of_mem_lowerVariants hshapes variant hvariant
    have hnode : lower models place' ⟨form', nullable', metadata'⟩ before =
        .ok (⟨.object variant.2, nullable'⟩, after) :=
      lower_eq_ok_iff.mpr ⟨_, hlower, rfl⟩
    exact ih _ hchild hnode (Schema.wellFormedChildren_iff.mp hformed.1 _ hchild)
      (.property hproperty hlists)
  | ref target nullable metadata =>
    intro place found found' node h _ hlists
    obtain ⟨kind', hkind, rfl⟩ := lower_eq_ok_iff.mp h
    obtain ⟨index, -, rfl⟩ := lowerRef_eq_ok_iff.mp hkind
    cases hlists

/-! ## Furnished programs -/

/-- **A furnished node** is regular, and every enumeration inside it has values. -/
structure Node.Furnished (node : Node) : Prop where
  regular : node.Regular
  listed : ∀ values, node.Lists values → values ≠ []

/-- **A furnished program**: the root and the models are furnished, and no model may be `null`. -/
structure Furnished (program : Program) : Prop where
  root : program.root.Furnished
  models : ∀ model ∈ program.models, model.Furnished
  proper : ∀ model ∈ program.models, model.nullable = false

namespace Node.Furnished

variable {nullable : Bool}

theorem values_ne_nil {values : List String}
    (h : (⟨.enumeration values, nullable⟩ : Node).Furnished) : values ≠ [] :=
  h.listed values (.enumeration nullable)

theorem distinct {shape : Shape} (h : (⟨.object shape, nullable⟩ : Node).Furnished) :
    Entries.Distinct shape.properties :=
  (Shape.regular_iff.mp h.regular).1

theorem property {shape : Shape} (h : (⟨.object shape, nullable⟩ : Node).Furnished)
    {property : String × Node} (hproperty : property ∈ shape.properties) :
    property.2.Furnished where
  regular := (Shape.regular_iff.mp h.regular).2 property hproperty
  listed values hvalues := h.listed values (.property hproperty hvalues)

theorem element {element : Node} (h : (⟨.array element, nullable⟩ : Node).Furnished) :
    element.Furnished where
  regular := h.regular
  listed values hvalues := h.listed values (.element hvalues)

theorem value {value : Node} (h : (⟨.record value, nullable⟩ : Node).Furnished) :
    value.Furnished where
  regular := h.regular
  listed values hvalues := h.listed values (.value hvalues)

/-- A variant of a furnished union is like a furnished object. -/
theorem variant {tag : String} {variants : List (String × Shape)}
    (h : (⟨.union tag variants, nullable⟩ : Node).Furnished) {variant : String × Shape}
    (hvariant : variant ∈ variants) : (⟨.object variant.2, false⟩ : Node).Furnished where
  regular := (regularVariants_iff.mp h.regular variant hvariant).2
  listed values hvalues := by
    cases hvalues with
    | property hproperty hvalues => exact h.listed values (.variant hvariant hproperty hvalues)

end Node.Furnished

theorem nullable_of_lower {schema : Schema} {place : Path} {found found' : List String}
    {node : Node} (h : lower models place schema found = .ok (node, found')) :
    node.nullable = schema.nullable := by
  obtain ⟨form, nullable, metadata⟩ := schema
  obtain ⟨kind, -, rfl⟩ := lower_eq_ok_iff.mp h
  rfl

/-- **Well-formed schemas that list keys once** are compiled into furnished programs when no model
may be `null`. -/
theorem furnished_of_compile {schema : Schema} {program : Program}
    (h : compile schema models = .ok program) (hschema : schema.WellFormed)
    (hmodels : ∀ pair ∈ models, pair.2.WellFormed) (honce : schema.ListsKeysOnce)
    (honces : ∀ pair ∈ models, pair.2.ListsKeysOnce)
    (hproper : ∀ pair ∈ models, pair.2.nullable = false) : program.Furnished := by
  have hregular := regular_of_compile h honce honces
  obtain ⟨hlowered, -⟩ := lowered_of_compile h
  have hnode {model : Node} (hmodel : model ∈ program.models) : ∃ pair ∈ models,
      ∃ place before after, lower models place pair.2 before = .ok (model, after) := by
    obtain ⟨index, hindex⟩ := List.mem_iff_getElem?.mp hmodel
    obtain ⟨name, source, place, before, after, -, hlookup, hlower, -⟩ :=
      hlowered.node index model hindex
    exact ⟨(name, source), Entries.mem_of_lookup hlookup, place, before, after, hlower⟩
  constructor
  · obtain ⟨after, hroot, -⟩ := hlowered.start
    exact ⟨hregular.root, fun values => ne_nil_of_lists_of_lower hroot hschema⟩
  · intro model hmodel
    obtain ⟨pair, hpair, place, before, after, hlower⟩ := hnode hmodel
    exact ⟨hregular.models model hmodel,
      fun values => ne_nil_of_lists_of_lower hlower (hmodels pair hpair)⟩
  · intro model hmodel
    obtain ⟨pair, hpair, place, before, after, hlower⟩ := hnode hmodel
    rw [nullable_of_lower hlower]
    exact hproper pair hpair

end RpcSchema.Program
