import RpcSchema.Proofs.Program.Image
import RpcSchema.Proofs.Program.Places

set_option autoImplicit false

/-!
# Sections without repetitions

The properties of an object stand in two maps, so that neither section lists a key twice, although
the two may share keys. Lowering keeps the keys of both sections, and thus compiled programs list no
key twice in a section either.

## Main definitions

* `RpcSchema.Schema.SectionsListOnce` — no section of an object in a schema lists a key twice.

## Main results

* `RpcSchema.Program.listsOnce_of_compile` — programs compiled from such schemas are the same.
-/

namespace RpcSchema

/-! ## Schemas -/

namespace Schema

mutual

/-- **No section of an object in a schema lists a key twice.** -/
def SectionsListOnce : Schema → Prop
  | ⟨form, _, _⟩ => FormSectionsListOnce form

/-- No section of an object in a form lists a key twice. -/
def FormSectionsListOnce : Form → Prop
  | .object required optional _ =>
    Entries.Distinct required ∧ Entries.Distinct optional ∧
      ChildrenSectionsListOnce required ∧ ChildrenSectionsListOnce optional
  | .array element => element.SectionsListOnce
  | .record value => value.SectionsListOnce
  | .union _ variants => ChildrenSectionsListOnce variants
  | _ => True

/-- No section of an object in the schemas of a map lists a key twice. -/
def ChildrenSectionsListOnce : List (String × Schema) → Prop
  | [] => True
  | (_, schema) :: rest => schema.SectionsListOnce ∧ ChildrenSectionsListOnce rest

end

theorem childrenSectionsListOnce_iff {children : List (String × Schema)} :
    ChildrenSectionsListOnce children ↔ ∀ child ∈ children, child.2.SectionsListOnce := by
  induction children with
  | nil => simp [ChildrenSectionsListOnce]
  | cons child rest ih => rw [ChildrenSectionsListOnce, ih, List.forall_mem_cons]

end Schema

namespace Program

/-! ## Images -/

section

variable {number : String → Nat}

/-- Images of properties have their keys. -/
theorem keys_propertiesOf (children : List (String × Schema)) :
    Entries.keys (propertiesOf number children) = Entries.keys children := by
  induction children with
  | nil => rfl
  | cons child rest ih => exact congrArg (child.1 :: ·) ih

theorem propertiesListOnce_propertiesOf {children : List (String × Schema)}
    (h : ∀ child ∈ children, (nodeOf number child.2).ListsOnce) :
    PropertiesListOnce (propertiesOf number children) := by
  induction children with
  | nil => trivial
  | cons child rest ih =>
    obtain ⟨hfirst, hrest⟩ := List.forall_mem_cons.mp h
    exact ⟨hfirst, ih hrest⟩

theorem variantsListOnce_shapesOf {variants : List (String × Schema)}
    (h : ∀ variant ∈ variants, (nodeOf number variant.2).ListsOnce) :
    VariantsListOnce (shapesOf number variants) := by
  induction variants with
  | nil => trivial
  | cons variant rest ih =>
    obtain ⟨name, form, nullable, metadata⟩ := variant
    obtain ⟨hfirst, hrest⟩ := List.forall_mem_cons.mp h
    rw [shapesOf]
    dsimp only [nodeOf, Node.ListsOnce] at hfirst
    generalize kindOf number form = kind at hfirst
    cases kind with
    | object shape => exact ⟨hfirst, ih hrest⟩
    | _ => exact ih hrest

/-- The image of a schema lists keys once if the schema does. -/
theorem listsOnce_nodeOf (schema : Schema) :
    schema.SectionsListOnce → (nodeOf number schema).ListsOnce := by
  induction schema using Schema.induct with
  | scalar | enumeration | ref => exact fun _ => trivial
  | object required optional strict nullable metadata ihRequired ihOptional =>
    rintro ⟨hrequired, hoptional, hinRequired, hinOptional⟩
    rw [Schema.childrenSectionsListOnce_iff] at hinRequired hinOptional
    rw [Entries.Distinct, ← @keys_propertiesOf number] at hrequired hoptional
    exact ⟨hrequired, hoptional,
      propertiesListOnce_propertiesOf fun child hchild =>
        ihRequired child hchild (hinRequired child hchild),
      propertiesListOnce_propertiesOf fun child hchild =>
        ihOptional child hchild (hinOptional child hchild)⟩
  | array element nullable metadata ih => exact ih
  | record value nullable metadata ih => exact ih
  | union tag variants nullable metadata ih =>
    intro h
    have hvariants := Schema.childrenSectionsListOnce_iff.mp h
    exact variantsListOnce_shapesOf fun variant hvariant =>
      ih variant hvariant (hvariants variant hvariant)

end

/-- **Programs list keys once** when they are compiled from schemas that do. -/
theorem listsOnce_of_compile {models : Models} {schema : Schema} {program : Program}
    (h : compile schema models = .ok program) (hschema : schema.SectionsListOnce)
    (hmodels : ∀ pair ∈ models, pair.2.SectionsListOnce) : program.ListsOnce := by
  obtain ⟨hlowered, -⟩ := lowered_of_compile h
  constructor
  · rw [root_of_compile h]
    exact listsOnce_nodeOf schema hschema
  · intro node hnode
    obtain ⟨index, hindex⟩ := List.mem_iff_getElem?.mp hnode
    obtain ⟨name, model, place, before, after, -, hmodel, hlower, hafter⟩ :=
      hlowered.node index node hindex
    rw [nodeOf_of_lower (numbering_idxOf hlowered.nodup) hlower hafter]
    exact listsOnce_nodeOf model (hmodels _ (Entries.mem_of_lookup hmodel))

end Program

end RpcSchema
