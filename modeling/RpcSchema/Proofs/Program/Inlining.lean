import RpcSchema.Proofs.Program.Compiling
import RpcSchema.Proofs.Program.Congruence
import RpcSchema.Proofs.Program.Image
import RpcSchema.Proofs.Program.Termination

set_option autoImplicit false

/-!
# References are transparent

A reference may be replaced by the model that it refers to, with the reference's own word on `null`,
if the model does not allow `null` itself. The models are then found in another order, so that the
two programs number them differently, and models may drop out; but what they give is the same.

The proof follows names. At every name that both programs have, their walks give the same after any
number of steps, as the two models are images of one schema; so they give the same for good, and the
schemas differ only where a walk cannot tell.

## Main definitions

* `RpcSchema.Schema.Inlines` — one reference in a schema is replaced by its model.

## Main results

* `RpcSchema.Program.exists_compile_of_inlines` — the schema still compiles.
* `RpcSchema.Program.same_of_inlines` — a walk gives the same along both.
* `RpcSchema.Validator.exists_agree_of_inlines` — so do decoding, converting, asking and encoding.
-/

namespace RpcSchema

/-! ## Inlining -/

/-- **One reference in a schema is replaced** by the model that it refers to, which does not allow
`null` itself; whether `null` is allowed is left as it was at the reference. -/
inductive Schema.Inlines (models : Models) : Schema → Schema → Prop
  | here {target : String} {form : Form} {metadata' : Metadata} (nullable : Bool)
    (metadata : Metadata) : models.lookup target = some ⟨form, false, metadata'⟩ →
    Inlines models ⟨.ref target, nullable, metadata⟩ ⟨form, nullable, metadata'⟩
  | required {before after optional : List (String × Schema)} {key : String}
    {child child' : Schema} (strict nullable : Bool) (metadata : Metadata) :
    Inlines models child child' →
    Inlines models ⟨.object (before ++ (key, child) :: after) optional strict, nullable, metadata⟩
      ⟨.object (before ++ (key, child') :: after) optional strict, nullable, metadata⟩
  | optional {before after required : List (String × Schema)} {key : String}
    {child child' : Schema} (strict nullable : Bool) (metadata : Metadata) :
    Inlines models child child' →
    Inlines models ⟨.object required (before ++ (key, child) :: after) strict, nullable, metadata⟩
      ⟨.object required (before ++ (key, child') :: after) strict, nullable, metadata⟩
  | element {element element' : Schema} (nullable : Bool) (metadata : Metadata) :
    Inlines models element element' →
    Inlines models ⟨.array element, nullable, metadata⟩ ⟨.array element', nullable, metadata⟩
  | value {value value' : Schema} (nullable : Bool) (metadata : Metadata) :
    Inlines models value value' →
    Inlines models ⟨.record value, nullable, metadata⟩ ⟨.record value', nullable, metadata⟩
  | variant {before after : List (String × Schema)} {name : String} {child child' : Schema}
    (tag : String) (nullable : Bool) (metadata : Metadata) :
    Inlines models child child' →
    Inlines models ⟨.union tag (before ++ (name, child) :: after), nullable, metadata⟩
      ⟨.union tag (before ++ (name, child') :: after), nullable, metadata⟩

/-- What a schema refers to hangs on its form. -/
theorem Schema.targets_eq_of_form (form : Form) (nullable nullable' : Bool)
    (metadata metadata' : Metadata) :
    targets ⟨form, nullable, metadata⟩ = targets ⟨form, nullable', metadata'⟩ := by
  cases form with
  | scalar | enumeration | ref => rfl
  | object required optional strict => rw [targets_object, targets_object]
  | array element => rw [targets_array, targets_array]
  | record value => rw [targets_record, targets_record]
  | union tag variants => rw [targets_union, targets_union]

/-- Whether a schema can be lowered hangs on its form. -/
theorem Schema.Lowerable.of_form {models : Models} {form : Form} {nullable : Bool}
    {metadata : Metadata} (h : Lowerable models ⟨form, nullable, metadata⟩) (nullable' : Bool)
    (metadata' : Metadata) : Lowerable models ⟨form, nullable', metadata'⟩ := by
  cases h <;> constructor <;> assumption

/-- A variant is no reference. -/
theorem Schema.IsVariant.target?_eq_none {tag : String} {schema : Schema}
    (h : IsVariant tag schema) : schema.target? = none := by
  obtain ⟨form, nullable, metadata⟩ := schema
  cases form with
  | object required optional strict => rfl
  | _ => exact h.elim

/-- What holds of all children still holds of all when one of them is replaced by one of which it
holds too. -/
theorem Schema.forall_mem_replaced {holds : String × Schema → Prop}
    {before after : List (String × Schema)} {key : String} {child child' : Schema}
    (hchild : holds (key, child) → holds (key, child'))
    (h : ∀ other ∈ before ++ (key, child) :: after, holds other) :
    ∀ other ∈ before ++ (key, child') :: after, holds other := by
  rw [List.forall_mem_append, List.forall_mem_cons] at h ⊢
  exact ⟨h.1, hchild h.2.1, h.2.2⟩

namespace Schema.Inlines

variable {models : Models} {schema schema' : Schema}

/-- A variant stays one, for its keys stay. -/
theorem isVariant (h : schema.Inlines models schema') {tag : String}
    (hvariant : IsVariant tag schema) : IsVariant tag schema' := by
  cases h with
  | here | element | value | variant => exact hvariant.elim
  | required | optional => simpa [IsVariant, declares, Entries.contains] using hvariant

/-- **The schema can still be lowered** if the models that it refers to can. -/
theorem lowerable (h : schema.Inlines models schema') :
    (∀ target ∈ schema.targets, ∀ model, models.lookup target = some model →
      model.Lowerable models) → schema.Lowerable models → schema'.Lowerable models := by
  induction h with
  | here nullable metadata hmodel =>
    intro hmodels _
    rw [targets_ref, List.forall_mem_singleton] at hmodels
    exact (hmodels _ hmodel).of_form _ _
  | required strict nullable metadata _ ih =>
    intro hmodels hschema
    cases hschema with | object _ _ _ hrequired hoptional =>
    rw [targets_object, List.forall_mem_append, List.forall_mem_flatMap] at hmodels
    have hchild := hmodels.1 _ List.mem_append_cons_self
    exact .object strict nullable metadata (forall_mem_replaced (ih hchild) hrequired) hoptional
  | optional strict nullable metadata _ ih =>
    intro hmodels hschema
    cases hschema with | object _ _ _ hrequired hoptional =>
    rw [targets_object, List.forall_mem_append, List.forall_mem_flatMap,
      List.forall_mem_flatMap] at hmodels
    have hchild := hmodels.2 _ List.mem_append_cons_self
    exact .object strict nullable metadata hrequired (forall_mem_replaced (ih hchild) hoptional)
  | element nullable metadata _ ih =>
    intro hmodels hschema
    cases hschema with | array _ _ helement =>
    rw [targets_array] at hmodels
    exact .array nullable metadata (ih hmodels helement)
  | value nullable metadata _ ih =>
    intro hmodels hschema
    cases hschema with | record _ _ hvalue =>
    rw [targets_record] at hmodels
    exact .record nullable metadata (ih hmodels hvalue)
  | variant tag nullable metadata hinlines ih =>
    intro hmodels hschema
    cases hschema with | union _ _ hcheck hvariants =>
    rw [targets_union, List.forall_mem_flatMap] at hmodels
    have hchild := hmodels _ List.mem_append_cons_self
    exact .union nullable metadata (forall_mem_replaced hinlines.isVariant hcheck)
      (forall_mem_replaced (ih hchild) hvariants)

/-- **No further names are reached** from the schema than before. -/
theorem reaches (h : schema.Inlines models schema') {starts : List String} :
    (∀ target ∈ schema.targets, Program.Reaches models starts target) →
      ∀ target ∈ schema'.targets, Program.Reaches models starts target := by
  induction h with
  | @here target form metadata' nullable metadata hmodel =>
    intro hstarts other hother
    rw [targets_ref, List.forall_mem_singleton] at hstarts
    rw [targets_eq_of_form form nullable false metadata' metadata'] at hother
    exact .next hstarts hmodel hother
  | required strict nullable metadata _ ih =>
    intro hstarts
    rw [targets_object, List.forall_mem_append, List.forall_mem_flatMap] at hstarts ⊢
    exact ⟨forall_mem_replaced ih hstarts.1, hstarts.2⟩
  | optional strict nullable metadata _ ih =>
    intro hstarts
    rw [targets_object, List.forall_mem_append, List.forall_mem_flatMap,
      List.forall_mem_flatMap] at hstarts ⊢
    exact ⟨hstarts.1, forall_mem_replaced ih hstarts.2⟩
  | element nullable metadata _ ih =>
    intro hstarts
    rw [targets_array] at hstarts ⊢
    exact ih hstarts
  | value nullable metadata _ ih =>
    intro hstarts
    rw [targets_record] at hstarts ⊢
    exact ih hstarts
  | variant tag nullable metadata _ ih =>
    intro hstarts
    rw [targets_union, List.forall_mem_flatMap] at hstarts ⊢
    exact forall_mem_replaced ih hstarts

end Schema.Inlines

namespace Program

variable {models : Models}

/-- What is reached from names that are reached is reached. -/
theorem Reaches.trans {starts starts' : List String}
    (h : ∀ name ∈ starts', Reaches models starts name) {name : String}
    (hname : Reaches models starts' name) : Reaches models starts name := by
  induction hname with
  | start hmem => exact h _ hmem
  | next _ hmodel htarget ih => exact .next ih hmodel htarget

/-- **With a reference replaced the schema still compiles.** -/
theorem exists_compile_of_inlines {schema schema' : Schema} {program : Program}
    (h : compile schema models = .ok program) (hinlines : schema.Inlines models schema') :
    ∃ program', compile schema' models = .ok program' := by
  obtain ⟨hschema, hreached⟩ := exists_compile_iff.mp ⟨program, h⟩
  refine exists_compile_iff.mpr ⟨hinlines.lowerable ?_ hschema, fun name hname => ?_⟩
  · intro target htarget model hmodel
    obtain ⟨_, hmodel', hlowerable⟩ := hreached target (.start htarget)
    obtain rfl := Option.some.inj (hmodel.symm.trans hmodel')
    exact hlowerable
  · exact hreached name (hname.trans (hinlines.reaches fun _ => .start))

/-! ## Images that are alike -/

section

variable {X R : Type} {walk : (Nat → X → R) → Node → X → R} {follow follow' : Nat → X → R}
  {number number' : String → Nat}

/-- Properties with corresponding schemas have corresponding images. -/
theorem aligned_propertiesOf {children children' : List (String × Schema)}
    (h : Aligned (fun schema schema' =>
      SameAlong walk follow follow' (nodeOf number schema) (nodeOf number' schema'))
      children children') :
    Aligned (SameAlong walk follow follow') (propertiesOf number children)
      (propertiesOf number' children') := by
  induction h with
  | nil => exact .nil
  | cons hfirst _ ih => exact .cons hfirst ih

/-- Variants with alike images have alike shapes; where they are no objects, both have none. -/
theorem aligned_shapesOf {variants variants' : List (String × Schema)}
    (h : Aligned (fun schema schema' =>
      AlikeAlong walk follow follow' (nodeOf number schema) (nodeOf number' schema'))
      variants variants') :
    Aligned (Shape.Alike (SameAlong walk follow follow')) (shapesOf number variants)
      (shapesOf number' variants') := by
  induction h using Aligned.induct with
  | nil => exact .nil
  | @cons name schema schema' rest rest' halike _ ih =>
    obtain ⟨form, nullable, metadata⟩ := schema
    obtain ⟨form', nullable', metadata'⟩ := schema'
    rw [shapesOf, shapesOf]
    dsimp only [nodeOf] at halike
    generalize kindOf number form = kind at halike ⊢
    generalize kindOf number' form' = kind' at halike ⊢
    cases halike with
    | object _ hshape => exact .cons ⟨rfl, hshape⟩ ih
    | _ => exact ih

/-- **The two images of a schema are alike**, if following gives the same for every name that the
schema refers to. -/
theorem alikeAlong_nodeOf (hwalk : Compositional walk) (schema : Schema) :
    (∀ target ∈ schema.targets, follow (number target) = follow' (number' target)) →
      AlikeAlong walk follow follow' (nodeOf number schema) (nodeOf number' schema) := by
  induction schema using Schema.induct with
  | scalar kind nullable metadata => exact fun _ => .scalar kind nullable
  | enumeration values nullable metadata => exact fun _ => .enumeration values nullable
  | object required optional strict nullable metadata ihRequired ihOptional =>
    intro h
    rw [Schema.targets_object, List.forall_mem_append, List.forall_mem_flatMap,
      List.forall_mem_flatMap] at h
    refine .object nullable ⟨aligned_propertiesOf ?_, aligned_propertiesOf ?_, rfl⟩
    · exact List.forall₂_same.mpr fun child hchild =>
        ⟨rfl, hwalk.alike (ihRequired child hchild (h.1 child hchild))⟩
    · exact List.forall₂_same.mpr fun child hchild =>
        ⟨rfl, hwalk.alike (ihOptional child hchild (h.2 child hchild))⟩
  | array element nullable metadata ih =>
    intro h
    rw [Schema.targets_array] at h
    exact .array nullable (hwalk.alike (ih h))
  | record value nullable metadata ih =>
    intro h
    rw [Schema.targets_record] at h
    exact .record nullable (hwalk.alike (ih h))
  | union tag variants nullable metadata ih =>
    intro h
    rw [Schema.targets_union, List.forall_mem_flatMap] at h
    refine .union tag nullable (aligned_shapesOf (List.forall₂_same.mpr fun variant hvariant => ?_))
    exact ⟨rfl, ih variant hvariant (h variant hvariant)⟩
  | ref target nullable metadata =>
    intro h
    rw [Schema.targets_ref, List.forall_mem_singleton] at h
    exact .ref nullable h

end

/-! ## In step -/

section

variable {X R : Type} {size : X → Nat} {walk : (Nat → X → Walk R) → Node → X → Walk R}
  {program program' : Program} {run run' : Nat → Nat → X → Walk R} {schema schema' : Schema}
  (hwalk : Compositional walk) (hrun : IsWalk program size walk run)
  (hrun' : IsWalk program' size walk run') (hcompile : compile schema models = .ok program)
  (hcompile' : compile schema' models = .ok program')

include hwalk hrun hrun' hcompile hcompile'

/-- **Both programs keep in step** at every name that both have.

**Proof sketch.** Induction on the steps. The two models are images of the same schema, and all that
it refers to is again reached in both. -/
theorem run_position_eq (steps : Nat) : ∀ {name : String}, Reaches models schema.targets name →
    Reaches models schema'.targets name →
    run steps (program.position name) = run' steps (program'.position name) := by
  induction steps with
  | zero =>
    intro name _ _
    funext x
    rw [hrun.run_zero, hrun'.run_zero]
  | succ steps ih =>
    intro name hname hname'
    obtain ⟨model, hmodel⟩ := Entries.exists_lookup_iff.mpr (mem_keys_of_compile hcompile hname)
    have halike := alikeAlong_nodeOf hwalk model fun target htarget =>
      ih (.next hname hmodel htarget) (.next hname' hmodel htarget)
    funext x
    rw [hrun.run_succ, hrun'.run_succ, model_of_compile hcompile hname hmodel,
      model_of_compile hcompile' hname' hmodel]
    exact congrFun (hwalk.alike halike) x

/-- Following a name for good gives the same in both programs. -/
theorem settled_position_eq {name : String} (hname : Reaches models schema.targets name)
    (hname' : Reaches models schema'.targets name) :
    settled program size run (program.position name) =
      settled program' size run' (program'.position name) := by
  funext x
  have hsteps := run_position_eq hwalk hrun hrun' hcompile hcompile'
    (max (program.budget (size x)) (program'.budget (size x))) hname hname'
  rw [settled, settled, ← hrun.run_of_budget_le (Nat.le_max_left _ _),
    ← hrun'.run_of_budget_le (Nat.le_max_right _ _), hsteps]

end

/-! ## Inlining changes nothing -/

/-- Children correspond to themselves when one of them is replaced by what it corresponds to. -/
theorem aligned_replaced {same : Schema → Schema → Prop} {before after : List (String × Schema)}
    {key : String} {child child' : Schema} (hbefore : ∀ other ∈ before, same other.2 other.2)
    (hchild : same child child') (hafter : ∀ other ∈ after, same other.2 other.2) :
    Aligned same (before ++ (key, child) :: after) (before ++ (key, child') :: after) := by
  have hself : ∀ {others : List (String × Schema)}, (∀ other ∈ others, same other.2 other.2) →
      Aligned same others others :=
    fun hothers => List.forall₂_same.mpr fun other hother => ⟨rfl, hothers other hother⟩
  exact List.rel_append (hself hbefore) (.cons ⟨rfl, hchild⟩ (hself hafter))

section

variable {X R : Type} {walk : (Nat → X → R) → Node → X → R} {follow follow' : Nat → X → R}
  {number number' : String → Nat} {starts starts' : List String}
  (hwalk : Compositional walk)
  (hmodel : ∀ {name : String} {model : Schema}, Reaches models starts name →
    models.lookup name = some model → follow (number name) = walk follow (nodeOf number model))
  (hboth : ∀ {name : String}, Reaches models starts name → Reaches models starts' name →
    follow (number name) = follow' (number' name))

include hwalk hmodel hboth

/-- **The images before and after a replacement** give the same, and they are alike unless the
schema is the reference that is replaced.

**Proof sketch.** Induction on the place of the reference. At the reference itself the first law of
inlining leads to the image of its model, and that is alike to the other image; further up, all
children but one are the same schemas, which refer to names that both programs have. -/
theorem same_nodeOf_of_inlines {schema schema' : Schema} (h : schema.Inlines models schema') :
    schema.Lowerable models →
    (∀ target ∈ schema.targets, Reaches models starts target) →
    (∀ target ∈ schema'.targets, Reaches models starts' target) →
    SameAlong walk follow follow' (nodeOf number schema) (nodeOf number' schema') ∧
      (schema.target? = none →
        AlikeAlong walk follow follow' (nodeOf number schema) (nodeOf number' schema')) := by
  have hkept : ∀ {schema : Schema}, (∀ target ∈ schema.targets, Reaches models starts target) →
      (∀ target ∈ schema.targets, Reaches models starts' target) →
      AlikeAlong walk follow follow' (nodeOf number schema) (nodeOf number' schema) :=
    fun {schema} hstarts hstarts' => alikeAlong_nodeOf hwalk schema fun target htarget =>
      hboth (hstarts target htarget) (hstarts' target htarget)
  have hwhole : ∀ {node node' : Node} {ref : Prop}, AlikeAlong walk follow follow' node node' →
      SameAlong walk follow follow' node node' ∧
        (ref → AlikeAlong walk follow follow' node node') :=
    fun halike => ⟨hwalk.alike halike, fun _ => halike⟩
  induction h with
  | @here target form metadata' nullable metadata hlookup =>
    intro _ hstarts hstarts'
    rw [Schema.targets_ref, List.forall_mem_singleton] at hstarts
    refine ⟨?_, nofun⟩
    have hreaches : ∀ other ∈ Schema.targets ⟨form, nullable, metadata'⟩,
        Reaches models starts other := by
      intro other hother
      rw [Schema.targets_eq_of_form form nullable false metadata' metadata'] at hother
      exact .next hstarts hlookup hother
    calc walk follow ⟨.ref (number target), nullable⟩
        = walk follow ⟨kindOf number form, nullable⟩ :=
          hwalk.inline (hmodel hstarts hlookup) nullable
      _ = walk follow' ⟨kindOf number' form, nullable⟩ := hwalk.alike (hkept hreaches hstarts')
  | required strict nullable metadata _ ih =>
    intro hlowerable hstarts hstarts'
    cases hlowerable with | object _ _ _ hrequired hoptional =>
    rw [Schema.targets_object, List.forall_mem_append, List.forall_mem_flatMap,
      List.forall_mem_flatMap, List.forall_mem_append, List.forall_mem_cons] at hstarts hstarts'
    rw [List.forall_mem_append, List.forall_mem_cons] at hrequired
    obtain ⟨⟨hbefore, hchild, hafter⟩, hothers⟩ := hstarts
    obtain ⟨⟨hbefore', hchild', hafter'⟩, hothers'⟩ := hstarts'
    refine hwhole (.object nullable ⟨aligned_propertiesOf (aligned_replaced ?_ ?_ ?_),
      aligned_propertiesOf (List.forall₂_same.mpr fun other hother => ⟨rfl, ?_⟩), rfl⟩)
    · exact fun other hother => hwalk.alike (hkept (hbefore other hother) (hbefore' other hother))
    · exact (ih hrequired.2.1 hchild hchild').1
    · exact fun other hother => hwalk.alike (hkept (hafter other hother) (hafter' other hother))
    · exact hwalk.alike (hkept (hothers other hother) (hothers' other hother))
  | optional strict nullable metadata _ ih =>
    intro hlowerable hstarts hstarts'
    cases hlowerable with | object _ _ _ hrequired hoptional =>
    rw [Schema.targets_object, List.forall_mem_append, List.forall_mem_flatMap,
      List.forall_mem_flatMap, List.forall_mem_append, List.forall_mem_cons] at hstarts hstarts'
    rw [List.forall_mem_append, List.forall_mem_cons] at hoptional
    obtain ⟨hothers, hbefore, hchild, hafter⟩ := hstarts
    obtain ⟨hothers', hbefore', hchild', hafter'⟩ := hstarts'
    refine hwhole (.object nullable
      ⟨aligned_propertiesOf (List.forall₂_same.mpr fun other hother => ⟨rfl, ?_⟩),
        aligned_propertiesOf (aligned_replaced ?_ ?_ ?_), rfl⟩)
    · exact hwalk.alike (hkept (hothers other hother) (hothers' other hother))
    · exact fun other hother => hwalk.alike (hkept (hbefore other hother) (hbefore' other hother))
    · exact (ih hoptional.2.1 hchild hchild').1
    · exact fun other hother => hwalk.alike (hkept (hafter other hother) (hafter' other hother))
  | element nullable metadata _ ih =>
    intro hlowerable hstarts hstarts'
    cases hlowerable with | array _ _ helement =>
    rw [Schema.targets_array] at hstarts hstarts'
    exact hwhole (.array nullable (ih helement hstarts hstarts').1)
  | value nullable metadata _ ih =>
    intro hlowerable hstarts hstarts'
    cases hlowerable with | record _ _ hvalue =>
    rw [Schema.targets_record] at hstarts hstarts'
    exact hwhole (.record nullable (ih hvalue hstarts hstarts').1)
  | @variant before after name child child' tag nullable metadata _ ih =>
    intro hlowerable hstarts hstarts'
    cases hlowerable with | union _ _ hcheck hvariants =>
    rw [Schema.targets_union, List.forall_mem_flatMap, List.forall_mem_append,
      List.forall_mem_cons] at hstarts hstarts'
    rw [List.forall_mem_append, List.forall_mem_cons] at hcheck hvariants
    obtain ⟨hbefore, hchild, hafter⟩ := hstarts
    obtain ⟨hbefore', hchild', hafter'⟩ := hstarts'
    have halike := ih hvariants.2.1 hchild hchild'
    refine hwhole (.union tag nullable (aligned_shapesOf (aligned_replaced ?_ (halike.2 ?_) ?_)))
    · exact fun other hother => hkept (hbefore other hother) (hbefore' other hother)
    · exact hcheck.2.1.target?_eq_none
    · exact fun other hother => hkept (hafter other hother) (hafter' other hother)

end

/-- **A walk gives the same** along the program of a schema and along that of the schema with a
reference replaced. -/
theorem same_of_inlines {X R : Type} {size : X → Nat}
    {walk : (Nat → X → Walk R) → Node → X → Walk R} {program program' : Program}
    {run run' : Nat → Nat → X → Walk R} {schema schema' : Schema} (hwalk : Compositional walk)
    (hrun : IsWalk program size walk run) (hrun' : IsWalk program' size walk run')
    (hcompile : compile schema models = .ok program)
    (hcompile' : compile schema' models = .ok program') (h : schema.Inlines models schema') :
    SameAlong walk (settled program size run) (settled program' size run') program.root
      program'.root := by
  have hmodel : ∀ {name : String} {model : Schema}, Reaches models schema.targets name →
      models.lookup name = some model → settled program size run (program.position name) =
        walk (settled program size run) (nodeOf program.position model) := by
    intro name model hname hmodel
    funext x
    rw [hrun.settled_eq, model_of_compile hcompile hname hmodel]
  have hlowerable := (exists_compile_iff.mp ⟨program, hcompile⟩).1
  rw [root_of_compile hcompile, root_of_compile hcompile']
  exact (same_nodeOf_of_inlines hwalk hmodel
    (settled_position_eq hwalk hrun hrun' hcompile hcompile') h hlowerable
    (fun _ => .start) fun _ => .start).1

end Program

/-! ## Validators -/

namespace Validator

/-- **Two validators agree**: they decode and convert every document alike, with the same errors,
and give the same answer and the same document for every value. -/
structure Agree (validator validator' : Validator) : Prop where
  decode : ∀ input, validator.decode input = validator'.decode input
  coerce : ∀ input, validator.coerce input = validator'.coerce input
  validate : ∀ value, validator.validate value = validator'.validate value
  encode : ∀ value, validator.encode value = validator'.encode value

variable {schema schema' : Schema} {models : Models}

/-- **With a reference replaced a validator agrees** with what it was, even where it gives no
answer. -/
theorem agree_of_inlines {validator validator' : Validator}
    (hcompile : compile schema models = .ok validator)
    (hcompile' : compile schema' models = .ok validator') (h : schema.Inlines models schema') :
    validator.Agree validator' := by
  rw [compile_eq_ok_iff] at hcompile hcompile'
  have hdecode : ∀ reading input,
      validator.program.decode reading input = validator'.program.decode reading input := by
    intro reading input
    rw [Program.decode_eq, Program.decode_eq]
    exact congrFun (Program.same_of_inlines (Program.compositional_decode reading)
      (Program.isWalk_decode _ reading) (Program.isWalk_decode _ reading) hcompile hcompile' h)
      input
  refine ⟨fun input => ?_, fun input => ?_, fun value => ?_, fun value => ?_⟩
  · rw [decode, decode, hdecode]
  · rw [coerce, coerce, hdecode]
  · rw [validate, validate, Program.holds_eq, Program.holds_eq]
    exact congrFun (Program.same_of_inlines Program.compositional_holds
      (Program.isWalk_holds _) (Program.isWalk_holds _) hcompile hcompile' h) value
  · rw [encode, encode, Program.encode_eq, Program.encode_eq]
    exact congrFun (Program.same_of_inlines Program.compositional_encode
      (Program.isWalk_encode _) (Program.isWalk_encode _) hcompile hcompile' h) value

/-- **References are transparent.** Let a schema compile, and let no name that it reaches lead back
to itself through references only. If one reference in the schema, at any depth, is replaced by the
model that it refers to, which does not allow `null` itself, then the schema compiles again, and the
validator agrees with what it was on every document and every value; and there is an answer to each
of them. -/
theorem exists_agree_of_inlines {validator : Validator}
    (hcompile : compile schema models = .ok validator)
    (hends : ∀ name, Program.Reaches models schema.targets name →
      ¬ Program.RefChain models name name)
    (h : schema.Inlines models schema') :
    ∃ validator', compile schema' models = .ok validator' ∧ validator.Agree validator' ∧
      ∀ operation, validator.Answers operation := by
  have hprogram := compile_eq_ok_iff.mp hcompile
  obtain ⟨program', hprogram'⟩ := Program.exists_compile_of_inlines hprogram h
  have hcompile' : compile schema' models = .ok ⟨program'⟩ := compile_eq_ok_iff.mpr hprogram'
  refine ⟨⟨program'⟩, hcompile', agree_of_inlines hcompile hcompile' h, fun operation => ?_⟩
  refine (validator.answers_iff operation).mpr
    (endsWithin_stepBound (Program.closed_of_compile hprogram) (fun index hendless => ?_) operation)
  obtain ⟨name, hname, hchain⟩ := (Program.exists_endless_iff hprogram).mp ⟨index, hendless⟩
  exact hends name hname hchain

/-- The case of a list and a tree that refer to each other, where the model that was found first is
found last once the reference is replaced. -/
theorem exists_agree_of_inlines_reordered :
    let tree : Schema := .property .object "items" (.reference "List")
    let list : Schema := .array (.orNull (.reference "Tree"))
    let models : Models := [("List", list), ("Tree", tree)]
    let schema : Schema := .property .object "root" (.orNull (.reference "Tree"))
    let schema' : Schema := .property .object "root" (.orNull tree)
    let shape (index : Nat) (nullable : Bool) : Program.Node :=
      ⟨.object ⟨[("items", ⟨.ref index, false⟩)], [], true⟩, nullable⟩
    let validator : Validator :=
      ⟨⟨⟨.object ⟨[("root", ⟨.ref 0, true⟩)], [], true⟩, false⟩,
        [shape 1 false, ⟨.array ⟨.ref 0, true⟩, false⟩], ["Tree", "List"]⟩⟩
    let validator' : Validator :=
      ⟨⟨⟨.object ⟨[("root", shape 0 true)], [], true⟩, false⟩,
        [⟨.array ⟨.ref 1, true⟩, false⟩, shape 0 false], ["List", "Tree"]⟩⟩
    compile schema models = .ok validator ∧ schema.Inlines models schema' ∧
      (∀ name, Program.Reaches models schema.targets name →
        ¬ Program.RefChain models name name) ∧
      compile schema' models = .ok validator' ∧ validator.Agree validator' ∧
      ∀ operation, validator.Answers operation := by
  intro tree list models schema schema' shape validator validator'
  have hcompile : compile schema models = .ok validator := rfl
  have hcompile' : compile schema' models = .ok validator' := rfl
  have hinlines : schema.Inlines models schema' :=
    @Schema.Inlines.required models [] [] [] "root" _ _ _ _ _ (.here _ _ rfl)
  have hleaf : ∀ {name : String} {model : Schema}, models.lookup name = some model →
      model.target? = none := by
    intro name model hmodel
    have hpair := Entries.mem_of_lookup hmodel
    simp only [models, List.mem_cons, Prod.mk.injEq, List.not_mem_nil, or_false] at hpair
    obtain ⟨-, rfl⟩ | ⟨-, rfl⟩ := hpair <;> rfl
  have hends : ∀ name, Program.Reaches models schema.targets name →
      ¬ Program.RefChain models name name := by
    intro name _ hchain
    cases hchain with
    | one hmodel htarget | more hmodel htarget =>
      rw [hleaf hmodel] at htarget
      cases htarget
  obtain ⟨other, hother, hagree, hanswers⟩ := exists_agree_of_inlines hcompile hends hinlines
  obtain rfl : other = validator' := Except.ok.inj (hother.symm.trans hcompile')
  exact ⟨hcompile, hinlines, hends, hcompile', hagree, hanswers⟩

end Validator

end RpcSchema
