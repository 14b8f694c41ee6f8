import Mathlib.Data.List.Perm.Subperm
import RpcSchema.Proofs.Program.Lowering
import RpcSchema.Proofs.Program.Reachable
import RpcSchema.Proofs.Schema.Targets

set_option autoImplicit false

/-!
# Which models a program has

Lowering finds the models that a schema refers to, in their order, and goes on until all models that
are reached have been lowered. A program therefore depends on the models that are reached and on no
others, and there is none unless all of them are there.

## Main definitions

* `RpcSchema.Program.discover` — the names found so far, and those that a schema adds.

## Main results

* `RpcSchema.Program.discovers_of_lower` — lowering a schema finds the models it refers to.
* `RpcSchema.Program.compile_congr` — a program depends on the models that are reached only.
* `RpcSchema.Program.mem_keys_of_compile` — with a program, all names that are reached have models.
-/

namespace RpcSchema.Program

/-! ## Names that are found -/

/-- **The names found so far**, and those among the targets that are new, in their order. -/
def discover (found targets : List String) : List String :=
  targets.foldl (fun found target => if target ∈ found then found else found ++ [target]) found

theorem discover_append (found targets others : List String) :
    discover found (targets ++ others) = discover (discover found targets) others :=
  List.foldl_append

/-- What has been found stays in its place. -/
theorem exists_discover_eq_append (targets : List String) :
    ∀ found, ∃ added, discover found targets = found ++ added := by
  induction targets with
  | nil => exact fun found => ⟨[], (List.append_nil found).symm⟩
  | cons target rest ih =>
    intro found
    obtain ⟨added, hadded⟩ := ih (if target ∈ found then found else found ++ [target])
    rw [discover, List.foldl_cons, ← discover, hadded]
    split
    · exact ⟨added, rfl⟩
    · exact ⟨[target] ++ added, List.append_assoc _ _ _⟩

theorem mem_discover_iff {name : String} (targets : List String) :
    ∀ found, name ∈ discover found targets ↔ name ∈ found ∨ name ∈ targets := by
  induction targets with
  | nil => exact fun found => by simp [discover]
  | cons target rest ih =>
    intro found
    rw [discover, List.foldl_cons, ← discover, ih]
    split
    · rename_i hmem
      have htarget : name = target → name ∈ found := fun heq => heq ▸ hmem
      rw [List.mem_cons, ← or_assoc, or_iff_left_of_imp htarget]
    · rw [List.mem_append, List.mem_singleton, List.mem_cons, or_assoc]

theorem nodup_discover (targets : List String) :
    ∀ found, found.Nodup → (discover found targets).Nodup := by
  induction targets with
  | nil => exact fun found h => h
  | cons target rest ih =>
    intro found h
    rw [discover, List.foldl_cons, ← discover]
    apply ih
    split
    · exact h
    · rename_i hnew
      refine List.nodup_append.mpr ⟨h, List.pairwise_singleton _ target, ?_⟩
      rintro name hname other hother rfl
      exact hnew (List.mem_singleton.mp hother ▸ hname)

variable {models models' : Models} {found found' : List String}

/-- **What lowering does to the names found**: it adds some targets, and all names have models. -/
structure Discovers (models : Models) (targets found found' : List String) : Prop where
  eq_discover : found' = discover found targets
  mem_keys : (∀ name ∈ found, name ∈ Entries.keys models) →
    ∀ name ∈ found', name ∈ Entries.keys models

theorem Discovers.refl (models : Models) (found : List String) : Discovers models [] found found :=
  ⟨rfl, id⟩

theorem Discovers.trans {targets others between : List String}
    (h : Discovers models targets found between) (h' : Discovers models others between found') :
    Discovers models (targets ++ others) found found' := by
  refine ⟨?_, fun hfound => h'.mem_keys (h.mem_keys hfound)⟩
  rw [discover_append, ← h.eq_discover]
  exact h'.eq_discover

theorem discovers_of_indexOf {place : Path} {target : String} {index : Nat}
    (h : indexOf models place target found = .ok (index, found')) :
    Discovers models [target] found found' := by
  unfold indexOf at h
  cases hindex : found.idxOf? target with
  | some position =>
    rw [hindex] at h
    obtain ⟨-, rfl⟩ := Prod.mk.inj (Except.ok.inj h)
    have hmem : target ∈ found := by
      by_contra hnot
      rw [List.idxOf?_eq_none_iff.mpr hnot] at hindex
      cases hindex
    exact ⟨(if_pos hmem).symm, id⟩
  | none =>
    rw [hindex] at h
    have hnew : target ∉ found := List.idxOf?_eq_none_iff.mp hindex
    dsimp only at h
    split at h
    · rename_i hlisted
      obtain ⟨-, rfl⟩ := Prod.mk.inj (Except.ok.inj h)
      refine ⟨(if_neg hnew).symm, fun hfound => List.forall_mem_append.mpr ⟨hfound, ?_⟩⟩
      rw [List.forall_mem_singleton]
      exact Entries.contains_eq_true_iff.mp hlisted
    · cases h

section

variable {children : List (String × Schema)}
  (h : ∀ child ∈ children, ∀ {place : Path} {found found' : List String} {kind : Kind},
    lowerForm models place child.2.form found = .ok (kind, found') →
      Discovers models child.2.targets found found')

include h

theorem discovers_of_lowerChildren {place : Path} {nodes : List (String × Node)}
    (hlower : lowerChildren models place children found = .ok (nodes, found')) :
    Discovers models (children.flatMap fun child => child.2.targets) found found' := by
  induction children generalizing found nodes with
  | nil =>
    obtain ⟨-, rfl⟩ := lowerChildren_nil_iff.mp hlower
    exact .refl models found'
  | cons child rest ih =>
    obtain ⟨key, form, nullable, metadata⟩ := child
    obtain ⟨hfirst, hrest⟩ := List.forall_mem_cons.mp h
    obtain ⟨node, between, others, hnode, hothers, -⟩ := lowerChildren_cons_iff.mp hlower
    obtain ⟨kind, hkind, -⟩ := lower_eq_ok_iff.mp hnode
    exact (hfirst hkind).trans (ih hrest hothers)

theorem discovers_of_lowerVariants {place : Path} {shapes : List (String × Shape)}
    (hlower : lowerVariants models place children found = .ok (shapes, found')) :
    Discovers models (children.flatMap fun child => child.2.targets) found found' := by
  induction children generalizing found shapes with
  | nil =>
    obtain ⟨-, rfl⟩ := lowerVariants_nil_iff.mp hlower
    exact .refl models found'
  | cons child rest ih =>
    obtain ⟨hfirst, hrest⟩ := List.forall_mem_cons.mp h
    obtain ⟨kind, between, others, hkind, hothers, -⟩ := lowerVariants_cons_iff.mp hlower
    exact (hfirst hkind).trans (ih hrest hothers)

end

/-- Lowering a form finds the models that a schema of the form refers to. -/
theorem discovers_of_lowerForm (schema : Schema) : ∀ {place : Path} {found found' : List String}
    {kind : Kind}, lowerForm models place schema.form found = .ok (kind, found') →
      Discovers models schema.targets found found' := by
  induction schema using Schema.induct with
  | scalar kind nullable metadata =>
    intro place found found' kind' h
    obtain ⟨-, rfl⟩ := (lowerLeaf_eq_ok_iff rfl).mp h
    exact .refl models found'
  | enumeration values nullable metadata =>
    intro place found found' kind' h
    obtain ⟨-, rfl⟩ := (lowerLeaf_eq_ok_iff rfl).mp h
    exact .refl models found'
  | object required optional strict nullable metadata ihRequired ihOptional =>
    intro place found found' kind' h
    obtain ⟨required', between, optional', hrequired, hoptional, -⟩ :=
      lowerObject_eq_ok_iff.mp h
    rw [Schema.targets_object]
    exact (discovers_of_lowerChildren ihRequired hrequired).trans
      (discovers_of_lowerChildren ihOptional hoptional)
  | array element nullable metadata ih =>
    intro place found found' kind' h
    obtain ⟨form, nullable', metadata'⟩ := element
    obtain ⟨node, hnode, -⟩ := lowerArray_eq_ok_iff.mp h
    obtain ⟨inner, hinner, -⟩ := lower_eq_ok_iff.mp hnode
    rw [Schema.targets_array]
    exact ih hinner
  | record value nullable metadata ih =>
    intro place found found' kind' h
    obtain ⟨form, nullable', metadata'⟩ := value
    obtain ⟨node, hnode, -⟩ := lowerRecord_eq_ok_iff.mp h
    obtain ⟨inner, hinner, -⟩ := lower_eq_ok_iff.mp hnode
    rw [Schema.targets_record]
    exact ih hinner
  | union tag variants nullable metadata ih =>
    intro place found found' kind' h
    obtain ⟨-, shapes, hshapes, -⟩ := lowerUnion_eq_ok_iff.mp h
    rw [Schema.targets_union]
    exact discovers_of_lowerVariants ih hshapes
  | ref target nullable metadata =>
    intro place found found' kind' h
    obtain ⟨index, hindex, -⟩ := lowerRef_eq_ok_iff.mp h
    exact discovers_of_indexOf hindex

/-- **Lowering a schema** finds the models that it refers to. -/
theorem discovers_of_lower {schema : Schema} {place : Path} {node : Node}
    (h : lower models place schema found = .ok (node, found')) :
    Discovers models schema.targets found found' := by
  obtain ⟨form, nullable, metadata⟩ := schema
  obtain ⟨kind, hkind, -⟩ := lower_eq_ok_iff.mp h
  exact discovers_of_lowerForm ⟨form, nullable, metadata⟩ hkind

/-! ## The models that matter -/

/-- A reference is lowered by asking whether its model is there. -/
theorem indexOf_congr {target : String}
    (h : Entries.contains models target = Entries.contains models' target) (place : Path) :
    indexOf models place target = indexOf models' place target := by
  funext found
  rw [indexOf, indexOf, h]

section

variable {children : List (String × Schema)}
  (h : ∀ child ∈ children, ∀ place,
    lowerForm models place child.2.form = lowerForm models' place child.2.form)

include h

theorem lowerChildren_congr (place : Path) :
    lowerChildren models place children = lowerChildren models' place children := by
  induction children with
  | nil => rw [lowerChildren, lowerChildren]
  | cons child rest ih =>
    obtain ⟨key, form, nullable, metadata⟩ := child
    obtain ⟨hfirst, hrest⟩ := List.forall_mem_cons.mp h
    rw [lowerChildren, lowerChildren, lower, lower, hfirst, ih hrest]

theorem lowerVariants_congr (place : Path) :
    lowerVariants models place children = lowerVariants models' place children := by
  induction children with
  | nil => rw [lowerVariants, lowerVariants]
  | cons child rest ih =>
    obtain ⟨key, form, nullable, metadata⟩ := child
    obtain ⟨hfirst, hrest⟩ := List.forall_mem_cons.mp h
    rw [lowerVariants, lowerVariants, hfirst, ih hrest]

end

/-- Lowering a form asks for the models that a schema of the form refers to. -/
theorem lowerForm_congr (schema : Schema) :
    (∀ target ∈ schema.targets, Entries.contains models target = Entries.contains models' target) →
      ∀ place, lowerForm models place schema.form = lowerForm models' place schema.form := by
  induction schema using Schema.induct with
  | scalar kind nullable metadata =>
    intro _ place
    rw [lowerForm, lowerForm]
  | enumeration values nullable metadata =>
    intro _ place
    rw [lowerForm, lowerForm]
  | object required optional strict nullable metadata ihRequired ihOptional =>
    intro h place
    rw [Schema.targets_object, List.forall_mem_append] at h
    rw [lowerForm, lowerForm,
      lowerChildren_congr fun child hchild => ihRequired child hchild fun target htarget =>
        h.1 target (List.mem_flatMap.mpr ⟨child, hchild, htarget⟩),
      lowerChildren_congr fun child hchild => ihOptional child hchild fun target htarget =>
        h.2 target (List.mem_flatMap.mpr ⟨child, hchild, htarget⟩)]
  | array element nullable metadata ih =>
    intro h place
    rw [Schema.targets_array] at h
    obtain ⟨form, nullable', metadata'⟩ := element
    rw [lowerForm, lowerForm, lower, lower, ih h]
  | record value nullable metadata ih =>
    intro h place
    rw [Schema.targets_record] at h
    obtain ⟨form, nullable', metadata'⟩ := value
    rw [lowerForm, lowerForm, lower, lower, ih h]
  | union tag variants nullable metadata ih =>
    intro h place
    rw [Schema.targets_union] at h
    rw [lowerForm, lowerForm,
      lowerVariants_congr fun child hchild => ih child hchild fun target htarget =>
        h target (List.mem_flatMap.mpr ⟨child, hchild, htarget⟩)]
  | ref target nullable metadata =>
    intro h place
    rw [Schema.targets_ref, List.forall_mem_singleton] at h
    rw [lowerForm, lowerForm, indexOf_congr h]

/-- **Lowering a schema** asks for the models that it refers to. -/
theorem lower_congr {schema : Schema} (h : ∀ target ∈ schema.targets,
    Entries.contains models target = Entries.contains models' target) (place : Path) :
    lower models place schema = lower models' place schema := by
  obtain ⟨form, nullable, metadata⟩ := schema
  rw [lower, lower, lowerForm_congr ⟨form, nullable, metadata⟩ h]

/-! ## Lowering models -/

/-- No model is left when all that are found have been lowered. -/
theorem lowerModels_of_none {steps : Nat} {done : List Node} (h : found[done.length]? = none) :
    lowerModels models steps done found = .ok (done, found) := by
  cases steps with
  | zero => rfl
  | succ steps => exact lowerModels_succ_iff.mpr (.inl ⟨h, rfl, rfl⟩)

/-- A model that is left is lowered, if it is there. -/
theorem lowerModels_of_some {steps : Nat} {done : List Node} {name : String}
    (h : found[done.length]? = some name) :
    lowerModels models (steps + 1) done found =
      match models.lookup name with
      | none => .error ⟨[], .unresolvedReference name⟩
      | some schema => lower models [.key "models", .key name] schema found >>= fun result =>
          lowerModels models steps (done ++ [result.1]) result.2 := by
  have hget : ∀ next : List String → Discovery (List Node),
      ((get : Discovery (List String)) >>= next) found = next found found := fun _ => rfl
  rw [lowerModels, hget, h]
  dsimp only
  cases models.lookup name <;> rfl

/-- Each model is found once, so that there are not more names than models. -/
theorem length_le_of_nodup (hnodup : found.Nodup)
    (hkeys : ∀ name ∈ found, name ∈ Entries.keys models) : found.length ≤ models.length := by
  have hle := (hnodup.subperm hkeys).length_le
  rwa [Entries.keys, List.length_map] at hle

/-- What is reached has a model in both arenas, if it has one in either. -/
theorem contains_eq_of_lookup_eq {name : String} (h : models.lookup name = models'.lookup name) :
    Entries.contains models name = Entries.contains models' name := by
  rw [Bool.eq_iff_iff, Entries.contains_eq_true_iff, Entries.contains_eq_true_iff,
    ← Entries.exists_lookup_iff, ← Entries.exists_lookup_iff, h]

section

variable {starts : List String}
  (h : ∀ name, Reaches models starts name → models.lookup name = models'.lookup name)

include h

/-- **Lowering the models** that are found needs no others but those that are reached, and no more
steps than there are models.

**Proof sketch.** Induction on the steps. As the names that are found are distinct and have models
in both arenas, neither run is out of steps before all of them are lowered; the next model is the
same in both, and so are the names that it adds. -/
theorem lowerModels_congr : ∀ {steps steps' : Nat} {done : List Node} {found : List String},
    found.Nodup → (∀ name ∈ found, name ∈ Entries.keys models) →
      (∀ name ∈ found, Reaches models starts name) → models.length ≤ done.length + steps →
      models'.length ≤ done.length + steps' →
      lowerModels models steps done found = lowerModels models' steps' done found := by
  have hkeys' : ∀ {found : List String}, (∀ name ∈ found, name ∈ Entries.keys models) →
      (∀ name ∈ found, Reaches models starts name) →
      ∀ name ∈ found, name ∈ Entries.keys models' := by
    intro found hkeys hreaches name hname
    rw [← Entries.exists_lookup_iff, ← h name (hreaches name hname), Entries.exists_lookup_iff]
    exact hkeys name hname
  intro steps
  induction steps with
  | zero =>
    intro steps' done found hnodup hkeys _ hsteps _
    have hle := length_le_of_nodup hnodup hkeys
    have hnone : found[done.length]? = none := List.getElem?_eq_none (by omega)
    rw [lowerModels_of_none hnone, lowerModels_of_none hnone]
  | succ steps ih =>
    intro steps' done found hnodup hkeys hreaches hsteps hsteps'
    cases hname : found[done.length]? with
    | none => rw [lowerModels_of_none hname, lowerModels_of_none hname]
    | some name =>
      obtain ⟨hlt, -⟩ := List.getElem?_eq_some_iff.mp hname
      have hle' := length_le_of_nodup hnodup (hkeys' hkeys hreaches)
      obtain ⟨steps', rfl⟩ : ∃ fewer, steps' = fewer + 1 := ⟨steps' - 1, by omega⟩
      have hreached := hreaches name (List.mem_of_getElem? hname)
      rw [lowerModels_of_some hname, lowerModels_of_some hname, ← h name hreached]
      cases hschema : models.lookup name with
      | none => rfl
      | some schema =>
        have htargets : ∀ target ∈ schema.targets, Reaches models starts target :=
          fun target htarget => .next hreached hschema htarget
        have hlower := lower_congr
          (fun target htarget => contains_eq_of_lookup_eq (h target (htargets target htarget)))
          [.key "models", .key name]
        dsimp only
        rw [← hlower]
        cases hnode : lower models [.key "models", .key name] schema found with
        | error error => rfl
        | ok result =>
          obtain ⟨node, between⟩ := result
          have hfound := discovers_of_lower hnode
          refine ih ?_ (hfound.mem_keys hkeys) ?_ ?_ ?_
          · exact hfound.eq_discover ▸ nodup_discover _ _ hnodup
          · intro other hother
            rw [hfound.eq_discover, mem_discover_iff] at hother
            exact hother.elim (hreaches other) (htargets other)
          · rw [List.length_append, List.length_singleton]
            omega
          · rw [List.length_append, List.length_singleton]
            omega

end

/-- **A program depends on the models that are reached** and on no others; so does the error if
there is none. -/
theorem compile_congr {schema : Schema}
    (h : ∀ name, Reaches models schema.targets name → models.lookup name = models'.lookup name) :
    compile schema models = compile schema models' := by
  unfold compile
  rw [← lower_congr fun target htarget => contains_eq_of_lookup_eq (h target (.start htarget))]
  cases hroot : (lower models [] schema).run [] with
  | error error => rfl
  | ok result =>
    obtain ⟨root, found⟩ := result
    have hfound := discovers_of_lower hroot
    have hmodels : lowerModels models models.length [] found =
        lowerModels models' models'.length [] found := by
      refine lowerModels_congr h ?_ (hfound.mem_keys (by simp)) ?_ (by simp) (by simp)
      · exact hfound.eq_discover ▸ nodup_discover _ _ List.nodup_nil
      · intro name hname
        rw [hfound.eq_discover, mem_discover_iff] at hname
        exact .start (hname.resolve_left List.not_mem_nil)
    change ((lowerModels models models.length [] found) >>= _) =
      ((lowerModels models' models'.length [] found) >>= _)
    rw [hmodels]

/-! ## Programs are complete -/

/-- What the models of the first names refer to has been found. -/
def ClosedUpTo (models : Models) (count : Nat) (found : List String) : Prop :=
  ∀ i < count, ∀ name schema, found[i]? = some name → models.lookup name = some schema →
    ∀ target ∈ schema.targets, target ∈ found

/-- **All models that are found have been lowered** in the end, so that what they refer to has been
found as well. -/
theorem closed_of_lowerModels {nodes : List Node} {names : List String} :
    ∀ {steps : Nat} {done : List Node} {found : List String}, found.Nodup →
      (∀ name ∈ found, name ∈ Entries.keys models) → models.length ≤ done.length + steps →
      ClosedUpTo models done.length found →
      lowerModels models steps done found = .ok (nodes, names) →
      (∀ name ∈ found, name ∈ names) ∧ (∀ name ∈ names, name ∈ Entries.keys models) ∧
        ClosedUpTo models names.length names := by
  -- When none is left, what has been lowered is everything.
  have hend : ∀ {steps : Nat} {done : List Node} {found : List String},
      found.length ≤ done.length → ClosedUpTo models done.length found →
      lowerModels models steps done found = .ok (nodes, names) →
      names = found ∧ ClosedUpTo models names.length names := by
    intro steps done found hle hdone h
    rw [lowerModels_of_none (List.getElem?_eq_none hle)] at h
    obtain ⟨-, rfl⟩ := Prod.mk.inj (Except.ok.inj h)
    exact ⟨rfl, fun i hi => hdone i (by omega)⟩
  intro steps
  induction steps with
  | zero =>
    intro done found hnodup hkeys hsteps hdone h
    have hle := length_le_of_nodup hnodup hkeys
    obtain ⟨rfl, hclosed⟩ := hend (by omega) hdone h
    exact ⟨fun _ => id, hkeys, hclosed⟩
  | succ steps ih =>
    intro done found hnodup hkeys hsteps hdone h
    rcases lowerModels_succ_iff.mp h with ⟨hnone, -, -⟩ | ⟨name, schema, node, between, hname,
      hschema, hlower, hrest⟩
    · obtain ⟨rfl, hclosed⟩ := hend (List.getElem?_eq_none_iff.mp hnone) hdone h
      exact ⟨fun _ => id, hkeys, hclosed⟩
    · have hfound := discovers_of_lower hlower
      obtain ⟨added, hadded⟩ := exists_discover_eq_append schema.targets found
      have hbetween : between = found ++ added := hfound.eq_discover.trans hadded
      have hlt : done.length < found.length := (List.getElem?_eq_some_iff.mp hname).1
      have hmem : ∀ other, other ∈ found → other ∈ between := fun other hother =>
        hbetween ▸ List.mem_append_left added hother
      have hone : (done ++ [node]).length = done.length + 1 := by
        rw [List.length_append, List.length_singleton]
      have hdone' : ClosedUpTo models (done ++ [node]).length between := by
        intro i hi other schema' hother hschema' target htarget
        rw [hbetween, List.getElem?_append_left (by omega)] at hother
        rcases Nat.lt_succ_iff_lt_or_eq.mp (hone ▸ hi) with hi | rfl
        · exact hmem target (hdone i hi other schema' hother hschema' target htarget)
        · obtain rfl : name = other := Option.some.inj (hname.symm.trans hother)
          obtain rfl : schema = schema' := Option.some.inj (hschema.symm.trans hschema')
          rw [hfound.eq_discover, mem_discover_iff]
          exact .inr htarget
      obtain ⟨hsubset, hclosed⟩ := ih (hfound.eq_discover ▸ nodup_discover _ _ hnodup)
        (hfound.mem_keys hkeys) (by omega) hdone' hrest
      exact ⟨fun other hother => hsubset other (hmem other hother), hclosed⟩

/-- **With a program, all names that are reached have models.** -/
theorem mem_keys_of_compile {schema : Schema} {program : Program}
    (h : compile schema models = .ok program) {name : String}
    (hname : Reaches models schema.targets name) : name ∈ Entries.keys models := by
  obtain ⟨found, hroot, hmodels⟩ := compile_eq_ok_iff.mp h
  have hfound := discovers_of_lower hroot
  obtain ⟨hsubset, hkeys, hclosed⟩ := closed_of_lowerModels
    (hfound.eq_discover ▸ nodup_discover _ _ List.nodup_nil) (hfound.mem_keys (by simp))
    (by simp) (by simp [ClosedUpTo]) hmodels
  refine hkeys name ?_
  induction hname with
  | start hmem =>
    refine hsubset _ ?_
    rw [hfound.eq_discover, mem_discover_iff]
    exact .inr hmem
  | next _ hlookup htarget ih =>
    obtain ⟨i, hi⟩ := List.mem_iff_getElem?.mp ih
    exact hclosed i (List.getElem?_eq_some_iff.mp hi).1 _ _ hi hlookup _ htarget

end RpcSchema.Program
