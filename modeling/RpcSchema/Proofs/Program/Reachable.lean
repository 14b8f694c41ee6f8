import RpcSchema.Proofs.Entries
import RpcSchema.Validator.Lowering

set_option autoImplicit false

/-!
# Which models a schema can reach

References lead from name to name: to the names that a schema refers to, and from the name of a
model to those that the model refers to. The search for models finds exactly those whose names are
reached, however they refer to each other.

## Main definitions

* `RpcSchema.Program.Reaches` — references lead to a name.
* `RpcSchema.Program.Complete` — all names that are reached have models.

## Main results

* `RpcSchema.Program.reaches_cons_of_lookup_eq_some` — where the name of a model leads.
* `RpcSchema.Program.mem_reachableFrom_iff` — the search finds exactly the models that are reached.
-/

namespace RpcSchema.Program

/-- **References lead to a name** from some names, by way of the models. -/
inductive Reaches (models : Models) (starts : List String) : String → Prop
  | start {name : String} : name ∈ starts → Reaches models starts name
  | next {name target : String} {schema : Schema} : Reaches models starts name →
    models.lookup name = some schema → target ∈ schema.targets → Reaches models starts target

variable {models : Models} {starts : List String} {name : String}

/-- What is reached is reached from more names as well. -/
theorem Reaches.mono {others : List String} (h : ∀ name ∈ starts, name ∈ others)
    (hname : Reaches models starts name) : Reaches models others name := by
  induction hname with
  | start hmem => exact .start (h _ hmem)
  | next _ hlookup htarget ih => exact .next ih hlookup htarget

theorem not_reaches_nil : ¬ Reaches models [] name := by
  intro hname
  induction hname with
  | start hmem => cases hmem
  | next _ _ _ ih => exact ih

/-- A name without a model leads nowhere. -/
theorem reaches_cons_of_lookup_eq_none {first : String} (h : models.lookup first = none) :
    Reaches models (first :: starts) name ↔ name = first ∨ Reaches models starts name := by
  constructor
  · intro hname
    induction hname with
    | start hmem => exact (List.mem_cons.mp hmem).imp id .start
    | @next from' target schema _ hlookup htarget ih =>
      rcases ih with rfl | hfrom
      · rw [h] at hlookup
        cases hlookup
      · exact .inr (.next hfrom hlookup htarget)
  · rintro (rfl | hname)
    · exact .start List.mem_cons_self
    · exact hname.mono fun _ => List.mem_cons_of_mem first

/-- A look-up without one of the models. -/
theorem lookup_without (models : Models) (removed name : String) :
    (without models removed).lookup name = if name = removed then none else models.lookup name := by
  induction models with
  | nil => simp [without]
  | cons pair rest ih =>
    obtain ⟨key, schema⟩ := pair
    rw [without] at ih ⊢
    by_cases hkey : key = removed
    · subst hkey
      rw [List.filter_cons_of_neg (by simp), ih, Entries.lookup_cons_ite]
      by_cases hname : name = key
      · rw [if_pos hname, if_pos hname]
      · rw [if_neg hname, if_neg hname, if_neg hname]
    · rw [List.filter_cons_of_pos (by simpa using hkey), Entries.lookup_cons_ite, ih,
        Entries.lookup_cons_ite]
      by_cases hname : name = key
      · rw [if_pos hname, if_pos hname, if_neg (hname ▸ hkey)]
      · rw [if_neg hname, if_neg hname]

/-- **A name with a model** leads to what the model refers to; the model itself can then be left
out. -/
theorem reaches_cons_of_lookup_eq_some {first : String} {schema : Schema}
    (h : models.lookup first = some schema) :
    Reaches models (first :: starts) name ↔
      name = first ∨ Reaches (without models first) (starts ++ schema.targets) name := by
  constructor
  · intro hname
    induction hname with
    | start hmem =>
      exact (List.mem_cons.mp hmem).imp id fun hmem => .start (List.mem_append_left _ hmem)
    | @next from' target schema' _ hlookup htarget ih =>
      have hfirst : from' = first →
          Reaches (without models first) (starts ++ schema.targets) target := by
        rintro rfl
        obtain rfl : schema = schema' := Option.some.inj (h.symm.trans hlookup)
        exact .start (List.mem_append_right _ htarget)
      by_cases heq : from' = first
      · exact .inr (hfirst heq)
      · have hfrom := ih.resolve_left heq
        refine .inr (.next hfrom ?_ htarget)
        rw [lookup_without, if_neg heq, hlookup]
  · rintro (rfl | hname)
    · exact .start List.mem_cons_self
    · induction hname with
      | start hmem =>
        rcases List.mem_append.mp hmem with hmem | hmem
        · exact .start (List.mem_cons_of_mem first hmem)
        · exact .next (.start List.mem_cons_self) h hmem
      | @next from' target schema' _ hlookup htarget ih =>
        rw [lookup_without] at hlookup
        split at hlookup
        · cases hlookup
        · exact .next ih hlookup htarget

theorem reachableFrom_of_lookup_eq_none {first : String} (h : models.lookup first = none)
    (queue : List String) : reachableFrom models (first :: queue) = reachableFrom models queue := by
  rw [reachableFrom]
  split
  · rfl
  · simp_all

theorem reachableFrom_of_lookup_eq_some {first : String} {schema : Schema}
    (h : models.lookup first = some schema) (queue : List String) :
    reachableFrom models (first :: queue) =
      (first, schema) :: reachableFrom (without models first) (queue ++ schema.targets) := by
  rw [reachableFrom]
  split
  · simp_all
  · rename_i found hfound
    obtain rfl : schema = found := Option.some.inj (h.symm.trans hfound)
    rfl

/-- **The search for models** finds exactly the models that are reached, with their schemas.

**Proof sketch.** Induction along the search. A name without a model is dropped from the queue and
leads nowhere; a model that is found is left out from then on, and what it refers to is queued. -/
theorem mem_reachableFrom_iff {queue : List String} {schema : Schema} :
    (name, schema) ∈ reachableFrom models queue ↔
      Reaches models queue name ∧ models.lookup name = some schema := by
  induction models, queue using reachableFrom.induct with
  | case1 models =>
    constructor
    · intro h
      rw [reachableFrom] at h
      cases h
    · rintro ⟨hname, -⟩
      exact absurd hname not_reaches_nil
  | case2 models first queue hfirst ih =>
    rw [reachableFrom_of_lookup_eq_none hfirst, ih, reaches_cons_of_lookup_eq_none hfirst]
    constructor
    · rintro ⟨hname, hlookup⟩
      exact ⟨.inr hname, hlookup⟩
    · rintro ⟨rfl | hname, hlookup⟩
      · rw [hfirst] at hlookup
        cases hlookup
      · exact ⟨hname, hlookup⟩
  | case3 models first queue found hfirst ih =>
    rw [reachableFrom_of_lookup_eq_some hfirst, List.mem_cons, ih,
      reaches_cons_of_lookup_eq_some hfirst, lookup_without, Prod.mk.injEq]
    constructor
    · rintro (⟨rfl, rfl⟩ | ⟨hname, hlookup⟩)
      · exact ⟨.inl rfl, hfirst⟩
      · split at hlookup
        · cases hlookup
        · exact ⟨.inr hname, hlookup⟩
    · rintro ⟨hname, hlookup⟩
      by_cases heq : name = first
      · subst heq
        exact .inl ⟨rfl, Option.some.inj (hlookup.symm.trans hfirst)⟩
      · rw [if_neg heq]
        exact .inr ⟨hname.resolve_left heq, hlookup⟩

/-! ## Searches that find all models -/

/-- **All names that are reached have models**, but for those that are known to be without one. -/
def Complete (models : Models) (starts known : List String) : Prop :=
  ∀ name, Reaches models starts name → (models.lookup name = none ↔ name ∈ known)

variable {first : String} {queue known : List String}

theorem complete_cons_of_lookup_eq_none (h : models.lookup first = none) (hmem : first ∈ known) :
    Complete models (first :: queue) known ↔ Complete models queue known := by
  constructor
  · intro hcomplete name hname
    exact hcomplete name ((reaches_cons_of_lookup_eq_none h).mpr (.inr hname))
  · intro hcomplete name hname
    rcases (reaches_cons_of_lookup_eq_none h).mp hname with rfl | hname
    · exact iff_of_true h hmem
    · exact hcomplete name hname

theorem complete_cons_of_lookup_eq_some {schema : Schema} (h : models.lookup first = some schema)
    (hnew : first ∉ known) :
    Complete models (first :: queue) known ↔
      Complete (without models first) (queue ++ schema.targets) (first :: known) := by
  constructor
  · intro hcomplete name hname
    rw [lookup_without, List.mem_cons]
    by_cases heq : name = first
    · rw [if_pos heq]
      exact iff_of_true rfl (.inl heq)
    · rw [if_neg heq, or_iff_right heq]
      exact hcomplete name ((reaches_cons_of_lookup_eq_some h).mpr (.inr hname))
  · intro hcomplete name hname
    by_cases heq : name = first
    · subst heq
      exact iff_of_false (by simp [h]) hnew
    · have hrest := hcomplete name
        (((reaches_cons_of_lookup_eq_some h).mp hname).resolve_left heq)
      rwa [lookup_without, if_neg heq, List.mem_cons, or_iff_right heq] at hrest

end RpcSchema.Program
