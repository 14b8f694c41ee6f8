import RpcSchema.Proofs.Json.Quotes
import RpcSchema.Proofs.Program.Discovery
import RpcSchema.Proofs.Schema.Fingerprint
import RpcSchema.Validator.Cache

set_option autoImplicit false

/-!
# What the key of a schema tells

The key of a schema is one text: the fingerprint of the schema, and a row for each model that is
reached. Fingerprints delimit themselves, names do not: where one search finds no model under a name
and another does, the rest of the key can still be the same if one name goes on as the key would.
With models for all names the key tells everything that goes into a program.

## Main definitions

* `RpcSchema.ValidatorCache.row` — what the key says about a model.
* `RpcSchema.ValidatorCache.Spells` — a name goes on after another one as the key would.
* `RpcSchema.ValidatorCache.NamesClash` — a name without a model, and one that can be mistaken for
  it.

## Main results

* `RpcSchema.ValidatorCache.row_append_inj` — rows tell schemas of one name apart.
* `RpcSchema.ValidatorCache.spells_of_row_append_eq` — when rows of different names agree.
* `RpcSchema.ValidatorCache.compile_eq_or_namesClash` — equal keys are those of one program, or
  names clash.
-/

namespace RpcSchema.ValidatorCache

open Program (Complete Reaches reachableFrom without)

/-! ## Rows -/

/-- **What the key says about a model**: its name and its fingerprint, on a new line. -/
def row (entry : String × Schema) : List Char :=
  '\n' :: (entry.1.toList ++ '=' :: entry.2.fingerprint.toList)

theorem toList_foldl_row (entries : List (String × Schema)) : ∀ start : String,
    (entries.foldl (fun key (name, model) => key ++ "\n" ++ name ++ "=" ++ model.fingerprint)
      start).toList = start.toList ++ entries.flatMap row := by
  induction entries with
  | nil => exact fun start => (List.append_nil _).symm
  | cons entry rest ih =>
    intro start
    rw [List.foldl_cons, ih, List.flatMap_cons, ← List.append_assoc]
    simp [row]

/-- The characters of a key. -/
theorem toList_key (schema : Schema) (models : Models) :
    (key schema models).toList =
      schema.fingerprint.toList ++ (Program.reachable schema models).flatMap row :=
  toList_foldl_row _ _

/-- **Rows tell schemas of one name apart.** -/
theorem row_append_inj {name : String} {schema schema' : Schema} {rest rest' : List Char}
    (h : row (name, schema) ++ rest = row (name, schema') ++ rest') :
    schema = schema' ∧ rest = rest' := by
  rw [row, row, List.cons_append, List.cons_append, List.append_assoc, List.append_assoc] at h
  have hname := List.append_cancel_left (List.cons.inj h).2
  rw [List.cons_append, List.cons_append] at hname
  exact Schema.fingerprint_append_inj (List.cons.inj hname).2

/-- What follows a row: nothing, or a new line. -/
def Breaks (text : List Char) : Prop := ∀ c ∈ text.head?, c = '\n'

theorem breaks_flatMap_row (entries : List (String × Schema)) : Breaks (entries.flatMap row) := by
  cases entries with
  | nil => simp [Breaks]
  | cons entry rest => simp [Breaks, row]

/-- Two lines that end where a text breaks are the same. -/
theorem eq_of_append_eq_of_breaks {line line' rest rest' : List Char} (hline : '\n' ∉ line)
    (hline' : '\n' ∉ line') (hrest : Breaks rest) (hrest' : Breaks rest')
    (h : line ++ rest = line' ++ rest') : line = line' := by
  have hshort : ∀ {line rest rest' extra : List Char}, '\n' ∉ line ++ extra → Breaks rest →
      rest = extra ++ rest' → extra = [] := by
    intro line rest rest' extra hfree hbreaks heq
    cases extra with
    | nil => rfl
    | cons c extra =>
      obtain rfl : c = '\n' := hbreaks c (by rw [heq]; rfl)
      simp at hfree
  rcases List.append_eq_append_iff.mp h with ⟨extra, rfl, hextra⟩ | ⟨extra, rfl, hextra⟩
  · rw [hshort hline' hrest hextra, List.append_nil]
  · rw [hshort hline hrest' hextra, List.append_nil]

/-! ## Names that clash -/

/-- **A name goes on as the key would** after another name: with the fingerprint of a schema and a
new line. -/
def Spells (name other : String) : Prop :=
  ∃ (schema : Schema) (rest : List Char),
    name.toList = other.toList ++ '=' :: (schema.fingerprint.toList ++ '\n' :: rest)

/-- What one name has in addition to another, when their rows agree.

**Proof sketch.** The additional text begins with an equals sign. It goes on with the fingerprint
and a new line unless it ends within the fingerprint, behind which the rest of the fingerprint would
be an equals sign and another one: then they end together, as both are on one line, but no compact
text ends in an equals sign and another one. -/
theorem eq_nil_or_exists_of_row_tail_eq {schema schema' : Schema} {extra rest rest' : List Char}
    (hrest : Breaks rest) (hrest' : Breaks rest')
    (h : '=' :: (schema.fingerprint.toList ++ rest) =
      extra ++ '=' :: (schema'.fingerprint.toList ++ rest')) :
    extra = [] ∨ ∃ tail, extra = '=' :: (schema.fingerprint.toList ++ '\n' :: tail) := by
  have hequals : ¬ Breaks ('=' :: (schema'.fingerprint.toList ++ rest')) := fun hbreaks =>
    absurd (hbreaks '=' rfl) (by decide)
  cases extra with
  | nil => exact .inl rfl
  | cons c extra =>
    obtain ⟨rfl, hbehind⟩ := List.cons.inj h
    refine .inr ?_
    rcases List.append_eq_append_iff.mp hbehind with ⟨tail, rfl, htail⟩ | ⟨tail, hfront, htail⟩
    · cases tail with
      | nil =>
        rw [htail] at hrest
        exact absurd hrest hequals
      | cons d tail =>
        obtain rfl : d = '\n' := hrest d (by rw [htail]; rfl)
        exact ⟨tail, rfl⟩
    · cases tail with
      | nil =>
        rw [List.nil_append] at htail
        exact absurd (htail ▸ hrest) hequals
      | cons d tail =>
        obtain ⟨rfl, hend⟩ := List.cons.inj htail
        have hline := (Json.wellQuoted_compactChars _ schema.numberFree_toJson).line
        have hline' := (Json.wellQuoted_compactChars _ schema'.numberFree_toJson).line
        have hshort : '\n' ∉ tail := by
          intro hmem
          refine hline ?_
          change '\n' ∈ schema.fingerprint.toList
          rw [hfront]
          exact List.mem_append_right _ (List.mem_cons_of_mem _ hmem)
        have hsame := eq_of_append_eq_of_breaks hline' hshort hrest' hrest hend
        refine absurd ?_ (Json.compactChars_ne_append schema.numberFree_toJson
          schema'.numberFree_toJson extra)
        change schema.fingerprint.toList = _
        rw [hfront, hsame]

/-- **Rows of different names agree** only if one name goes on as the key would after the other. -/
theorem spells_of_row_append_eq {name name' : String} {schema schema' : Schema}
    {rest rest' : List Char} (hne : name ≠ name') (hrest : Breaks rest) (hrest' : Breaks rest')
    (h : row (name, schema) ++ rest = row (name', schema') ++ rest') :
    Spells name' name ∨ Spells name name' := by
  rw [row, row, List.cons_append, List.cons_append, List.append_assoc, List.append_assoc,
    List.cons_append, List.cons_append] at h
  rcases List.append_eq_append_iff.mp (List.cons.inj h).2 with ⟨extra, hname, htail⟩ |
    ⟨extra, hname, htail⟩
  · rcases eq_nil_or_exists_of_row_tail_eq hrest hrest' htail with rfl | ⟨tail, rfl⟩
    · rw [List.append_nil] at hname
      exact absurd (String.toList_inj.mp hname.symm) hne
    · exact .inl ⟨schema, tail, hname⟩
  · rcases eq_nil_or_exists_of_row_tail_eq hrest' hrest htail with rfl | ⟨tail, rfl⟩
    · rw [List.append_nil] at hname
      exact absurd (String.toList_inj.mp hname) hne
    · exact .inr ⟨schema', tail, hname⟩

/-- **Names clash** when one that is reached has no model, and either goes on as the key would after
another that is reached, or the other one after it. -/
def NamesClash (schema : Schema) (models : Models) : Prop :=
  ∃ missing listed, Reaches models schema.targets missing ∧ models.lookup missing = none ∧
    Reaches models schema.targets listed ∧ (Spells missing listed ∨ Spells listed missing)

/-- Names clash only if one of them has an equals sign and more than one line. -/
theorem not_namesClash {schema : Schema} {models : Models}
    (h : ∀ name, Reaches models schema.targets name → '=' ∉ name.toList ∨ '\n' ∉ name.toList) :
    ¬ NamesClash schema models := by
  have hspells : ∀ {name other : String}, Spells name other →
      '=' ∈ name.toList ∧ '\n' ∈ name.toList := by
    rintro name other ⟨spelt, rest, hname⟩
    rw [hname]
    simp
  rintro ⟨missing, listed, hmissing, -, hlisted, hclash | hclash⟩
  · have hboth := hspells hclash
    exact (h missing hmissing).elim (absurd hboth.1) (absurd hboth.2)
  · have hboth := hspells hclash
    exact (h listed hlisted).elim (absurd hboth.1) (absurd hboth.2)

/-! ## Two searches -/

/-- Names clash on the way of a search, at a name that is not known to be without a model. -/
def Clash (models : Models) (starts known : List String) : Prop :=
  ∃ missing listed, Reaches models starts missing ∧ models.lookup missing = none ∧
    missing ∉ known ∧ Reaches models starts listed ∧ (Spells missing listed ∨ Spells listed missing)

section

variable {models : Models} {first : String} {queue known : List String}

theorem clash_cons_of_lookup_eq_none (h : models.lookup first = none)
    (hclash : Clash models queue known) : Clash models (first :: queue) known := by
  obtain ⟨missing, listed, hmissing, hnone, hnew, hlisted, hspells⟩ := hclash
  have hreaches : ∀ {name}, Reaches models queue name → Reaches models (first :: queue) name :=
    fun hname => (Program.reaches_cons_of_lookup_eq_none h).mpr (.inr hname)
  exact ⟨missing, listed, hreaches hmissing, hnone, hnew, hreaches hlisted, hspells⟩

theorem clash_cons_of_lookup_eq_some {schema : Schema} (h : models.lookup first = some schema)
    (hclash : Clash (without models first) (queue ++ schema.targets) (first :: known)) :
    Clash models (first :: queue) known := by
  obtain ⟨missing, listed, hmissing, hnone, hnew, hlisted, hspells⟩ := hclash
  have hreaches : ∀ {name}, Reaches (without models first) (queue ++ schema.targets) name →
      Reaches models (first :: queue) name :=
    fun hname => (Program.reaches_cons_of_lookup_eq_some h).mpr (.inr hname)
  rw [List.mem_cons, not_or] at hnew
  rw [Program.lookup_without, if_neg hnew.1] at hnone
  exact ⟨missing, listed, hreaches hmissing, hnone, hnew.2, hreaches hlisted, hspells⟩

/-- A search that finds no model under the first name clashes with rows that begin with the name. -/
theorem clash_of_rows_eq {schema : Schema} {entries : List (String × Schema)}
    (h : models.lookup first = none) (hnew : first ∉ known)
    (hrows : (reachableFrom models queue).flatMap row =
      row (first, schema) ++ entries.flatMap row) : Clash models (first :: queue) known := by
  cases hfound : reachableFrom models queue with
  | nil =>
    rw [hfound] at hrows
    cases hrows
  | cons entry rest =>
    obtain ⟨listed, schema'⟩ := entry
    have hlisted := Program.mem_reachableFrom_iff.mp (hfound ▸ List.mem_cons_self)
    have hne : listed ≠ first := by
      rintro rfl
      rw [h] at hlisted
      cases hlisted.2
    rw [hfound, List.flatMap_cons] at hrows
    refine ⟨first, listed, .start List.mem_cons_self, h, hnew, ?_, ?_⟩
    · exact (Program.reaches_cons_of_lookup_eq_none h).mpr (.inr hlisted.1)
    · exact spells_of_row_append_eq hne (breaks_flatMap_row _) (breaks_flatMap_row _) hrows

end

/-- **Two searches with the same rows** find the same models, unless names clash in the first one.

**Proof sketch.** Induction along the second search, in which all names have models but those that
are known to have been left out. Both go through the same queue: while the first finds a model under
each name as well, rows of one name are compared, the models are the same and so is what is queued.
When the first finds no model, the next row it gives is one of another name. -/
theorem reachableFrom_eq_or_clash {models models' : Models} {queue known : List String}
    (hknown : ∀ name ∈ known, models.lookup name = none) (hcomplete : Complete models' queue known)
    (hrows : (reachableFrom models queue).flatMap row =
      (reachableFrom models' queue).flatMap row) :
    (reachableFrom models queue = reachableFrom models' queue ∧ Complete models queue known) ∨
      Clash models queue known := by
  induction models', queue using Program.reachableFrom.induct generalizing models known with
  | case1 models' =>
    refine .inl ⟨?_, fun name hname => absurd hname Program.not_reaches_nil⟩
    rw [reachableFrom, reachableFrom]
  | case2 models' first queue hfirst' ih =>
    have hmem : first ∈ known := (hcomplete first (.start List.mem_cons_self)).mp hfirst'
    have hfirst := hknown first hmem
    rw [Program.complete_cons_of_lookup_eq_none hfirst' hmem] at hcomplete
    rw [Program.reachableFrom_of_lookup_eq_none hfirst,
      Program.reachableFrom_of_lookup_eq_none hfirst'] at hrows ⊢
    rw [Program.complete_cons_of_lookup_eq_none hfirst hmem]
    exact (ih hknown hcomplete hrows).imp id (clash_cons_of_lookup_eq_none hfirst)
  | case3 models' first queue schema' hfirst' ih =>
    have hnew : first ∉ known := fun hmem => by
      rw [(hcomplete first (.start List.mem_cons_self)).mpr hmem] at hfirst'
      cases hfirst'
    rw [Program.reachableFrom_of_lookup_eq_some hfirst'] at hrows ⊢
    rw [List.flatMap_cons] at hrows
    cases hfirst : models.lookup first with
    | none =>
      rw [Program.reachableFrom_of_lookup_eq_none hfirst] at hrows
      exact .inr (clash_of_rows_eq hfirst hnew hrows)
    | some schema =>
      rw [Program.reachableFrom_of_lookup_eq_some hfirst] at hrows ⊢
      rw [List.flatMap_cons] at hrows
      obtain ⟨rfl, hrows⟩ := row_append_inj hrows
      have hknown' : ∀ name ∈ first :: known, (without models first).lookup name = none := by
        intro name hname
        rw [Program.lookup_without]
        split
        · rfl
        · rename_i hne
          exact hknown name ((List.mem_cons.mp hname).resolve_left hne)
      rw [Program.complete_cons_of_lookup_eq_some hfirst' hnew] at hcomplete
      rw [Program.complete_cons_of_lookup_eq_some hfirst hnew]
      rcases ih hknown' hcomplete hrows with ⟨heq, hall⟩ | hclash
      · exact .inl ⟨congrArg _ heq, hall⟩
      · exact .inr (clash_cons_of_lookup_eq_some hfirst hclash)

/-- **Equal keys are those of one program**, if there is one for either schema, unless names clash
for the other. -/
theorem compile_eq_or_namesClash {schema schema' : Schema} {models models' : Models}
    {program : Program} (hkey : key schema models = key schema' models')
    (hcompile : Program.compile schema' models' = .ok program) :
    Program.compile schema models = .ok program ∨ NamesClash schema models := by
  have hchars := congrArg String.toList hkey
  rw [toList_key, toList_key] at hchars
  obtain ⟨rfl, hrows⟩ := Schema.fingerprint_append_inj hchars
  have hcomplete : Complete models' schema.targets [] := by
    intro name hname
    rw [Entries.lookup_eq_none_iff]
    exact iff_of_false (not_not.mpr (Program.mem_keys_of_compile hcompile hname))
      List.not_mem_nil
  rcases reachableFrom_eq_or_clash (by simp) hcomplete hrows with
    ⟨heq, hall⟩ | ⟨missing, listed, hmissing, hnone, -, hlisted, hspells⟩
  · left
    rw [← hcompile]
    refine Program.compile_congr fun name hname => ?_
    cases hlookup : models.lookup name with
    | none => exact absurd ((hall name hname).mp hlookup) List.not_mem_nil
    | some model =>
      have hmem := Program.mem_reachableFrom_iff.mpr ⟨hname, hlookup⟩
      rw [heq] at hmem
      exact (Program.mem_reachableFrom_iff.mp hmem).2.symm
  · exact .inr ⟨missing, listed, hmissing, hnone, hlisted, hspells⟩

end RpcSchema.ValidatorCache
