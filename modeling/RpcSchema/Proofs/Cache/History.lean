import RpcSchema.Proofs.Cache.Key

set_option autoImplicit false

/-!
# What a cache answers

A cache goes through calls that ask for validators and calls that clear it. At any time it keeps a
validator for each key under which one has been asked for and compiled since it was cleared last.
Whoever asks for a schema that compiles therefore gets its own validator, although it may have been
compiled for somebody else. Whoever asks for a schema that does not compile gets the error, unless
another schema that does compile has the same key.

## Main definitions

* `RpcSchema.ValidatorCache.Call`, `RpcSchema.ValidatorCache.run` — calls, and the cache after them.
* `RpcSchema.ValidatorCache.asked` — what has been asked for since the cache was cleared last.
* `RpcSchema.ValidatorCache.Tracks` — the invariant of a cache.
* `RpcSchema.ValidatorCache.HasAsked` — whether something that compiles has been asked for under a
  key.

## Main results

* `RpcSchema.ValidatorCache.tracks_run` — the invariant holds after any calls.
* `RpcSchema.ValidatorCache.answer_of_compile` — sharing validators is sound.
* `RpcSchema.ValidatorCache.answer_of_error` — when a schema that does not compile gets its error.
-/

namespace RpcSchema.ValidatorCache

open Program (reachableFrom)
open Validator (compile_eq_ok_iff)

/-! ## Calls -/

/-- **A call** on a cache. -/
inductive Call
  /-- Asks for the validator of a schema. -/
  | get (schema : Schema) (models : Models)
  /-- Clears the cache. -/
  | clear

/-- The cache after a call; one that fails leaves it as it is. -/
def step (cache : ValidatorCache) : Call → ValidatorCache
  | .get schema models =>
    match cache.getOrCompile schema models with
    | .ok (_, after) => after
    | .error _ => cache
  | .clear => cache.clear

/-- **The cache after calls**, from the empty one on. -/
def run (calls : List Call) : ValidatorCache := calls.foldl step {}

/-- What has been asked for, with one more call. -/
def ask (asked : List (Schema × Models)) : Call → List (Schema × Models)
  | .get schema models => asked ++ [(schema, models)]
  | .clear => []

/-- **What has been asked for** since the cache was cleared last. -/
def asked (calls : List Call) : List (Schema × Models) := calls.foldl ask []

/-! ## One answer -/

section

variable {cache : ValidatorCache} {schema : Schema} {models : Models}

/-- What is kept is given. -/
theorem getOrCompile_of_some {cached : CachedValidator}
    (h : cache.entries.lookup (key schema models) = some cached) :
    cache.getOrCompile schema models = .ok (cached, cache) := by
  unfold getOrCompile
  dsimp only
  rw [h]

/-- What is not kept is compiled. -/
theorem getOrCompile_of_none (h : cache.entries.lookup (key schema models) = none) :
    cache.getOrCompile schema models =
      match Validator.compile schema models with
      | .error error => .error error
      | .ok validator => .ok (⟨cache.compiled, validator⟩,
          ⟨Entries.insert cache.entries (key schema models) ⟨cache.compiled, validator⟩,
            cache.compiled + 1⟩) := by
  cases hcompile : Validator.compile schema models <;> simp [getOrCompile, h, hcompile]

/-- The cache stays as it is when the key is there. -/
theorem step_get_of_some {cached : CachedValidator}
    (h : cache.entries.lookup (key schema models) = some cached) :
    cache.step (.get schema models) = cache := by
  rw [step, getOrCompile_of_some h]

/-- The cache stays as it is when the schema does not compile. -/
theorem step_get_of_error {error : SchemaError}
    (h : Validator.compile schema models = .error error) :
    cache.step (.get schema models) = cache := by
  cases hlookup : cache.entries.lookup (key schema models) with
  | some cached => exact step_get_of_some hlookup
  | none => rw [step, getOrCompile_of_none hlookup, h]

end

/-! ## Any calls -/

/-- **The invariant of a cache**: it keeps what has been asked for and compiles, under its key, and
nothing else. -/
structure Tracks (asked : List (Schema × Models)) (cache : ValidatorCache) : Prop where
  sound : ∀ text cached, cache.entries.lookup text = some cached → ∃ pair ∈ asked,
    key pair.1 pair.2 = text ∧ Validator.compile pair.1 pair.2 = .ok cached.validator
  complete : ∀ pair ∈ asked, ∀ validator, Validator.compile pair.1 pair.2 = .ok validator →
    ∃ cached, cache.entries.lookup (key pair.1 pair.2) = some cached

theorem tracks_empty : Tracks [] {} := ⟨by simp, by simp⟩

/-- **A call keeps the invariant.** -/
theorem Tracks.step {pairs : List (Schema × Models)} {cache : ValidatorCache}
    (h : Tracks pairs cache) (call : Call) : Tracks (ask pairs call) (cache.step call) := by
  cases call with
  | clear =>
    refine ⟨fun text cached hlookup => ?_, fun pair hmem => absurd hmem List.not_mem_nil⟩
    cases hlookup
  | get schema models =>
    have hsound : ∀ text cached, cache.entries.lookup text = some cached →
        ∃ pair ∈ pairs ++ [(schema, models)],
          key pair.1 pair.2 = text ∧ Validator.compile pair.1 pair.2 = .ok cached.validator := by
      intro text cached hlookup
      obtain ⟨pair, hmem, hpair⟩ := h.sound text cached hlookup
      exact ⟨pair, List.mem_append_left _ hmem, hpair⟩
    cases hlookup : cache.entries.lookup (key schema models) with
    | some cached =>
      rw [step_get_of_some hlookup]
      refine ⟨hsound, List.forall_mem_append.mpr ⟨h.complete, ?_⟩⟩
      rw [List.forall_mem_singleton]
      exact fun _ _ => ⟨cached, hlookup⟩
    | none =>
      cases hcompile : Validator.compile schema models with
      | error error =>
        rw [step_get_of_error hcompile]
        refine ⟨hsound, List.forall_mem_append.mpr ⟨h.complete, ?_⟩⟩
        rw [List.forall_mem_singleton]
        intro validator hvalidator
        rw [hcompile] at hvalidator
        cases hvalidator
      | ok validator =>
        rw [ValidatorCache.step, getOrCompile_of_none hlookup, hcompile]
        refine ⟨fun text cached hcached => ?_, fun pair hmem validator' hvalidator' => ?_⟩
        · rw [Entries.lookup_insert] at hcached
          split at hcached
          · rename_i heq
            obtain rfl := Option.some.inj hcached
            exact ⟨(schema, models), List.mem_append_right _ List.mem_cons_self, heq.symm,
              hcompile⟩
          · exact hsound text cached hcached
        · rw [Entries.lookup_insert]
          split
          · exact ⟨_, rfl⟩
          · rename_i hne
            rcases List.mem_append.mp hmem with hmem | hmem
            · exact h.complete pair hmem validator' hvalidator'
            · obtain rfl := List.mem_singleton.mp hmem
              exact absurd rfl hne

/-- **The invariant holds after any calls.** -/
theorem tracks_run (calls : List Call) : Tracks (asked calls) (run calls) := by
  have hfold : ∀ (calls : List Call) {pairs : List (Schema × Models)} {cache : ValidatorCache},
      Tracks pairs cache →
        Tracks (calls.foldl ask pairs) (calls.foldl ValidatorCache.step cache) := by
    intro calls
    induction calls with
    | nil => exact id
    | cons call rest ih => exact fun h => ih (h.step call)
  exact hfold calls tracks_empty

/-! ## Schemas that compile -/

/-- Equal keys are those of one validator, if both schemas compile. -/
theorem validator_eq_of_key_eq {schema schema' : Schema} {models models' : Models}
    {validator validator' : Validator} (h : Validator.compile schema models = .ok validator)
    (h' : Validator.compile schema' models' = .ok validator')
    (hkey : key schema models = key schema' models') : validator = validator' := by
  rw [compile_eq_ok_iff] at h h'
  rcases compile_eq_or_namesClash hkey h' with heq | ⟨missing, -, hmissing, hnone, -⟩
  · obtain ⟨program⟩ := validator
    obtain ⟨program'⟩ := validator'
    exact congrArg Validator.mk (Except.ok.inj (h.symm.trans heq))
  · rw [Entries.lookup_eq_none_iff] at hnone
    exact absurd (Program.mem_keys_of_compile h hmissing) hnone

/-- **Sharing validators is sound**: schemas that compile and have the same key have the same
program, down to the order of its models and their names; so a schema that compiles is answered with
its own validator after any calls.

**Proof sketch.** With models for all names that are reached, equal keys lead two searches through
the same models, and a program depends on these only. What a cache keeps under the key has been
compiled for some schema with this key. -/
theorem answer_of_compile {schema : Schema} {models : Models} {validator : Validator}
    (h : Validator.compile schema models = .ok validator) :
    (∀ schema' models' validator', Validator.compile schema' models' = .ok validator' →
      key schema models = key schema' models' → validator.program = validator'.program) ∧
    ∀ calls, ∃ cached after, (run calls).getOrCompile schema models = .ok (cached, after) ∧
      cached.validator = validator := by
  refine ⟨fun schema' models' validator' h' hkey => ?_, fun calls => ?_⟩
  · rw [validator_eq_of_key_eq h h' hkey]
  · cases hlookup : (run calls).entries.lookup (key schema models) with
    | none =>
      rw [getOrCompile_of_none hlookup, h]
      exact ⟨_, _, rfl, rfl⟩
    | some cached =>
      obtain ⟨pair, -, hkey, hcompile⟩ := (tracks_run calls).sound _ _ hlookup
      rw [getOrCompile_of_some hlookup]
      exact ⟨_, _, rfl, validator_eq_of_key_eq hcompile h hkey⟩

/-- A list that refers to itself is answered with its program, after it has been asked for with its
models in another order and one that is not reached. -/
theorem answer_of_compile_cyclic :
    Validator.compile (.reference "A") [("A", .array (.reference "A"))] =
        .ok ⟨⟨⟨.ref 0, false⟩, [⟨.array ⟨.ref 0, false⟩, false⟩], ["A"]⟩⟩ ∧
      ∃ cached after,
        getOrCompile
            (run [.get (.reference "A") [("B", .scalar .string), ("A", .array (.reference "A"))]])
            (.reference "A") [("A", .array (.reference "A"))] =
          .ok (cached, after) ∧
        cached.validator = ⟨⟨⟨.ref 0, false⟩, [⟨.array ⟨.ref 0, false⟩, false⟩], ["A"]⟩⟩ :=
  ⟨rfl, (answer_of_compile rfl).2 _⟩

/-! ## Schemas that do not compile -/

/-- What has been asked for since the cache was cleared last, and compiles, with a given key. -/
def HasAsked (calls : List Call) (text : String) : Prop :=
  ∃ pair ∈ asked calls, ∃ validator, Validator.compile pair.1 pair.2 = .ok validator ∧
    key pair.1 pair.2 = text

/-- A key is there when it has been asked for. -/
theorem exists_lookup_run_iff {calls : List Call} {text : String} :
    (∃ cached, (run calls).entries.lookup text = some cached) ↔ HasAsked calls text := by
  constructor
  · rintro ⟨cached, hlookup⟩
    obtain ⟨pair, hmem, hkey, hcompile⟩ := (tracks_run calls).sound text cached hlookup
    exact ⟨pair, hmem, _, hcompile, hkey⟩
  · rintro ⟨pair, hmem, validator, hcompile, rfl⟩
    exact (tracks_run calls).complete pair hmem validator hcompile

/-- **A schema that does not compile** leaves the cache as it is, and is answered with its error
unless a schema that compiles and has the same key has been asked for since the cache was cleared
last; this needs names that clash. -/
theorem answer_of_error (calls : List Call) {schema : Schema} {models : Models}
    {error : SchemaError} (h : Validator.compile schema models = .error error) :
    (run calls).step (.get schema models) = run calls ∧
    ((run calls).getOrCompile schema models = .error error ↔
      ¬ HasAsked calls (key schema models)) ∧
    (¬ NamesClash schema models → (run calls).getOrCompile schema models = .error error) := by
  have hiff : (run calls).getOrCompile schema models = .error error ↔
      ¬ HasAsked calls (key schema models) := by
    rw [← exists_lookup_run_iff]
    cases hlookup : (run calls).entries.lookup (key schema models) with
    | none =>
      rw [getOrCompile_of_none hlookup, h]
      simp
    | some cached =>
      rw [getOrCompile_of_some hlookup]
      simp
  refine ⟨step_get_of_error h, hiff, fun hclash => hiff.mpr ?_⟩
  rintro ⟨pair, -, validator, hcompile, hkey⟩
  rw [compile_eq_ok_iff] at hcompile
  have heq := (compile_eq_or_namesClash hkey.symm hcompile).resolve_right hclash
  rw [← compile_eq_ok_iff, h] at heq
  cases heq

/-- A reference to no model is not answered with a validator for one that had the name before. -/
theorem answer_of_error_missing :
    Validator.compile (.reference "A") [] = .error ⟨[], .unresolvedReference "A"⟩ ∧
      (run [.get (.reference "A") [("A", .scalar .string)]]).getOrCompile (.reference "A") [] =
        .error ⟨[], .unresolvedReference "A"⟩ := by
  refine ⟨rfl, (answer_of_error _ rfl).2.2 (not_namesClash fun name hname => ?_)⟩
  have hcons : Program.Reaches [] ["A"] name := hname
  rw [Program.reaches_cons_of_lookup_eq_none rfl] at hcons
  obtain rfl := hcons.resolve_right Program.not_reaches_nil
  decide

/-! ### Names that clash -/

/-- A name that goes on after `y` as a key would: with the fingerprint of a schema, a new line and
the name of the next model. -/
def spelling : String :=
  "y=\x7b\"ref\":\"y=\x7b\\\"type\\\":\\\"string\\\"\x7d\\nz\"\x7d\nz"

/-- The name to which the fingerprint in `spelling` refers; it goes on after `y` as well. -/
def spelt : String := "y=\x7b\"type\":\"string\"\x7d\nz"

/-- An object with references to three models. -/
def clashing : Schema :=
  .ofForm <| .object
    [("a", .reference spelling), ("b", .reference "y"), ("c", .reference "z")] [] true

/-- Texts under the three names. -/
def allThere : Models :=
  [(spelling, .scalar .string), ("y", .scalar .string), ("z", .scalar .string)]

/-- No model under `spelling`, but one under the name to which `y` refers. -/
def oneMissing : Models :=
  [("y", .reference spelt), ("z", .scalar .string), (spelt, .scalar .string)]

/-- The rows for the one arena can be read as the rows for the other. -/
theorem key_clashing_eq : key clashing allThere = key clashing oneMissing := by
  have htext : (Schema.scalar .string).targets = [] := rfl
  have hleaf : ∀ models, Program.reachableFrom models [] = [] := fun _ => by
    rw [reachableFrom]
  have hthere : Program.reachable clashing allThere = allThere := by
    change reachableFrom allThere [spelling, "y", "z"] = _
    rw [@Program.reachableFrom_of_lookup_eq_some _ _ (.scalar .string) rfl, htext, List.append_nil,
      @Program.reachableFrom_of_lookup_eq_some _ _ (.scalar .string) rfl, htext, List.append_nil,
      @Program.reachableFrom_of_lookup_eq_some _ _ (.scalar .string) rfl, htext, List.append_nil,
      hleaf]
    rfl
  have hmissing : Program.reachable clashing oneMissing = oneMissing := by
    change reachableFrom oneMissing [spelling, "y", "z"] = _
    rw [Program.reachableFrom_of_lookup_eq_none rfl,
      @Program.reachableFrom_of_lookup_eq_some _ _ (.reference spelt) rfl,
      show (Schema.reference spelt).targets = [spelt] from rfl, List.singleton_append,
      @Program.reachableFrom_of_lookup_eq_some _ _ (.scalar .string) rfl, htext, List.append_nil,
      @Program.reachableFrom_of_lookup_eq_some _ _ (.scalar .string) rfl, htext, List.append_nil,
      hleaf]
    rfl
  have hrows : allThere.flatMap row = oneMissing.flatMap row := by decide
  rw [← String.toList_inj, toList_key, toList_key, hthere, hmissing, hrows]

/-- **A reference to no model is answered** with a validator for models that have its name, when
names clash. -/
theorem answer_of_error_clashing :
    Validator.compile clashing oneMissing =
        .error ⟨[.key "properties", .key "a"], .unresolvedReference spelling⟩ ∧
      ∃ cached after, (run [.get clashing allThere]).getOrCompile clashing oneMissing =
        .ok (cached, after) := by
  refine ⟨rfl, ?_⟩
  obtain ⟨validator, hcompile⟩ : ∃ validator,
      Validator.compile clashing allThere = .ok validator := ⟨_, rfl⟩
  have hasked : HasAsked [.get clashing allThere] (key clashing oneMissing) :=
    ⟨(clashing, allThere), List.mem_cons_self, validator, hcompile, key_clashing_eq⟩
  obtain ⟨cached, hcached⟩ := exists_lookup_run_iff.mpr hasked
  exact ⟨cached, _, getOrCompile_of_some hcached⟩

end RpcSchema.ValidatorCache
