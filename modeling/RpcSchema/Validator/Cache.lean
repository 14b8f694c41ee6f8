import RpcSchema.Validator.Basic

set_option autoImplicit false

/-!
# A cache of validators

Compiling the same schema again gives the validator compiled before. Schemas are told apart by
their fingerprints and by the fingerprints of all the models that they can reach.

## Main definitions

* `RpcSchema.ValidatorCache` — a cache.
* `RpcSchema.ValidatorCache.key` — what tells schemas apart.
* `RpcSchema.ValidatorCache.getOrCompile` — the validator of a schema.
-/

namespace RpcSchema

/-- A validator as a cache keeps it, with its number among all those it has compiled. -/
structure CachedValidator where
  serial : Nat
  validator : Validator

/-- **A cache**: validators under their keys, and how many have been compiled so far. -/
structure ValidatorCache where
  entries : Entries CachedValidator := []
  compiled : Nat := 0

namespace ValidatorCache

/-- **The key of a schema**: its fingerprint, and the name and the fingerprint of each model that
it can reach. -/
def key (schema : Schema) (models : Models) : String :=
  (Program.reachable schema models).foldl
    (fun key (name, model) => key ++ "\n" ++ name ++ "=" ++ model.fingerprint) schema.fingerprint

/-- How many validators are kept. -/
def size (cache : ValidatorCache) : Nat := cache.entries.length

/-- **The validator of a schema** and the cache with it: the one kept under its key, or else a new
one, unless the schema does not compile. -/
def getOrCompile (cache : ValidatorCache) (schema : Schema) (models : Models) :
    Except SchemaError (CachedValidator × ValidatorCache) :=
  let key := key schema models
  match cache.entries.lookup key with
  | some cached => .ok (cached, cache)
  | none =>
    match Validator.compile schema models with
    | .error error => .error error
    | .ok validator =>
      let cached := ⟨cache.compiled, validator⟩
      .ok (cached, ⟨Entries.insert cache.entries key cached, cache.compiled + 1⟩)

/-- The cache without its validators. -/
def clear (cache : ValidatorCache) : ValidatorCache := { cache with entries := [] }

end ValidatorCache

end RpcSchema
