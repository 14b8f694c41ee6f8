import RpcSchema.Codegen.Error
import RpcSchema.Schema.Wire

set_option autoImplicit false

/-!
# The names taken so far

A type is declared when its name is met first; after that the name is only referred to. A strict
registry makes sure that a name stands for one shape. A name may also be taken without a shape; the
first schema of that name then settles it.

## Main definitions

* `RpcSchema.NameRegistry` — the names taken so far, with their shapes.
* `RpcSchema.NameRegistry.register` — takes a name.
* `RpcSchema.NameRegistry.registerSchema` — takes a name for a schema.
-/

namespace RpcSchema

/-- **The names taken so far**, in the order in which they were, with the fingerprints of their
shapes as far as they have any. -/
structure NameRegistry where
  names : Entries (Option String) := []
  strict : Bool := false
deriving DecidableEq

namespace NameRegistry

/-- The shape of a schema: its fingerprint, whether it allows `null` or not. -/
def shapeOf (schema : Schema) : String := { schema with nullable := false }.fingerprint

/-- Whether a name is taken. -/
def contains (registry : NameRegistry) (name : String) : Bool :=
  Entries.contains registry.names name

/-- **Takes a name**, and says whether it was free. -/
def register (registry : NameRegistry) (name : String) : Bool × NameRegistry :=
  if registry.contains name then (false, registry)
  else (true, { registry with names := Entries.insert registry.names name none })

/-- Takes a name for a shape met at a place. -/
def registerShape (registry : NameRegistry) (name shape place : String) :
    Except CodegenError (Bool × NameRegistry) :=
  let taken := { registry with names := Entries.insert registry.names name (some shape) }
  match registry.names.lookup name with
  | none => .ok (true, taken)
  | some none => .ok (false, taken)
  | some (some known) =>
    if registry.strict ∧ known ≠ shape then .error (.nameConflict name place)
    else .ok (false, registry)

/-- **Takes a name for a schema** met at a place, and says whether it was free. In a strict
registry a name that stands for another shape is an error. -/
def registerSchema (registry : NameRegistry) (name : String) (schema : Schema) (place : String) :
    Except CodegenError (Bool × NameRegistry) :=
  registry.registerShape name (shapeOf schema) place

end NameRegistry

end RpcSchema
