import RpcSchema.Schema.Wire
import RpcSchema.Validator.Program

set_option autoImplicit false

/-!
# From schemas to programs

A schema is lowered together with the models it can reach. Models get their positions in the order
in which references to them are met, and are lowered in that order in turn; a model that is only
named by unreachable schemas is left alone.

## Main definitions

* `RpcSchema.Program.lower` — a schema as a node, with the models found so far as state.
* `RpcSchema.Program.compile` — a schema and its models as a program.
* `RpcSchema.Program.reachable` — the models that a schema can reach, without lowering anything.
-/

namespace RpcSchema.Program

/-- The names of the models found so far; the place of a name is the position of its model. -/
abbrev Discovery : Type → Type := StateT (List String) (Except SchemaError)

/-- The position of a model, which is the next free one if the model is new. -/
def indexOf (models : Models) (place : Path) (target : String) : Discovery Nat := fun found =>
  match found.idxOf? target with
  | some index => .ok (index, found)
  | none =>
    if Entries.contains models target then .ok (found.length, found ++ [target])
    else .error ⟨place, .unresolvedReference target⟩

mutual

/-- **Lowers a schema** that stands at a place. -/
def lower (models : Models) (place : Path) : Schema → Discovery Node
  | ⟨form, nullable, _⟩ => do
    let kind ← lowerForm models place form
    return ⟨kind, nullable⟩

/-- Lowers a form. -/
def lowerForm (models : Models) (place : Path) : Form → Discovery Kind
  | .scalar kind => return .scalar kind
  | .enumeration values => return .enumeration values
  | .object required optional strict => do
    let required ← lowerChildren models (place ++ [.key "properties"]) required
    let optional ← lowerChildren models (place ++ [.key "optionalProperties"]) optional
    return .object ⟨required, optional, strict⟩
  | .array element => do
    let element ← lower models (place ++ [.key "elements"]) element
    return .array element
  | .record value => do
    let value ← lower models (place ++ [.key "values"]) value
    return .record value
  | .union tag variants => do
    let _ ← (checkVariants place tag variants : Except SchemaError Unit)
    let shapes ← lowerVariants models (place ++ [.key "mapping"]) variants
    return .union tag shapes
  | .ref target => do
    let index ← indexOf models place target
    return .ref index

/-- Lowers the properties of an object. -/
def lowerChildren (models : Models) (place : Path) :
    List (String × Schema) → Discovery (List (String × Node))
  | [] => return []
  | (key, schema) :: rest => do
    let node ← lower models (place ++ [.key key]) schema
    let nodes ← lowerChildren models place rest
    return (key, node) :: nodes

/-- Lowers the variants of a union, which are objects. -/
def lowerVariants (models : Models) (place : Path) :
    List (String × Schema) → Discovery (List (String × Shape))
  | [] => return []
  | (name, ⟨form, _, _⟩) :: rest => do
    let kind ← lowerForm models (place ++ [.key name]) form
    let shapes ← lowerVariants models place rest
    match kind with
    | .object shape => return (name, shape) :: shapes
    | _ => return shapes

end

/-- Lowers the models that have been found but not lowered yet, and those found on the way. -/
def lowerModels (models : Models) : Nat → List Node → Discovery (List Node)
  | 0, done => return done
  | steps + 1, done => do
    match (← get)[done.length]? with
    | none => return done
    | some name =>
      match models.lookup name with
      | none => throw ⟨[], .unresolvedReference name⟩
      | some schema => do
        let node ← lower models [.key "models", .key name] schema
        lowerModels models steps (done ++ [node])

/-- **The program of a schema** and of the models it can reach. A model is found once, so that
there are as many steps as models at most. -/
def compile (schema : Schema) (models : Models) : Except SchemaError Program := do
  let (root, found) ← (lower models [] schema).run []
  let (nodes, names) ← (lowerModels models models.length []).run found
  return ⟨root, nodes, names⟩

/-! ## Reachable models -/

/-- The models other than one. -/
def without (models : Models) (name : String) : Models := models.filter (·.1 != name)

theorem length_without_lt {models : Models} {name : String} {schema : Schema}
    (h : models.lookup name = some schema) : (without models name).length < models.length := by
  induction models with
  | nil => simp at h
  | cons pair rest ih =>
    obtain ⟨key, value⟩ := pair
    by_cases hk : name = key
    · subst hk
      have := List.length_filter_le (fun pair : String × Schema => pair.1 != name) rest
      simp only [without, List.filter_cons, bne_self_eq_false, Bool.false_eq_true, ↓reduceIte,
        List.length_cons]
      omega
    · rw [Entries.lookup_cons_ite, if_neg hk] at h
      have hne : (key != name) = true := by
        simpa [bne_iff_ne] using fun e => hk e.symm
      simpa [without, List.filter_cons, hne] using ih h

/-- The models that the names in a queue lead to, each at its first appearance; a name without a
model leads nowhere. -/
def reachableFrom (models : Models) : List String → List (String × Schema)
  | [] => []
  | name :: queue =>
    match _found : models.lookup name with
    | none => reachableFrom models queue
    | some schema => (name, schema) :: reachableFrom (without models name) (queue ++ schema.targets)
termination_by queue => (models.length, queue.length)
decreasing_by
  · exact Prod.Lex.right _ (by simp)
  · exact Prod.Lex.left _ _ (length_without_lt _found)

/-- **The models that a schema can reach**, the nearest first. -/
def reachable (schema : Schema) (models : Models) : List (String × Schema) :=
  reachableFrom models schema.targets

end RpcSchema.Program
