import RpcSchema.Validator.Program
import RpcSchema.Validator.Report
import RpcSchema.Validator.Scalar

set_option autoImplicit false

/-!
# Lenient reading

Whatever does not fit is replaced, by `null` where that will do and by a default of its kind
elsewhere. Two things are errors nevertheless: a union whose variant cannot be told, and a default
that would have to contain itself.

A missing value and `null` are the same here. The default of a model may ask for defaults of
further models; as a program has finitely many, more of them inside each other than there are
models never come to an end.

## Main definitions

* `RpcSchema.Program.Node.readLeniently` — reading along a node, given how references are followed.
* `RpcSchema.Program.readLeniently` — reading along a program.
-/

namespace RpcSchema.Program

/-- A document, unless it is `null`. -/
def given? (input : Option Json) : Option Json := input.filter fun value => !value.isNull

/-- The entries of an object. -/
def entriesOf (input : Option Json) : Entries Json :=
  match input with
  | some (.object entries) => entries
  | _ => []

/-- Whether an object is given. -/
def isObjectGiven (input : Option Json) : Bool :=
  match input with
  | some (.object _) => true
  | _ => false

/-- A scalar, or what stands in for it. -/
def scalarOr (fallback : Value) (kind : ScalarKind) (input : Option Json) : Value :=
  (input.bind kind.readFreely?).getD fallback

/-- One of a list of texts, or what stands in for it. -/
def listedOr (fallback : Value) (values : List String) (input : Option Json) : Value :=
  match input with
  | some (.string text) => if values.contains text then .string text else fallback
  | _ => fallback

mutual

/-- **Reads along a node**, inside so many defaults of models. -/
def Node.readLeniently (follow : Nat → Nat → Option Json → Attempt Value) (inside : Nat) :
    Node → Option Json → Attempt Value
  | ⟨kind, nullable⟩, input =>
    let input := given? input
    if input.isNone && nullable then pure .null
    else kind.readLeniently follow inside nullable input

/-- Reads what a node demands; `null` stands in for it when it may. -/
def Kind.readLeniently (follow : Nat → Nat → Option Json → Attempt Value) (inside : Nat)
    (nullable : Bool) : Kind → Option Json → Attempt Value
  | .scalar kind, input =>
    pure (scalarOr (if nullable then .null else kind.default) kind input)
  | .enumeration values, input =>
    pure (listedOr (if nullable then .null else .string (values.head?.getD "")) values input)
  | .object shape, input =>
    if nullable && !isObjectGiven input then pure .null
    else do
      let fields ← shape.readLeniently follow inside (entriesOf input)
      return .object fields
  | .array element, input =>
    match input with
    | some (.array items) => do
      let values ← items.zipIdx.mapM fun (item, i) =>
        (element.readLeniently follow inside (some item)).under [toString i] ["elements"]
      return .array values
    | _ => pure (if nullable then .null else .array [])
  | .record node, input =>
    match input with
    | some (.object entries) => do
      let fields ← entries.mapM fun (key, item) => do
        let value ← (node.readLeniently follow inside (some item)).under [key] ["values"]
        return (key, value)
      return .object fields
    | _ => pure (if nullable then .null else .object [])
  | .union tag variants, input =>
    match (entriesOf input).lookup tag with
    | some (.string name) => readVariantLeniently follow inside tag name variants (entriesOf input)
    | _ => .fail [tag] ["discriminator"] (.missingTag tag)
  | .ref index, input => follow index inside input

/-- Reads the fields of a shape. -/
def Shape.readLeniently (follow : Nat → Nat → Option Json → Attempt Value) (inside : Nat) :
    Shape → Entries Json → Attempt (Entries Value)
  | ⟨required, optional, _⟩, entries => do
    let present ← readRequiredLeniently follow inside entries required
    let further ← readOptionalLeniently follow inside entries optional
    return Entries.ofList (present ++ further)

/-- Reads the properties that have to be there, whether they are or not. -/
def readRequiredLeniently (follow : Nat → Nat → Option Json → Attempt Value) (inside : Nat)
    (entries : Entries Json) : List (String × Node) → Attempt (List (String × Value))
  | [] => return []
  | (key, node) :: rest => do
    let value ← (node.readLeniently follow inside (entries.lookup key)).under [key]
      ["properties", key]
    let fields ← readRequiredLeniently follow inside entries rest
    return (key, value) :: fields

/-- Reads the properties that may be there, as far as they are. -/
def readOptionalLeniently (follow : Nat → Nat → Option Json → Attempt Value) (inside : Nat)
    (entries : Entries Json) : List (String × Node) → Attempt (List (String × Value))
  | [] => return []
  | (key, node) :: rest =>
    match entries.lookup key with
    | some item => do
      let value ← (node.readLeniently follow inside (some item)).under [key]
        ["optionalProperties", key]
      let fields ← readOptionalLeniently follow inside entries rest
      return (key, value) :: fields
    | none => readOptionalLeniently follow inside entries rest

/-- Reads along the variant with a name. -/
def readVariantLeniently (follow : Nat → Nat → Option Json → Attempt Value) (inside : Nat)
    (tag name : String) : List (String × Shape) → Entries Json → Attempt Value
  | [], _ => .fail [tag] ["mapping"] (.unknownVariant name none)
  | (other, shape) :: rest, entries =>
    if other == name then do
      let fields ← (shape.readLeniently follow inside entries).under [] ["mapping", name]
      return .variant name fields
    else readVariantLeniently follow inside tag name rest entries

end

/-- Reads along the model at a position, inside so many defaults of models, following so many
references at most. Without a document the model needs a default, which is one more. -/
def readModelLeniently (program : Program) : Nat → Nat → Nat → Option Json → Attempt Value
  | 0, _, _, _ => ExceptT.mk none
  | steps + 1, index, inside, input =>
    match program.models[index]? with
    | none => ExceptT.mk none
    | some node =>
      if input.isSome then node.readLeniently (readModelLeniently program steps) inside input
      else if program.models.length < inside then
        .fail [] [] (.endlessDefault (program.modelNames[index]?.getD ""))
      else node.readLeniently (readModelLeniently program steps) (inside + 1) input

/-- **Reads along a program.** Beyond the references that a document lets a walk follow, it follows
one more in every default than there may be inside each other. -/
def readLeniently (program : Program) (input : Json) : Attempt Value :=
  let steps := program.budget input.depth + program.models.length + 2
  program.root.readLeniently (readModelLeniently program steps) 0 (some input)

end RpcSchema.Program
