import RpcSchema.Validator.Program
import RpcSchema.Validator.Report
import RpcSchema.Validator.Scalar

set_option autoImplicit false

/-!
# Whether a value belongs to a schema

The question is put to values, not to documents. An object with the tag of a union among its fields
may stand for a variant.

## Main definitions

* `RpcSchema.Program.Node.holds` — the question for a node, given how references are followed.
* `RpcSchema.Program.holds` — the question for a program.
-/

namespace RpcSchema.Program

/-- Whether all members of a list pass a test; members after one that does not are not asked. -/
def allHold {α : Type} (test : α → Walk Bool) : List α → Walk Bool
  | [] => some true
  | a :: rest => do
    if ← test a then allHold test rest else return false

/-- Whether a shape has a property under each of the keys; the tag of a union counts as one. -/
def Shape.coversKeys (shape : Shape) (tag : Option String) (fields : Entries Value) : Bool :=
  !shape.strict || fields.all fun (key, _) => shape.declares key || some key = tag

mutual

/-- **Whether a value belongs to a node.** -/
def Node.holds (follow : Nat → Value → Walk Bool) : Node → Value → Walk Bool
  | ⟨kind, nullable⟩, value => if value.isNull then some nullable else kind.holds follow value

/-- Whether a value other than `null` is what a node demands. -/
def Kind.holds (follow : Nat → Value → Walk Bool) : Kind → Value → Walk Bool
  | .scalar kind, value => some (kind.holds value)
  | .enumeration values, .string text => some (values.contains text)
  | .object shape, .object fields => shape.holds follow none fields
  | .array element, .array items => allHold (element.holds follow) items
  | .record node, .object fields => allHold (fun field => node.holds follow field.2) fields
  | .union _ variants, .variant name fields => variantHolds follow none name variants fields
  | .union tag variants, .object fields =>
    match fields.lookup tag with
    | some (.string name) => variantHolds follow (some tag) name variants fields
    | _ => some false
  | .ref index, value => follow index value
  | _, _ => some false

/-- Whether fields have a shape. -/
def Shape.holds (follow : Nat → Value → Walk Bool) (tag : Option String) :
    Shape → Entries Value → Walk Bool
  | ⟨required, optional, strict⟩, fields => do
    let present ← requiredHold follow fields required
    let further ← optionalHold follow fields optional
    return present && further && Shape.coversKeys ⟨required, optional, strict⟩ tag fields

/-- Whether the properties that have to be there are there and hold. -/
def requiredHold (follow : Nat → Value → Walk Bool) (fields : Entries Value) :
    List (String × Node) → Walk Bool
  | [] => some true
  | (key, node) :: rest => do
    match fields.lookup key with
    | some value =>
      if ← node.holds follow value then requiredHold follow fields rest else return false
    | none => return false

/-- Whether the properties that may be there hold as far as they are there. -/
def optionalHold (follow : Nat → Value → Walk Bool) (fields : Entries Value) :
    List (String × Node) → Walk Bool
  | [] => some true
  | (key, node) :: rest => do
    match fields.lookup key with
    | some value =>
      if ← node.holds follow value then optionalHold follow fields rest else return false
    | none => optionalHold follow fields rest

/-- Whether fields have the shape of the variant with a name. -/
def variantHolds (follow : Nat → Value → Walk Bool) (tag : Option String) (name : String) :
    List (String × Shape) → Entries Value → Walk Bool
  | [], _ => some false
  | (other, shape) :: rest, fields =>
    if other == name then shape.holds follow tag fields
    else variantHolds follow tag name rest fields

end

/-- Whether a value belongs to the model at a position, following so many references at most. -/
def modelHolds (program : Program) : Nat → Nat → Value → Walk Bool
  | 0, _, _ => none
  | steps + 1, index, value =>
    match program.models[index]? with
    | some node => node.holds (modelHolds program steps) value
    | none => none

/-- **Whether a value belongs to a program.** -/
def holds (program : Program) (value : Value) : Walk Bool :=
  program.root.holds (modelHolds program (program.budget value.depth)) value

end RpcSchema.Program
