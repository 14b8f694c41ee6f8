import RpcSchema.Schema.Basic

set_option autoImplicit false

/-!
# Programs

A program is a schema made ready for values: references are positions in a table of models, and
what is said about a schema beside the values it describes is gone.

## Main definitions

* `RpcSchema.Program` — a program.
* `RpcSchema.Program.Node`, `RpcSchema.Program.Kind`, `RpcSchema.Program.Shape` — its parts.
* `RpcSchema.Program.budget` — how many references a walk along a value follows at most.
* `RpcSchema.Program.Endless` — a reference that only ever leads to references.
-/

namespace RpcSchema.Program

mutual

/-- **What a node of a program demands.** -/
inductive Kind
  /-- A value without parts. -/
  | scalar (kind : ScalarKind)
  /-- One of a list of texts. -/
  | enumeration (values : List String)
  /-- An object of a shape. -/
  | object (shape : Shape)
  /-- A list of values. -/
  | array (element : Node)
  /-- A map to values. -/
  | record (value : Node)
  /-- An object whose text under the tag says which of the shapes it has. -/
  | union (tag : String) (variants : List (String × Shape))
  /-- The model at a position of the table. -/
  | ref (index : Nat)

/-- **A node**: what it demands, and whether `null` will do in its stead. -/
structure Node where
  kind : Kind
  nullable : Bool

/-- **The shape of an object**: the properties that have to be there, those that may be, and
whether others are refused. -/
structure Shape where
  required : List (String × Node)
  optional : List (String × Node)
  strict : Bool

end

instance : Inhabited Node := ⟨⟨.scalar .boolean, false⟩⟩

instance : Inhabited Shape := ⟨⟨[], [], false⟩⟩

/-- Whether a shape has a property under a key. -/
def Shape.declares (shape : Shape) (key : String) : Bool :=
  Entries.contains shape.required key || Entries.contains shape.optional key

end RpcSchema.Program

namespace RpcSchema

/-- **A program**: the node of the schema, and the nodes of the models that it can reach with their
names, in the order in which they are reached. -/
structure Program where
  root : Program.Node
  models : List Program.Node
  modelNames : List String

namespace Program

/-! ## References -/

/-- How many references a walk follows at most, when it goes through as many layers of values as
`depth` says and each model only once in every layer. -/
def budget (program : Program) (depth : Nat) : Nat := (depth + 1) * program.models.length

/-- The position to which a node refers, if it is a reference. -/
def Node.target? (node : Node) : Option Nat :=
  match node.kind with
  | .ref index => some index
  | _ => none

/-- A model is reached from another by one reference or more, through references only. -/
inductive Chain (program : Program) : Nat → Nat → Prop
  | one {start stop : Nat} {node : Node} :
    program.models[start]? = some node → node.target? = some stop → Chain program start stop
  | more {start middle stop : Nat} {node : Node} :
    program.models[start]? = some node → node.target? = some middle →
    Chain program middle stop → Chain program start stop

/-- **An endless model** leads back to itself through references only, so that no value is ever
asked for. -/
def Endless (program : Program) (index : Nat) : Prop := Chain program index index

end Program

end RpcSchema
