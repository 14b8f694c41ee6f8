import RpcSchema.Validator.Program
import RpcSchema.Validator.Report
import RpcSchema.Validator.Scalar

set_option autoImplicit false

/-!
# Encoding

A value is encoded into a document along a program, until something does not fit. Only the
properties of a shape are written, in the order of the shape; in a variant of a union the tag comes
first. An object with the tag of a union among its fields may stand for a variant.

## Main definitions

* `RpcSchema.Program.Node.encode` — encoding along a node, given how references are followed.
* `RpcSchema.Program.encode` — encoding along a program.
-/

namespace RpcSchema.Program

/-- The document of one of a list of texts. -/
def encodeListed (values : List String) (text : String) : Attempt Json :=
  if values.contains text then pure (.string text)
  else .fail [] ["enum"] (.notListed values text)

/-- The rule that a value of the wrong kind breaks, and what it asks for. -/
def Kind.refusal (kind : Kind) : String × String :=
  match kind with
  | .scalar kind => ("type", kind.name)
  | .enumeration _ => ("enum", "string")
  | .object _ => ("properties", "object")
  | .array _ => ("elements", "array")
  | .record _ => ("values", "object")
  | .union _ _ => ("discriminator", "variant")
  | .ref _ => ("ref", "model")

mutual

/-- **Encodes along a node.** -/
def Node.encode (follow : Nat → Value → Attempt Json) : Node → Value → Attempt Json
  | ⟨kind, nullable⟩, value =>
    if value.isNull then
      if nullable then pure .null else .fail [] [] (.expected "non-null value" value.kind)
    else kind.encode follow value

/-- Encodes a value other than `null` along what a node demands. -/
def Kind.encode (follow : Nat → Value → Attempt Json) : Kind → Value → Attempt Json
  | .scalar kind, value => .ofScalar (kind.write value)
  | .enumeration values, .string text => encodeListed values text
  | .object shape, .object fields => do
    let entries ← shape.encode follow fields
    return .object (Entries.ofList entries)
  | .array element, .array items => do
    let items ← items.zipIdx.mapM fun (item, i) =>
      (element.encode follow item).under [toString i] ["elements"]
    return .array items
  | .record node, .object fields => do
    let entries ← fields.mapM fun (key, value) => do
      let item ← (node.encode follow value).under [key] ["values"]
      return (key, item)
    return .object entries
  | .union tag variants, .variant name fields => encodeVariant follow tag name variants fields
  | .union tag variants, .object fields =>
    match fields.lookup tag with
    | some (.string name) => encodeVariant follow tag name variants fields
    | _ => .fail [tag] ["discriminator"] (.missingTag tag)
  | .ref index, value => follow index value
  | kind, value => .fail [] [kind.refusal.1] (.expected kind.refusal.2 value.kind)

/-- Encodes fields along a shape. -/
def Shape.encode (follow : Nat → Value → Attempt Json) :
    Shape → Entries Value → Attempt (List (String × Json))
  | ⟨required, optional, _⟩, fields => do
    let present ← encodeRequired follow fields required
    let further ← encodeOptional follow fields optional
    return present ++ further

/-- Encodes the properties that have to be there. -/
def encodeRequired (follow : Nat → Value → Attempt Json) (fields : Entries Value) :
    List (String × Node) → Attempt (List (String × Json))
  | [] => return []
  | (key, node) :: rest =>
    match fields.lookup key with
    | some value => do
      let item ← (node.encode follow value).under [key] ["properties", key]
      let entries ← encodeRequired follow fields rest
      return (key, item) :: entries
    | none => .fail [] ["properties", key] (.missing key)

/-- Encodes the properties that may be there. -/
def encodeOptional (follow : Nat → Value → Attempt Json) (fields : Entries Value) :
    List (String × Node) → Attempt (List (String × Json))
  | [] => return []
  | (key, node) :: rest =>
    match fields.lookup key with
    | some value => do
      let item ← (node.encode follow value).under [key] ["optionalProperties", key]
      let entries ← encodeOptional follow fields rest
      return (key, item) :: entries
    | none => encodeOptional follow fields rest

/-- Encodes fields along the variant with a name, behind the tag. -/
def encodeVariant (follow : Nat → Value → Attempt Json) (tag name : String) :
    List (String × Shape) → Entries Value → Attempt Json
  | [], _ => .fail [tag] ["mapping"] (.unknownVariant name none)
  | (other, shape) :: rest, fields =>
    if other == name then do
      let entries ← (shape.encode follow fields).under [] ["mapping", name]
      return .object (Entries.ofList ((tag, .string name) :: entries))
    else encodeVariant follow tag name rest fields

end

/-- Encodes along the model at a position, following so many references at most. -/
def encodeModel (program : Program) : Nat → Nat → Value → Attempt Json
  | 0, _, _ => ExceptT.mk none
  | steps + 1, index, value =>
    match program.models[index]? with
    | some node => node.encode (encodeModel program steps) value
    | none => ExceptT.mk none

/-- **Encodes along a program.** -/
def encode (program : Program) (value : Value) : Attempt Json :=
  program.root.encode (encodeModel program (program.budget value.depth)) value

end RpcSchema.Program
