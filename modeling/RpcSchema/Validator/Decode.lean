import RpcSchema.Validator.Program
import RpcSchema.Validator.Report
import RpcSchema.Validator.Scalar

set_option autoImplicit false

/-!
# Decoding

A document is decoded into a value by walking through it along a program. Everything that is wrong
is reported, each fault with its place in the document and in the schema. The strict and the
converting way differ at scalars only.

## Main definitions

* `RpcSchema.Program.Reading` — strict or converting.
* `RpcSchema.Program.Node.decode` — decoding along a node, given how references are followed.
* `RpcSchema.Program.decode` — decoding along a program.
-/

namespace RpcSchema.Program

/-- **How scalars are read**: in their one spelling, or in others as well. -/
inductive Reading
  | strict
  | converting
deriving DecidableEq

/-- The report on a scalar. -/
def decodeScalar (reading : Reading) (kind : ScalarKind) (input : Json) : Report Value :=
  match kind.read input with
  | .ok value => .ok value
  | .error .range => .fail [] ["type"] (.outOfRange input.compact kind)
  | .error .shape =>
    if reading = .converting ∧ input.isNull = false then
      match kind.convert? input with
      | some value => .ok value
      | none => .fail [] ["type"] (.notConvertible input.compact kind)
    else
      match kind, input with
      | .timestamp, .string _ => .fail [] ["type"] .notAnInstant
      | kind, input => .fail [] ["type"] (.expected kind.expectation input.kind)

/-- The report on one of a list of texts. -/
def decodeListed (values : List String) (input : Json) : Report Value :=
  match input with
  | .string text =>
    if values.contains text then .ok (.string text)
    else .fail [] ["enum"] (.notListed values text)
  | input => .fail [] ["enum"] (.expected "string" input.kind)

/-- A report on the value of a field. -/
def fieldReport (key : String) (report : Report Value) : Report (String × Value) :=
  report.map fun value => (key, value)

/-- What is wrong with the keys of an object that a strict shape does not have; the tag of a union
is not among them. -/
def undeclaredReports (shape : Shape) (tag : Option String) (entries : Entries Json) :
    List (Report (String × Value)) :=
  if shape.strict then
    entries.filterMap fun (key, _) =>
      if shape.declares key || some key = tag then none
      else some (.fail [key] [] (.undeclared key))
  else []

mutual

/-- **Decodes along a node.** -/
def Node.decode (reading : Reading) (follow : Nat → Json → Walk (Report Value)) :
    Node → Json → Walk (Report Value)
  | ⟨kind, nullable⟩, input =>
    if input.isNull && nullable then some (.ok .null) else kind.decode reading follow input

/-- Decodes along what a node demands. -/
def Kind.decode (reading : Reading) (follow : Nat → Json → Walk (Report Value)) :
    Kind → Json → Walk (Report Value)
  | .scalar kind, input => some (decodeScalar reading kind input)
  | .enumeration values, input => some (decodeListed values input)
  | .object shape, input => do
    let fields ← shape.decode reading follow none input
    return fields.map .object
  | .array element, input =>
    match input with
    | .array items => do
      let reports ← items.zipIdx.mapM fun (item, i) => do
        let report ← element.decode reading follow item
        return report.under [toString i] ["elements"]
      return (Report.gather reports).map .array
    | input => some (.fail [] ["elements"] (.expected "array" input.kind))
  | .record value, input =>
    match input with
    | .object entries => do
      let reports ← entries.mapM fun (key, item) => do
        let report ← value.decode reading follow item
        return fieldReport key (report.under [key] ["values"])
      return (Report.gather reports).map .object
    | input => some (.fail [] ["values"] (.expected "object" input.kind))
  | .union tag variants, input =>
    match input with
    | .object entries =>
      match entries.lookup tag with
      | some (.string name) => do
        match ← decodeVariant reading follow tag name variants input with
        | some report => return report
        | none =>
          return .fail [tag] ["mapping"] (.unknownVariant name (some (Entries.keys variants)))
      | some other => some (.fail [tag] ["discriminator"] (.expected "string" other.kind))
      | none => some (.fail [tag] ["discriminator"] (.missingTag tag))
    | input => some (.fail [] ["discriminator"] (.expected "object" input.kind))
  | .ref index, input => follow index input

/-- Decodes the fields of an object along a shape. In a variant of a union the tag stands beside
them. -/
def Shape.decode (reading : Reading) (follow : Nat → Json → Walk (Report Value))
    (tag : Option String) : Shape → Json → Walk (Report (Entries Value))
  | ⟨required, optional, strict⟩, input =>
    match input with
    | .object entries => do
      let present ← decodeRequired reading follow entries required
      let further ← decodeOptional reading follow entries optional
      let undeclared := undeclaredReports ⟨required, optional, strict⟩ tag entries
      return (Report.gather (present ++ further ++ undeclared)).map Entries.ofList
    | input => some (.fail [] ["properties"] (.expected "object" input.kind))

/-- Decodes the properties that have to be there. -/
def decodeRequired (reading : Reading) (follow : Nat → Json → Walk (Report Value))
    (entries : Entries Json) : List (String × Node) → Walk (List (Report (String × Value)))
  | [] => some []
  | (key, node) :: rest => do
    let report ← match entries.lookup key with
      | some item => do
        let report ← node.decode reading follow item
        pure (fieldReport key (report.under [key] ["properties", key]))
      | none => pure (.fail [] ["properties", key] (.missing key))
    let reports ← decodeRequired reading follow entries rest
    return report :: reports

/-- Decodes the properties that may be there. -/
def decodeOptional (reading : Reading) (follow : Nat → Json → Walk (Report Value))
    (entries : Entries Json) : List (String × Node) → Walk (List (Report (String × Value)))
  | [] => some []
  | (key, node) :: rest => do
    match entries.lookup key with
    | some item =>
      let report ← node.decode reading follow item
      let reports ← decodeOptional reading follow entries rest
      return fieldReport key (report.under [key] ["optionalProperties", key]) :: reports
    | none => decodeOptional reading follow entries rest

/-- Decodes along the variant with a name, if there is one. -/
def decodeVariant (reading : Reading) (follow : Nat → Json → Walk (Report Value))
    (tag name : String) : List (String × Shape) → Json → Walk (Option (Report Value))
  | [], _ => some none
  | (other, shape) :: rest, input =>
    if other == name then do
      let fields ← shape.decode reading follow (some tag) input
      return some ((fields.under [] ["mapping", name]).map (.variant name))
    else decodeVariant reading follow tag name rest input

end

/-- Decodes along the model at a position, following so many references at most. -/
def decodeModel (program : Program) (reading : Reading) : Nat → Nat → Json → Walk (Report Value)
  | 0, _, _ => none
  | steps + 1, index, input =>
    match program.models[index]? with
    | some node => node.decode reading (decodeModel program reading steps) input
    | none => none

/-- **Decodes along a program.** -/
def decode (program : Program) (reading : Reading) (input : Json) : Walk (Report Value) :=
  program.root.decode reading (decodeModel program reading (program.budget input.depth)) input

end RpcSchema.Program
