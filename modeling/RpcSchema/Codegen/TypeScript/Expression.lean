import RpcSchema.Codegen.Backend

set_option autoImplicit false

/-!
# Expressions for types and values in TypeScript

Every type has an expression for itself and three for values: one that reads a value leniently, one
that writes it as the text of a document, and one that says whether it belongs to the type. A type
that is declared has these as methods of an object called `$$` and its name.

## Main definitions

* `RpcSchema.TypeScript.ScalarCode` — the expressions for a kind of scalars.
* `RpcSchema.TypeScript.named` — the code for a use of a declared type.
* `RpcSchema.TypeScript.scalar`, `RpcSchema.TypeScript.array`, `RpcSchema.TypeScript.record` — the
  code for types without a declaration.
-/

namespace RpcSchema.TypeScript

/-- An expression for a type, or for the same type with `null`. -/
def orNull (nullable : Bool) (type : String) : String :=
  if nullable then type ++ " | null" else type

/-- The name of the object with the methods of a declared type. -/
def helperName (name : String) : String := "$$" ++ name

/-- **The code for a use of a declared type.** -/
def named (context : NodeContext) : Bundle :=
  let helper := helperName context.typeName
  { typeName := context.typeName
    field := orNull context.nullable context.typeName
    parse := fun v =>
      if context.nullable then
        s!"({v} === null || {v} === undefined ? null : {helper}.parse({v}))"
      else s!"{helper}.parse({v})"
    serialize := fun v =>
      if context.nullable then s!"({v} === null ? \"null\" : {helper}.serialize({v}))"
      else s!"{helper}.serialize({v})"
    validate := fun v =>
      if context.nullable then s!"({v} === null || {helper}.validate({v}))"
      else s!"{helper}.validate({v})" }

/-! ## Types without a declaration -/

/-- The expressions for writing and for the question whether a value belongs to a type, or for the
same type with `null`. -/
def withNullBranch (bundle : Bundle) (nullable : Bool) (validate serialize : String → String) :
    Bundle :=
  if nullable then
    { bundle with
      validate := fun v => s!"({validate v} || {v} === null)"
      serialize := fun v => s!"({v} === null ? \"null\" : {serialize v})" }
  else { bundle with validate, serialize }

/-- **The expressions for a kind of scalars.** -/
structure ScalarCode where
  type : String
  /-- Whether an input can be converted. -/
  accepts : String → String
  convert : String → String
  default : String
  validate : String → String
  serialize : String → String

/-- The test that a value is of a type of the language. -/
def isOfType (type v : String) : String := s!"typeof {v} === \"{type}\""

/-- The test that a value is a whole number. -/
def isInteger (v : String) : String := s!"typeof {v} === \"number\" && Number.isInteger({v})"

/-- The test that a value is an integer of a kind. -/
def isBounded (kind : ScalarKind) (v : String) : String :=
  match kind.bounds? with
  | none => isInteger v
  | some (least, greatest) =>
    let least := Json.wholeText least
    let greatest := Json.wholeText greatest
    if kind.is64Bit then
      s!"typeof {v} === \"bigint\" && {v} >= BigInt(\"{least}\") && {v} <= BigInt(\"{greatest}\")"
    else s!"{isInteger v} && {v} >= {least} && {v} <= {greatest}"

/-- The expression that writes a value of the language as it is. -/
def stringify (v : String) : String := s!"JSON.stringify({v})"

/-- The expressions for the kinds of numbers, with a test. -/
def numberCode (accepts validate : String → String) : ScalarCode :=
  { type := "number", accepts, convert := id, default := "0", validate, serialize := stringify }

/-- The expressions for the kinds of integers of 64 bits, with a pattern for their digits. -/
def bigintCode (kind : ScalarKind) (digits : String) : ScalarCode :=
  { type := "bigint"
    accepts := fun v =>
      s!"((typeof {v} === \"string\" && {digits}.test({v})) || typeof {v} === \"bigint\")"
    convert := fun v => s!"BigInt({v})"
    default := "BigInt(0)"
    validate := isBounded kind
    serialize := fun v => s!"JSON.stringify({v}.toString())" }

/-- The expressions for a kind. -/
def scalarCode (kind : ScalarKind) : ScalarCode :=
  match kind with
  | .boolean =>
    { type := "boolean", accepts := isOfType "boolean", convert := id, default := "false"
      validate := isOfType "boolean", serialize := fun v => s!"({v} ? \"true\" : \"false\")" }
  | .string =>
    { type := "string", accepts := isOfType "string", convert := id, default := "\"\""
      validate := isOfType "string", serialize := stringify }
  | .timestamp =>
    { type := "Date"
      accepts := fun v => s!"(typeof {v} === \"string\" || {v} instanceof Date)"
      convert := fun v => s!"new Date({v})"
      default := "new Date(0)"
      validate := fun v => s!"{v} instanceof Date"
      serialize := fun v => s!"JSON.stringify({v}.toISOString())" }
  | .float32 | .float64 => numberCode (isOfType "number") (isOfType "number")
  | .int64 => bigintCode kind "/^-?\\d+$/"
  | .uint64 => bigintCode kind "/^\\d+$/"
  | kind => numberCode isInteger (isBounded kind)

/-- The code for a scalar. -/
def scalar (context : NodeContext) (kind : ScalarKind) : Bundle :=
  let code := scalarCode kind
  let fallback := if context.nullable then "null" else code.default
  withNullBranch
    { typeName := kind.name
      field := orNull context.nullable code.type
      parse := fun v => s!"({code.accepts v} ? {code.convert v} : {fallback})" }
    context.nullable code.validate code.serialize

/-- An expression for the type of lists of a type. One with blanks in it goes between angle
brackets. -/
def arrayType (element : String) : String :=
  if element.toList.contains ' ' then "Array<" ++ element ++ ">" else element ++ "[]"

/-- The code for a list. -/
def array (context : NodeContext) (element : Bundle) : Bundle :=
  let type := arrayType element.field
  let fallback := if context.nullable then "null" else "[]"
  let parsed := element.parse "item"
  let valid := element.validate "item"
  let written := element.serialize "item"
  withNullBranch
    { typeName := type
      field := orNull context.nullable type
      parse := fun v =>
        s!"(Array.isArray({v}) ? {v}.map((item: any) => {parsed}) : {fallback})" }
    context.nullable
    (fun v => s!"(Array.isArray({v}) && {v}.every((item: any) => {valid}))")
    (fun v => s!"(\"[\" + {v}.map((item) => {written}).join(\",\") + \"]\")")

/-- An expression for the type of maps to a type. -/
def recordType (value : String) : String := "Record<string, " ++ value ++ ">"

/-- The code for a map. -/
def record (context : NodeContext) (value : Bundle) : Bundle :=
  let type := recordType value.field
  let fallback := if context.nullable then "null" else "\x7b\x7d"
  let parsed := value.parse "value"
  let valid := value.validate "value"
  let written := value.serialize "value"
  withNullBranch
    { typeName := type
      field := orNull context.nullable type
      parse := fun v =>
        s!"(isObject({v}) ? Object.fromEntries(Object.entries({v}).map(" ++
          s!"([key, value]) => [key, {parsed}])) : {fallback})" }
    context.nullable
    (fun v => s!"(isObject({v}) && Object.values({v}).every((value: any) => {valid}))")
    (fun v =>
      s!"(\"\x7b\" + Object.entries({v}).map(([key, value]) => JSON.stringify(key) + \":\" + " ++
        s!"{written}).join(\",\") + \"\x7d\")")

end RpcSchema.TypeScript
