import RpcSchema.Codegen.TypeScript.DocComment
import RpcSchema.Codegen.TypeScript.Expression

set_option autoImplicit false

/-!
# Declarations in TypeScript

A declaration consists of a type and of an object with three methods: one that says whether an input
belongs to the type, one that reads an input leniently, and one that writes a value.

## Main definitions

* `RpcSchema.TypeScript.Methods` — the statements of the three methods.
* `RpcSchema.TypeScript.enumeration`, `RpcSchema.TypeScript.object`, `RpcSchema.TypeScript.union` —
  the code for the types that are declared.
* `RpcSchema.TypeScript.backend` — the backend.
-/

namespace RpcSchema.TypeScript

/-- **The statements of the three methods**, line by line. -/
structure Methods where
  validate : List String
  parse : List String
  serialize : List String

/-- The statements of a method inside an object. -/
def methodBody (config : GeneratorConfig) (lines : List String) : String :=
  String.join (lines.map fun line => config.indentation 2 ++ line ++ "\n")

/-- The object with the methods of a type. -/
def helper (config : GeneratorConfig) (name : String) (methods : Methods) : String :=
  let i1 := config.indentation 1
  s!"export const {helperName name} = \x7b\n" ++
    s!"{i1}validate(input: unknown): input is {name} \x7b\n" ++
    methodBody config methods.validate ++
    s!"{i1}\x7d,\n" ++
    s!"{i1}parse(input: unknown): {name} \x7b\n" ++
    methodBody config methods.parse ++
    s!"{i1}\x7d,\n" ++
    s!"{i1}serialize(input: {name}): string \x7b\n" ++
    methodBody config methods.serialize ++
    s!"{i1}\x7d,\n" ++
    "\x7d;"

/-- The code for a type with its declaration: a comment, the type, and the methods. -/
def declared (config : GeneratorConfig) (context : NodeContext) (type : String)
    (methods : Methods) : Bundle :=
  { named context with
    declaration := some (docComment config context.metadata 0 ++ type ++ "\n" ++
      helper config context.typeName methods) }

/-! ## Enumerations -/

/-- The code for an enumeration. -/
def enumeration (config : GeneratorConfig) (context : NodeContext) (values : List String) :
    Bundle :=
  let name := context.typeName
  let literals := values.map Json.quote
  let first := literals.head?.getD "\"\""
  let listed := ", ".intercalate literals
  let type := " | ".intercalate literals
  declared config context s!"export type {name} = {type};"
    { validate := [s!"return typeof input === \"string\" && [{listed}].includes(input);"]
      parse := [s!"return {helperName name}.validate(input) ? input : {first};"]
      serialize := ["return JSON.stringify(input);"] }

/-! ## Objects -/

/-- What the declaration of an object says about a property: the property of the type, the check
that it is right, how it is read and how it is written. One that may be missing is read by a
statement of its own, any other inside an object literal. -/
structure Member where
  field : String
  check : String
  assigned : Option String
  readIfPresent : Option String
  part : String

/-- The tag of a variant as a member. -/
def tagMember (config : GeneratorConfig) (tag : TagField) : Member :=
  let i1 := config.indentation 1
  let value := Json.quote tag.value
  let key := Naming.propertyKey tag.key
  let input := Naming.accessor "input" tag.key
  let wire := Json.quote (Json.quote tag.key ++ ":" ++ value)
  { field := s!"{i1}{key}: {value};\n"
    check := s!"{input} === {value}"
    assigned := some s!"{i1}{key}: {value},"
    readIfPresent := none
    part := s!"parts.push({wire});" }

/-- A property as a member. -/
def propertyMember (config : GeneratorConfig) (property : Property) : Member :=
  let i1 := config.indentation 1
  let bundle := property.bundle
  let key := Naming.propertyKey property.key
  let input := Naming.accessor "input" property.key
  let obj := Naming.accessor "obj" property.key
  let result := Naming.accessor "result" property.key
  let wire := Json.quote (Json.quote property.key ++ ":")
  let doc := docComment config property.metadata 1
  if property.optional then
    { field := s!"{doc}{i1}{key}?: {bundle.field};\n"
      check := s!"({input} === undefined || {bundle.validate input})"
      assigned := none
      readIfPresent :=
        some s!"if ({obj} !== undefined) \x7b\n{i1}{result} = {bundle.parse obj};\n\x7d"
      part :=
        s!"if ({input} !== undefined) \x7b\n{i1}parts.push({wire} + {bundle.serialize input});\n" ++
          "\x7d" }
  else
    { field := s!"{doc}{i1}{key}: {bundle.field};\n"
      check := bundle.validate input
      assigned := some s!"{i1}{key}: {bundle.parse obj},"
      readIfPresent := none
      part := s!"parts.push({wire} + {bundle.serialize input});" }

/-- The statement that makes an object of an input. -/
def inputAsObject : String :=
  "const obj: Record<string, any> = isObject(input) ? input : \x7b\x7d;"

/-- The lines of statements. -/
def linesOf (statements : List String) : List String := statements.flatMap (Text.split '\n')

/-- The methods of an object with the given members. -/
def objectMethods (config : GeneratorConfig) (name : String) (members : List Member) : Methods :=
  let i1 := config.indentation 1
  let checks := s!" &&\n{i1}".intercalate ("isObject(input)" :: members.map Member.check)
  let assigned := members.filterMap Member.assigned
  { validate := linesOf [s!"return (\n{i1}{checks}\n);"]
    parse := linesOf <|
      [inputAsObject] ++
      (if assigned.isEmpty then [s!"const result: {name} = \x7b\x7d;"]
        else [s!"const result: {name} = \x7b"] ++ assigned ++ ["\x7d;"]) ++
      members.filterMap Member.readIfPresent ++
      ["return result;"]
    serialize := linesOf <|
      ["const parts: string[] = [];"] ++ members.map Member.part ++
      ["return \"\x7b\" + parts.join(\",\") + \"\x7d\";"] }

/-- The code for an object. -/
def object (config : GeneratorConfig) (context : NodeContext) (properties : List Property)
    (tag : Option TagField) : Bundle :=
  let name := context.typeName
  let members := (tag.map (tagMember config)).toList ++ properties.map (propertyMember config)
  declared config context
    (s!"export interface {name} \x7b\n" ++ String.join (members.map Member.field) ++ "\x7d")
    (objectMethods config name members)

/-! ## Unions -/

/-- The branches of a method of a union, which go on to the method of a variant. -/
def unionCases (config : GeneratorConfig) (variants : List (String × Bundle))
    (call argument : String) : List String :=
  variants.flatMap fun (value, bundle) =>
    [s!"{config.indentation 1}case {Json.quote value}:",
      s!"{config.indentation 2}return {helperName bundle.typeName}.{call}({argument});"]

/-- The branches of a method of a union, with another for values of the tag that name no variant. -/
def unionSwitch (config : GeneratorConfig) (variants : List (String × Bundle))
    (subject call argument otherwise : String) : List String :=
  [s!"switch ({subject}) \x7b"] ++ unionCases config variants call argument ++
    [s!"{config.indentation 1}default:", s!"{config.indentation 2}{otherwise}", "\x7d"]

/-- The statement for a value of the tag that names no variant. -/
def throwUnknown (tag name subject : String) : String :=
  let text := Json.quote s!"Unknown \"{tag}\" value for {name}: "
  s!"throw new Error({text} + String({subject}));"

/-- The code for a union. -/
def union (config : GeneratorConfig) (context : NodeContext) (tag : String)
    (variants : List (String × Bundle)) : Bundle :=
  let name := context.typeName
  let names := variants.map fun variant => variant.2.typeName
  let members := " | ".intercalate names
  let type := if members = "" then "never" else members
  let input := Naming.accessor "input" tag
  let obj := Naming.accessor "obj" tag
  declared config context s!"export type {name} = {type};"
    { validate :=
        ["if (!isObject(input)) \x7b", s!"{config.indentation 1}return false;", "\x7d"] ++
          unionSwitch config variants input "validate" "input" "return false;"
      parse :=
        [inputAsObject] ++
          unionSwitch config variants obj "parse" "obj" (throwUnknown tag name obj)
      serialize :=
        unionSwitch config variants input "serialize" "input as any" (throwUnknown tag name input) }

/-! ## The backend -/

/-- The short name of the generator. -/
def generatorId : String := "typescript"

/-- **The backend** of the language. -/
def backend (config : GeneratorConfig) : Backend :=
  { id := generatorId
    name := "TypeScript Client Generator"
    fileExtension := "ts"
    config
    scalar
    enumeration := enumeration config
    object := object config
    array
    record
    union := union config
    reference := named }

end RpcSchema.TypeScript
