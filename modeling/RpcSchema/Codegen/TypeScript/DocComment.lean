import RpcSchema.Codegen.Config
import RpcSchema.Schema.Basic

set_option autoImplicit false

/-!
# Descriptions as comments

A description is written in front of what it describes, as a comment that begins with `/**` and
ends with the next `*/`. So that a description cannot end its comment, a backslash goes between a
star and a slash.

## Main definitions

* `RpcSchema.TypeScript.descriptionLines` — the lines of a description.
* `RpcSchema.TypeScript.guardTerminators` — a line that cannot end a comment.
* `RpcSchema.TypeScript.docComment` — the comment for what is said about a schema.
-/

namespace RpcSchema.TypeScript

/-- The lines of characters that end with a line feed each, or with a carriage return and a line
feed; the characters of the first line are listed in reverse in `current`. What stands behind the
last line feed is a line unless it is empty. -/
def linesFrom : List Char → List Char → List (List Char)
  | [], [] => []
  | current, [] => [current.reverse]
  | current, '\n' :: rest =>
    (match current with
      | '\r' :: current => current.reverse
      | current => current.reverse) :: linesFrom [] rest
  | current, c :: rest => linesFrom (c :: current) rest

/-- The lines of a description. -/
def descriptionLines (text : String) : List (List Char) := linesFrom [] text.toList

/-- A line with a backslash between every star and the slash behind it. -/
def guardTerminators : List Char → List Char
  | '*' :: '/' :: rest => '*' :: '\\' :: '/' :: guardTerminators rest
  | c :: rest => c :: guardTerminators rest
  | [] => []

/-- The lines of a comment. -/
def docLines (metadata : Metadata) : List String :=
  ((metadata.description.map descriptionLines).getD []).map
    (fun line => String.ofList (guardTerminators line)) ++
  (if metadata.deprecated then ["@deprecated"] else [])

/-- **The comment for what is said about a schema**, at a depth of indentation. It is empty when
nothing is said, or when comments are not wanted. -/
def docComment (config : GeneratorConfig) (metadata : Metadata) (depth : Nat) : String :=
  let lines := docLines metadata
  if !config.generateDocs || lines.isEmpty then ""
  else
    let pad := config.indentation depth
    pad ++ "/**\n" ++ String.join (lines.map fun line => pad ++ " * " ++ line ++ "\n") ++
      pad ++ " */\n"

end RpcSchema.TypeScript
