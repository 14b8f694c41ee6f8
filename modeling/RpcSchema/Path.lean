set_option autoImplicit false

/-!
# Paths into a document

The errors of reading a document say where they arose by the keys and positions that lead there:
`properties.tags.elements`, `enum[0]`.

## Main definitions

* `RpcSchema.Path` — the steps from the root of a document to a place in it.
* `RpcSchema.Path.text` — its text: keys joined by points, positions in brackets.
-/

namespace RpcSchema

/-- One step into a document. -/
inductive Step
  /-- To the value under a key. -/
  | key (name : String)
  /-- To the item at a position. -/
  | index (position : Nat)
  /-- To an entry whose key could not be read. -/
  | unknown
deriving DecidableEq

/-- **A path**: the steps from the root inwards. -/
abbrev Path : Type := List Step

namespace Path

/-- A step after others: a point stands before a key, and nothing before a bracket. -/
def stepText : Step → String
  | .key name => "." ++ name
  | .index position => "[" ++ toString position ++ "]"
  | .unknown => ".?"

/-- A step at the root, without a point. -/
def firstText : Step → String
  | .key name => name
  | .index position => stepText (.index position)
  | .unknown => "?"

/-- **The text of a path**: keys joined by points, positions in brackets. -/
def text : Path → String
  | [] => ""
  | first :: rest => firstText first ++ String.join (rest.map stepText)

/-- The text of a path below a place that is itself given by a text. -/
def textFrom (root : String) (path : Path) : String :=
  if root = "" then path.text else root ++ String.join (path.map stepText)

end Path

end RpcSchema
