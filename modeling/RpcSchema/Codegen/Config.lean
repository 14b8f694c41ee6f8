set_option autoImplicit false

/-!
# How code is laid out

## Main definitions

* `RpcSchema.IndentStyle` — what a step of indentation is.
* `RpcSchema.GeneratorConfig` — the choices that every generator offers.
-/

namespace RpcSchema

/-- **A step of indentation.** -/
inductive IndentStyle
  | twoSpaces
  | fourSpaces
  | tab
deriving DecidableEq

/-- The text of a step of indentation. -/
def IndentStyle.text : IndentStyle → String
  | .twoSpaces => "  "
  | .fourSpaces => "    "
  | .tab => "\t"

/-- **The choices that every generator offers.** -/
structure GeneratorConfig where
  /-- Whether descriptions are written as comments. -/
  generateDocs : Bool := true
  indent : IndentStyle := .twoSpaces
  /-- What is put in front of the name of every type. -/
  typePrefix : String := ""
  /-- Whether a name may stand for one type only. -/
  strictNames : Bool := false
deriving DecidableEq

/-- The indentation at a depth. -/
def GeneratorConfig.indentation (config : GeneratorConfig) (depth : Nat) : String :=
  String.join (List.replicate depth config.indent.text)

end RpcSchema
