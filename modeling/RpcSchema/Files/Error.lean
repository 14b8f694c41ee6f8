set_option autoImplicit false

/-!
# Why an operation on files fails

## Main definitions

* `RpcSchema.OsError` — the reasons, and `RpcSchema.OsError.message` in the words of the system.
-/

namespace RpcSchema

/-- **Why an operation on files fails.** -/
inductive OsError
  | notFound
  | alreadyThere
  | notDirectory
  | isDirectory
  /-- For another reason, which is given. -/
  | other (message : String)
deriving DecidableEq

/-- What an error is called. -/
def OsError.message : OsError → String
  | .notFound => "No such file or directory (os error 2)"
  | .alreadyThere => "File exists (os error 17)"
  | .notDirectory => "Not a directory (os error 20)"
  | .isDirectory => "Is a directory (os error 21)"
  | .other message => message

end RpcSchema
