import RpcSchema.Text.Split

set_option autoImplicit false

/-!
# Paths of files

A path is a text whose segments stand between slashes. Empty segments say nothing, and neither does
a point, unless it comes first.

## Main definitions

* `RpcSchema.Location.join` — a path taken from another.
* `RpcSchema.Location.parent?` — the path without its last segment.
-/

namespace RpcSchema.Location

/-- Whether a path begins at the root. -/
def isAbsolute (path : String) : Bool := path.startsWith "/"

/-- **A path taken from another**: an absolute one stays as it is. -/
def join (directory file : String) : String :=
  if isAbsolute file then file
  else if directory = "" || directory.endsWith "/" then directory ++ file
  else directory ++ "/" ++ file

/-- Whether the segment of a path behind the root or behind another segment says anything. -/
def isStep (segment : String) : Bool := segment ≠ "" && segment ≠ "."

/-- The segments, the last of them being listed first, behind those that say nothing. The first
segment of a path that does not begin at the root says something unless it is empty. -/
def dropIdle (absolute : Bool) : List String → List String
  | [] => []
  | segment :: rest =>
    if isStep segment || (!absolute && rest.isEmpty && segment ≠ "") then segment :: rest
    else dropIdle absolute rest

/-- **The path without its last segment.** A path without segments has none. -/
def parent? (path : String) : Option String :=
  let absolute := isAbsolute path
  let segments := Text.split '/' path
  let segments := (if absolute then segments.drop 1 else segments).reverse
  match dropIdle absolute segments with
  | [] => none
  | _ :: rest =>
    let kept := "/".intercalate (dropIdle absolute rest).reverse
    some (if absolute then "/" ++ kept else kept)

end RpcSchema.Location
