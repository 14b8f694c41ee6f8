import RpcSchema.Entries
import RpcSchema.Procedure.Basic

set_option autoImplicit false

/-!
# The tree of procedures

Procedures are listed under keys such as `posts.comments.get`. The segments of the keys make up a
tree: a service for every prefix, a procedure at the end of every key. A key cannot be both.

## Main definitions

* `RpcSchema.Service` — a level of the tree.
* `RpcSchema.Service.insert` — adds a procedure under a key.
* `RpcSchema.Service.add` — the same in place, where the tree is changed on the way down.
* `RpcSchema.Service.find?` — the entry at a path.
* `RpcSchema.Service.ofProcedures`, `RpcSchema.Service.flatten` — from a map and back.
-/

namespace RpcSchema

mutual

/-- An entry of the tree. -/
inductive Branch
  | procedure (procedure : Procedure)
  | service (service : Service)

/-- **A level of the tree of procedures**: its entries by the segment that leads to them. -/
structure Service where
  children : List (String × Branch)

end

/-- Why a procedure cannot be added to a tree. -/
inductive TreeError
  /-- At a prefix of the key, or at the key itself, there is something else already. -/
  | collision (key place : String)
  | emptySegment (key : String)
deriving DecidableEq

/-- What an error is called. -/
def TreeError.message : TreeError → String
  | .collision key place =>
    "Procedure '" ++ key ++ "' collides with an existing entry at '" ++ place ++ "'"
  | .emptySegment key => "Procedure key '" ++ key ++ "' contains an empty segment"

namespace Service

/-- The tree without entries. -/
def empty : Service := ⟨[]⟩

/-! ## Insertion -/

/-- The branch made of services for all the segments but the last, under which the procedure is. -/
def path (procedure : Procedure) : List String → Branch
  | [] => .procedure procedure
  | segment :: rest => .service ⟨[(segment, path procedure rest)]⟩

/-- Adds a procedure under segments. If that is not possible, gives how many segments lead to the
entry that is in the way. -/
def insertSegments (procedure : Procedure) :
    List String → List (String × Branch) → Except Nat (List (String × Branch))
  | [], children => .ok children
  | segment :: rest, children =>
    match children.lookup segment, rest with
    | none, _ => .ok (Entries.insert children segment (path procedure rest))
    | some (.service service), _ :: _ =>
      match insertSegments procedure rest service.children with
      | .ok inner => .ok (Entries.insert children segment (.service ⟨inner⟩))
      | .error depth => .error (depth + 1)
    | some _, _ => .error 1

/-- **Adds a procedure under a key**, with the services that lead to it. -/
def insert (service : Service) (key : String) (procedure : Procedure) :
    Except TreeError Service :=
  let segments := Procedure.segments key
  if segments.any (· == "") then .error (.emptySegment key)
  else
    match insertSegments procedure segments service.children with
    | .ok children => .ok ⟨children⟩
    | .error depth => .error (.collision key (".".intercalate (segments.take depth)))

/-! ## Insertion in place -/

/-- The entries with a service under a segment, which is a new one if nothing is there. -/
def opened (children : List (String × Branch)) (segment : String) : List (String × Branch) :=
  if Entries.contains children segment then children
  else Entries.insert children segment (.service empty)

/-- Adds a procedure under segments in place. Services that are missing are made on the way down,
before it is known whether anything is in the way further below. Gives the outcome and the entries
as they are then, also if it fails. -/
def addSegments (procedure : Procedure) :
    List String → List (String × Branch) → Except Nat Unit × List (String × Branch)
  | [], children => (.ok (), children)
  | [segment], children =>
    if Entries.contains children segment then (.error 1, children)
    else (.ok (), Entries.insert children segment (.procedure procedure))
  | segment :: next :: rest, children =>
    match (opened children segment).lookup segment with
    | some (.service service) =>
      let (outcome, inner) := addSegments procedure (next :: rest) service.children
      (outcome.mapError (· + 1),
        Entries.insert (opened children segment) segment (.service ⟨inner⟩))
    | _ => (.error 1, opened children segment)

/-- **Adds a procedure under a key in place.** Gives the outcome and the tree as it is then, also if
it fails. -/
def add (service : Service) (key : String) (procedure : Procedure) :
    Except TreeError Unit × Service :=
  let segments := Procedure.segments key
  if segments.any (· == "") then (.error (.emptySegment key), service)
  else
    match addSegments procedure segments service.children with
    | (.ok (), children) => (.ok (), ⟨children⟩)
    | (.error depth, children) =>
      (.error (.collision key (".".intercalate (segments.take depth))), ⟨children⟩)

/-! ## Look-up -/

/-- The entry that segments lead to. -/
def findSegments : List (String × Branch) → List String → Option Branch
  | _, [] => none
  | children, [segment] => children.lookup segment
  | children, segment :: rest =>
    match children.lookup segment with
    | some (.service service) => findSegments service.children rest
    | _ => none

/-- **The entry at a path** of segments joined by points. -/
def find? (service : Service) (path : String) : Option Branch :=
  findSegments service.children (Procedure.segments path)

/-- The procedures of this level. -/
def procedures (service : Service) : Entries Procedure :=
  service.children.filterMap fun (key, branch) =>
    match branch with
    | .procedure procedure => some (key, procedure)
    | .service _ => none

/-- The services of this level. -/
def services (service : Service) : Entries Service :=
  service.children.filterMap fun (key, branch) =>
    match branch with
    | .procedure _ => none
    | .service service => some (key, service)

/-! ## Maps of procedures -/

/-- **The tree of a map of procedures**, which are added in order. -/
def ofProcedures (procedures : Entries Procedure) : Except TreeError Service :=
  procedures.foldlM (fun service (key, procedure) => service.insert key procedure) empty

/-- A key below a prefix. -/
def keyBelow (outer segment : String) : String :=
  if outer = "" then segment else outer ++ "." ++ segment

mutual

/-- The procedures of an entry, under the key that leads to it. -/
def flattenBranch (key : String) : Branch → Entries Procedure
  | .procedure procedure => [(key, procedure)]
  | .service ⟨children⟩ => flattenChildren key children

/-- The procedures of the entries of a level, under their keys. -/
def flattenChildren (outer : String) : List (String × Branch) → Entries Procedure
  | [] => []
  | (segment, branch) :: rest =>
    flattenBranch (keyBelow outer segment) branch ++ flattenChildren outer rest

end

/-- **The procedures of a tree** under their keys. -/
def flatten (service : Service) : Entries Procedure :=
  Entries.ofList (flattenChildren "" service.children)

end Service

end RpcSchema
