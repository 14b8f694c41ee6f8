import RpcSchema.Binary64.Basic
import RpcSchema.Entries

set_option autoImplicit false

/-!
# TOML documents

## Main definitions

* `RpcSchema.Toml` — a value of a document.
* `RpcSchema.Toml.insertAt` — sets a value under a key with several parts, inside a table.
* `RpcSchema.Toml.openTable`, `RpcSchema.Toml.openItem` — what headers do to a document.
-/

namespace RpcSchema

/-- How a table came about, which decides who may add to it. -/
inductive TableOrigin
  /-- By a header of its own. -/
  | header
  /-- By a header of a table inside it. -/
  | outer
  /-- By a key with several parts. -/
  | dotted
  /-- Between braces. -/
  | inline
deriving DecidableEq

/-- **A value of a TOML document.** -/
inductive Toml
  | text (value : String)
  | integer (value : Int)
  | float (value : Binary64)
  | flag (value : Bool)
  /-- A date, a time, or both, as it is written. -/
  | moment (value : String)
  | array (items : List Toml)
  | table (origin : TableOrigin) (entries : List (String × Toml))
  /-- The tables under headers in double brackets, the last of them first; there is one at
  least. -/
  | tables (items : List (List (String × Toml)))

namespace Toml

instance : Inhabited Toml := ⟨.flag false⟩

/-- The entries of a document or of a table. -/
abbrev Table : Type := Entries Toml

/-- The value under a key. -/
def at? (entries : Table) (key : String) : Option Toml := entries.lookup key

/-! ## Keys with several parts -/

/-- **Sets a value under a key with several parts** inside a table. All but the last part lead to
tables that keys with several parts have opened, or that headers have opened on the way to others;
the last of these has to be of the first sort, and the key itself has to be new. `nested` says
whether a part has been followed already, and `origin` how the table at hand came about. -/
def insertAt (value : Toml) (nested : Bool) (origin : TableOrigin) :
    List String → Table → Option Table
  | [], _ => none
  | [key], here =>
    if (at? here key).isSome || (nested && origin ≠ .dotted) then none
    else some (Entries.insert here key value)
  | part :: rest, here =>
    match at? here part with
    | none => do
      let below ← insertAt value true .dotted rest []
      return Entries.insert here part (.table .dotted below)
    | some (.table inner entries) =>
      if inner = .dotted || inner = .outer then do
        let entries ← insertAt value true inner rest entries
        return Entries.insert here part (.table inner entries)
      else none
    | some (.tables (last :: others)) => do
      let last ← insertAt value true .header rest last
      return Entries.insert here part (.tables (last :: others))
    | some _ => none

/-! ## Headers -/

/-- Changes the table that a header leads to, whose last part is treated by `change`. The tables on
the way are opened where they are not there; of several tables under one key, the last one is
meant. -/
def follow (change : Table → String → Option Table) : List String → Table → Option Table
  | [], _ => none
  | [key], here => change here key
  | part :: rest, here =>
    match at? here part with
    | none => do
      let below ← follow change rest []
      return Entries.insert here part (.table .outer below)
    | some (.table origin entries) =>
      if origin = .inline then none
      else do
        let entries ← follow change rest entries
        return Entries.insert here part (.table origin entries)
    | some (.tables (last :: others)) => do
      let last ← follow change rest last
      return Entries.insert here part (.tables (last :: others))
    | some _ => none

/-- **Opens a table** under a header. A table is opened once; one that only headers of tables
inside it have opened so far counts as not opened. -/
def openTable : List String → Table → Option Table :=
  follow fun here key =>
    match at? here key with
    | none => some (Entries.insert here key (.table .header []))
    | some (.table .outer entries) => some (Entries.insert here key (.table .header entries))
    | some _ => none

/-- **Opens a further table** under a header in double brackets. -/
def openItem : List String → Table → Option Table :=
  follow fun here key =>
    match at? here key with
    | none => some (Entries.insert here key (.tables [[]]))
    | some (.tables items) => some (Entries.insert here key (.tables ([] :: items)))
    | some _ => none

/-- Sets a value under a key inside the table that the last header has opened. -/
def insertBelow (header key : List String) (value : Toml) (document : Table) : Option Table :=
  match header with
  | [] => insertAt value false .header key document
  | _ =>
    follow (fun here last =>
      match at? here last with
      | some (.table origin entries) => do
        let entries ← insertAt value false origin key entries
        return Entries.insert here last (.table origin entries)
      | some (.tables (item :: others)) => do
        let item ← insertAt value false .header key item
        return Entries.insert here last (.tables (item :: others))
      | _ => none) header document

end Toml

end RpcSchema
