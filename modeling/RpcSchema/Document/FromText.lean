import RpcSchema.Document.Error
import RpcSchema.Document.Format
import RpcSchema.Json.Reader

set_option autoImplicit false

/-!
# Documents as text

A document is read from text against its format: what does not fit is found while reading, so that
a wrong kind of value in the first line comes before a missing bracket in the last. The result is
the document with the fields it knows, by their names; values under other keys are passed over.

## Main definitions

* `RpcSchema.Format.readText` — reads what a format describes at an offset.
* `RpcSchema.Record.ofText` — reads a whole text that holds a record.
-/

namespace RpcSchema

open Json (Text SyntaxFault)

namespace DocumentText

/-- A fault found after the first `offset` bytes. -/
def failAt {α : Type} (text : Text) (offset : Nat) (fault : ReadFault) : Except ReadError α :=
  .error { fault := fault, position := some (text.position offset) }

/-- A result of the tokens as a result of the document. -/
def lift {α : Type} : Except Json.SyntaxError α → Except ReadError α
  | .ok value => .ok value
  | .error error => .error (.ofSyntax error)

/-- **A value of another kind than expected.** A scalar is read to be described, and the position
is behind it; in front of a bracket the position is that of the bracket. -/
def unexpected {α : Type} (text : Text) (offset : Nat) (expected : String) :
    Except ReadError α := do
  let b := text.byte offset
  if b = 91 then failAt text offset (.invalidType "sequence" expected)
  else if b = 123 then failAt text offset (.invalidType "map" expected)
  else
    let (value, next) ← lift (text.scalar offset)
    failAt text next (.invalidType value.describe expected)

/-- The place where an error of a whole object or array is reported: behind its closing byte if
that is what comes next. -/
def behind (text : Text) (closing : UInt8) (offset : Nat) : Nat :=
  let offset := text.skipBlank offset
  if text.byte offset = closing then offset + 1 else offset

/-- A name from a fixed list, at its opening quote. -/
def readName (text : Text) (names : List String) (offset : Nat) :
    Except ReadError (String × Nat) := do
  let offset := text.skipBlank offset
  match text.byte? offset with
  | none => lift (text.failOn offset .endInValue)
  | some b =>
    if b ≠ 34 then unexpected text offset "variant identifier"
    else
      let (name, next) ← lift (text.string (offset + 1))
      if names.contains name then return (name, next)
      else failAt text next (.unknownVariant name names)

/-- A name given as an object with the name as its only key and `null` as the value, behind its
opening brace. -/
def readNameObject (text : Text) (names : List String) (offset : Nat) :
    Except ReadError (Json × Nat) := do
  let (name, next) ← readName text names offset
  let start ← lift (text.colon next)
  let start := text.skipBlank start
  let next ← ReadError.locate (.key name) <|
    match text.byte? start with
    | none => lift (text.failOn start .endInValue)
    | some b =>
      if b = 110 then lift (text.word Text.nullRest (start + 1))
      else unexpected text start "unit"
  let next := text.skipBlank next
  match text.byte? next with
  | none => lift (text.failAt next .endInObject)
  | some b =>
    if b = 125 then return (.string name, next + 1)
    else lift (text.failAt next .expectedValue)

/-- A name from a fixed list: a text, or an object with the name as its only key. -/
def readChoice (text : Text) (room : Nat) (names : List String) (offset : Nat) :
    Except ReadError (Json × Nat) :=
  match text.byte? offset with
  | none => lift (text.failOn offset .endInValue)
  | some b =>
    if b = 123 then
      if room ≤ 1 then lift (text.failOn offset .nestingLimit)
      else readNameObject text names (offset + 1)
    else if b = 34 then (readName text names offset).map fun (name, next) => (.string name, next)
    else lift (text.failOn offset .expectedValue)

/-- The first field that has to be there and is not. -/
def missing? (record : Record) (done : Entries Json) : Option String :=
  (record.fields.find? fun field => field.required && !done.contains field.name).map (·.name)

end DocumentText

open DocumentText

mutual

/-- **Reads what a format describes** at an offset, with `room` for that many arrays and objects
less one. -/
def Format.readText (text : Text) (fuel room : Nat) (format : Format) (offset : Nat) :
    Except ReadError (Json × Nat) :=
  match fuel with
  | 0 => lift (text.failAt text.size .endInValue)
  | fuel + 1 =>
    let offset := text.skipBlank offset
    match format with
    | .optional inner =>
      if text.byte offset = 110 then
        lift ((text.word Text.nullRest (offset + 1)).map fun next => (.null, next))
      else inner.readText text fuel room offset
    | .choice names => readChoice text room names offset
    | .text =>
      if text.byte offset = 34 then
        lift ((text.string (offset + 1)).map fun (value, next) => (.string value, next))
      else unexpected text offset "a string"
    | .flag =>
      let b := text.byte offset
      if b = 116 || b = 102 then lift (text.scalar offset)
      else unexpected text offset "a boolean"
    | .list item =>
      if text.byte offset ≠ 91 then unexpected text offset "a sequence"
      else if room ≤ 1 then lift (text.failOn offset .nestingLimit)
      else item.readItems text fuel (room - 1) [] (offset + 1)
    | .map value =>
      if text.byte offset ≠ 123 then unexpected text offset "a map"
      else if room ≤ 1 then lift (text.failOn offset .nestingLimit)
      else value.readEntries text fuel (room - 1) [] true (offset + 1)
    | .record record =>
      let b := text.byte offset
      if b ≠ 91 && b ≠ 123 then unexpected text offset record.title
      else if room ≤ 1 then lift (text.failOn offset .nestingLimit)
      else if b = 91 then
        record.readPositions text fuel (room - 1) [] 0 record.fields (offset + 1)
      else record.readFields text fuel (room - 1) [] true (offset + 1)

/-- Reads the items of a list from behind the last one; `done` holds those in reverse. -/
def Format.readItems (text : Text) (fuel room : Nat) (format : Format) (done : List Json)
    (offset : Nat) : Except ReadError (Json × Nat) :=
  match fuel with
  | 0 => lift (text.failAt text.size .endInList)
  | fuel + 1 =>
    match lift (text.nextItem done.isEmpty offset) with
    | .error e => .error e
    | .ok none => lift ((text.closeArray offset).map fun next => (.array done.reverse, next))
    | .ok (some start) =>
      match ReadError.locate (.index done.length) (format.readText text fuel room start) with
      | .error e => .error e
      | .ok (item, next) => format.readItems text fuel room (item :: done) next

/-- Reads the entries of a map from behind the last one. -/
def Format.readEntries (text : Text) (fuel room : Nat) (format : Format) (done : Entries Json)
    (first : Bool) (offset : Nat) : Except ReadError (Json × Nat) :=
  match fuel with
  | 0 => lift (text.failAt text.size .endInObject)
  | fuel + 1 =>
    match ReadError.locate .unknown (lift (text.nextKey first offset)) with
    | .error e => .error e
    | .ok none => lift ((text.closeObject offset).map fun next => (.object done, next))
    | .ok (some start) =>
      match ReadError.locate .unknown (lift (text.string start)) with
      | .error e => .error e
      | .ok (key, afterKey) =>
        let value := ReadError.locate (.key key) <|
          match text.colon afterKey with
          | .error e => .error (.ofSyntax e)
          | .ok start => format.readText text fuel room start
        match value with
        | .error e => .error e
        | .ok (value, next) =>
          format.readEntries text fuel room (Entries.insert done key value) false next

/-- Reads the fields of a record from behind the last one. A field may come once, a key of no
field is passed over with its value, and at the end the fields that have to be there are missed in
order of declaration. -/
def Record.readFields (text : Text) (fuel room : Nat) (record : Record) (done : Entries Json)
    (first : Bool) (offset : Nat) : Except ReadError (Json × Nat) :=
  match fuel with
  | 0 => lift (text.failAt text.size .endInObject)
  | fuel + 1 =>
    match ReadError.locate .unknown (lift (text.nextKey first offset)) with
    | .error e => .error e
    | .ok none =>
      match missing? record done with
      | some name => failAt text (behind text 125 offset) (.missingField name)
      | none => lift ((text.closeObject offset).map fun next => (.object done, next))
    | .ok (some start) =>
      match ReadError.locate .unknown (lift (text.string start)) with
      | .error e => .error e
      | .ok (key, afterKey) =>
        match record.field? key with
        | none =>
          let skipped := ReadError.locate (.key key) <| lift <| do
            text.skipValue (← text.colon afterKey)
          match skipped with
          | .error e => .error e
          | .ok next => record.readFields text fuel room done false next
        | some field =>
          if done.contains field.name then
            failAt text (behind text 125 afterKey) (.duplicateField field.name)
          else
            let value := ReadError.locate (.key key) <|
              match text.colon afterKey with
              | .error e => .error (.ofSyntax e)
              | .ok start => field.format.readText text fuel room start
            match value with
            | .error e => .error e
            | .ok (value, next) =>
              record.readFields text fuel room (done ++ [(field.name, value)]) false next

/-- Reads the fields of a record that is written as an array, from behind the last one. -/
def Record.readPositions (text : Text) (fuel room : Nat) (record : Record) (done : Entries Json)
    (position : Nat) (left : List Field) (offset : Nat) : Except ReadError (Json × Nat) :=
  match fuel, left with
  | 0, _ => lift (text.failAt text.size .endInList)
  | _, [] => lift ((text.closeArray offset).map fun next => (.object done, next))
  | fuel + 1, field :: left =>
    match lift (text.nextItem (position == 0) offset) with
    | .error e => .error e
    | .ok none =>
      if field.required then
        failAt text (behind text 93 offset) (.invalidLength position record.lengthText)
      else record.readPositions text fuel room done (position + 1) left offset
    | .ok (some start) =>
      match ReadError.locate (.index position) (field.format.readText text fuel room start) with
      | .error e => .error e
      | .ok (value, next) =>
        record.readPositions text fuel room (done ++ [(field.name, value)]) (position + 1) left
          next

end

/-- **Reads a whole text that holds a record**, and gives the record as a document with the fields
it knows. -/
def Record.ofText (record : Record) (source : String) : Except ReadError Json := do
  let text : Text := source.toUTF8
  let (value, offset) ←
    (Format.record record).readText text (8 * text.size + 64) Json.nestingLimit 0
  lift (text.finish offset)
  return value

end RpcSchema
