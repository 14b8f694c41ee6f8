import RpcSchema.Codegen.TypeScript.Declaration
import RpcSchema.Proofs.Codegen.Succeeding
import RpcSchema.Proofs.Codegen.TypeSyntax

set_option autoImplicit false

/-!
# Expressions for types keep their structure

Types without a declaration are written out where they are used: lists and maps of other types,
any of which may allow `null`. Whether a list is written `T[]` or `Array<T>` is decided by a look at
the text of its element, for a blank. Nothing is lost in this: the expression for the type of a
schema can be read in one way only, and what is read is the structure of the schema, with `null` at
the very levels that allow it.

## Main definitions

* `RpcSchema.TypeScript.TypeStructure` — the structure of a type, and
  `RpcSchema.TypeScript.TypeStructure.text` the expression for it.
* `RpcSchema.TypeScript.TypeExpr.structure?` — what an expression denotes.
* `RpcSchema.TypeScript.IsTypeName` — a word that is free to be the name of a type.
* `RpcSchema.Schema.structure?` — the structure of the type of a schema.
* `RpcSchema.Schema.HasField` — the field text that a generation makes of a schema.

## Main results

* `RpcSchema.TypeScript.exists_reads_text` — the expression for a type is read as the type.
* `RpcSchema.Schema.field_outline` — field texts are expressions for structures.
* `RpcSchema.Schema.Closed.hasField` — closed schemas have field texts.
* `RpcSchema.Schema.field_keeps_structure` — field texts keep the structure of types.
-/

namespace RpcSchema

namespace TypeScript

/-! ## The structure of a type -/

/-- **A type of scalars** of the language, which several kinds may share. -/
inductive ScalarType
  | boolean
  | string
  | number
  | bigint
  | date
deriving DecidableEq

namespace ScalarType

/-- What a type of scalars is called. -/
def text : ScalarType → String
  | boolean => "boolean"
  | string => "string"
  | number => "number"
  | bigint => "bigint"
  | date => "Date"

/-- The type of scalars of a kind. -/
def ofKind : ScalarKind → ScalarType
  | .boolean => boolean
  | .string => string
  | .timestamp => date
  | .int64 | .uint64 => bigint
  | _ => number

/-- The type of scalars that a word stands for. -/
def ofText? (text : String) : Option ScalarType :=
  [boolean, string, number, bigint, date].find? (·.text = text)

theorem text_ofKind (kind : ScalarKind) : (scalarCode kind).type = (ofKind kind).text := by
  cases kind <;> rfl

theorem ofText?_text (type : ScalarType) : ofText? type.text = some type := by
  cases type <;> decide

end ScalarType

/-- **The structure of a type**: what it is made of, and where `null` may stand. -/
inductive TypeStructure
  | scalar (type : ScalarType) (nullable : Bool)
  | named (name : String) (nullable : Bool)
  | list (element : TypeStructure) (nullable : Bool)
  | map (value : TypeStructure) (nullable : Bool)
deriving DecidableEq

namespace TypeStructure

/-- Whether `null` may stand for the whole. -/
def nullable : TypeStructure → Bool
  | scalar _ nullable => nullable
  | named _ nullable => nullable
  | list _ nullable => nullable
  | map _ nullable => nullable

/-- The same type with or without `null`. -/
def setNullable (nullable : Bool) : TypeStructure → TypeStructure
  | scalar type _ => scalar type nullable
  | named name _ => named name nullable
  | list element _ => list element nullable
  | map value _ => map value nullable

/-- The names of the types that are referred to. -/
def names : TypeStructure → List String
  | scalar _ _ => []
  | named name _ => [name]
  | list element _ => element.names
  | map value _ => value.names

/-- The expression for a type but for `null`. -/
def core : TypeStructure → String
  | scalar type _ => type.text
  | named name _ => name
  | list element _ => arrayType (orNull element.nullable element.core)
  | map value _ => recordType (orNull value.nullable value.core)

/-- **The expression for a type.** -/
def text (type : TypeStructure) : String := orNull type.nullable type.core

end TypeStructure

/-- **What an expression denotes**: `T[]` and `Array<T>` are lists, `Record<string, T>` is a map,
`T | null` is the type `T` with `null`, and a word is a type of scalars or a name. -/
def TypeExpr.structure? : TypeExpr → Option TypeStructure
  | .word text =>
    if text = "null" then none
    else match ScalarType.ofText? text with
      | some type => some (.scalar type false)
      | none => some (.named text false)
  | .list element => element.structure?.map (.list · false)
  | .apply "Array" [element] => element.structure?.map (.list · false)
  | .apply "Record" [.word "string", value] => value.structure?.map (.map · false)
  | .or expr (.word "null") => expr.structure?.map (.setNullable true)
  | _ => none

namespace TypeExpr

theorem structure?_word (text : String) :
    (word text).structure? = if text = "null" then none
      else match ScalarType.ofText? text with
        | some type => some (.scalar type false)
        | none => some (.named text false) := rfl

theorem structure?_list (element : TypeExpr) :
    (list element).structure? = element.structure?.map (.list · false) := rfl

theorem structure?_array (element : TypeExpr) :
    (apply "Array" [element]).structure? = element.structure?.map (.list · false) := rfl

theorem structure?_record (value : TypeExpr) :
    (apply "Record" [word "string", value]).structure? = value.structure?.map (.map · false) := rfl

theorem structure?_or_null (expr : TypeExpr) :
    (or expr (word "null")).structure? = expr.structure?.map (.setNullable true) := rfl

end TypeExpr

/-- **A name of a type**: a word, such as an identifier, that means nothing else. -/
structure IsTypeName (name : String) : Prop where
  word : IsWord name
  ne_null : name ≠ "null"
  not_scalar : ∀ type : ScalarType, name ≠ type.text

/-- What goes on with an identifier goes on with a word. -/
theorem mark?_of_continuesIdentifier {c : Char} (h : Naming.continuesIdentifier c = true) :
    mark? c = none := by
  unfold mark?
  split
  case h_7 =>
    rw [if_neg]
    intro hblank
    simp only [Char.isWhitespace, Bool.or_eq_true, decide_eq_true_eq] at hblank
    rcases hblank with ((rfl | rfl) | rfl) | rfl <;> cases h
  all_goals cases h

/-- **Identifiers are words.** -/
theorem isWord_of_isIdentifier {name : String} (h : Naming.isIdentifier name = true) :
    IsWord name := by
  rw [Naming.isIdentifier] at h
  cases hchars : name.toList with
  | nil => simp [hchars] at h
  | cons first rest =>
    rw [hchars] at h
    obtain ⟨hfirst, hrest⟩ := Bool.and_eq_true_iff.mp h
    have hcontinues : Naming.continuesIdentifier first = true := by
      simp only [Naming.startsIdentifier, Naming.continuesIdentifier, Char.isAlphanum,
        Bool.or_eq_true] at hfirst ⊢
      tauto
    refine ⟨by simp [hchars], ?_⟩
    rw [hchars, List.forall_mem_cons]
    exact ⟨mark?_of_continuesIdentifier hcontinues, fun c hc =>
      mark?_of_continuesIdentifier (List.all_eq_true.mp hrest c hc)⟩

/-! ## Reading the expression for a type -/

theorem tokens_list (element : String) :
    tokens (element ++ "[]") = tokens element ++ [.openSquare, .closeSquare] :=
  tokens_append (c := '[') rfl (by decide)

theorem tokens_array (element : String) :
    tokens ("Array<" ++ element ++ ">") =
      .word "Array" :: .openAngle :: tokens element ++ [.closeAngle] := by
  have hopen : tokens ("Array<" ++ element) = [.word "Array", .openAngle] ++ tokens element :=
    tokens_append_of_mark "Array".toList (c := '<') rfl (by decide)
  rw [tokens_append (c := '>') rfl (by decide), hopen]
  rfl

theorem tokens_record (value : String) :
    tokens ("Record<string, " ++ value ++ ">") =
      .word "Record" :: .openAngle :: ([.word "string"] ++ .comma :: tokens value) ++
        [.closeAngle] := by
  have hopen : tokens ("Record<string, " ++ value) =
      [.word "Record", .openAngle, .word "string", .comma] ++ tokens value :=
    tokens_append_of_mark "Record<string,".toList (c := ' ') rfl (by decide)
  rw [tokens_append (c := '>') rfl (by decide), hopen]
  rfl

/-- **`null` beside an operand** is read as such, and as nothing else. -/
theorem exists_reads_orNull {type : TypeStructure} {core : String} {expr : TypeExpr}
    (hread : ReadsOperand (tokens core) expr)
    (hexpr : expr.structure? = some (type.setNullable false)) :
    ∃ expr, Reads (orNull type.nullable core) expr ∧ expr.structure? = some type := by
  cases hnullable : type.nullable with
  | false =>
    refine ⟨expr, .operand hread, hexpr.trans ?_⟩
    cases type <;> simp_all [TypeStructure.setNullable, TypeStructure.nullable]
  | true =>
    have htokens : tokens (core ++ " | null") = tokens core ++ .bar :: [.word "null"] :=
      tokens_append (c := ' ') rfl (by decide)
    refine ⟨.or expr (.word "null"), ?_, ?_⟩
    · rw [Reads, orNull, if_pos rfl, htokens]
      exact .or (.operand hread) (.word "null")
    · rw [TypeExpr.structure?_or_null, hexpr]
      cases type <;> simp_all [TypeStructure.setNullable, TypeStructure.nullable]

/-- An expression with `null` has a blank in it. -/
theorem mem_orNull_true (core : String) : ' ' ∈ (orNull true core).toList := by
  simp [orNull]

/-- **A list is an operand**, however it is written: an element with `null` goes between angle
brackets, for the blank in front of the bar. -/
theorem exists_reads_arrayType {element : TypeStructure} {core : String} {expr : TypeExpr}
    (hread : ReadsOperand (tokens core) expr)
    (hexpr : expr.structure? = some (element.setNullable false)) :
    ∃ expr, ReadsOperand (tokens (arrayType (orNull element.nullable core))) expr ∧
      expr.structure? = some (.list element false) := by
  obtain ⟨whole, hwhole, hstructure⟩ := exists_reads_orNull hread hexpr
  rw [arrayType]
  split
  · refine ⟨.apply "Array" [whole], ?_, ?_⟩
    · rw [tokens_array]
      exact .apply "Array" (.last hwhole)
    · rw [TypeExpr.structure?_array, hstructure]
      rfl
  · rename_i hblank
    cases hnullable : element.nullable with
    | true => exact absurd (List.contains_iff_mem.mpr (mem_orNull_true core)) (hnullable ▸ hblank)
    | false =>
      refine ⟨.list expr, ?_, ?_⟩
      · rw [orNull, if_neg Bool.false_ne_true, tokens_list]
        exact .list hread
      · rw [TypeExpr.structure?_list, hexpr]
        cases element <;> simp_all [TypeStructure.setNullable, TypeStructure.nullable]

/-- **A map is an operand**, whatever its values are. -/
theorem exists_reads_recordType {value : TypeStructure} {core : String} {expr : TypeExpr}
    (hread : ReadsOperand (tokens core) expr)
    (hexpr : expr.structure? = some (value.setNullable false)) :
    ∃ expr, ReadsOperand (tokens (recordType (orNull value.nullable core))) expr ∧
      expr.structure? = some (.map value false) := by
  obtain ⟨whole, hwhole, hstructure⟩ := exists_reads_orNull hread hexpr
  refine ⟨.apply "Record" [.word "string", whole], ?_, ?_⟩
  · change ReadsOperand (tokens ("Record<string, " ++ _ ++ ">")) _
    rw [tokens_record]
    exact .apply "Record" (.more (.operand (.word "string")) (.last hwhole))
  · rw [TypeExpr.structure?_record, hstructure]
    rfl

/-- **The expression for a type but for `null`** is an operand, which denotes the type without
`null`.

**Proof sketch.** Induction on the structure. The element of a list stands in front of `[]` only if
its expression has no blank; then there is no `null` at its end, so that it is an operand itself. -/
theorem exists_reads_core (type : TypeStructure) (hnames : ∀ name ∈ type.names, IsTypeName name) :
    ∃ expr, ReadsOperand (tokens type.core) expr ∧
      expr.structure? = some (type.setNullable false) := by
  induction type with
  | scalar type nullable =>
    have hword : IsWord type.text := isWord_of_isIdentifier (by cases type <;> rfl)
    have hnull : type.text ≠ "null" := by cases type <;> decide
    refine ⟨.word type.text, ?_, ?_⟩
    · rw [TypeStructure.core, tokens_of_isWord hword]
      exact .word type.text
    · rw [TypeExpr.structure?_word, if_neg hnull, ScalarType.ofText?_text]
      rfl
  | named name nullable =>
    obtain ⟨hword, hnull, hscalar⟩ := hnames name List.mem_cons_self
    have hnone : ScalarType.ofText? name = none :=
      List.find?_eq_none.mpr fun type _ => by simpa using (hscalar type).symm
    refine ⟨.word name, ?_, ?_⟩
    · rw [TypeStructure.core, tokens_of_isWord hword]
      exact .word name
    · rw [TypeExpr.structure?_word, if_neg hnull, hnone]
      rfl
  | list element nullable ih =>
    obtain ⟨expr, hread, hexpr⟩ := ih hnames
    exact exists_reads_arrayType hread hexpr
  | map value nullable ih =>
    obtain ⟨expr, hread, hexpr⟩ := ih hnames
    exact exists_reads_recordType hread hexpr

/-- **The expression for a type is read** as the type. -/
theorem exists_reads_text (type : TypeStructure) (hnames : ∀ name ∈ type.names, IsTypeName name) :
    ∃ expr, Reads type.text expr ∧ expr.structure? = some type := by
  obtain ⟨expr, hread, hexpr⟩ := exists_reads_core type hnames
  exact exists_reads_orNull hread hexpr

end TypeScript

/-! ## Schemas -/

open TypeScript

/-- **The structure of the type of a schema** on a path, if its references lead somewhere. Whatever
is declared goes by its name. -/
def Schema.structure? (scheme : NameScheme) (path : String) : Schema → Option TypeStructure
  | ⟨.scalar kind, nullable, _⟩ => some (.scalar (.ofKind kind) nullable)
  | ⟨.array element, nullable, _⟩ =>
    (element.structure? scheme (joinNames path "Item")).map (.list · nullable)
  | ⟨.record value, nullable, _⟩ =>
    (value.structure? scheme (joinNames path "Value")).map (.map · nullable)
  | ⟨.ref target, nullable, _⟩ => (scheme.modelTypeName? target).map (.named · nullable)
  | ⟨_, nullable, metadata⟩ => some (.named (scheme.typeName metadata.id path) nullable)

/-- The names of the types to which the expression for the type of a schema refers. -/
def Schema.typeNames (scheme : NameScheme) (path : String) (schema : Schema) : List String :=
  (schema.structure? scheme path).elim [] TypeStructure.names

/-- **The field text of a schema**: the expression for its type in the code that some generation
makes of it at a site. -/
def Schema.HasField (config : GeneratorConfig) (scheme : NameScheme) (site : Site) (schema : Schema)
    (field : String) : Prop :=
  ∃ state final outline, (schema.outline scheme site).run state = (.ok outline, final) ∧
    (outline.render (backend config)).field = field

section

variable {config : GeneratorConfig} {scheme : NameScheme} {state final : PassState}
  {outline : Outline}

theorem field_withNullBranch (bundle : Bundle) (nullable : Bool)
    (validate serialize : String → String) :
    (withNullBranch bundle nullable validate serialize).field = bundle.field := by
  cases nullable <;> rfl

/-- A type with a declaration goes by its name, whether it is declared here or not. -/
theorem field_of_registerShape {context : NodeContext} {shape : String} {body : Pass Outline}
    (h : (Pass.registerShape context.typeName shape context.schemaPath >>=
      fun isNew => if isNew = true then body else Pass.complete (.reference context)).run state =
        (.ok outline, final))
    (hbody : ∀ start : PassState, body.run start = (.ok outline, final) →
      (outline.render (backend config)).field = orNull context.nullable context.typeName) :
    (outline.render (backend config)).field = orNull context.nullable context.typeName := by
  obtain ⟨isNew, middle, -, hrest⟩ := Pass.bind_eq_ok_iff.mp h
  cases isNew with
  | true => exact hbody middle hrest
  | false =>
    obtain ⟨rfl, -⟩ := Pass.complete_eq_ok_iff.mp hrest
    rfl

/-- **The field text of a schema** is the expression for its structure. -/
theorem Schema.field_outline (config : GeneratorConfig) : ∀ (schema : Schema) {site : Site}
    {state final : PassState} {outline : Outline},
    (schema.outline scheme site).run state = (.ok outline, final) →
      ∃ type, schema.structure? scheme site.instancePath = some type ∧
        (outline.render (backend config)).field = type.text
  | ⟨.scalar kind, nullable, metadata⟩, site, state, final, outline, h => by
    obtain ⟨name, -, h⟩ := Schema.outline_eq_ok_iff.mp h
    obtain ⟨rfl, -⟩ := Pass.complete_eq_ok_iff.mp h
    refine ⟨_, rfl, ?_⟩
    exact (field_withNullBranch _ _ _ _).trans
      (congrArg (TypeScript.orNull nullable) (ScalarType.text_ofKind kind))
  | ⟨.array element, nullable, metadata⟩, site, state, final, outline, h => by
    obtain ⟨name, -, h⟩ := Schema.outline_eq_ok_iff.mp h
    obtain ⟨inner, middle, hinner, h⟩ := Pass.bind_eq_ok_iff.mp h
    obtain ⟨rfl, -⟩ := Pass.complete_eq_ok_iff.mp h
    obtain ⟨type, htype, hfield⟩ := Schema.field_outline config element hinner
    refine ⟨.list type nullable, congrArg (Option.map (TypeStructure.list · nullable)) htype, ?_⟩
    refine (field_withNullBranch _ _ _ _).trans ?_
    rw [hfield]
    rfl
  | ⟨.record value, nullable, metadata⟩, site, state, final, outline, h => by
    obtain ⟨name, -, h⟩ := Schema.outline_eq_ok_iff.mp h
    obtain ⟨inner, middle, hinner, h⟩ := Pass.bind_eq_ok_iff.mp h
    obtain ⟨rfl, -⟩ := Pass.complete_eq_ok_iff.mp h
    obtain ⟨type, htype, hfield⟩ := Schema.field_outline config value hinner
    refine ⟨.map type nullable, congrArg (Option.map (TypeStructure.map · nullable)) htype, ?_⟩
    refine (field_withNullBranch _ _ _ _).trans ?_
    rw [hfield]
    rfl
  | ⟨.enumeration values, nullable, metadata⟩, site, state, final, outline, h => by
    obtain ⟨name, hname, h⟩ := Schema.outline_eq_ok_iff.mp h
    cases hname
    refine ⟨_, rfl, field_of_registerShape h fun start hbody => ?_⟩
    obtain ⟨rfl, -⟩ := Pass.complete_eq_ok_iff.mp hbody
    rfl
  | ⟨.object required optional strict, nullable, metadata⟩, site, state, final, outline, h => by
    obtain ⟨name, hname, h⟩ := Schema.outline_eq_ok_iff.mp h
    cases hname
    refine ⟨_, rfl, field_of_registerShape h fun start hbody => ?_⟩
    obtain ⟨present, middle, -, hbody⟩ := Pass.bind_eq_ok_iff.mp hbody
    obtain ⟨further, last, -, hbody⟩ := Pass.bind_eq_ok_iff.mp hbody
    obtain ⟨rfl, -⟩ := Pass.complete_eq_ok_iff.mp hbody
    rfl
  | ⟨.union tag variants, nullable, metadata⟩, site, state, final, outline, h => by
    obtain ⟨name, hname, h⟩ := Schema.outline_eq_ok_iff.mp h
    cases hname
    refine ⟨_, rfl, field_of_registerShape h fun start hbody => ?_⟩
    obtain ⟨outlines, last, -, hbody⟩ := Pass.bind_eq_ok_iff.mp hbody
    obtain ⟨rfl, -⟩ := Pass.complete_eq_ok_iff.mp hbody
    rfl
  | ⟨.ref target, nullable, metadata⟩, site, state, final, outline, h => by
    obtain ⟨name, hname, h⟩ := Schema.outline_eq_ok_iff.mp h
    obtain ⟨rfl, -⟩ := Pass.complete_eq_ok_iff.mp h
    have hmodel := modelTypeName?_of_siteTypeName hname
    exact ⟨.named name nullable, congrArg (Option.map (TypeStructure.named · nullable)) hmodel, rfl⟩

end

/-- **A closed schema has a field text**, the expression for its structure. -/
theorem Schema.Closed.hasField {config : GeneratorConfig} {scheme : NameScheme} {site : Site}
    {schema : Schema} {type : TypeStructure} (h : schema.Closed scheme.models)
    (htype : schema.structure? scheme site.instancePath = some type) :
    schema.HasField config scheme site type.text := by
  have hempty : PassState.Within (schema.namedTypes scheme site.instancePath) false {} :=
    ⟨rfl, fun name shape hshape => by cases hshape⟩
  obtain ⟨outline, final, hrun, -⟩ | ⟨hstrict, -⟩ :=
    schema.succeeds_outline h (fun _ htype => htype) {} hempty
  · obtain ⟨type', htype', hfield⟩ := schema.field_outline config hrun
    obtain rfl : type' = type := Option.some.inj (htype'.symm.trans htype)
    exact ⟨{}, final, outline, hrun, hfield⟩
  · cases hstrict

/-- **The field text of a schema is read** as its structure, in one way. -/
theorem Schema.HasField.exists_reads {config : GeneratorConfig} {scheme : NameScheme} {site : Site}
    {schema : Schema} {field : String} (h : schema.HasField config scheme site field)
    (hnames : ∀ name ∈ schema.typeNames scheme site.instancePath, IsTypeName name) :
    ∃ type expr, schema.structure? scheme site.instancePath = some type ∧ Reads field expr ∧
      expr.structure? = some type := by
  obtain ⟨state, final, outline, houtline, rfl⟩ := h
  obtain ⟨type, htype, hfield⟩ := schema.field_outline config houtline
  rw [Schema.typeNames, htype] at hnames
  obtain ⟨expr, hread, hexpr⟩ := exists_reads_text type hnames
  exact ⟨type, expr, htype, hfield ▸ hread, hexpr⟩

/-- **Field texts keep the structure of types**, when the names of types are words that mean nothing
else. The field text of a schema can be read in one way, and denotes the structure of the schema.
Any other schema with the same field text, in whatever generation, has the same structure: the
same lists and maps, `null` at the same levels, the same names and types of scalars.

**Proof sketch.** The field text is the expression for the structure (`Schema.field_outline`), which
is read as the structure (`TypeScript.exists_reads_text`), and as nothing else
(`TypeScript.Reads.unique`). Two structures with one expression are both read from it. -/
theorem Schema.field_keeps_structure {config : GeneratorConfig} {scheme : NameScheme} {site : Site}
    {schema : Schema} {field : String} (hfield : schema.HasField config scheme site field)
    (hnames : ∀ name ∈ schema.typeNames scheme site.instancePath, IsTypeName name) :
    ∃ type, schema.structure? scheme site.instancePath = some type ∧
      (∃! expr, Reads field expr) ∧ (∀ expr, Reads field expr → expr.structure? = some type) ∧
      ∀ {config' : GeneratorConfig} {scheme' : NameScheme} {site' : Site} {other : Schema},
        other.HasField config' scheme' site' field →
        (∀ name ∈ other.typeNames scheme' site'.instancePath, IsTypeName name) →
        other.structure? scheme' site'.instancePath = some type := by
  obtain ⟨type, expr, htype, hread, hexpr⟩ := hfield.exists_reads hnames
  refine ⟨type, htype, ⟨expr, hread, fun other h => h.unique hread⟩, ?_, ?_⟩
  · intro other h
    rw [h.unique hread, hexpr]
  · intro config' scheme' site' other hother hothernames
    obtain ⟨type', expr', htype', hread', hexpr'⟩ := hother.exists_reads hothernames
    rw [htype', ← hexpr', hread'.unique hread, hexpr]

/-- Nested lists go between angle brackets, and `null` stays where it is. -/
theorem Schema.field_keeps_structure_nested :
    (∃! expr, Reads "Array<Array<User | null>> | null" expr) ∧
      ∀ expr, Reads "Array<Array<User | null>> | null" expr →
        expr.structure? = some (.list (.list (.named "User" true) false) true) := by
  let user : Schema := ⟨.object [] [] false, false, { id := "User" }⟩
  let scheme : NameScheme := ⟨[("user", user)], ""⟩
  let schema : Schema := ⟨.array ⟨.array ⟨.ref "user", true, {}⟩, false, {}⟩, true, {}⟩
  let type : TypeStructure := .list (.list (.named "User" true) false) true
  have hclosed : schema.Closed scheme.models := ⟨trivial, by decide⟩
  have htype : schema.structure? scheme (Site.ofPaths "" "").instancePath = some type := rfl
  have hfield : schema.HasField {} scheme (.ofPaths "" "") "Array<Array<User | null>> | null" :=
    hclosed.hasField htype
  have hnames : ∀ name ∈ schema.typeNames scheme (Site.ofPaths "" "").instancePath,
      IsTypeName name := by
    intro name hname
    obtain rfl : name = "User" := List.mem_singleton.mp hname
    exact ⟨isWord_of_isIdentifier rfl, by decide, by intro type; cases type <;> decide⟩
  obtain ⟨type', htype', hunique, hreads, -⟩ := Schema.field_keeps_structure hfield hnames
  obtain rfl : type = type' := Option.some.inj (htype.symm.trans htype')
  exact ⟨hunique, hreads⟩

end RpcSchema
