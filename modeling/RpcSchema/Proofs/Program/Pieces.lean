import RpcSchema.Proofs.Program.Decoding

set_option autoImplicit false

/-!
# What decoding a node comes to

Decoding along a node finds faults of its own, goes on to parts of the document or hands the
document on to a model. The errors are those of these pieces, one after the other: no piece has a
say in the errors of another.

## Main definitions

* `RpcSchema.Program.Node.HasPart` — a node has a part of a document decoded along another node, at
  a place in the document and by a rule of the schema.
* `RpcSchema.Program.Piece`, `RpcSchema.Program.Node.pieces` — what decoding along a node comes to.

## Main results

* `RpcSchema.Program.Node.errors_decode` — the errors are those of the pieces.
* `RpcSchema.Program.Node.part_mem_pieces_iff`, `RpcSchema.Program.Node.model_mem_pieces_iff` — the
  pieces that are parts, and those that are models.
* `RpcSchema.Program.partInduct` — induction along the parts of a document.
-/

namespace RpcSchema

/-! ## Errors seen from outside -/

theorem ValueError.under_nil (error : ValueError) : error.under [] [] = error := rfl

theorem ValueError.under_under (error : ValueError) (place rule place' rule' : Pointer) :
    (error.under place rule).under place' rule' =
      error.under (place' ++ place) (rule' ++ rule) := by
  simp [ValueError.under]

namespace Program

variable {reading : Reading} {follow : Nat → Json → Walk (Report Value)}

/-! ## Parts -/

/-- **A shape has an entry decoded**: one under the key of a property. -/
inductive Shape.HasEntry (shape : Shape) (entries : Entries Json) :
    String → Pointer → Node → Json → Prop
  | required {key : String} {node : Node} {item : Json} :
    (key, node) ∈ shape.required → entries.lookup key = some item →
    HasEntry shape entries key ["properties", key] node item
  | optional {key : String} {node : Node} {item : Json} :
    (key, node) ∈ shape.optional → entries.lookup key = some item →
    HasEntry shape entries key ["optionalProperties", key] node item

/-- **A node has a part of a document decoded** along another node, at a place in the document and
by a rule of the schema: the items of an array, the entries of a map, and those entries of an
object or of a variant that are declared. -/
inductive Node.HasPart : Node → Json → Pointer → Pointer → Node → Json → Prop
  | item {element : Node} {nullable : Bool} {items : List Json} {i : Nat} {item : Json} :
    items[i]? = some item →
    HasPart ⟨.array element, nullable⟩ (.array items) [toString i] ["elements"] element item
  | entry {value : Node} {nullable : Bool} {entries : Entries Json} {key : String} {item : Json} :
    (key, item) ∈ entries →
    HasPart ⟨.record value, nullable⟩ (.object entries) [key] ["values"] value item
  | property {shape : Shape} {nullable : Bool} {entries : Entries Json} {key : String}
    {rule : Pointer} {node : Node} {item : Json} :
    shape.HasEntry entries key rule node item →
    HasPart ⟨.object shape, nullable⟩ (.object entries) [key] rule node item
  | variantProperty {tag name : String} {variants : List (String × Shape)} {shape : Shape}
    {nullable : Bool} {entries : Entries Json} {key : String} {rule : Pointer} {node : Node}
    {item : Json} :
    entries.lookup tag = some (.string name) → variants.lookup name = some shape →
    shape.HasEntry entries key rule node item →
    HasPart ⟨.union tag variants, nullable⟩ (.object entries) [key] ("mapping" :: name :: rule)
      node item

/-- The part of an entry belongs to a property of the shape. -/
theorem Shape.HasEntry.mem_properties {shape : Shape} {entries : Entries Json} {key : String}
    {rule : Pointer} {node : Node} {item : Json} (h : shape.HasEntry entries key rule node item) :
    (key, node) ∈ shape.properties := by
  cases h with
  | required hproperty => exact List.mem_append_left _ hproperty
  | optional hproperty => exact List.mem_append_right _ hproperty

/-! ## Pieces -/

/-- **A piece of what decoding comes to**: faults, a part to go on with, or a model. -/
inductive Piece
  | faults (errors : List ValueError)
  | part (place rule : Pointer) (node : Node) (item : Json)
  | model (index : Nat) (item : Json)

/-- The errors of a piece. -/
def Piece.errors (reading : Reading) (follow : Nat → Json → Walk (Report Value)) :
    Piece → Walk (List ValueError)
  | .faults errors => some errors
  | .part place rule node item => (node.decode reading follow item).map fun report =>
    report.errors.map (·.under place rule)
  | .model index item => (follow index item).map Report.errors

/-- What a property that has to be there comes to. -/
def requiredPiece (rule : Pointer) (entries : Entries Json) (property : String × Node) : Piece :=
  match entries.lookup property.1 with
  | some item => .part [property.1] (rule ++ ["properties", property.1]) property.2 item
  | none => .faults [⟨[], rule ++ ["properties", property.1], .missing property.1⟩]

/-- What a property that may be there comes to. -/
def optionalPiece? (rule : Pointer) (entries : Entries Json) (property : String × Node) :
    Option Piece :=
  (entries.lookup property.1).map fun item =>
    .part [property.1] (rule ++ ["optionalProperties", property.1]) property.2 item

/-- The errors about keys that a shape does not have. -/
def undeclaredErrors (rule : Pointer) (shape : Shape) (tag : Option String)
    (entries : Entries Json) : List ValueError :=
  (undeclaredReports shape tag entries).flatMap fun report => report.errors.map (·.under [] rule)

/-- What a shape comes to. -/
def Shape.pieces (rule : Pointer) (tag : Option String) (shape : Shape) (entries : Entries Json) :
    List Piece :=
  shape.required.map (requiredPiece rule entries) ++
    shape.optional.filterMap (optionalPiece? rule entries) ++
    [.faults (undeclaredErrors rule shape tag entries)]

/-- What a document comes to along what a node demands. -/
def Kind.pieces (reading : Reading) (kind : Kind) (input : Json) : List Piece :=
  match kind, input with
  | .scalar kind, input => [.faults (decodeScalar reading kind input).errors]
  | .enumeration values, input => [.faults (decodeListed values input).errors]
  | .object shape, .object entries => shape.pieces [] none entries
  | .object _, input => [.faults [⟨[], ["properties"], .expected "object" input.kind⟩]]
  | .array element, .array items =>
    items.zipIdx.map fun pair => .part [toString pair.2] ["elements"] element pair.1
  | .array _, input => [.faults [⟨[], ["elements"], .expected "array" input.kind⟩]]
  | .record value, .object entries =>
    entries.map fun entry => .part [entry.1] ["values"] value entry.2
  | .record _, input => [.faults [⟨[], ["values"], .expected "object" input.kind⟩]]
  | .union tag variants, .object entries =>
    match entries.lookup tag with
    | some (.string name) =>
      match variants.lookup name with
      | some shape => shape.pieces ["mapping", name] (some tag) entries
      | none =>
        [.faults [⟨[tag], ["mapping"], .unknownVariant name (some (Entries.keys variants))⟩]]
    | some other => [.faults [⟨[tag], ["discriminator"], .expected "string" other.kind⟩]]
    | none => [.faults [⟨[tag], ["discriminator"], .missingTag tag⟩]]
  | .union _ _, input => [.faults [⟨[], ["discriminator"], .expected "object" input.kind⟩]]
  | .ref index, input => [.model index input]

/-- **What decoding a document along a node comes to**, piece by piece. -/
def Node.pieces (reading : Reading) (node : Node) (input : Json) : List Piece :=
  if input.isNull && node.nullable then [] else node.kind.pieces reading input

/-! ## The errors of the pieces -/

/-- The errors of a whole that is walked along are those of its members. -/
theorem errors_gather_mapM {α β γ : Type} {f : α → Walk (Report β)}
    {g : α → Walk (List ValueError)} {wrap : List β → γ}
    (h : ∀ a, (f a).map Report.errors = g a) (list : List α) :
    (do let reports ← list.mapM f; return (Report.gather reports).map wrap : Walk _).map
        Report.errors = (list.mapM g).map List.flatten := by
  have herrors : (list.mapM f).map (fun reports => reports.map Report.errors) = list.mapM g := by
    induction list with
    | nil => rfl
    | cons a rest ih =>
      rw [List.mapM_cons, List.mapM_cons, ← ih, ← h a]
      cases f a <;> cases rest.mapM f <;> rfl
  rw [← herrors]
  cases list.mapM f <;> rfl

/-- The errors along the properties that have to be there. -/
theorem errors_decodeRequired {rule : Pointer} {entries : Entries Json} :
    ∀ {properties : List (String × Node)},
      (decodeRequired reading follow entries properties).map
          (fun reports => reports.map fun report => report.errors.map (·.under [] rule)) =
        (properties.map (requiredPiece rule entries)).mapM (Piece.errors reading follow)
  | [] => rfl
  | (key, node) :: rest => by
    rw [List.map_cons, List.mapM_cons, ← errors_decodeRequired, decodeRequired, requiredPiece]
    cases entries.lookup key with
    | none => cases decodeRequired reading follow entries rest <;> simp [Piece.errors, Report.fail,
        ValueError.under]
    | some item =>
      cases hreport : node.decode reading follow item with
      | none => simp [Piece.errors, hreport]
      | some report =>
        cases decodeRequired reading follow entries rest <;>
          simp [Piece.errors, hreport, fieldReport, Report.map, Report.under,
            ValueError.under_under, Function.comp_def]

/-- The errors along the properties that may be there. -/
theorem errors_decodeOptional {rule : Pointer} {entries : Entries Json} :
    ∀ {properties : List (String × Node)},
      (decodeOptional reading follow entries properties).map
          (fun reports => reports.map fun report => report.errors.map (·.under [] rule)) =
        (properties.filterMap (optionalPiece? rule entries)).mapM (Piece.errors reading follow)
  | [] => rfl
  | (key, node) :: rest => by
    rw [decodeOptional, List.filterMap_cons, optionalPiece?]
    cases entries.lookup key with
    | none => exact errors_decodeOptional
    | some item =>
      simp only [Option.map_some]
      rw [List.mapM_cons, ← errors_decodeOptional]
      cases hreport : node.decode reading follow item with
      | none => simp [Piece.errors, hreport]
      | some report =>
        cases decodeOptional reading follow entries rest <;>
          simp [Piece.errors, hreport, fieldReport, Report.map, Report.under,
            ValueError.under_under, Function.comp_def]

/-- The errors along a shape. -/
theorem Shape.errors_decode {rule : Pointer} {tag : Option String} {shape : Shape}
    {entries : Entries Json} :
    (shape.decode reading follow tag (.object entries)).map
        (fun report => report.errors.map (·.under [] rule)) =
      ((shape.pieces rule tag entries).mapM (Piece.errors reading follow)).map List.flatten := by
  obtain ⟨required, optional, strict⟩ := shape
  rw [Shape.pieces, List.mapM_append, List.mapM_append, ← errors_decodeRequired,
    ← errors_decodeOptional, Shape.decode]
  cases decodeRequired reading follow entries required with
  | none => rfl
  | some present =>
    cases decodeOptional reading follow entries optional with
    | none => rfl
    | some further =>
      simp only [Option.bind_eq_bind, Option.bind_some, Option.pure_def, Option.map_some,
        Piece.errors, undeclaredErrors, Report.map, Report.gather, List.mapM_cons, List.mapM_nil,
        List.map_append, List.flatten_append, List.flatten_cons, List.flatten_nil, List.append_nil,
        List.flatMap_def, List.map_flatten, List.map_map, Function.comp_def]

/-- **The errors of a node are those of its pieces**, one after the other.

**Proof sketch.** One case for each form of a node. The members of an array or a map are walked
along one by one (`errors_gather_mapM`); a shape gathers the reports on its two sections and on the
keys that it does not have (`Shape.errors_decode`). -/
theorem Node.errors_decode (node : Node) (input : Json) :
    (node.decode reading follow input).map Report.errors =
      ((node.pieces reading input).mapM (Piece.errors reading follow)).map List.flatten := by
  obtain ⟨kind, nullable⟩ := node
  rw [Node.decode, Node.pieces]
  split
  · rfl
  cases kind with
  | scalar kind => simp [Kind.decode, Kind.pieces, Piece.errors]
  | enumeration values => simp [Kind.decode, Kind.pieces, Piece.errors]
  | object shape =>
    cases input with
    | object entries =>
      rw [Kind.pieces, ← Shape.errors_decode, Kind.decode]
      cases shape.decode reading follow none (.object entries) with
      | none => rfl
      | some report => simp [Report.map, ValueError.under_nil]
    | _ =>
      obtain ⟨required, optional, strict⟩ := shape
      rfl
  | array element =>
    cases input with
    | array items =>
      rw [Kind.pieces, List.mapM_map, Kind.decode]
      refine errors_gather_mapM ?_ _
      rintro ⟨item, i⟩
      simp only [Function.comp_apply, Piece.errors]
      cases element.decode reading follow item <;> rfl
    | _ => rfl
  | record value =>
    cases input with
    | object entries =>
      rw [Kind.pieces, List.mapM_map, Kind.decode]
      refine errors_gather_mapM ?_ _
      rintro ⟨key, item⟩
      simp only [Function.comp_apply, Piece.errors]
      cases value.decode reading follow item <;> rfl
    | _ => rfl
  | union tag variants =>
    cases input with
    | object entries =>
      cases htag : entries.lookup tag with
      | none => simp only [Kind.decode, Kind.pieces, htag]; rfl
      | some other =>
        cases other with
        | string name =>
          simp only [Kind.decode, Kind.pieces, htag, decodeVariant_eq_lookup]
          cases variants.lookup name with
          | none => rfl
          | some shape =>
            simp only [← Shape.errors_decode]
            cases shape.decode reading follow (some tag) (.object entries) <;> rfl
        | _ => simp only [Kind.decode, Kind.pieces, htag]; rfl
    | _ => rfl
  | ref index => simp [Kind.decode, Kind.pieces, Piece.errors]

/-! ## The pieces that lead on -/

theorem part_mem_map_requiredPiece_iff {rule place rule' : Pointer} {entries : Entries Json}
    {properties : List (String × Node)} {node : Node} {item : Json} :
    .part place rule' node item ∈ properties.map (requiredPiece rule entries) ↔
      ∃ key, (key, node) ∈ properties ∧ entries.lookup key = some item ∧ place = [key] ∧
        rule' = rule ++ ["properties", key] := by
  rw [List.mem_map]
  constructor
  · rintro ⟨⟨key, node'⟩, hproperty, hpiece⟩
    simp only [requiredPiece] at hpiece
    cases hitem : entries.lookup key with
    | none =>
      rw [hitem] at hpiece
      cases hpiece
    | some item' =>
      rw [hitem] at hpiece
      cases hpiece
      exact ⟨key, hproperty, hitem, rfl, rfl⟩
  · rintro ⟨key, hproperty, hitem, rfl, rfl⟩
    exact ⟨(key, node), hproperty, by simp only [requiredPiece, hitem]⟩

theorem part_mem_filterMap_optionalPiece?_iff {rule place rule' : Pointer} {entries : Entries Json}
    {properties : List (String × Node)} {node : Node} {item : Json} :
    .part place rule' node item ∈ properties.filterMap (optionalPiece? rule entries) ↔
      ∃ key, (key, node) ∈ properties ∧ entries.lookup key = some item ∧ place = [key] ∧
        rule' = rule ++ ["optionalProperties", key] := by
  rw [List.mem_filterMap]
  constructor
  · rintro ⟨⟨key, node'⟩, hproperty, hpiece⟩
    obtain ⟨item', hitem, hpiece⟩ := Option.map_eq_some_iff.mp hpiece
    cases hpiece
    exact ⟨key, hproperty, hitem, rfl, rfl⟩
  · rintro ⟨key, hproperty, hitem, rfl, rfl⟩
    exact ⟨(key, node), hproperty, Option.map_eq_some_iff.mpr ⟨item, hitem, rfl⟩⟩

/-- The parts of a shape are the entries that it has decoded. -/
theorem Shape.part_mem_pieces_iff {shape : Shape} {rule place rule' : Pointer}
    {tag : Option String} {entries : Entries Json} {node : Node} {item : Json} :
    .part place rule' node item ∈ shape.pieces rule tag entries ↔
      ∃ key inner, place = [key] ∧ rule' = rule ++ inner ∧
        shape.HasEntry entries key inner node item := by
  rw [Shape.pieces, List.mem_append, List.mem_append, part_mem_map_requiredPiece_iff,
    part_mem_filterMap_optionalPiece?_iff]
  constructor
  · rintro ((⟨key, hproperty, hitem, rfl, rfl⟩ | ⟨key, hproperty, hitem, rfl, rfl⟩) | h)
    · exact ⟨key, _, rfl, rfl, .required hproperty hitem⟩
    · exact ⟨key, _, rfl, rfl, .optional hproperty hitem⟩
    · cases List.mem_singleton.mp h
  · rintro ⟨key, inner, rfl, rfl, hentry⟩
    cases hentry with
    | required hproperty hitem => exact .inl (.inl ⟨key, hproperty, hitem, rfl, rfl⟩)
    | optional hproperty hitem => exact .inl (.inr ⟨key, hproperty, hitem, rfl, rfl⟩)

/-- **The pieces that are parts** are those that the node has decoded. -/
theorem Node.part_mem_pieces_iff {node inner : Node} {input item : Json} {place rule : Pointer} :
    .part place rule inner item ∈ node.pieces reading input ↔
      node.HasPart input place rule inner item := by
  obtain ⟨kind, nullable⟩ := node
  constructor
  · intro h
    rw [Node.pieces] at h
    split at h
    · cases h
    cases kind with
    | scalar kind => cases List.mem_singleton.mp h
    | enumeration values => cases List.mem_singleton.mp h
    | object shape =>
      cases input with
      | object entries =>
        obtain ⟨key, inner, rfl, rfl, hentry⟩ := Shape.part_mem_pieces_iff.mp h
        exact .property hentry
      | _ => cases List.mem_singleton.mp h
    | array element =>
      cases input with
      | array items =>
        obtain ⟨⟨item, i⟩, hitem, hpiece⟩ := List.mem_map.mp h
        cases hpiece
        exact .item (List.mem_zipIdx_iff_getElem?.mp hitem)
      | _ => cases List.mem_singleton.mp h
    | record value =>
      cases input with
      | object entries =>
        obtain ⟨⟨key, item⟩, hentry, hpiece⟩ := List.mem_map.mp h
        cases hpiece
        exact .entry hentry
      | _ => cases List.mem_singleton.mp h
    | union tag variants =>
      cases input with
      | object entries =>
        simp only [Kind.pieces] at h
        split at h
        · rename_i name hname
          split at h
          · rename_i shape hshape
            obtain ⟨key, inner, rfl, rfl, hentry⟩ := Shape.part_mem_pieces_iff.mp h
            exact .variantProperty hname hshape hentry
          · cases List.mem_singleton.mp h
        · cases List.mem_singleton.mp h
        · cases List.mem_singleton.mp h
      | _ => cases List.mem_singleton.mp h
    | ref index => cases List.mem_singleton.mp h
  · intro h
    cases h with
    | @item _ _ items i _ hitem =>
      exact List.mem_map.mpr ⟨(_, i), List.mem_zipIdx_iff_getElem?.mpr hitem, rfl⟩
    | @entry _ _ _ key _ hentry => exact List.mem_map.mpr ⟨(key, _), hentry, rfl⟩
    | property hentry => exact Shape.part_mem_pieces_iff.mpr ⟨_, _, rfl, rfl, hentry⟩
    | variantProperty hname hshape hentry =>
      simp only [Node.pieces, Json.isNull, Bool.false_and, Bool.false_eq_true, if_false,
        Kind.pieces, hname, hshape]
      exact Shape.part_mem_pieces_iff.mpr ⟨_, _, rfl, rfl, hentry⟩

/-- A shape hands no document on to a model. -/
theorem Shape.model_not_mem_pieces {shape : Shape} {rule : Pointer} {tag : Option String}
    {entries : Entries Json} {index : Nat} {item : Json} :
    .model index item ∉ shape.pieces rule tag entries := by
  intro h
  rw [Shape.pieces, List.mem_append, List.mem_append] at h
  rcases h with (h | h) | h
  · obtain ⟨property, -, hpiece⟩ := List.mem_map.mp h
    unfold requiredPiece at hpiece
    split at hpiece <;> cases hpiece
  · obtain ⟨property, -, hpiece⟩ := List.mem_filterMap.mp h
    obtain ⟨item, -, hpiece⟩ := Option.map_eq_some_iff.mp hpiece
    cases hpiece
  · cases List.mem_singleton.mp h

/-- **Only references hand a document on** to a model, and that where `null` will not do. -/
theorem Node.model_mem_pieces_iff {node : Node} {input item : Json} {index : Nat} :
    .model index item ∈ node.pieces reading input ↔
      node.kind = .ref index ∧ item = input ∧ (input.isNull && node.nullable) = false := by
  obtain ⟨kind, nullable⟩ := node
  rw [Node.pieces]
  cases hnull : input.isNull && nullable with
  | true => simp
  | false =>
    simp only [Bool.false_eq_true, if_false, and_true]
    cases kind with
    | ref index' => simp [Kind.pieces, eq_comm]
    | object shape =>
      refine iff_of_false (fun h => ?_) nofun
      cases input with
      | object entries => exact Shape.model_not_mem_pieces h
      | _ => cases List.mem_singleton.mp h
    | array element =>
      refine iff_of_false (fun h => ?_) nofun
      cases input with
      | array items =>
        obtain ⟨pair, -, hpiece⟩ := List.mem_map.mp h
        cases hpiece
      | _ => cases List.mem_singleton.mp h
    | record value =>
      refine iff_of_false (fun h => ?_) nofun
      cases input with
      | object entries =>
        obtain ⟨entry, -, hpiece⟩ := List.mem_map.mp h
        cases hpiece
      | _ => cases List.mem_singleton.mp h
    | union tag variants =>
      refine iff_of_false (fun h => ?_) nofun
      cases input with
      | object entries =>
        simp only [Kind.pieces] at h
        split at h
        · split at h
          · exact Shape.model_not_mem_pieces h
          · cases List.mem_singleton.mp h
        · cases List.mem_singleton.mp h
        · cases List.mem_singleton.mp h
      | _ => cases List.mem_singleton.mp h
    | _ => exact iff_of_false (fun h => nomatch List.mem_singleton.mp h) nofun

/-! ## Induction -/

/-- **Induction along the parts of a document**: what holds of a node when it holds of the nodes
along which the parts are decoded, and of the model of a reference with one step less, holds of
every node. -/
theorem partInduct (program : Program) {motive : Nat → Node → Prop}
    (node : ∀ steps node,
      (∀ input place rule inner item, node.HasPart input place rule inner item →
        motive steps inner) →
      (∀ index below model, node.kind = .ref index → steps = below + 1 →
        program.models[index]? = some model → motive below model) →
      motive steps node) :
    ∀ steps node, motive steps node := by
  intro steps node'
  induction steps, node' using walkInduct program with
  | scalar steps kind nullable => exact node _ _ nofun nofun
  | enumeration steps values nullable => exact node _ _ nofun nofun
  | object steps shape nullable ih =>
    refine node _ _ ?_ nofun
    rintro _ _ _ _ _ ⟨⟩
    exact ih _ (by assumption : Shape.HasEntry _ _ _ _ _ _).mem_properties
  | array steps element nullable ih =>
    refine node _ _ ?_ nofun
    rintro _ _ _ _ _ ⟨⟩
    exact ih
  | record steps value nullable ih =>
    refine node _ _ ?_ nofun
    rintro _ _ _ _ _ ⟨⟩
    exact ih
  | union steps tag variants nullable ih =>
    refine node _ _ ?_ nofun
    intro _ _ _ _ _ h
    cases h with
    | variantProperty _ hshape hentry =>
      exact ih _ (Entries.mem_of_lookup hshape) _ hentry.mem_properties
  | stop index nullable => exact node _ _ nofun (fun _ _ _ _ h => nomatch h)
  | step steps index nullable ih =>
    refine node _ _ nofun ?_
    rintro _ _ model ⟨⟩ ⟨⟩ hmodel
    exact ih model hmodel

end Program

end RpcSchema
