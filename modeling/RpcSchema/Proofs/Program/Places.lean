import RpcSchema.Proofs.Json.Pointer
import RpcSchema.Proofs.Program.Pieces
import RpcSchema.Proofs.Program.Walks
import RpcSchema.Validator.Basic

set_option autoImplicit false

/-!
# Where decoding comes to

Decoding comes to further nodes with parts of the document. Each of them stands at a place in the
document and under a rule of the schema, and the two together tell it from everything else that is
decoded beside it: no section of a shape lists a key twice, and no object of a document does.

## Main definitions

* `RpcSchema.Program.Comes` — decoding comes to a node with a part of the document.
* `RpcSchema.Program.ListsOnce` — no section of a shape in a program lists a key twice.
* `RpcSchema.ValueError.Within` — an error belongs to a place and a rule.

## Main results

* `RpcSchema.Program.Comes.resolve?_eq` — the place of a part names it.
* `RpcSchema.Program.Node.pieces_apart` — the pieces of a node have no places in common.
* `RpcSchema.Program.exists_errors_of_decode` — the errors of a walk, piece by piece.
-/

namespace RpcSchema

/-- **An error belongs to a place and a rule** when its own place and rule lie below them. -/
def ValueError.Within (place rule : Pointer) (error : ValueError) : Prop :=
  place <+: error.instancePath ∧ rule <+: error.schemaPath

theorem ValueError.within_under (place rule : Pointer) (error : ValueError) :
    (error.under place rule).Within place rule :=
  ⟨List.prefix_append _ _, List.prefix_append _ _⟩

theorem ValueError.within_of_eq_append {error : ValueError} {place place' rule rule' : Pointer}
    (hplace : error.instancePath = place ++ place') (hrule : error.schemaPath = rule ++ rule') :
    error.Within place rule :=
  ⟨hplace ▸ List.prefix_append _ _, hrule ▸ List.prefix_append _ _⟩

/-- Seen from outside, an error belongs to a place further in when it did before. -/
theorem ValueError.within_under_append_iff {place rule place' rule' : Pointer}
    {error : ValueError} :
    (error.under place rule).Within (place ++ place') (rule ++ rule') ↔
      error.Within place' rule' := by
  rw [Within, Within, under, List.prefix_append_right_inj, List.prefix_append_right_inj]

/-- What belongs to a place further in belongs to the place. -/
theorem ValueError.Within.of_append {place rule place' rule' : Pointer} {error : ValueError}
    (h : error.Within (place ++ place') (rule ++ rule')) : error.Within place rule :=
  ⟨(List.prefix_append _ _).trans h.1, (List.prefix_append _ _).trans h.2⟩

namespace Program

/-! ## Sections without repetitions -/

mutual

/-- **No section of a shape in a node lists a key twice.** The two sections of a shape may share
keys. -/
def Node.ListsOnce : Node → Prop
  | ⟨kind, _⟩ => kind.ListsOnce

/-- No section of a shape in what a node demands lists a key twice. -/
def Kind.ListsOnce : Kind → Prop
  | .object shape => shape.ListsOnce
  | .array element => element.ListsOnce
  | .record value => value.ListsOnce
  | .union _ variants => VariantsListOnce variants
  | _ => True

/-- Neither section of a shape lists a key twice, nor does any inside. -/
def Shape.ListsOnce : Shape → Prop
  | ⟨required, optional, _⟩ =>
    Entries.Distinct required ∧ Entries.Distinct optional ∧
      PropertiesListOnce required ∧ PropertiesListOnce optional

/-- The nodes of the properties list keys once. -/
def PropertiesListOnce : List (String × Node) → Prop
  | [] => True
  | (_, node) :: rest => node.ListsOnce ∧ PropertiesListOnce rest

/-- The shapes of the variants list keys once. -/
def VariantsListOnce : List (String × Shape) → Prop
  | [] => True
  | (_, shape) :: rest => shape.ListsOnce ∧ VariantsListOnce rest

end

/-- **No section of a shape in a program lists a key twice.** -/
structure ListsOnce (program : Program) : Prop where
  root : program.root.ListsOnce
  models : ∀ node ∈ program.models, node.ListsOnce

theorem propertiesListOnce_iff {properties : List (String × Node)} :
    PropertiesListOnce properties ↔ ∀ property ∈ properties, property.2.ListsOnce := by
  induction properties with
  | nil => simp [PropertiesListOnce]
  | cons property rest ih => rw [PropertiesListOnce, ih, List.forall_mem_cons]

theorem variantsListOnce_iff {variants : List (String × Shape)} :
    VariantsListOnce variants ↔ ∀ variant ∈ variants, variant.2.ListsOnce := by
  induction variants with
  | nil => simp [VariantsListOnce]
  | cons variant rest ih => rw [VariantsListOnce, ih, List.forall_mem_cons]

theorem Shape.listsOnce_iff {shape : Shape} :
    shape.ListsOnce ↔ Entries.Distinct shape.required ∧ Entries.Distinct shape.optional ∧
      ∀ property ∈ shape.properties, property.2.ListsOnce := by
  obtain ⟨required, optional, strict⟩ := shape
  rw [Shape.ListsOnce, propertiesListOnce_iff, propertiesListOnce_iff, Shape.properties_mk,
    List.forall_mem_append]

/-- The nodes along which the parts are decoded list keys once. -/
theorem Node.HasPart.listsOnce {node inner : Node} {input item : Json} {place rule : Pointer}
    (h : node.HasPart input place rule inner item) (hnode : node.ListsOnce) :
    inner.ListsOnce := by
  cases h with
  | item | entry => exact hnode
  | property hentry => exact (Shape.listsOnce_iff.mp hnode).2.2 _ hentry.mem_properties
  | variantProperty _ hshape hentry =>
    have hvariant := variantsListOnce_iff.mp hnode _ (Entries.mem_of_lookup hshape)
    exact (Shape.listsOnce_iff.mp hvariant).2.2 _ hentry.mem_properties

/-! ## Parts and their places -/

theorem Shape.HasEntry.lookup_eq {shape : Shape} {entries : Entries Json} {key : String}
    {rule : Pointer} {node : Node} {item : Json} (h : shape.HasEntry entries key rule node item) :
    entries.lookup key = some item := by
  cases h with
  | required _ hitem | optional _ hitem => exact hitem

/-- The parts of a well-formed document are well-formed. -/
theorem Node.HasPart.wellFormed {node inner : Node} {input item : Json} {place rule : Pointer}
    (h : node.HasPart input place rule inner item) (hinput : input.WellFormed) :
    item.WellFormed := by
  cases h with
  | item hitem => exact Json.wellFormedItems_iff.mp hinput _ (List.mem_of_getElem? hitem)
  | entry hentry => exact Json.wellFormedEntries_iff.mp hinput.2 _ hentry
  | property hentry | variantProperty _ _ hentry =>
    exact Json.wellFormedEntries_iff.mp hinput.2 _ (Entries.mem_of_lookup hentry.lookup_eq)

/-- The place of a part of a well-formed document names it. -/
theorem Node.HasPart.resolve?_eq {node inner : Node} {input item : Json} {place rule : Pointer}
    (h : node.HasPart input place rule inner item) (hinput : input.WellFormed) :
    input.resolve? place = some item := by
  cases h with
  | item hitem =>
    rw [Json.resolve?, Json.item?_toString hitem, Option.bind_some, Json.resolve?]
  | entry hentry => simp [Json.resolve?, Entries.lookup_of_mem hinput.1 hentry]
  | property hentry | variantProperty _ _ hentry => simp [Json.resolve?, hentry.lookup_eq]

/-- **Decoding along a node comes to** a node with a part of the document, at a place in the
document and under a rule of the schema. Where `null` will do it stops. -/
inductive Comes (program : Program) : Node → Json → Pointer → Pointer → Node → Json → Prop
  | here (node : Node) (input : Json) : Comes program node input [] [] node input
  | part {node middle inner : Node} {input item part : Json}
    {place rule place' rule' : Pointer} :
    node.HasPart input place rule middle item → Comes program middle item place' rule' inner part →
    Comes program node input (place ++ place') (rule ++ rule') inner part
  | model {index : Nat} {nullable : Bool} {model inner : Node} {input part : Json}
    {place rule : Pointer} :
    (input.isNull && nullable) = false → program.models[index]? = some model →
    Comes program model input place rule inner part →
    Comes program ⟨.ref index, nullable⟩ input place rule inner part

variable {program : Program}

/-- **The place of a part** of a well-formed document names it. -/
theorem Comes.resolve?_eq {node inner : Node} {input part : Json} {place rule : Pointer}
    (h : program.Comes node input place rule inner part) :
    input.WellFormed → input.resolve? place = some part := by
  induction h with
  | here node input => exact fun _ => by rw [Json.resolve?]
  | part hpart _ ih =>
    intro hinput
    rw [Json.resolve?_append, hpart.resolve?_eq hinput, Option.bind_some,
      ih (hpart.wellFormed hinput)]
  | model _ _ _ ih => exact ih

/-! ## Pieces are apart -/

/-- The errors that a piece may have. -/
def Piece.Covers (piece : Piece) (error : ValueError) : Prop :=
  match piece with
  | .faults errors => error ∈ errors
  | .part place rule _ _ => error.Within place rule
  | .model _ _ => True

/-- **Two pieces are apart** when they can have no error in common. -/
def Piece.Apart (first second : Piece) : Prop :=
  ∀ error, first.Covers error → ¬ second.Covers error

instance : Std.Symm Piece.Apart where
  symm _ _ h error hsecond hfirst := h error hfirst hsecond

/-- The errors of a piece are among those that it may have. -/
theorem Piece.covers_of_errors {reading : Reading} {follow : Nat → Json → Walk (Report Value)}
    {piece : Piece} {errors : List ValueError} (h : piece.errors reading follow = some errors) :
    ∀ error ∈ errors, piece.Covers error := by
  intro error herror
  cases piece with
  | faults faults =>
    rw [← Option.some.inj h] at herror
    exact herror
  | part place rule node item =>
    obtain ⟨report, -, rfl⟩ := Option.map_eq_some_iff.mp h
    obtain ⟨inner, -, rfl⟩ := List.mem_map.mp herror
    exact inner.within_under place rule
  | model index item => trivial

/-- What a property comes to is under the rule of its key. -/
theorem covers_requiredPiece {rule : Pointer} {entries : Entries Json} {property : String × Node}
    {error : ValueError} (h : (requiredPiece rule entries property).Covers error) :
    rule ++ ["properties", property.1] <+: error.schemaPath := by
  unfold requiredPiece at h
  split at h
  · exact h.2
  · rw [List.mem_singleton.mp h]

theorem covers_optionalPiece {rule : Pointer} {entries : Entries Json} {property : String × Node}
    {piece : Piece} (hpiece : optionalPiece? rule entries property = some piece)
    {error : ValueError} (h : piece.Covers error) :
    rule ++ ["optionalProperties", property.1] <+: error.schemaPath := by
  obtain ⟨item, -, rfl⟩ := Option.map_eq_some_iff.mp hpiece
  exact h.2

/-- The errors about keys that a shape does not have are about keys of the object, and under the
rule of the shape itself. -/
theorem exists_of_mem_undeclaredErrors {rule : Pointer} {shape : Shape} {tag : Option String}
    {entries : Entries Json} {error : ValueError}
    (h : error ∈ undeclaredErrors rule shape tag entries) :
    ∃ entry ∈ entries, error = ⟨[entry.1], rule, .undeclared entry.1⟩ := by
  obtain ⟨report, hreport, herror⟩ := List.mem_flatMap.mp h
  unfold undeclaredReports at hreport
  split at hreport
  · obtain ⟨entry, hentry, hreport⟩ := List.mem_filterMap.mp hreport
    simp only [Option.ite_none_left_eq_some, Option.some.injEq] at hreport
    obtain ⟨-, rfl⟩ := hreport
    obtain ⟨inner, hinner, rfl⟩ := List.mem_map.mp herror
    obtain rfl := List.mem_singleton.mp hinner
    exact ⟨entry, hentry, by simp [ValueError.under]⟩
  · cases hreport

/-- Two rules of one length above the same place are the same. -/
theorem eq_of_append_isPrefix {rule first second whole : Pointer}
    (hfirst : rule ++ first <+: whole) (hsecond : rule ++ second <+: whole)
    (hlength : first.length = second.length) : first = second := by
  have hle : (rule ++ first).length ≤ (rule ++ second).length := by
    rw [List.length_append, List.length_append, hlength]
  have hsame := (List.prefix_of_prefix_length_le hfirst hsecond hle).eq_of_length
    (by rw [List.length_append, List.length_append, hlength])
  exact List.append_cancel_left hsame

/-- **The pieces of a shape** are apart: each section has a rule of its own, and in it each key. -/
theorem Shape.pieces_apart {shape : Shape} {rule : Pointer} {tag : Option String}
    {entries : Entries Json} (hrequired : Entries.Distinct shape.required)
    (hoptional : Entries.Distinct shape.optional) :
    (shape.pieces rule tag entries).Pairwise Piece.Apart := by
  have hkeys : ∀ {properties : List (String × Node)}, Entries.Distinct properties →
      properties.Pairwise fun first second => first.1 ≠ second.1 :=
    fun h => List.pairwise_map.mp h
  rw [Shape.pieces, List.pairwise_append, List.pairwise_append, List.pairwise_map,
    List.pairwise_filterMap]
  refine ⟨⟨(hkeys hrequired).imp ?_, (hkeys hoptional).imp ?_, ?_⟩, List.pairwise_singleton _ _, ?_⟩
  · intro first second hne error hfirst hsecond
    have hsame := eq_of_append_isPrefix (covers_requiredPiece hfirst) (covers_requiredPiece hsecond)
      rfl
    exact hne (by simpa using hsame)
  · intro first second hne piece hpiece piece' hpiece' error hfirst hsecond
    have hsame := eq_of_append_isPrefix (covers_optionalPiece hpiece hfirst)
      (covers_optionalPiece hpiece' hsecond) rfl
    exact hne (by simpa using hsame)
  · intro piece hpiece piece' hpiece' error hfirst hsecond
    obtain ⟨property, -, rfl⟩ := List.mem_map.mp hpiece
    obtain ⟨property', -, hpiece'⟩ := List.mem_filterMap.mp hpiece'
    have hsame := eq_of_append_isPrefix (covers_requiredPiece hfirst)
      (covers_optionalPiece hpiece' hsecond) rfl
    simp at hsame
  · intro piece hpiece piece' hpiece' error hfirst hsecond
    obtain rfl := List.mem_singleton.mp hpiece'
    obtain ⟨entry, -, rfl⟩ := exists_of_mem_undeclaredErrors hsecond
    have hlonger : ∃ token key, rule ++ [token, key] <+: rule := by
      rcases List.mem_append.mp hpiece with hpiece | hpiece
      · obtain ⟨property, -, rfl⟩ := List.mem_map.mp hpiece
        exact ⟨_, _, covers_requiredPiece hfirst⟩
      · obtain ⟨property, -, hpiece⟩ := List.mem_filterMap.mp hpiece
        exact ⟨_, _, covers_optionalPiece hpiece hfirst⟩
    obtain ⟨token, key, hprefix⟩ := hlonger
    have hlength := hprefix.length_le
    rw [List.length_append] at hlength
    simp at hlength

/-- **The pieces of a node are apart**, when neither the node nor the document lists a key twice. -/
theorem Node.pieces_apart {reading : Reading} {node : Node} {input : Json}
    (hnode : node.ListsOnce) (hinput : input.WellFormed) :
    (node.pieces reading input).Pairwise Piece.Apart := by
  obtain ⟨kind, nullable⟩ := node
  have hplaces : ∀ {token token' : String} {rule rule' : Pointer} {node node' : Node}
      {item item' : Json}, token ≠ token' →
      Piece.Apart (.part [token] rule node item) (.part [token'] rule' node' item') := by
    intro token token' rule rule' node node' item item' hne error hfirst hsecond
    have hsame := @eq_of_append_isPrefix [] _ _ _ hfirst.1 hsecond.1 rfl
    exact hne (by simpa using hsame)
  rw [Node.pieces]
  split
  · exact List.Pairwise.nil
  cases kind with
  | scalar | enumeration | ref => exact List.pairwise_singleton _ _
  | object shape =>
    obtain ⟨hrequired, hoptional, -⟩ := Shape.listsOnce_iff.mp hnode
    cases input with
    | object entries => exact Shape.pieces_apart hrequired hoptional
    | _ => exact List.pairwise_singleton _ _
  | array element =>
    cases input with
    | array items =>
      have hpositions : items.zipIdx.Pairwise fun first second => first.2 ≠ second.2 := by
        rw [← List.pairwise_map (f := Prod.snd) (R := (· ≠ ·)), List.zipIdx_map_snd]
        exact List.nodup_range' 1
      rw [Kind.pieces, List.pairwise_map]
      exact hpositions.imp fun hne => hplaces fun hsame => hne (Json.eq_of_toString_eq hsame)
    | _ => exact List.pairwise_singleton _ _
  | record value =>
    cases input with
    | object entries =>
      have hkeys : entries.Pairwise fun first second => first.1 ≠ second.1 :=
        List.pairwise_map.mp hinput.1
      rw [Kind.pieces, List.pairwise_map]
      exact hkeys.imp fun hne => hplaces hne
    | _ => exact List.pairwise_singleton _ _
  | union tag variants =>
    cases input with
    | object entries =>
      simp only [Kind.pieces]
      split
      · split
        · rename_i shape hshape
          have hvariant := variantsListOnce_iff.mp hnode _ (Entries.mem_of_lookup hshape)
          obtain ⟨hrequired, hoptional, -⟩ := Shape.listsOnce_iff.mp hvariant
          exact Shape.pieces_apart hrequired hoptional
        · exact List.pairwise_singleton _ _
      · exact List.pairwise_singleton _ _
      · exact List.pairwise_singleton _ _
    | _ => exact List.pairwise_singleton _ _

/-- Pieces that may have an error in common are the same. -/
theorem Node.eq_of_covers {reading : Reading} {node : Node} {input : Json}
    (hnode : node.ListsOnce) (hinput : input.WellFormed) {first second : Piece}
    (hfirst : first ∈ node.pieces reading input) (hsecond : second ∈ node.pieces reading input)
    {error : ValueError} (h : first.Covers error) (h' : second.Covers error) : first = second := by
  by_contra hne
  exact (Node.pieces_apart hnode hinput).forall hfirst hsecond hne error h h'

/-! ## The errors of a walk -/

/-- The root of a program has no say in how references are followed. -/
theorem decodeModel_withRoot (program : Program) (node : Node) (reading : Reading) :
    decodeModel { program with root := node } reading = decodeModel program reading := by
  funext steps
  induction steps with
  | zero => rfl
  | succ steps ih =>
    funext index input
    rw [decodeModel, decodeModel, ih]

variable {reading : Reading} {steps : Nat}

/-- What a walk gives at a node is what decoding along the node alone gives. -/
theorem decode_withRoot_of_decode {node : Node} {input : Json} {report : Report Value}
    (h : node.decode reading (program.decodeModel reading steps) input = some report) :
    decode { program with root := node } reading input = some report := by
  have hwalk := program.isWalk_decode reading
  rw [decode, decodeModel_withRoot]
  exact (hwalk.walk_settled node le_rfl).trans ((hwalk.walk_run_le node input steps).eq_some h)

/-- **The errors of a walk**, piece by piece. -/
theorem exists_errors_of_decode {node : Node} {input : Json} {report : Report Value}
    (h : node.decode reading (program.decodeModel reading steps) input = some report) :
    ∃ lists : List (List ValueError),
      List.Forall₂ (fun piece errors =>
        Piece.errors reading (program.decodeModel reading steps) piece = some errors)
        (node.pieces reading input) lists ∧ report.errors = lists.flatten := by
  have herrors :
      (node.decode reading (program.decodeModel reading steps) input).map Report.errors = _ :=
    node.errors_decode input
  rw [h, Option.map_some, eq_comm, Option.map_eq_some_iff] at herrors
  obtain ⟨lists, hlists, hflatten⟩ := herrors
  exact ⟨lists, Walk.mapM_eq_some_iff.mp hlists, hflatten.symm⟩

/-- Every error of a walk is one of a piece. -/
theorem exists_piece_of_mem_errors {node : Node} {input : Json} {report : Report Value}
    (h : node.decode reading (program.decodeModel reading steps) input = some report)
    {error : ValueError} (herror : error ∈ report.errors) :
    ∃ piece ∈ node.pieces reading input, ∃ errors,
      piece.errors reading (program.decodeModel reading steps) = some errors ∧
        error ∈ errors := by
  obtain ⟨lists, hlists, hflatten⟩ := exists_errors_of_decode h
  rw [hflatten, List.mem_flatten] at herror
  obtain ⟨errors, herrors, herror⟩ := herror
  obtain ⟨piece, hpiece, hgives⟩ := Outcome.exists_of_forall₂_right hlists errors herrors
  exact ⟨piece, hpiece, errors, hgives, herror⟩

/-- A reference goes on along its model with one step less. -/
theorem exists_model_of_errors {index : Nat} {item : Json} {errors : List ValueError}
    (h : Piece.errors reading (program.decodeModel reading steps) (.model index item) =
      some errors) :
    ∃ below model report, steps = below + 1 ∧ program.models[index]? = some model ∧
      model.decode reading (program.decodeModel reading below) item = some report ∧
      errors = report.errors := by
  obtain ⟨report, hreport, rfl⟩ := Option.map_eq_some_iff.mp h
  cases steps with
  | zero => cases hreport
  | succ below =>
    rw [decodeModel] at hreport
    cases hmodel : program.models[index]? with
    | none =>
      rw [hmodel] at hreport
      cases hreport
    | some model =>
      rw [hmodel] at hreport
      exact ⟨below, model, report, rfl, rfl, hreport, rfl⟩

end Program

namespace Validator

/-- What is wrong, if anything is. -/
def complaints (outcome : Except (List ValueError) Value) : List ValueError :=
  match outcome with
  | .ok _ => []
  | .error errors => errors

@[simp] theorem complaints_result (report : Report Value) :
    complaints report.result = report.errors := by
  obtain ⟨value?, errors⟩ := report
  cases value? <;> cases errors <;> rfl

/-- The validator with the same models that begins with another node. -/
def withRoot (validator : Validator) (node : Program.Node) : Validator :=
  ⟨{ validator.program with root := node }⟩

end Validator

end RpcSchema
