import RpcSchema.Proofs.Program.Agreement
import RpcSchema.Proofs.Program.LenientAgreement
import RpcSchema.Proofs.Program.Places

set_option autoImplicit false

/-!
# Converting only ever saves scalars

Strict decoding and converting put the same questions to a document and differ at scalars only.
What is decoded strictly is decoded to the same value when scalars may be converted. And the errors
that are left then stand at the same places, in the same order: those are gone that stand at a
scalar of another spelling which can be converted, and no others.

## Main definitions

* `RpcSchema.Program.Convertible` — an error stands at a scalar that can be converted.

## Main results

* `RpcSchema.Program.converting_of_strict` — what is decoded strictly is decoded when converting.
* `RpcSchema.Program.places_of_strict` — the places of the errors that are left.
* `RpcSchema.Validator.coerce_of_decode` — the same for validators.
-/

namespace RpcSchema

/-- The two places of an error. -/
def ValueError.places (error : ValueError) : Pointer × Pointer :=
  (error.instancePath, error.schemaPath)

/-- Errors with the same places have the same places from outside. -/
theorem ValueError.map_places_under (place rule : Pointer) (errors : List ValueError) :
    (errors.map (·.under place rule)).map ValueError.places =
      (errors.map ValueError.places).map fun places => (place ++ places.1, rule ++ places.2) := by
  simp [places, under]

namespace Program

/-- **An error stands at a scalar that can be converted**: decoding comes to the scalar where the
error stands, with a part of the document that is not `null`, is not spelled as the scalar is
spelled, though not for being out of range, and has a conversion. -/
def Convertible (program : Program) (node : Node) (input : Json) (error : ValueError) : Prop :=
  ∃ kind nullable rule part,
    program.Comes node input error.instancePath rule ⟨.scalar kind, nullable⟩ part ∧
      error.schemaPath = rule ++ ["type"] ∧ part.isNull = false ∧
      kind.read part = .error .shape ∧ (kind.convert? part).isSome = true

variable {program : Program} {steps : Nat}

/-! ## What is decoded strictly -/

/-- A scalar that is decoded strictly is decoded when converting. -/
theorem decodeScalar_converting_of_strict {kind : ScalarKind} {input : Json} {value : Value}
    (h : decodeScalar .strict kind input = .ok value) :
    decodeScalar .converting kind input = .ok value := by
  simp only [decodeScalar, read_of_decodeScalar h]

/-- **What is decoded strictly** is decoded to the same value when converting.

**Proof sketch.** Induction along the walk. A node with parts is decoded when its parts are, and
what is made of them does not hang on the way in which scalars are read. -/
theorem converting_of_strict {node : Node} : ∀ {input : Json} {value : Value},
    node.Decodes .strict (program.decodeModel .strict steps) input value →
      node.Decodes .converting (program.decodeModel .converting steps) input value := by
  have hstrict := followsProperly_decodeModel program .strict
  have hconverting := followsProperly_decodeModel program .converting
  -- Where `null` will do both ways decode it; elsewhere what the node demands decides.
  have hkind {kind : Kind} {nullable : Bool} {steps : Nat} {input : Json} {value : Value}
      (h : Node.Decodes .strict (program.decodeModel .strict steps) ⟨kind, nullable⟩ input value)
      (hdecode : kind.decode .strict (program.decodeModel .strict steps) input =
        some (.ok value) → kind.decode .converting (program.decodeModel .converting steps) input =
          some (.ok value)) :
      Node.Decodes .converting (program.decodeModel .converting steps) ⟨kind, nullable⟩ input
        value := by
    rcases Node.decode_eq_ok_iff.mp h with hnull | ⟨hnull, h⟩
    · exact Node.decode_eq_ok_iff.mpr (.inl hnull)
    · exact Node.decode_eq_ok_iff.mpr (.inr ⟨hnull, hdecode h⟩)
  have hshape {shape : Shape} {tag : Option String} {steps : Nat} {input : Json}
      {fields : Entries Value}
      (ih : ∀ property ∈ shape.properties, ∀ {input : Json} {value : Value},
        property.2.Decodes .strict (program.decodeModel .strict steps) input value →
          property.2.Decodes .converting (program.decodeModel .converting steps) input value)
      (h : shape.decode .strict (program.decodeModel .strict steps) tag input =
        some (.ok fields)) :
      shape.decode .converting (program.decodeModel .converting steps) tag input =
        some (.ok fields) := by
    obtain ⟨entries, pairs, rfl, hadmits, hpairs, rfl⟩ :=
      (Shape.decode_eq_ok_iff (hstrict steps)).mp h
    refine (Shape.decode_eq_ok_iff (hconverting steps)).mpr
      ⟨entries, pairs, rfl, hadmits, hpairs.imp fun property hproperty _ _ => ?_, rfl⟩
    exact ih property (Shape.mem_properties_of_mem_presentIn hproperty)
  induction steps, node using walkInduct program with
  | scalar steps kind nullable =>
    intro input value h
    refine hkind h fun hdecode => ?_
    rw [Kind.decode, decodeScalar_converting_of_strict (Option.some.inj hdecode)]
  | enumeration steps values nullable => exact fun h => hkind h id
  | object steps shape nullable ih =>
    intro input value h
    refine hkind h fun hdecode => ?_
    obtain ⟨fields, hfields, rfl⟩ := Kind.decode_object_iff.mp hdecode
    exact Kind.decode_object_iff.mpr ⟨fields, hshape ih hfields, rfl⟩
  | array steps element nullable ih =>
    intro input value h
    refine hkind h fun hdecode => ?_
    obtain ⟨items, values, rfl, hvalues, rfl⟩ := (Kind.decode_array_iff (hstrict steps)).mp hdecode
    exact (Kind.decode_array_iff (hconverting steps)).mpr
      ⟨items, values, rfl, hvalues.imp fun _ _ => ih, rfl⟩
  | record steps node nullable ih =>
    intro input value h
    refine hkind h fun hdecode => ?_
    obtain ⟨entries, fields, rfl, hfields, rfl⟩ :=
      (Kind.decode_record_iff (hstrict steps)).mp hdecode
    exact (Kind.decode_record_iff (hconverting steps)).mpr
      ⟨entries, fields, rfl, hfields.imp fun _ _ hfield => ⟨hfield.1, ih hfield.2⟩, rfl⟩
  | union steps tag variants nullable ih =>
    intro input value h
    refine hkind h fun hdecode => ?_
    obtain ⟨entries, name, shape, fields, rfl, htag, hvariant, hfields, rfl⟩ :=
      Kind.decode_union_iff.mp hdecode
    have hinner := hshape (ih (name, shape) (Entries.mem_of_lookup hvariant)) hfields
    exact Kind.decode_union_iff.mpr
      ⟨entries, name, shape, fields, rfl, htag, hvariant, hinner, rfl⟩
  | stop index nullable =>
    intro input value h
    refine hkind h fun hdecode => ?_
    cases hdecode
  | step steps index nullable ih =>
    intro input value h
    refine hkind h fun hdecode => ?_
    rw [Kind.decode, decodeModel] at hdecode ⊢
    cases hmodel : program.models[index]? with
    | none =>
      rw [hmodel] at hdecode
      cases hdecode
    | some model =>
      rw [hmodel] at hdecode
      exact ih model hmodel hdecode

/-! ## Which errors can be converted -/

/-- At a scalar it is the scalar itself that decides. -/
theorem convertible_scalar_iff {kind : ScalarKind} {nullable : Bool} {input : Json}
    {error : ValueError} :
    program.Convertible ⟨.scalar kind, nullable⟩ input error ↔
      error.places = ([], ["type"]) ∧ input.isNull = false ∧ kind.read input = .error .shape ∧
        (kind.convert? input).isSome = true := by
  obtain ⟨instancePath, schemaPath, fault⟩ := error
  constructor
  · rintro ⟨kind', nullable', rule, part, hcomes, hrule, hrest⟩
    cases hcomes with
    | here => exact ⟨Prod.ext rfl hrule, hrest⟩
    | part hpart => cases hpart
  · rintro ⟨hplaces, hrest⟩
    cases hplaces
    exact ⟨kind, nullable, [], input, .here _ _, rfl, hrest⟩

/-- At a reference it is the model. -/
theorem convertible_ref_iff {index : Nat} {nullable : Bool} {model : Node} {input : Json}
    (hnull : (input.isNull && nullable) = false) (hmodel : program.models[index]? = some model)
    {error : ValueError} :
    program.Convertible ⟨.ref index, nullable⟩ input error ↔
      program.Convertible model input error := by
  obtain ⟨instancePath, schemaPath, fault⟩ := error
  constructor
  · rintro ⟨kind, nullable', rule, part, hcomes, hrest⟩
    cases hcomes with
    | part hpart => cases hpart
    | model _ hmodel' hcomes =>
      obtain rfl := Option.some.inj (hmodel.symm.trans hmodel')
      exact ⟨kind, nullable', rule, part, hcomes, hrest⟩
  · rintro ⟨kind, nullable', rule, part, hcomes, hrest⟩
    exact ⟨kind, nullable', rule, part, .model hnull hmodel hcomes, hrest⟩

/-- For an error about a part it is the part.

**Proof sketch.** Whatever decoding comes to where the error stands, it comes to through some part.
The error belongs to that part and to the part it is about; parts are apart, so they are one. -/
theorem convertible_under_iff {node inner : Node} {input item : Json} {place rule : Pointer}
    (hnode : node.ListsOnce) (hinput : input.WellFormed)
    (hpart : node.HasPart input place rule inner item) {error : ValueError} :
    program.Convertible node input (error.under place rule) ↔
      program.Convertible inner item error := by
  constructor
  · rintro ⟨kind, nullable, rule', part, hcomes, hrule, hrest⟩
    generalize hpath : (error.under place rule).instancePath = path at hcomes
    cases hcomes with
    | here => cases hpart
    | model => cases hpart
    | @part _ middle _ _ item' _ first first' second second' hpart' hcomes =>
      rw [List.append_assoc] at hrule
      have hwithin := ValueError.within_of_eq_append hpath hrule
      have hmem : _ ∈ Node.pieces .strict _ _ := Node.part_mem_pieces_iff.mpr hpart'
      have hsame := Node.eq_of_covers hnode hinput hmem (Node.part_mem_pieces_iff.mpr hpart) hwithin
        (ValueError.within_under place rule error)
      cases hsame
      obtain rfl : error.instancePath = second := List.append_cancel_left hpath
      exact ⟨kind, nullable, second', part, hcomes, List.append_cancel_left hrule, hrest⟩
  · rintro ⟨kind, nullable, rule', part, hcomes, hrule, hrest⟩
    refine ⟨kind, nullable, rule ++ rule', part, .part hpart hcomes, ?_, hrest⟩
    rw [ValueError.under, hrule, List.append_assoc]

/-- What is wrong with a node other than a scalar cannot be converted away. -/
theorem not_convertible_of_faults {node : Node} {input : Json} (hnode : node.ListsOnce)
    (hinput : input.WellFormed) (hscalar : ∀ kind, node.kind ≠ .scalar kind)
    {faults : List ValueError} (hfaults : .faults faults ∈ node.pieces .strict input)
    {error : ValueError} (herror : error ∈ faults) : ¬ program.Convertible node input error := by
  rintro ⟨kind, nullable, rule, part, hcomes, hrule, hrest⟩
  generalize hpath : error.instancePath = path at hcomes
  cases hcomes with
  | here => exact hscalar kind rfl
  | @part _ middle _ _ item _ first first' second second' hpart hcomes =>
    rw [List.append_assoc] at hrule
    have hwithin := ValueError.within_of_eq_append hpath hrule
    cases Node.eq_of_covers hnode hinput hfaults (Node.part_mem_pieces_iff.mpr hpart) herror
      hwithin
  | model hnull =>
    simp only [Node.pieces, hnull] at hfaults
    cases List.mem_singleton.mp hfaults

/-! ## The errors that are left -/

open scoped Classical in
/-- **The errors that cannot be converted**, in their order. -/
noncomputable def unconvertible (program : Program) (node : Node) (input : Json)
    (errors : List ValueError) : List ValueError :=
  errors.filter fun error => ¬ program.Convertible node input error

theorem unconvertible_eq_self {node : Node} {input : Json} {errors : List ValueError}
    (h : ∀ error ∈ errors, ¬ program.Convertible node input error) :
    program.unconvertible node input errors = errors :=
  List.filter_eq_self.mpr fun error herror => by simpa using h error herror

/-- What can be converted of the same errors, seen from two nodes. -/
theorem unconvertible_congr {node node' : Node} {input input' : Json} {errors : List ValueError}
    (h : ∀ error, program.Convertible node input error ↔ program.Convertible node' input' error) :
    program.unconvertible node input errors = program.unconvertible node' input' errors :=
  List.filter_congr fun error _ => decide_eq_decide.mpr (not_congr (h error))

theorem unconvertible_flatten (node : Node) (input : Json) (lists : List (List ValueError)) :
    program.unconvertible node input lists.flatten =
      (lists.map (program.unconvertible node input)).flatten :=
  List.filter_flatten

/-- What cannot be converted of the errors about a part is, seen from outside, what cannot be
converted of them. -/
theorem unconvertible_map_under {node inner : Node} {input item : Json} {place rule : Pointer}
    (h : ∀ error, program.Convertible node input (error.under place rule) ↔
      program.Convertible inner item error) (errors : List ValueError) :
    program.unconvertible node input (errors.map (·.under place rule)) =
      (program.unconvertible inner item errors).map (·.under place rule) := by
  unfold unconvertible
  rw [List.filter_map]
  congr 1
  refine List.filter_congr fun error _ => ?_
  rw [Function.comp_apply]
  exact decide_eq_decide.mpr (not_congr (h error))

/-- Where each piece leaves what cannot be converted, so do all of them. -/
theorem exists_errors_of_pieces {node : Node} {input : Json} {f g : Piece → Walk (List ValueError)}
    {pieces : List Piece}
    (h : ∀ piece ∈ pieces, ∀ errors, f piece = some errors → ∃ errors', g piece = some errors' ∧
      errors'.map ValueError.places =
        (program.unconvertible node input errors).map ValueError.places) :
    ∀ {lists : List (List ValueError)}, pieces.mapM f = some lists →
      ∃ lists', pieces.mapM g = some lists' ∧ lists'.flatten.map ValueError.places =
        (program.unconvertible node input lists.flatten).map ValueError.places := by
  intro lists hlists
  rw [Walk.mapM_eq_some_iff] at hlists
  simp only [Walk.mapM_eq_some_iff, unconvertible_flatten]
  induction hlists with
  | nil => exact ⟨[], .nil, rfl⟩
  | cons hfirst _ ih =>
    obtain ⟨hpiece, hpieces⟩ := List.forall_mem_cons.mp h
    obtain ⟨errors', herrors', hplaces⟩ := hpiece _ hfirst
    obtain ⟨lists', hlists', hrest⟩ := ih hpieces
    refine ⟨errors' :: lists', .cons herrors' hlists', ?_⟩
    rw [List.flatten_cons, List.map_append, hplaces, hrest, List.map_cons, List.flatten_cons,
      List.map_append]

/-- A scalar of another spelling is an error at the scalar itself when it has to be strict. -/
theorem exists_decodeScalar_strict_eq {kind : ScalarKind} {input : Json}
    (h : kind.read input = .error .shape) :
    ∃ fault, decodeScalar .strict kind input = .fail [] ["type"] fault := by
  simp only [decodeScalar, h, reduceCtorEq, false_and, if_false]
  split <;> exact ⟨_, rfl⟩

/-- Of the errors at a scalar those are left that cannot be converted. -/
theorem places_of_decodeScalar (kind : ScalarKind) (nullable : Bool) (input : Json) :
    (decodeScalar .converting kind input).errors.map ValueError.places =
      (program.unconvertible ⟨.scalar kind, nullable⟩ input
        (decodeScalar .strict kind input).errors).map ValueError.places := by
  have hstays : ∀ errors : List ValueError,
      ¬ (input.isNull = false ∧ kind.read input = .error .shape ∧
        (kind.convert? input).isSome = true) →
      program.unconvertible ⟨.scalar kind, nullable⟩ input errors = errors :=
    fun errors hnot => unconvertible_eq_self fun error _ hconvertible =>
      hnot (convertible_scalar_iff.mp hconvertible).2
  cases hread : kind.read input with
  | ok value => simp [decodeScalar, hread, Report.ok, unconvertible]
  | error mismatch =>
    cases mismatch with
    | range =>
      rw [hstays _ (by simp [hread])]
      simp only [decodeScalar, hread]
    | shape =>
      obtain ⟨fault, hstrict⟩ := exists_decodeScalar_strict_eq hread
      cases hnull : input.isNull with
      | true =>
        rw [hstays _ (by simp [hnull])]
        simp [decodeScalar, hread, hnull]
      | false =>
        cases hconvert : kind.convert? input with
        | none =>
          rw [hstays _ (by simp [hconvert]), hstrict]
          simp [decodeScalar, hread, hnull, hconvert, Report.fail, ValueError.places]
        | some value =>
          have hgone : program.Convertible ⟨.scalar kind, nullable⟩ input ⟨[], ["type"], fault⟩ :=
            convertible_scalar_iff.mpr ⟨rfl, hnull, hread, by rw [hconvert]; rfl⟩
          rw [hstrict]
          simp [decodeScalar, hread, hnull, hconvert, Report.fail, Report.ok, unconvertible, hgone]

/-- Only scalars are read in one way or the other. -/
theorem Node.pieces_eq_of_not_scalar {node : Node} (hscalar : ∀ kind, node.kind ≠ .scalar kind)
    (input : Json) : node.pieces .converting input = node.pieces .strict input := by
  obtain ⟨kind, nullable⟩ := node
  cases kind with
  | scalar kind => exact absurd rfl (hscalar kind)
  | _ => cases input <;> rfl

/-- **The errors that are left** when converting stand where those stood that cannot be converted.

**Proof sketch.** Induction along the parts. A scalar has one error at most. The errors of any other
node are those of its pieces, which are the same both ways: its own faults stay, and those about a
part or of a model are left as they are left there. -/
theorem places_of_strict (hmodels : ∀ node ∈ program.models, node.ListsOnce) {node : Node} :
    ∀ {input : Json} {report : Report Value}, node.ListsOnce → input.WellFormed →
      node.decode .strict (program.decodeModel .strict steps) input = some report →
      ∃ report', node.decode .converting (program.decodeModel .converting steps) input =
          some report' ∧
        report'.errors.map ValueError.places =
          (program.unconvertible node input report.errors).map ValueError.places := by
  induction steps, node using partInduct program with
  | node steps node ihpart ihmodel =>
    intro input report hnode hinput h
    by_cases hscalar : ∃ kind, node.kind = .scalar kind
    · obtain ⟨kind, hkind⟩ := hscalar
      obtain ⟨_, nullable⟩ := node
      obtain rfl := hkind
      rw [Node.decode] at h ⊢
      split at h
      · rename_i hnull
        cases h
        exact ⟨.ok .null, if_pos hnull, rfl⟩
      · rename_i hnull
        cases h
        exact ⟨_, if_neg hnull, places_of_decodeScalar kind nullable input⟩
    · have hscalar' : ∀ kind, node.kind ≠ .scalar kind := fun kind hkind => hscalar ⟨kind, hkind⟩
      have hpieces : ∀ piece ∈ node.pieces .strict input, ∀ errors,
          piece.errors .strict (program.decodeModel .strict steps) = some errors →
          ∃ errors', piece.errors .converting (program.decodeModel .converting steps) =
              some errors' ∧ errors'.map ValueError.places =
            (program.unconvertible node input errors).map ValueError.places := by
        intro piece hpiece errors hgives
        cases piece with
        | faults faults =>
          obtain rfl := Option.some.inj hgives
          refine ⟨faults, rfl, ?_⟩
          rw [unconvertible_eq_self fun error herror =>
            not_convertible_of_faults hnode hinput hscalar' hpiece herror]
        | part place rule inner item =>
          have hpart := Node.part_mem_pieces_iff.mp hpiece
          obtain ⟨report₁, hreport₁, rfl⟩ := Option.map_eq_some_iff.mp hgives
          obtain ⟨report₂, hreport₂, hplaces⟩ := ihpart input place rule inner item hpart
            (hpart.listsOnce hnode) (hpart.wellFormed hinput) hreport₁
          refine ⟨_, by rw [Piece.errors, hreport₂, Option.map_some], ?_⟩
          rw [unconvertible_map_under fun error => convertible_under_iff hnode hinput hpart,
            ValueError.map_places_under, ValueError.map_places_under, hplaces]
        | model index item =>
          obtain ⟨hkind, rfl, hnull⟩ := Node.model_mem_pieces_iff.mp hpiece
          obtain ⟨below, model, report₁, rfl, hmodel, hreport₁, rfl⟩ :=
            exists_model_of_errors hgives
          obtain ⟨report₂, hreport₂, hplaces⟩ := ihmodel index below model hkind rfl hmodel
            (hmodels model (List.mem_of_getElem? hmodel)) hinput hreport₁
          obtain ⟨_, nullable⟩ := node
          obtain rfl := hkind
          refine ⟨report₂.errors, ?_, ?_⟩
          · simp only [Piece.errors, decodeModel, hmodel, hreport₂, Option.map_some]
          · rw [hplaces, unconvertible_congr fun error => convertible_ref_iff hnull hmodel]
      obtain ⟨lists, hlists, herrors⟩ := exists_errors_of_decode h
      obtain ⟨lists', hlists', hplaces⟩ :=
        exists_errors_of_pieces hpieces (Walk.mapM_eq_some_iff.mpr hlists)
      have hconverting :
          (node.decode .converting (program.decodeModel .converting steps) input).map
            Report.errors = _ := node.errors_decode input
      rw [Node.pieces_eq_of_not_scalar hscalar', hlists', Option.map_some] at hconverting
      obtain ⟨report', hreport', herrors'⟩ := Option.map_eq_some_iff.mp hconverting
      exact ⟨report', hreport', by rw [herrors', herrors, hplaces]⟩

end Program

namespace Validator

/-- **Converting only ever saves scalars.** Whenever decoding a document without repeated keys ends,
along a program whose shapes list no key twice in a section, so does converting it. What decoding
gives converting gives as well. And the errors of converting stand at the places, in the document
and in the schema, at which those errors of decoding stand that do not stand at a scalar that can be
converted; they are as many, and in the same order. -/
theorem coerce_of_decode {validator : Validator} {input : Json}
    {outcome : Except (List ValueError) Value} (hprogram : validator.program.ListsOnce)
    (hinput : input.WellFormed) (h : validator.decode input = some outcome) :
    ∃ outcome', validator.coerce input = some outcome' ∧
      (∀ value, outcome = .ok value → outcome' = .ok value) ∧
      (complaints outcome').map ValueError.places =
        (validator.program.unconvertible validator.program.root input
          (complaints outcome)).map ValueError.places := by
  obtain ⟨report, hreport, rfl⟩ := Option.map_eq_some_iff.mp h
  obtain ⟨report', hreport', hplaces⟩ :=
    Program.places_of_strict hprogram.models hprogram.root hinput hreport
  refine ⟨report'.result, ?_, ?_, ?_⟩
  · exact Option.map_eq_some_iff.mpr ⟨report', hreport', rfl⟩
  · intro value hvalue
    obtain rfl := Report.result_eq_ok_iff.mp hvalue
    have hsame := Option.some.inj (hreport'.symm.trans (Program.converting_of_strict hreport))
    rw [hsame]
    rfl
  · rw [complaints_result, complaints_result, hplaces]

/-- The case of a flag that is written as a text beside a number that is out of range and an instant
that is `null`: the first error goes, the other two stay. -/
theorem coerce_of_decode_mixed_faults :
    let fields : List (String × Program.Node) :=
      [("flag", ⟨.scalar .boolean, false⟩), ("byte", ⟨.scalar .int8, false⟩),
        ("time", ⟨.scalar .timestamp, false⟩)]
    let validator : Validator := ⟨⟨⟨.object ⟨fields, [], true⟩, false⟩, [], []⟩⟩
    let large : Json := .number (.whole 300 (by decide))
    let input : Json := .object [("flag", .string "true"), ("byte", large), ("time", .null)]
    let flag : ValueError :=
      ⟨["flag"], ["properties", "flag", "type"], .expected "boolean" "string"⟩
    let byte : ValueError :=
      ⟨["byte"], ["properties", "byte", "type"], .outOfRange large.compact .int8⟩
    let time : ValueError :=
      ⟨["time"], ["properties", "time", "type"], .expected "ISO-8601 date string" "null"⟩
    validator.program.ListsOnce ∧ input.WellFormed ∧
      validator.decode input = some (.error [flag, byte, time]) ∧
      validator.coerce input = some (.error [byte, time]) ∧
      [byte, time].map ValueError.places =
        (validator.program.unconvertible validator.program.root input
          [flag, byte, time]).map ValueError.places := by
  intro fields validator large input flag byte time
  have hprogram : validator.program.ListsOnce := by
    constructor
    · simp [validator, fields, Program.Node.ListsOnce, Program.Kind.ListsOnce,
        Program.Shape.ListsOnce, Program.PropertiesListOnce, Entries.Distinct, Entries.keys]
    · simp [validator]
  have hinput : input.WellFormed := by
    simp [input, large, Json.WellFormed, Json.WellFormedEntries, Entries.Distinct, Entries.keys]
  have hdecode : validator.decode input = some (.error [flag, byte, time]) := rfl
  have hcoerce : validator.coerce input = some (.error [byte, time]) := rfl
  obtain ⟨outcome', houtcome', -, hplaces⟩ := coerce_of_decode hprogram hinput hdecode
  obtain rfl := Option.some.inj (hcoerce.symm.trans houtcome')
  exact ⟨hprogram, hinput, hdecode, hcoerce, hplaces⟩

end Validator

end RpcSchema
