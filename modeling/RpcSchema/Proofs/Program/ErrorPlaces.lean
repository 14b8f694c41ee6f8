import RpcSchema.Proofs.Program.Places

set_option autoImplicit false

/-!
# Errors of decoding are located and never masked

Every error of decoding points to something in the document; the one exception is an error about a
missing tag, which points to where the tag should be. And whatever else is wrong with a document,
the errors about a part that decoding comes to are those of decoding the part alone.

## Main definitions

* `RpcSchema.Json.Locates` — a document has the place that an error points to.
* `RpcSchema.Program.Unmasked` — errors stand among others in one piece, and nothing else belongs
  to their place and rule.

## Main results

* `RpcSchema.Program.exists_origin` — every error of decoding is a fault of a node that decoding
  comes to.
* `RpcSchema.Program.Comes.unmasked` — the errors about a part stand unmasked among all errors.
* `RpcSchema.Validator.located_and_unmasked_of_decode` — the same for validators.
-/

namespace RpcSchema

/-- **A document has the place that an error points to**; an error about a missing tag points to an
object and, in it, to the tag, which is not there. -/
def Json.Locates (input : Json) (pointer : Pointer) (fault : ValueFault) : Prop :=
  match fault with
  | .missingTag tag => ∃ place entries, pointer = place ++ [tag] ∧
      input.resolve? place = some (.object entries) ∧ entries.lookup tag = none
  | _ => ∃ item, input.resolve? pointer = some item

/-- The place that an error points to in a part is one of the whole. -/
theorem Json.Locates.under {input part : Json} {place pointer : Pointer} {fault : ValueFault}
    (hpart : input.resolve? place = some part) (h : part.Locates pointer fault) :
    input.Locates (place ++ pointer) fault := by
  have hresolve : ∀ pointer, input.resolve? (place ++ pointer) = part.resolve? pointer := by
    intro pointer
    rw [resolve?_append, hpart, Option.bind_some]
  cases fault with
  | missingTag tag =>
    obtain ⟨inner, entries, rfl, hobject, hnone⟩ := h
    exact ⟨place ++ inner, entries, (List.append_assoc ..).symm, (hresolve inner).trans hobject,
      hnone⟩
  | _ =>
    obtain ⟨item, hitem⟩ := h
    exact ⟨item, (hresolve pointer).trans hitem⟩

namespace Program

variable {program : Program} {reading : Reading} {steps : Nat}

/-! ## Where the errors come from -/

/-- **Every error of decoding is a fault of a node** that decoding comes to.

**Proof sketch.** Induction along the parts. The error is one of a piece of the node: a fault of the
node itself, an error about a part seen from outside, or one of the model of a reference. -/
theorem exists_origin {node : Node} : ∀ {input : Json} {report : Report Value},
    node.decode reading (program.decodeModel reading steps) input = some report →
    ∀ error ∈ report.errors, ∃ place rule inner part faults fault,
      program.Comes node input place rule inner part ∧
        .faults faults ∈ inner.pieces reading part ∧ fault ∈ faults ∧
        error = fault.under place rule := by
  induction steps, node using partInduct program with
  | node steps node ihpart ihmodel =>
    intro input report h error herror
    obtain ⟨piece, hpiece, errors, herrors, herror⟩ := exists_piece_of_mem_errors h herror
    cases piece with
    | faults faults =>
      rw [← Option.some.inj herrors] at herror
      exact ⟨[], [], node, input, faults, error, .here node input, hpiece, herror, rfl⟩
    | part place rule middle item =>
      have hpart := Node.part_mem_pieces_iff.mp hpiece
      obtain ⟨report', hreport', rfl⟩ := Option.map_eq_some_iff.mp herrors
      obtain ⟨error', herror', rfl⟩ := List.mem_map.mp herror
      obtain ⟨place', rule', inner, part, faults, fault, hcomes, hfaults, hfault, rfl⟩ :=
        ihpart input place rule middle item hpart hreport' error' herror'
      exact ⟨place ++ place', rule ++ rule', inner, part, faults, fault, .part hpart hcomes,
        hfaults, hfault, ValueError.under_under ..⟩
    | model index item =>
      obtain ⟨hkind, rfl, hnull⟩ := Node.model_mem_pieces_iff.mp hpiece
      obtain ⟨below, model, report', rfl, hmodel, hreport', rfl⟩ := exists_model_of_errors herrors
      obtain ⟨place, rule, inner, part, faults, fault, hcomes, hrest⟩ :=
        ihmodel index below model hkind rfl hmodel hreport' error herror
      obtain ⟨kind, nullable⟩ := node
      obtain rfl : kind = .ref index := hkind
      exact ⟨place, rule, inner, part, faults, fault, .model hnull hmodel hcomes, hrest⟩

/-! ## Where the faults of a node point -/

/-- The faults of a scalar point to the scalar. -/
theorem locates_of_decodeScalar {kind : ScalarKind} {input : Json} {error : ValueError}
    (h : error ∈ (decodeScalar reading kind input).errors) :
    input.Locates error.instancePath error.fault := by
  unfold decodeScalar at h
  split at h
  · cases h
  · rw [List.mem_singleton.mp h]
    exact ⟨input, by rw [Json.resolve?]⟩
  · split at h
    · split at h
      · cases h
      · rw [List.mem_singleton.mp h]
        exact ⟨input, by rw [Json.resolve?]⟩
    · split at h
      all_goals
        rw [List.mem_singleton.mp h]
        exact ⟨_, by rw [Json.resolve?]⟩

/-- The faults of an enumeration point to the text, or to what is there instead. -/
theorem locates_of_decodeListed {values : List String} {input : Json} {error : ValueError}
    (h : error ∈ (decodeListed values input).errors) :
    input.Locates error.instancePath error.fault := by
  unfold decodeListed at h
  split at h
  · split at h
    · cases h
    · rw [List.mem_singleton.mp h]
      exact ⟨_, by rw [Json.resolve?]⟩
  · rw [List.mem_singleton.mp h]
    exact ⟨input, by rw [Json.resolve?]⟩

/-- The faults of a shape point to the object, or to an entry of it. -/
theorem Shape.locates_of_faults {shape : Shape} {rule : Pointer} {tag : Option String}
    {entries : Entries Json} {faults : List ValueError}
    (h : .faults faults ∈ shape.pieces rule tag entries) {error : ValueError}
    (herror : error ∈ faults) : (Json.object entries).Locates error.instancePath error.fault := by
  rw [Shape.pieces, List.mem_append, List.mem_append] at h
  rcases h with (h | h) | h
  · obtain ⟨property, -, hpiece⟩ := List.mem_map.mp h
    unfold requiredPiece at hpiece
    split at hpiece
    · cases hpiece
    · cases hpiece
      rw [List.mem_singleton.mp herror]
      exact ⟨_, by rw [Json.resolve?]⟩
  · obtain ⟨property, -, hpiece⟩ := List.mem_filterMap.mp h
    obtain ⟨item, -, hpiece⟩ := Option.map_eq_some_iff.mp hpiece
    cases hpiece
  · cases List.mem_singleton.mp h
    obtain ⟨⟨key, item⟩, hentry, rfl⟩ := exists_of_mem_undeclaredErrors herror
    obtain ⟨found, hfound⟩ := Entries.exists_lookup_iff.mpr (Entries.mem_keys_of_mem hentry)
    exact ⟨found, by simp [Json.resolve?, hfound]⟩

/-- **The faults of a node** point to a place that the document has. -/
theorem Node.locates_of_faults {node : Node} {input : Json} {faults : List ValueError}
    (h : .faults faults ∈ node.pieces reading input) {error : ValueError}
    (herror : error ∈ faults) : input.Locates error.instancePath error.fault := by
  obtain ⟨kind, nullable⟩ := node
  rw [Node.pieces] at h
  -- What is not of the kind that is demanded is reported where it stands.
  have hhere : ∀ {rule : Pointer} {what got : String},
      .faults faults ∈ [Piece.faults [⟨[], rule, .expected what got⟩]] →
        input.Locates error.instancePath error.fault := by
    intro rule what got hmem
    cases List.mem_singleton.mp hmem
    rw [List.mem_singleton.mp herror]
    exact ⟨input, by rw [Json.resolve?]⟩
  split at h
  · cases h
  cases kind with
  | scalar kind =>
    cases List.mem_singleton.mp h
    exact locates_of_decodeScalar herror
  | enumeration values =>
    cases List.mem_singleton.mp h
    exact locates_of_decodeListed herror
  | object shape =>
    cases input with
    | object entries => exact Shape.locates_of_faults h herror
    | _ => exact hhere h
  | array element =>
    cases input with
    | array items =>
      obtain ⟨pair, -, hpiece⟩ := List.mem_map.mp h
      cases hpiece
    | _ => exact hhere h
  | record value =>
    cases input with
    | object entries =>
      obtain ⟨entry, -, hpiece⟩ := List.mem_map.mp h
      cases hpiece
    | _ => exact hhere h
  | union tag variants =>
    cases input with
    | object entries =>
      simp only [Kind.pieces] at h
      split at h
      · rename_i name htag
        split at h
        · exact Shape.locates_of_faults h herror
        · cases List.mem_singleton.mp h
          rw [List.mem_singleton.mp herror]
          exact ⟨.string name, by simp [Json.resolve?, htag]⟩
      · rename_i other _ htag
        cases List.mem_singleton.mp h
        rw [List.mem_singleton.mp herror]
        exact ⟨other, by simp [Json.resolve?, htag]⟩
      · rename_i htag
        cases List.mem_singleton.mp h
        rw [List.mem_singleton.mp herror]
        exact ⟨[], entries, rfl, by rw [Json.resolve?], htag⟩
    | _ => exact hhere h
  | ref index => cases List.mem_singleton.mp h

/-- **Every error of decoding** points to a place that the document has. -/
theorem locates_of_decode {node : Node} {input : Json} (hinput : input.WellFormed)
    {report : Report Value}
    (h : node.decode reading (program.decodeModel reading steps) input = some report) :
    ∀ error ∈ report.errors, input.Locates error.instancePath error.fault := by
  intro error herror
  obtain ⟨place, rule, inner, part, faults, fault, hcomes, hfaults, hfault, rfl⟩ :=
    exists_origin h error herror
  exact (Node.locates_of_faults hfaults hfault).under (hcomes.resolve?_eq hinput)

/-! ## Errors among others -/

/-- **Errors stand unmasked among others**: in one piece, as they are seen from outside, and no
other error belongs to the place and the rule. -/
def Unmasked (place rule : Pointer) (inner outer : List ValueError) : Prop :=
  ∃ before after, outer = before ++ inner.map (·.under place rule) ++ after ∧
    ∀ error ∈ before ++ after, ¬ error.Within place rule

namespace Unmasked

theorem refl (errors : List ValueError) : Unmasked [] [] errors errors :=
  ⟨[], [], by simp [ValueError.under_nil], nofun⟩

/-- Errors that stand unmasked among errors that do so themselves. -/
theorem trans {place rule place' rule' : Pointer} {inner middle outer : List ValueError}
    (houter : Unmasked place rule middle outer) (hmiddle : Unmasked place' rule' inner middle) :
    Unmasked (place ++ place') (rule ++ rule') inner outer := by
  obtain ⟨before, after, rfl, hothers⟩ := houter
  obtain ⟨before', after', rfl, hothers'⟩ := hmiddle
  have hfar : ∀ error ∈ before ++ after, ¬ error.Within (place ++ place') (rule ++ rule') :=
    fun error herror hwithin => hothers error herror hwithin.of_append
  have hnear : ∀ error ∈ (before' ++ after').map (·.under place rule),
      ¬ error.Within (place ++ place') (rule ++ rule') := by
    intro error herror hwithin
    obtain ⟨error', herror', rfl⟩ := List.mem_map.mp herror
    exact hothers' error' herror' (ValueError.within_under_append_iff.mp hwithin)
  refine ⟨before ++ before'.map (·.under place rule), after'.map (·.under place rule) ++ after,
    ?_, ?_⟩
  · simp [ValueError.under_under]
  · intro error herror
    rw [List.map_append] at hnear
    rcases List.mem_append.mp herror with herror | herror
    · rcases List.mem_append.mp herror with herror | herror
      · exact hfar error (List.mem_append_left _ herror)
      · exact hnear error (List.mem_append_left _ herror)
    · rcases List.mem_append.mp herror with herror | herror
      · exact hnear error (List.mem_append_right _ herror)
      · exact hfar error (List.mem_append_right _ herror)

end Unmasked

/-- What pieces have for errors is among what they may have. -/
theorem exists_covers_of_mapM {follow : Nat → Json → Walk (Report Value)} {pieces : List Piece}
    {lists : List (List ValueError)} (h : pieces.mapM (Piece.errors reading follow) = some lists)
    {error : ValueError} (herror : error ∈ lists.flatten) :
    ∃ piece ∈ pieces, piece.Covers error := by
  obtain ⟨errors, herrors, herror⟩ := List.mem_flatten.mp herror
  obtain ⟨piece, hpiece, hgives⟩ :=
    Outcome.exists_of_forall₂_right (Walk.mapM_eq_some_iff.mp h) errors herrors
  exact ⟨piece, hpiece, Piece.covers_of_errors hgives error herror⟩

/-- **The errors about a part** stand unmasked among those of its whole.

**Proof sketch.** The part is one of the pieces of the whole; the errors are those of the pieces
before it, its own, and those of the pieces behind it. The pieces are apart, so that the others have
no error that belongs to the place and the rule of the part. -/
theorem Node.HasPart.unmasked {node inner : Node} {input item : Json} {place rule : Pointer}
    (hpart : node.HasPart input place rule inner item) (hnode : node.ListsOnce)
    (hinput : input.WellFormed) {report : Report Value}
    (h : node.decode reading (program.decodeModel reading steps) input = some report) :
    ∃ report', inner.decode reading (program.decodeModel reading steps) item = some report' ∧
      Unmasked place rule report'.errors report.errors := by
  have hmem : .part place rule inner item ∈ node.pieces reading input :=
    Node.part_mem_pieces_iff.mpr hpart
  obtain ⟨before, after, hpieces⟩ := List.append_of_mem hmem
  obtain ⟨lists, hlists, herrors⟩ := exists_errors_of_decode h
  rw [← Walk.mapM_eq_some_iff, hpieces, List.mapM_append, List.mapM_cons] at hlists
  simp only [Option.bind_eq_bind, Option.bind_eq_some_iff, Option.pure_def, Option.some.injEq]
    at hlists
  obtain ⟨lists₁, hlists₁, _, ⟨errors, hgives, lists₂, hlists₂, rfl⟩, rfl⟩ := hlists
  obtain ⟨report', hreport', rfl⟩ := Option.map_eq_some_iff.mp hgives
  have hapart : (node.pieces reading input).Pairwise Piece.Apart :=
    Node.pieces_apart hnode hinput
  rw [hpieces, List.pairwise_append, List.pairwise_cons] at hapart
  obtain ⟨-, ⟨hafter, -⟩, hbefore⟩ := hapart
  refine ⟨report', hreport', lists₁.flatten, lists₂.flatten, ?_, ?_⟩
  · rw [herrors, List.flatten_append, List.flatten_cons, List.append_assoc]
  · intro error herror hwithin
    rcases List.mem_append.mp herror with herror | herror
    · obtain ⟨piece, hpiece, hcovers⟩ := exists_covers_of_mapM hlists₁ herror
      exact hbefore piece hpiece _ List.mem_cons_self error hcovers hwithin
    · obtain ⟨piece, hpiece, hcovers⟩ := exists_covers_of_mapM hlists₂ herror
      exact hafter piece hpiece error hwithin hcovers

/-- **The errors about whatever decoding comes to** stand unmasked among all errors, whatever is
wrong beside it. -/
theorem Comes.unmasked (hmodels : ∀ node ∈ program.models, node.ListsOnce) {node inner : Node}
    {input part : Json} {place rule : Pointer}
    (hcomes : program.Comes node input place rule inner part) :
    ∀ {steps : Nat} {report : Report Value}, node.ListsOnce → input.WellFormed →
      node.decode reading (program.decodeModel reading steps) input = some report →
      ∃ steps' report', inner.decode reading (program.decodeModel reading steps') part =
          some report' ∧ Unmasked place rule report'.errors report.errors := by
  induction hcomes with
  | here node input => exact fun {steps report} _ _ h => ⟨steps, report, h, .refl _⟩
  | part hpart _ ih =>
    intro steps report hnode hinput h
    obtain ⟨middle, hmiddle, houter⟩ := hpart.unmasked hnode hinput h
    obtain ⟨steps', report', hreport', hinner⟩ :=
      ih (hpart.listsOnce hnode) (hpart.wellFormed hinput) hmiddle
    exact ⟨steps', report', hreport', houter.trans hinner⟩
  | @model index nullable model inner input part place rule hnull hmodel _ ih =>
    intro steps report _ hinput h
    rw [Node.decode, hnull, if_neg Bool.false_ne_true, Kind.decode] at h
    cases steps with
    | zero => cases h
    | succ steps =>
      rw [decodeModel, hmodel] at h
      exact ih (hmodels model (List.mem_of_getElem? hmodel)) hinput h

end Program

namespace Validator

open Program (Comes Unmasked)

/-- **Errors of decoding are located and never masked.** Let a document without repeated keys fail
to be decoded, along a program whose shapes list no key twice in a section. The instance path of
each error, written out and read back, names a value in the document; only an error about a missing
tag names the tag beside the entries of an object that is there. And whatever decoding comes to —
each item of an array, each entry of a map, each declared entry of an object and of the variant that
is selected, at any depth — can be decoded alone by its own node, and the errors of that, seen from
outside, stand among all errors in one piece, while no other error belongs to its two paths. -/
theorem located_and_unmasked_of_decode {validator : Validator} {input : Json}
    {errors : List ValueError} (hprogram : validator.program.ListsOnce)
    (hinput : input.WellFormed) (h : validator.decode input = some (.error errors)) :
    (∀ error ∈ errors, ∃ pointer, Pointer.ofText? error.instancePath.text = some pointer ∧
      input.Locates pointer error.fault) ∧
    ∀ place rule node part,
      validator.program.Comes validator.program.root input place rule node part →
        ∃ outcome, (validator.withRoot node).decode part = some outcome ∧
          Unmasked place rule (complaints outcome) errors := by
  obtain ⟨report, hreport, hresult⟩ := Option.map_eq_some_iff.mp h
  obtain rfl : report.errors = errors := by
    rw [← complaints_result, hresult]
    rfl
  refine ⟨fun error herror => ?_, fun place rule node part hcomes => ?_⟩
  · exact ⟨error.instancePath, Pointer.ofText?_text _,
      Program.locates_of_decode hinput hreport error herror⟩
  · obtain ⟨steps, report', hreport', hunmasked⟩ :=
      hcomes.unmasked hprogram.models hprogram.root hinput hreport
    have halone : (validator.withRoot node).program.decode .strict part = some report' :=
      Program.decode_withRoot_of_decode hreport'
    refine ⟨report'.result, ?_, by rwa [complaints_result]⟩
    rw [Validator.decode, halone, Option.map_some]

/-- The case of choices in a list under a key with a slash, one without its tag, which has a tilde:
the choice without a tag hides nothing of the other one. -/
theorem located_and_unmasked_of_decode_escaped_keys :
    let choice : Program.Node :=
      ⟨.union "t~" [("A", ⟨[("n", ⟨.scalar .int8, false⟩)], [], true⟩)], false⟩
    let list : Program.Node := ⟨.array ⟨.ref 0, false⟩, false⟩
    let validator : Validator :=
      ⟨⟨⟨.object ⟨[("a/b", list)], [], true⟩, false⟩, [choice], ["Choice"]⟩⟩
    let first : Json := .object [("t~", .string "A"), ("n", .string "x")]
    let input : Json := .object [("a/b", .array [first, .object []])]
    let errors : List ValueError :=
      [⟨["a/b", "0", "n"],
          ["properties", "a/b", "elements", "mapping", "A", "properties", "n", "type"],
          .expected "number" "string"⟩,
        ⟨["a/b", "1", "t~"], ["properties", "a/b", "elements", "discriminator"], .missingTag "t~"⟩]
    validator.program.ListsOnce ∧ input.WellFormed ∧
      validator.decode input = some (.error errors) ∧
      (∀ error ∈ errors, ∃ pointer, Pointer.ofText? error.instancePath.text = some pointer ∧
        input.Locates pointer error.fault) ∧
      validator.program.Comes validator.program.root input ["a/b", "0"]
        ["properties", "a/b", "elements"] ⟨.ref 0, false⟩ first ∧
      ∃ outcome, (validator.withRoot ⟨.ref 0, false⟩).decode first = some outcome ∧
        Unmasked ["a/b", "0"] ["properties", "a/b", "elements"] (complaints outcome) errors := by
  intro choice list validator first input errors
  have hprogram : validator.program.ListsOnce := by
    constructor
    · simp [validator, list, Program.Node.ListsOnce, Program.Kind.ListsOnce,
        Program.Shape.ListsOnce, Program.PropertiesListOnce, Entries.Distinct, Entries.keys]
    · simp [validator, choice, Program.Node.ListsOnce, Program.Kind.ListsOnce,
        Program.Shape.ListsOnce, Program.PropertiesListOnce, Program.VariantsListOnce,
        Entries.Distinct, Entries.keys]
  have hinput : input.WellFormed := by
    simp [input, first, Json.WellFormed, Json.WellFormedEntries, Json.WellFormedItems,
      Entries.Distinct, Entries.keys]
  have hdecode : validator.decode input = some (.error errors) := rfl
  have hcomes : validator.program.Comes validator.program.root input ["a/b", "0"]
      ["properties", "a/b", "elements"] ⟨.ref 0, false⟩ first := by
    refine .part (.property (.required List.mem_cons_self rfl)) (.part (.item (i := 0) rfl) ?_)
    exact .here _ _
  obtain ⟨hlocated, hunmasked⟩ := located_and_unmasked_of_decode hprogram hinput hdecode
  exact ⟨hprogram, hinput, hdecode, hlocated, hcomes, hunmasked _ _ _ _ hcomes⟩

end Validator

end RpcSchema
