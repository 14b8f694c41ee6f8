import RpcSchema.Proofs.Program.Agreement
import RpcSchema.Proofs.Program.Collector
import RpcSchema.Validator.Basic

set_option autoImplicit false

/-!
# Decoding with one list of errors

Decoding is put here as one run through the document that is handed a list of errors and adds to
it. What contains other values is given when its parts have added nothing. The run comes to the
same as the reports do that the parts are gathered from.

So errors are kept exactly: whatever the errors were before a node or a shape, a value is given
there if and only if none were added. Decoding never fails without an error, and never finds an
error beside a value.

## Main definitions

* `RpcSchema.Program.Node.collect`, `RpcSchema.Program.Shape.collect` — decoding along a node or a
  shape, given how references are followed.
* `RpcSchema.Program.collect` — decoding along a program.

## Main results

* `RpcSchema.Program.Node.collects` — collecting comes to the same as reporting, along every node.
* `RpcSchema.Program.collect_eq` — the same for programs.
* `RpcSchema.Validator.errors_exact` — errors are kept exactly.
-/

namespace RpcSchema.Program

open Collector (whole fail ofReport FollowAll)

/-! ## Decoding into a list of errors -/

/-- How a reference to the model at a position is followed with a document, at a place of the whole
document and by a rule of the schema. -/
abbrev Following : Type := Nat → Json → Pointer → Pointer → Collector (Option Value)

/-- The field under a key of what a part gives. -/
def keyed (key : String) (part : Collector (Option Value)) : Collector (Option (String × Value)) :=
  Option.map (key, ·) <$> part

/-- One error for each key of an object that a strict shape does not have. -/
def undeclaredParts (shape : Shape) (tag : Option String) (entries : Entries Json)
    (place rule : Pointer) : List (Collector (Option (String × Value))) :=
  (undeclaredReports shape tag entries).map fun report => ofReport (report.under place rule)

mutual

/-- **Decodes along a node** at a place of the document and by a rule of the schema, adding to the
errors so far. -/
def Node.collect (reading : Reading) (follow : Following) :
    Node → Json → Pointer → Pointer → Collector (Option Value)
  | ⟨kind, nullable⟩, input, place, rule =>
    if input.isNull && nullable then return some .null
    else kind.collect reading follow input place rule

/-- Decodes along what a node demands. -/
def Kind.collect (reading : Reading) (follow : Following) :
    Kind → Json → Pointer → Pointer → Collector (Option Value)
  | .scalar kind, input, place, rule =>
    ofReport ((decodeScalar reading kind input).under place rule)
  | .enumeration values, input, place, rule =>
    ofReport ((decodeListed values input).under place rule)
  | .object shape, input, place, rule =>
    Option.map .object <$> shape.collect reading follow none input place rule
  | .array element, input, place, rule =>
    match input with
    | .array items =>
      Option.map .array <$> whole (items.zipIdx.map fun (item, i) =>
        element.collect reading follow item (place ++ [toString i]) (rule ++ ["elements"]))
    | input => fail place (rule ++ ["elements"]) (.expected "array" input.kind)
  | .record value, input, place, rule =>
    match input with
    | .object entries =>
      Option.map .object <$> whole (entries.map fun (key, item) =>
        keyed key (value.collect reading follow item (place ++ [key]) (rule ++ ["values"])))
    | input => fail place (rule ++ ["values"]) (.expected "object" input.kind)
  | .union tag variants, input, place, rule =>
    match input with
    | .object entries =>
      match entries.lookup tag with
      | some (.string name) => do
        match ← collectVariant reading follow tag name variants input place rule with
        | some value? => return value?
        | none =>
          fail (place ++ [tag]) (rule ++ ["mapping"])
            (.unknownVariant name (some (Entries.keys variants)))
      | some other =>
        fail (place ++ [tag]) (rule ++ ["discriminator"]) (.expected "string" other.kind)
      | none => fail (place ++ [tag]) (rule ++ ["discriminator"]) (.missingTag tag)
    | input => fail place (rule ++ ["discriminator"]) (.expected "object" input.kind)
  | .ref index, input, place, rule => follow index input place rule

/-- Decodes the fields of an object along a shape. -/
def Shape.collect (reading : Reading) (follow : Following) (tag : Option String) :
    Shape → Json → Pointer → Pointer → Collector (Option (Entries Value))
  | ⟨required, optional, strict⟩, input, place, rule =>
    match input with
    | .object entries =>
      Option.map Entries.ofList <$> whole
        (requiredParts reading follow entries place rule required ++
          optionalParts reading follow entries place rule optional ++
          undeclaredParts ⟨required, optional, strict⟩ tag entries place rule)
    | input => fail place (rule ++ ["properties"]) (.expected "object" input.kind)

/-- The properties that have to be there. -/
def requiredParts (reading : Reading) (follow : Following) (entries : Entries Json)
    (place rule : Pointer) : List (String × Node) → List (Collector (Option (String × Value)))
  | [] => []
  | (key, node) :: rest =>
    match entries.lookup key with
    | some item =>
      keyed key (node.collect reading follow item (place ++ [key]) (rule ++ ["properties", key])) ::
        requiredParts reading follow entries place rule rest
    | none =>
      fail place (rule ++ ["properties", key]) (.missing key) ::
        requiredParts reading follow entries place rule rest

/-- The properties that may be there, as far as they are. -/
def optionalParts (reading : Reading) (follow : Following) (entries : Entries Json)
    (place rule : Pointer) : List (String × Node) → List (Collector (Option (String × Value)))
  | [] => []
  | (key, node) :: rest =>
    match entries.lookup key with
    | some item =>
      keyed key (node.collect reading follow item (place ++ [key])
          (rule ++ ["optionalProperties", key])) ::
        optionalParts reading follow entries place rule rest
    | none => optionalParts reading follow entries place rule rest

/-- Decodes along the variant with a name, if there is one. -/
def collectVariant (reading : Reading) (follow : Following) (tag name : String) :
    List (String × Shape) → Json → Pointer → Pointer → Collector (Option (Option Value))
  | [], _, _, _ => return none
  | (other, shape) :: rest, input, place, rule =>
    if other == name then do
      let fields? ← shape.collect reading follow (some tag) input place (rule ++ ["mapping", name])
      return some (fields?.map (.variant name))
    else collectVariant reading follow tag name rest input place rule

end

/-- Decodes along the model at a position, following so many references at most. -/
def collectModel (program : Program) (reading : Reading) : Nat → Following
  | 0, _, _, _, _ => StateT.lift none
  | steps + 1, index, input, place, rule =>
    match program.models[index]? with
    | some node => node.collect reading (collectModel program reading steps) input place rule
    | none => StateT.lift none

/-! ## The same as reports -/

section

variable {reading : Reading} {follow : Nat → Json → Walk (Report Value)}
  {collectRef : Following}

/-- **A node is collected** as its reports say, seen from any place and rule. -/
def Node.Collects (reading : Reading) (follow : Nat → Json → Walk (Report Value))
    (collectRef : Following) (node : Node) : Prop :=
  ∀ input place rule, (node.collect reading collectRef input place rule).Follows
    ((node.decode reading follow input).map (Report.under place rule))

/-- A part is seen from its whole first, and from the place of the whole then. -/
theorem Node.Collects.part {node : Node} (h : node.Collects reading follow collectRef)
    (input : Json) (place rule place' rule' : Pointer) :
    (node.collect reading collectRef input (place ++ place') (rule ++ rule')).Follows
      (Option.map (Report.under place rule) do
        let report ← node.decode reading follow input
        return report.under place' rule') := by
  have hpart := h input (place ++ place') (rule ++ rule')
  cases hdecode : node.decode reading follow input with
  | none => rwa [hdecode] at hpart
  | some report =>
    rw [hdecode, Option.map_some, ← Report.under_under] at hpart
    exact hpart

/-- The same for what becomes a field. -/
theorem Node.Collects.keyed {node : Node} (h : node.Collects reading follow collectRef)
    (key : String) (input : Json) (place rule rule' : Pointer) :
    (keyed key (node.collect reading collectRef input (place ++ [key]) (rule ++ rule'))).Follows
      (Option.map (Report.under place rule) do
        let report ← node.decode reading follow input
        return fieldReport key (report.under [key] rule')) := by
  have hfield := (h.part input place rule [key] rule').map (key, ·)
  cases hdecode : node.decode reading follow input <;>
    · rw [hdecode] at hfield
      exact hfield

/-- The whole of some parts, whose reports are seen from a place and a rule. -/
theorem follows_whole {α β : Type} {parts : List (Collector (Option α))}
    {walk : Walk (List (Report α))} {place rule : Pointer}
    (h : FollowAll parts (walk.map (List.map (Report.under place rule)))) (f : List α → β) :
    (Option.map f <$> whole parts).Follows (Option.map (Report.under place rule) do
      let reports ← walk
      return (Report.gather reports).map f) := by
  have hwhole := h.whole.map f
  cases walk with
  | none => exact hwhole
  | some reports =>
    simp only [Option.map_some, ← Report.under_gather, ← Report.map_under] at hwhole
    exact hwhole

/-- An error below a place is the error there, seen from the place. -/
theorem follows_fail_under {α : Type} (place rule place' rule' : Pointer) (fault : ValueFault) :
    (fail (place ++ place') (rule ++ rule') fault : Collector (Option α)).Follows
      ((some (Report.fail place' rule' fault)).map (Report.under place rule)) :=
  Collector.follows_fail _ _ _

theorem follows_fail_here {α : Type} (place rule rule' : Pointer) (fault : ValueFault) :
    (fail place (rule ++ rule') fault : Collector (Option α)).Follows
      ((some (Report.fail [] rule' fault)).map (Report.under place rule)) := by
  simpa only [List.append_nil] using follows_fail_under place rule [] rule' fault

variable (entries : Entries Json) (place rule : Pointer)

theorem followAll_requiredParts :
    ∀ {properties : List (String × Node)},
      (∀ property ∈ properties, property.2.Collects reading follow collectRef) →
      FollowAll (requiredParts reading collectRef entries place rule properties)
        ((decodeRequired reading follow entries properties).map
          (List.map (Report.under place rule)))
  | [], _ => Collector.followAll_nil
  | (key, node) :: rest, h => by
    obtain ⟨hnode, hrest⟩ := List.forall_mem_cons.mp h
    have hothers := followAll_requiredParts hrest
    cases hkey : entries.lookup key with
    | some item =>
      have hall := (hnode.keyed key item place rule ["properties", key]).cons hothers
      simp only [requiredParts, decodeRequired, hkey]
      cases hdecode : node.decode reading follow item <;>
        cases hreports : decodeRequired reading follow entries rest <;>
        · rw [hdecode, hreports] at hall
          exact hall
    | none =>
      have hmissing := @follows_fail_here (String × Value) place rule ["properties", key]
        (.missing key)
      have hall := hmissing.cons hothers
      simp only [requiredParts, decodeRequired, hkey]
      cases hreports : decodeRequired reading follow entries rest <;>
        · rw [hreports] at hall
          exact hall

theorem followAll_optionalParts :
    ∀ {properties : List (String × Node)},
      (∀ property ∈ properties, property.2.Collects reading follow collectRef) →
      FollowAll (optionalParts reading collectRef entries place rule properties)
        ((decodeOptional reading follow entries properties).map
          (List.map (Report.under place rule)))
  | [], _ => Collector.followAll_nil
  | (key, node) :: rest, h => by
    obtain ⟨hnode, hrest⟩ := List.forall_mem_cons.mp h
    have hothers := followAll_optionalParts hrest
    cases hkey : entries.lookup key with
    | some item =>
      have hall := (hnode.keyed key item place rule ["optionalProperties", key]).cons hothers
      simp only [optionalParts, decodeOptional, hkey]
      cases hdecode : node.decode reading follow item <;>
        cases hreports : decodeOptional reading follow entries rest <;>
        · rw [hdecode, hreports] at hall
          exact hall
    | none => simpa only [optionalParts, decodeOptional, hkey] using hothers

theorem followAll_undeclaredParts (shape : Shape) (tag : Option String) :
    FollowAll (undeclaredParts shape tag entries place rule)
      (some ((undeclaredReports shape tag entries).map (Report.under place rule))) := by
  have hall := @Collector.followAll_map (String × Value) (Report (String × Value))
    (fun report => ofReport (report.under place rule)) some (Report.under place rule)
    (undeclaredReports shape tag entries) fun report hreport => by
      obtain ⟨key, rfl⟩ := mem_undeclaredReports hreport
      exact Collector.follows_ofReport (Report.exact_fail _ _ _)
  have hreports : (undeclaredReports shape tag entries).mapM some =
      some (undeclaredReports shape tag entries) := by
    simpa using List.mapM_pure (m := Option) (f := id)
  rwa [hreports] at hall

/-- **Collecting along a shape.** -/
theorem Shape.follows_collect {shape : Shape}
    (h : ∀ property ∈ shape.properties, property.2.Collects reading follow collectRef)
    (tag : Option String) (input : Json) :
    (shape.collect reading collectRef tag input place rule).Follows
      ((shape.decode reading follow tag input).map (Report.under place rule)) := by
  obtain ⟨required, optional, strict⟩ := shape
  cases input with
  | object entries =>
    rw [Shape.properties_mk, List.forall_mem_append] at h
    let undeclared := undeclaredReports ⟨required, optional, strict⟩ tag entries
    have hall : FollowAll
        (requiredParts reading collectRef entries place rule required ++
          optionalParts reading collectRef entries place rule optional ++
          undeclaredParts ⟨required, optional, strict⟩ tag entries place rule)
        (Option.map (List.map (Report.under place rule))
          ((decodeRequired reading follow entries required).bind fun present =>
            (decodeOptional reading follow entries optional).map fun further =>
              present ++ further ++ undeclared)) := by
      have hdeclared := (followAll_requiredParts entries place rule h.1).append
        (followAll_optionalParts entries place rule h.2)
      have hparts := hdeclared.append
        (followAll_undeclaredParts entries place rule ⟨required, optional, strict⟩ tag)
      cases hpresent : decodeRequired reading follow entries required <;>
        cases hfurther : decodeOptional reading follow entries optional <;>
        · rw [hpresent, hfurther] at hparts
          simpa using hparts
    have hwhole := follows_whole hall Entries.ofList
    simp only [Shape.collect, Shape.decode]
    cases hpresent : decodeRequired reading follow entries required <;>
      cases hfurther : decodeOptional reading follow entries optional <;>
      · rw [hpresent, hfurther] at hwhole
        exact hwhole
  | _ => exact follows_fail_here _ _ _ _

/-- A variant is collected along the shape that has its name. -/
theorem collectVariant_eq_lookup {tag name : String} {input : Json} :
    ∀ {variants : List (String × Shape)},
      collectVariant reading collectRef tag name variants input place rule =
        match variants.lookup name with
        | some shape =>
          (fun fields? => some (fields?.map (Value.variant name))) <$>
            shape.collect reading collectRef (some tag) input place (rule ++ ["mapping", name])
        | none => pure none
  | [] => rfl
  | (other, shape) :: rest => by
    rw [collectVariant, Entries.lookup_cons_ite]
    by_cases hname : name = other
    · subst hname
      rw [if_pos BEq.rfl, if_pos rfl]
      exact (map_eq_pure_bind _ _).symm
    · rw [if_neg (by simpa using Ne.symm hname), if_neg hname]
      exact collectVariant_eq_lookup

/-- **Collecting along the variants of a union.** -/
theorem follows_collect_union {variants : List (String × Shape)}
    (h : ∀ variant ∈ variants, ∀ property ∈ variant.2.properties,
      property.2.Collects reading follow collectRef)
    (tag : String) (input : Json) :
    (Kind.collect reading collectRef (.union tag variants) input place rule).Follows
      ((Kind.decode reading follow (.union tag variants) input).map (Report.under place rule)) := by
  cases input with
  | object entries =>
    simp only [Kind.collect, Kind.decode]
    cases htag : entries.lookup tag with
    | none => exact follows_fail_under _ _ _ _ _
    | some found =>
      cases found with
      | string name =>
        simp only [collectVariant_eq_lookup, decodeVariant_eq_lookup]
        cases hvariant : variants.lookup name with
        | none =>
          simp only [pure_bind, Option.bind_eq_bind, Option.bind_some]
          exact follows_fail_under place rule [tag] ["mapping"] _
        | some shape =>
          have hshape := Shape.follows_collect place (rule ++ ["mapping", name])
            (h _ (Entries.mem_of_lookup hvariant)) (some tag) (.object entries)
          have hfields := hshape.map (Value.variant name)
          simp only [bind_map_left, ← map_eq_pure_bind]
          cases hdecode : shape.decode reading follow (some tag) (.object entries) with
          | none =>
            rw [hdecode] at hfields
            exact hfields
          | some report =>
            rw [hdecode] at hfields
            simpa [Report.under_under, Report.map_under] using hfields
      | _ => exact follows_fail_under _ _ _ _ _
  | _ => exact follows_fail_here _ _ _ _

/-- **Collecting along a node** adds the errors that decoding along it reports, and gives what it
gives. -/
theorem Node.collects
    (hfollow : ∀ index input place rule, (collectRef index input place rule).Follows
      ((follow index input).map (Report.under place rule))) (node : Node) :
    node.Collects reading follow collectRef := by
  have hnull : ∀ (kind : Kind) (nullable : Bool),
      (∀ input place rule, (kind.collect reading collectRef input place rule).Follows
        ((kind.decode reading follow input).map (Report.under place rule))) →
      (⟨kind, nullable⟩ : Node).Collects reading follow collectRef := by
    intro kind nullable hkind input place rule
    rw [Node.collect, Node.decode]
    split
    · exact Collector.follows_pure Value.null
    · exact hkind input place rule
  induction node using Node.induct with
  | scalar kind nullable =>
    refine hnull _ _ fun input place rule => Collector.follows_ofReport ?_
    exact Report.exact_under_iff.mpr (decodeScalar_exact kind input)
  | enumeration values nullable =>
    refine hnull _ _ fun input place rule => Collector.follows_ofReport ?_
    exact Report.exact_under_iff.mpr (decodeListed_exact values input)
  | object shape nullable ih =>
    refine hnull _ _ fun input place rule => ?_
    have hshape := (Shape.follows_collect place rule ih none input).map Value.object
    simp only [Kind.collect, Kind.decode]
    cases hdecode : shape.decode reading follow none input <;>
      · rw [hdecode] at hshape
        exact hshape
  | array element nullable ih =>
    refine hnull _ _ fun input place rule => ?_
    cases input with
    | array items =>
      have hitems := Collector.followAll_map items.zipIdx fun pair _ =>
        ih.part pair.1 place rule [toString pair.2] ["elements"]
      exact follows_whole hitems Value.array
    | _ => exact follows_fail_here _ _ _ _
  | record value nullable ih =>
    refine hnull _ _ fun input place rule => ?_
    cases input with
    | object entries =>
      have hentries := Collector.followAll_map entries fun entry _ =>
        ih.keyed entry.1 entry.2 place rule ["values"]
      exact follows_whole hentries Value.object
    | _ => exact follows_fail_here _ _ _ _
  | union tag variants nullable ih =>
    exact hnull _ _ fun input place rule => follows_collect_union place rule ih tag input
  | ref index nullable => exact hnull _ _ (hfollow index)

end

/-! ## Programs -/

variable (program : Program) (reading : Reading)

/-- Collecting along the models. -/
theorem follows_collectModel : ∀ (steps index : Nat) (input : Json) (place rule : Pointer),
    (program.collectModel reading steps index input place rule).Follows
      ((program.decodeModel reading steps index input).map (Report.under place rule))
  | 0, _, _, _, _ => Collector.follows_none
  | steps + 1, index, input, place, rule => by
    rw [collectModel, decodeModel]
    cases program.models[index]? with
    | none => exact Collector.follows_none
    | some node => exact Node.collects (follows_collectModel steps) node input place rule

/-- **Collecting along a node of a program**, as far as its references are followed. -/
theorem follows_collect (steps : Nat) (node : Node) (input : Json) (place rule : Pointer) :
    (node.collect reading (program.collectModel reading steps) input place rule).Follows
      ((node.decode reading (program.decodeModel reading steps) input).map
        (Report.under place rule)) :=
  Node.collects (follows_collectModel program reading steps) node input place rule

/-- **Decodes a document** with one list of errors, which is empty at first. -/
def collect (input : Json) : Walk (Except (List ValueError) Value) := do
  let follow := program.collectModel reading (program.budget input.depth)
  match ← (program.root.collect reading follow input [] []).run [] with
  | (some value, []) => return .ok value
  | (_, errors) => return .error errors

/-- **Decoding collects errors in one list.** -/
theorem collect_eq (input : Json) :
    program.collect reading input = (program.decode reading input).map Report.result := by
  have hroot := follows_collect program reading (program.budget input.depth) program.root input
    [] []
  rw [collect, hroot.run, decode]
  cases hdecode : program.root.decode reading
      (program.decodeModel reading (program.budget input.depth)) input with
  | none => rfl
  | some report =>
    simp only [Option.map_some, Report.under_nil, List.nil_append]
    obtain ⟨value?, errors⟩ := report
    cases value? <;> cases errors <;> rfl

variable {program reading}

/-- Collecting along a shape of a program adds errors exactly. -/
theorem exact_collect_shape (steps : Nat) (shape : Shape) (tag : Option String) (input : Json)
    (place rule : Pointer) :
    (shape.collect reading (program.collectModel reading steps) tag input place rule).Exact :=
  (Shape.follows_collect place rule
    (fun property _ => follows_collect program reading steps property.2) tag input).exact

/-- **A value that is given is what decoding comes to**: no error stands beside it. -/
theorem collect_eq_ok {input : Json} {value : Value} {after : List ValueError}
    (h : (program.root.collect reading (program.collectModel reading (program.budget input.depth))
      input [] []).run [] = some (some value, after)) :
    program.collect reading input = some (.ok value) := by
  obtain ⟨_, rfl, hadded⟩ := (follows_collect program reading _ _ _ _ _).exact _ _ _ h
  obtain rfl : after = [] := hadded.mp rfl
  rw [collect, h]
  rfl

/-- **Decoding never fails without an error.** -/
theorem collect_ne_error_nil (input : Json) : program.collect reading input ≠ some (.error []) := by
  intro hnil
  have hexact := (follows_collect program reading (program.budget input.depth) program.root input
    [] []).exact []
  rw [collect, Option.bind_eq_bind, Option.bind_eq_some_iff] at hnil
  obtain ⟨⟨value?, after⟩, hrun, herror⟩ := hnil
  obtain ⟨_, rfl, hadded⟩ := hexact value? after hrun
  cases value? with
  | none =>
    obtain rfl : after = [] := by simpa using herror
    cases hadded.mpr rfl
  | some value =>
    obtain rfl : after = [] := hadded.mp rfl
    cases herror

end RpcSchema.Program

namespace RpcSchema.Validator

open Program

/-- **The first error of decoding** is that of parsing, which has no need of one of its own. -/
theorem exists_decode_eq_error {validator : Validator} {input : Json} {error : ValueError}
    (h : validator.parse input = some (.error error)) :
    ∃ further, validator.decode input = some (.error (error :: further)) := by
  obtain ⟨result, hresult, herror⟩ := Option.map_eq_some_iff.mp h
  cases result with
  | ok value => cases herror
  | error errors =>
    cases errors with
    | nil =>
      rw [decode, ← collect_eq] at hresult
      exact absurd hresult (collect_ne_error_nil input)
    | cons first further =>
      cases herror
      exact ⟨further, hresult⟩

/-- **Errors are kept exactly.** Along any node or shape, in both ways of reading and from any
errors, collecting only adds errors, and gives something if and only if it adds none. A whole is
given only with a value for each of its parts. Decoding and converting are collecting from no
errors: a value that is given there is what they come to, they never fail without an error, and
the first error is always there for parsing to give.

**Proof sketch.** Induction on nodes, and on the references that are followed, shows that
collecting follows the walk to the report on the node (`Program.Node.collects`). For what has parts
the errors counted before and after them are the same in number exactly when no part reports any
(`Collector.FollowAll.whole`). Everything else is read off for the root. -/
theorem errors_exact (validator : Validator) :
    (∀ reading steps (node : Node) input place rule,
      (node.collect reading (validator.program.collectModel reading steps) input place
        rule).Exact) ∧
    (∀ reading steps (shape : Shape) tag input place rule,
      (shape.collect reading (validator.program.collectModel reading steps) tag input place
        rule).Exact) ∧
    (∀ {α : Type} (parts : List (Collector (Option α))) errors values after,
      (∀ part ∈ parts, part.Exact) →
      (Collector.whole parts).run errors = some (some values, after) →
      List.Forall₂ (fun part value => part.run errors = some (some value, errors)) parts values) ∧
    (∀ input, validator.decode input = validator.program.collect .strict input ∧
      validator.coerce input = validator.program.collect .converting input) ∧
    (∀ reading input value after,
      (validator.program.root.collect reading
        (validator.program.collectModel reading (validator.program.budget input.depth))
        input [] []).run [] = some (some value, after) →
      validator.program.collect reading input = some (.ok value)) ∧
    (∀ input, validator.decode input ≠ some (.error []) ∧
      validator.coerce input ≠ some (.error [])) ∧
    (∀ input error, validator.parse input = some (.error error) →
      ∃ further, validator.decode input = some (.error (error :: further))) := by
  refine ⟨?_, ?_, ?_, ?_, ?_, ?_, ?_⟩
  · intro reading steps node input place rule
    exact (follows_collect validator.program reading steps node input place rule).exact
  · intro reading steps shape tag input place rule
    exact exact_collect_shape steps shape tag input place rule
  · intro α parts errors values after hexact hrun
    exact Collector.forall₂_of_whole hexact hrun
  · intro input
    exact ⟨(collect_eq _ _ input).symm, (collect_eq _ _ input).symm⟩
  · intro reading input value after hrun
    exact collect_eq_ok hrun
  · intro input
    rw [decode, coerce, ← collect_eq, ← collect_eq]
    exact ⟨collect_ne_error_nil input, collect_ne_error_nil input⟩
  · intro input error herror
    exact exists_decode_eq_error herror

/-- Two of three items are wrong: there are two errors, and parsing gives the first of them. -/
theorem errors_exact_two_of_three :
    let validator : Validator := ⟨⟨⟨.array ⟨.scalar .boolean, false⟩, false⟩, [], []⟩⟩
    let input : Json := .array [.null, .bool true, .string "no"]
    let first : ValueError := ⟨["0"], ["elements", "type"], .expected "boolean" "null"⟩
    let second : ValueError := ⟨["2"], ["elements", "type"], .expected "boolean" "string"⟩
    validator.decode input = some (.error [first, second]) ∧
      ∃ further, validator.decode input = some (.error (first :: further)) := by
  intro validator input first second
  exact ⟨rfl, (errors_exact validator).2.2.2.2.2.2 input first rfl⟩

end RpcSchema.Validator
