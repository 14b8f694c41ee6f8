import Mathlib.Data.Multiset.MapFold
import RpcSchema.Proofs.Json.Rearranged
import RpcSchema.Proofs.Program.Converting

set_option autoImplicit false

/-!
# Decoding does not hang on the order of keys

The fields of a shape are looked up in the order of the shape, but the entries of a map and the keys
that a shape does not have are gone through in the order of the document. So the errors about two
documents that differ in the order of their keys come in different orders. They are the same errors
at the same places all the same, as the errors of a node are those of its pieces, each on its own.
And what is decoded is equal, as equality of values does not look at the order of fields.

## Main definitions

* `RpcSchema.Program.placesOf` — the places of the errors of a walk, in whatever order.
* `RpcSchema.Program.SameOutcome` — equal values, or errors at the same places.

## Main results

* `RpcSchema.Program.samePlaces_of_rearranged` — the places of the errors.
* `RpcSchema.Program.equals_of_rearranged` — what is decoded.
* `RpcSchema.Validator.sameOutcome_of_rearranged` — both for validators, strict and converting.
-/

namespace RpcSchema

/-! ## Equality of values -/

namespace Value

/-- Fields are equal when each of them has an equal one under the same key. -/
theorem equalFields_iff {fields others : Entries Value} :
    equalFields fields others = true ↔
      ∀ field ∈ fields, ∃ other, others.lookup field.1 = some other ∧
        field.2.equals other = true := by
  induction fields with
  | nil => simp [equalFields]
  | cons field rest ih =>
    obtain ⟨key, value⟩ := field
    rw [equalFields, Bool.and_eq_true, ih, List.forall_mem_cons]
    cases others.lookup key <;> simp

/-- Items are equal when what gives them in one list and in the other gives equal values. -/
theorem equalItems_of_forall₂ {α : Type} {gives : α → Value → Prop} {list list' : List α}
    {items others : List Value}
    (h : List.Forall₂ (fun a a' => ∀ item other, gives a item → gives a' other →
      item.equals other = true) list list')
    (hitems : List.Forall₂ gives list items) (hothers : List.Forall₂ gives list' others) :
    equalItems items others = true := by
  induction h generalizing items others with
  | nil =>
    cases hitems
    cases hothers
    rfl
  | cons hfirst _ ih =>
    cases hitems with
    | cons hitem hitems =>
      cases hothers with
      | cons hother hothers =>
        rw [equalItems, Bool.and_eq_true]
        exact ⟨hfirst _ _ hitem hother, ih hitems hothers⟩

end Value

/-- A finite number is equal to itself. -/
theorem Binary64.equals_self {value : Binary64} (h : value.isFinite = true) :
    value.equals value = true := by
  simp only [isFinite, decide_eq_true_eq] at h
  simp [equals, isNaN, Nat.not_lt.mpr h.le]

/-- The numbers of a kind are finite. -/
theorem ScalarKind.isFinite_of_holds {kind : ScalarKind} {value : Binary64}
    (h : kind.holds (.float value) = true) : value.isFinite = true := by
  cases kind with
  | float32 => exact (Bool.and_eq_true_iff.mp h).1
  | float64 => exact h
  | _ => cases h

/-- A value of a kind is equal to itself, as no kind has values that are not numbers. -/
theorem ScalarKind.equals_of_holds {kind : ScalarKind} {value : Value}
    (h : kind.holds value = true) : value.equals value = true := by
  cases value with
  | float value => exact Binary64.equals_self (isFinite_of_holds h)
  | null => rfl
  | array | object | variant => cases h
  | _ => exact BEq.rfl

/-- When something is wrong, what is wrong is the result. -/
theorem Report.result_of_errors_ne_nil {α : Type} {report : Report α} (h : report.errors ≠ []) :
    report.result = .error report.errors := by
  obtain ⟨value?, errors⟩ := report
  cases value? <;> cases errors <;> first | rfl | exact absurd rfl h

namespace Program

open ValueError (places)

variable {program : Program} {reading : Reading} {follow : Nat → Json → Walk (Report Value)}
  {steps : Nat}

/-! ## Places in whatever order -/

/-- **The places of the errors of a walk**, in whatever order the errors come. -/
def placesOf (errors : Walk (List ValueError)) : Walk (Multiset (Pointer × Pointer)) :=
  errors.map fun errors => errors.map places

/-- Errors that come in another order have the same places. -/
theorem placesOf_eq_of_perm {errors errors' : List ValueError} (h : errors.Perm errors') :
    placesOf (some errors) = placesOf (some errors') :=
  congrArg some (Multiset.coe_eq_coe.mpr (h.map places))

/-- The places of two walks one after the other; there are none if one of them does not end. -/
def both (first second : Walk (Multiset (Pointer × Pointer))) :
    Walk (Multiset (Pointer × Pointer)) :=
  Option.map₂ (· + ·) first second

instance : LeftCommutative both where
  left_comm _ _ _ := Option.map₂_left_comm fun first second third => by
    rw [← Multiset.add_assoc, Multiset.add_comm first, Multiset.add_assoc]

/-- The places of the errors of several walks one after the other. -/
theorem placesOf_flatten {α : Type} (f : α → Walk (List ValueError)) (list : List α) :
    placesOf ((list.mapM f).map List.flatten) =
      (list.map fun a => placesOf (f a)).foldr both (some 0) := by
  induction list with
  | nil => rfl
  | cons a rest ih =>
    rw [List.map_cons, List.foldr_cons, ← ih, List.mapM_cons]
    cases f a with
    | none => rfl
    | some errors =>
      cases rest.mapM f with
      | none => rfl
      | some lists => simp [placesOf, both]

/-- The places of the errors of a piece. -/
def Piece.places (reading : Reading) (follow : Nat → Json → Walk (Report Value)) (piece : Piece) :
    Walk (Multiset (Pointer × Pointer)) :=
  placesOf (piece.errors reading follow)

variable (reading follow) in
/-- **Two documents have errors at the same places along a node**, or both walks do not end. -/
def Node.SamePlaces (node : Node) (item item' : Json) : Prop :=
  placesOf ((node.decode reading follow item).map Report.errors) =
    placesOf ((node.decode reading follow item').map Report.errors)

/-- **Nodes whose pieces have the same places**, in whatever order, have errors at the same
places. -/
theorem Node.SamePlaces.of_pieces {node : Node} {input input' : Json}
    (h : ((node.pieces reading input).map (Piece.places reading follow)).Perm
      ((node.pieces reading input').map (Piece.places reading follow))) :
    node.SamePlaces reading follow input input' := by
  rw [SamePlaces, Node.errors_decode, Node.errors_decode, placesOf_flatten, placesOf_flatten]
  exact h.foldr_eq _

/-- A part has errors at the same places when they are the same seen from the part. -/
theorem Node.SamePlaces.part {node : Node} {item item' : Json}
    (h : node.SamePlaces reading follow item item') (place rule : Pointer) :
    (Piece.part place rule node item).places reading follow =
      (Piece.part place rule node item').places reading follow := by
  have hpart : ∀ item, (Piece.part place rule node item).places reading follow =
      (placesOf ((node.decode reading follow item).map Report.errors)).map
        (Multiset.map fun places => (place ++ places.1, rule ++ places.2)) := by
    intro item
    rw [Piece.places, Piece.errors]
    cases node.decode reading follow item with
    | none => rfl
    | some report =>
      exact congrArg some (congrArg _ (ValueError.map_places_under place rule report.errors))
  rw [hpart, hpart, h]

/-! ## The places of the errors -/

/-- A scalar that is neither spelled nor converted has one error. -/
theorem places_decodeScalar_of_not_read {kind : ScalarKind} {input : Json}
    (hread : kind.read input = .error .shape) (hconvert : kind.convert? input = none) :
    (decodeScalar reading kind input).errors.map places = [([], ["type"])] := by
  simp only [decodeScalar, hread]
  split
  · rw [hconvert]
    rfl
  · split <;> rfl

/-- No scalar is read from an array or an object. -/
theorem not_read_of_composite {kind : ScalarKind} {input : Json}
    (h : (∃ items, input = .array items) ∨ ∃ entries, input = .object entries) :
    kind.read input = .error .shape ∧ kind.convert? input = none := by
  obtain ⟨items, rfl⟩ | ⟨entries, rfl⟩ := h
  · exact ⟨rfl, by cases kind <;> rfl⟩
  · exact ⟨rfl, by cases kind <;> rfl⟩

variable {entries entries' : Entries Json}

/-- The keys that a shape does not have are the same in whatever order keys are listed. -/
theorem places_undeclaredErrors {rule : Pointer} {shape : Shape} {tag : Option String}
    (h : (Entries.keys entries).Perm (Entries.keys entries')) :
    (undeclaredErrors rule shape tag entries).Perm (undeclaredErrors rule shape tag entries') := by
  have hkeys : ∀ entries : Entries Json, undeclaredReports shape tag entries =
      if shape.strict then (Entries.keys entries).filterMap fun key =>
        if shape.declares key || some key = tag then none
        else some (.fail [key] [] (.undeclared key))
      else [] := by
    intro entries
    rw [undeclaredReports, Entries.keys, List.filterMap_map]
    rfl
  rw [undeclaredErrors, undeclaredErrors, hkeys, hkeys]
  refine List.Perm.flatMap_right _ ?_
  split
  · exact h.filterMap _
  · exact .refl _

/-- **A shape comes to pieces with the same places** when what is found under the keys of its
properties has errors at the same places. -/
theorem Shape.places_pieces {rule : Pointer} {shape : Shape} {tag : Option String}
    (hkeys : (Entries.keys entries).Perm (Entries.keys entries'))
    (h : ∀ property ∈ shape.properties, Option.Rel (property.2.SamePlaces reading follow)
      (entries.lookup property.1) (entries'.lookup property.1)) :
    (shape.pieces rule tag entries).map (Piece.places reading follow) =
      (shape.pieces rule tag entries').map (Piece.places reading follow) := by
  have hrequired : ∀ property ∈ shape.required,
      (requiredPiece rule entries property).places reading follow =
        (requiredPiece rule entries' property).places reading follow := by
    intro property hproperty
    have hitem := h property (List.mem_append_left _ hproperty)
    simp only [requiredPiece]
    generalize entries.lookup property.1 = item, entries'.lookup property.1 = item' at hitem ⊢
    cases hitem with
    | none => rfl
    | some hsame => exact hsame.part _ _
  have hoptional : ∀ property ∈ shape.optional,
      (optionalPiece? rule entries property).map (Piece.places reading follow) =
        (optionalPiece? rule entries' property).map (Piece.places reading follow) := by
    intro property hproperty
    have hitem := h property (List.mem_append_right _ hproperty)
    simp only [optionalPiece?]
    generalize entries.lookup property.1 = item, entries'.lookup property.1 = item' at hitem ⊢
    cases hitem with
    | none => rfl
    | some hsame => exact congrArg some (hsame.part _ _)
  simp only [Shape.pieces, List.map_append, List.map_map, List.map_filterMap, List.map_cons,
    List.map_nil]
  congr 1
  · congr 1
    · exact List.map_congr_left hrequired
    · exact List.filterMap_congr hoptional
  · exact congrArg (· :: []) (placesOf_eq_of_perm (places_undeclaredErrors hkeys))

/-- What belongs to a shape is looked up, so that the order of keys does not matter. -/
theorem Shape.samePlaces_lookup {shape : Shape}
    (ih : ∀ property ∈ shape.properties, ∀ {input input' : Json},
      Json.Rearranged input input' → input.WellFormed →
        property.2.SamePlaces reading follow input input')
    (h : Json.Rearranged (.object entries) (.object entries'))
    (hinput : (Json.object entries).WellFormed) :
    ∀ property ∈ shape.properties, Option.Rel (property.2.SamePlaces reading follow)
      (entries.lookup property.1) (entries'.lookup property.1) := by
  intro property hproperty
  have hitem := h.lookup hinput.1 property.1
  have hwell : ∀ item, entries.lookup property.1 = some item → item.WellFormed :=
    fun item hfound => Json.wellFormedEntries_iff.mp hinput.2 _ (Entries.mem_of_lookup hfound)
  generalize entries.lookup property.1 = item, entries'.lookup property.1 = item' at hitem hwell ⊢
  cases hitem with
  | none => exact .none
  | some hrearranged => exact .some (ih property hproperty hrearranged (hwell _ rfl))

/-- **The errors about documents that are rearranged** stand at the same places.

**Proof sketch.** Induction along the walk. What a node comes to for one document and for the other
are pieces with the same places: in the same order but for the entries of a map, which come in the
order of the document. -/
theorem samePlaces_of_rearranged {node : Node} : ∀ {input input' : Json},
    Json.Rearranged input input' → input.WellFormed →
      node.SamePlaces reading (program.decodeModel reading steps) input input' := by
  induction steps, node using walkInduct program with
  | scalar steps kind nullable =>
    intro input input' h _
    refine .of_pieces (.of_eq ?_)
    have hcomposite : ∀ {input : Json},
        ((∃ items, input = .array items) ∨ ∃ entries, input = .object entries) →
          placesOf (some (decodeScalar reading kind input).errors) = some {([], ["type"])} := by
      intro input hinput
      obtain ⟨hread, hconvert⟩ := not_read_of_composite hinput
      exact congrArg some (congrArg _ (places_decodeScalar_of_not_read hread hconvert))
    cases h with
    | array =>
      exact congrArg (· :: [])
        ((hcomposite (.inl ⟨_, rfl⟩)).trans (hcomposite (.inl ⟨_, rfl⟩)).symm)
    | object =>
      exact congrArg (· :: [])
        ((hcomposite (.inr ⟨_, rfl⟩)).trans (hcomposite (.inr ⟨_, rfl⟩)).symm)
    | _ => rfl
  | enumeration steps values nullable =>
    intro input input' h _
    refine .of_pieces (.of_eq ?_)
    cases h <;> rfl
  | object steps shape nullable ih =>
    intro input input' h hinput
    refine .of_pieces (.of_eq ?_)
    cases hobject : h with
    | object => exact Shape.places_pieces h.perm_keys (Shape.samePlaces_lookup ih h hinput)
    | _ => rfl
  | array steps element nullable ih =>
    intro input input' h hinput
    refine .of_pieces (.of_eq ?_)
    cases hobject : h with
    | @array items items' hitems =>
      have hwell := Json.wellFormedItems_iff.mp hinput
      have hsame := (List.forall₂_and_left _ _).mpr ⟨hwell, hitems⟩
      simp only [Node.pieces, Json.isNull, Bool.false_and, Bool.false_eq_true, if_false,
        Kind.pieces, List.map_map]
      refine Outcome.map_zipIdx_eq_of_forall₂ (hsame.imp fun item item' hitem i => ?_) 0
      exact (ih hitem.2 hitem.1).part _ _
    | _ => rfl
  | record steps value nullable ih =>
    intro input input' h hinput
    refine .of_pieces ?_
    cases hobject : h with
    | @object entries _ entries' =>
      obtain ⟨between, hbetween, hperm⟩ := h.exists_between
      have hwell := Json.wellFormedEntries_iff.mp hinput.2
      have hsame := (List.forall₂_and_left _ _).mpr ⟨hwell, hbetween⟩
      simp only [Node.pieces, Json.isNull, Bool.false_and, Bool.false_eq_true, if_false,
        Kind.pieces, List.map_map]
      refine (List.Perm.of_eq ?_).trans (hperm.map _)
      refine Outcome.map_eq_map_of_forall₂ (hsame.imp fun entry entry' hentry => ?_)
      obtain ⟨hentry, hkey, hrearranged⟩ := hentry
      rw [Function.comp_apply, Function.comp_apply, hkey]
      exact (ih hrearranged hentry).part _ _
    | _ => exact .refl _
  | union steps tag variants nullable ih =>
    intro input input' h hinput
    refine .of_pieces (.of_eq ?_)
    cases hobject : h with
    | @object entries _ entries' =>
      have htag := h.lookup hinput.1 tag
      simp only [Node.pieces, Json.isNull, Bool.false_and, Bool.false_eq_true, if_false,
        Kind.pieces]
      generalize entries.lookup tag = item, entries'.lookup tag = item' at htag ⊢
      cases htag with
      | none => rfl
      | some hname =>
        cases hname with
        | string name =>
          cases hvariant : variants.lookup name with
          | none => simp only [hvariant]
          | some shape =>
            simp only [hvariant]
            have hshape := ih (name, shape) (Entries.mem_of_lookup hvariant)
            exact Shape.places_pieces h.perm_keys (Shape.samePlaces_lookup hshape h hinput)
        | _ => rfl
    | _ => rfl
  | stop index nullable =>
    intro input input' h hinput
    refine .of_pieces (.of_eq ?_)
    cases h <;> rfl
  | step steps index nullable ih =>
    intro input input' h hinput
    have hmodel : placesOf ((program.decodeModel reading (steps + 1) index input).map
        Report.errors) = placesOf ((program.decodeModel reading (steps + 1) index input').map
        Report.errors) := by
      simp only [decodeModel]
      cases hmodel : program.models[index]? with
      | none => rfl
      | some model => exact ih model hmodel h hinput
    have hnull : input.isNull = input'.isNull := by cases h <;> rfl
    refine .of_pieces (.of_eq ?_)
    simp only [Node.pieces, ← hnull]
    split
    · rfl
    · exact congrArg (· :: []) hmodel

/-! ## What is decoded -/

/-- **Maps made along a shape** are equal when what is made along each of its properties is. -/
theorem Matched.sameMap {relation : Node → Json → Value → Prop} {shape : Shape}
    {pairs pairs' : List (String × Value)} (hinput : Entries.Distinct entries)
    (h : Json.Rearranged (.object entries) (.object entries'))
    (hpairs : Matched relation entries (shape.presentIn entries) pairs)
    (hpairs' : Matched relation entries' (shape.presentIn entries') pairs')
    (hequals : ∀ property ∈ shape.properties, ∀ {item item' : Json} {value value' : Value},
      entries.lookup property.1 = some item → Json.Rearranged item item' →
        relation property.2 item value → relation property.2 item' value' →
        value.equals value' = true) :
    (Entries.ofList pairs).length = (Entries.ofList pairs').length ∧
      Value.equalFields (Entries.ofList pairs) (Entries.ofList pairs') = true := by
  have hpresent : shape.presentIn entries = shape.presentIn entries' :=
    Shape.presentIn_congr fun _ _ => h.perm_keys.mem_iff
  constructor
  · have hkeys : (Entries.keys (Entries.ofList pairs)).Perm
        (Entries.keys (Entries.ofList pairs')) := by
      refine (List.perm_ext_iff_of_nodup (Entries.distinct_ofList _)
        (Entries.distinct_ofList _)).mpr fun key => ?_
      rw [Matched.mem_keys_ofList, Matched.mem_keys_ofList, hpairs.keys_eq, hpairs'.keys_eq,
        hpresent]
    simpa [Entries.keys] using hkeys.length_eq
  · refine Value.equalFields_iff.mpr fun field hfield => ?_
    have hkey : field.1 ∈ Entries.keys (shape.presentIn entries) := by
      rw [← hpairs.keys_eq, ← Matched.mem_keys_ofList]
      exact List.mem_map_of_mem hfield
    obtain ⟨property, hproperty, heq⟩ := List.mem_map.mp hkey
    obtain ⟨node, item, value, hruling, hitem, hvalue, hfound⟩ := hpairs.ruled hproperty
    obtain ⟨node', item', value', hruling', hitem', hvalue', hfound'⟩ :=
      hpairs'.ruled (hpresent ▸ hproperty)
    obtain rfl : node = node' := Option.some.inj (hruling.symm.trans hruling')
    have hfield' := Entries.lookup_of_mem (Entries.distinct_ofList pairs) hfield
    obtain rfl : value = field.2 := Option.some.inj (hfound.symm.trans (heq ▸ hfield'))
    have hitems := h.lookup hinput property.1
    rw [hitem, hitem'] at hitems
    cases hitems with
    | some hrearranged =>
      exact ⟨value', heq ▸ hfound', hequals (property.1, node) (Shape.mem_of_ruling hruling) hitem
        hrearranged hvalue hvalue'⟩

/-- A scalar that is decoded has no keys. -/
theorem eq_of_decodeScalar_eq_ok {kind : ScalarKind} {input input' : Json} {value : Value}
    (h : Json.Rearranged input input') (hvalue : decodeScalar reading kind input = .ok value) :
    input' = input := by
  have hplain : ¬ ((∃ items, input = .array items) ∨ ∃ entries, input = .object entries) := by
    intro hcomposite
    obtain ⟨hread, hconvert⟩ := not_read_of_composite hcomposite
    have herrors : (decodeScalar reading kind input).errors.map places = [([], ["type"])] :=
      places_decodeScalar_of_not_read hread hconvert
    rw [hvalue] at herrors
    cases herrors
  cases h with
  | array => exact absurd (.inl ⟨_, rfl⟩) hplain
  | object => exact absurd (.inr ⟨_, rfl⟩) hplain
  | _ => rfl

/-- Where one document is `null` the other is, so that it is enough to go through what a node
demands. -/
theorem Node.equals_of_kind {kind : Kind} {nullable : Bool} {input input' : Json}
    {value value' : Value} (h : Json.Rearranged input input')
    (hvalue : Node.Decodes reading follow ⟨kind, nullable⟩ input value)
    (hvalue' : Node.Decodes reading follow ⟨kind, nullable⟩ input' value')
    (hequals : kind.decode reading follow input = some (.ok value) →
      kind.decode reading follow input' = some (.ok value') → value.equals value' = true) :
    value.equals value' = true := by
  have hnull : input = .null ↔ input' = .null := by cases h <;> simp
  rcases Node.decode_eq_ok_iff.mp hvalue with ⟨hinput, hnullable, rfl⟩ | ⟨hnot, hdecode⟩
  · rcases Node.decode_eq_ok_iff.mp hvalue' with ⟨-, -, rfl⟩ | ⟨hnot', -⟩
    · rfl
    · exact absurd ⟨hnull.mp hinput, hnullable⟩ hnot'
  · rcases Node.decode_eq_ok_iff.mp hvalue' with ⟨hinput', hnullable, -⟩ | ⟨-, hdecode'⟩
    · exact absurd ⟨hnull.mpr hinput', hnullable⟩ hnot
    · exact hequals hdecode hdecode'

/-- The fields that are decoded along a shape are equal when what is decoded along its properties
is. -/
theorem Shape.equalFields_of_rearranged {shape : Shape} {tag : Option String}
    {input input' : Json} {fields fields' : Entries Value}
    (hfollow : FollowsProperly follow)
    (ih : ∀ property ∈ shape.properties, ∀ {input input' : Json} {value value' : Value},
      Json.Rearranged input input' → input.WellFormed →
        property.2.Decodes reading follow input value →
        property.2.Decodes reading follow input' value' → value.equals value' = true)
    (h : Json.Rearranged input input') (hinput : input.WellFormed)
    (hfields : shape.decode reading follow tag input = some (.ok fields))
    (hfields' : shape.decode reading follow tag input' = some (.ok fields')) :
    fields.length = fields'.length ∧ Value.equalFields fields fields' = true := by
  obtain ⟨entries, pairs, rfl, -, hpairs, rfl⟩ := (Shape.decode_eq_ok_iff hfollow).mp hfields
  obtain ⟨entries', pairs', rfl, -, hpairs', rfl⟩ := (Shape.decode_eq_ok_iff hfollow).mp hfields'
  refine hpairs.sameMap hinput.1 h hpairs' fun property hproperty _ _ _ _ hitem hrearranged => ?_
  exact ih property hproperty hrearranged
    (Json.wellFormedEntries_iff.mp hinput.2 _ (Entries.mem_of_lookup hitem))

/-- **What is decoded from documents that are rearranged** is equal.

**Proof sketch.** Induction along the walk. What is decoded along a shape are the fields of its
properties, and the ruling property of a key is the same for both documents. -/
theorem equals_of_rearranged {node : Node} : ∀ {input input' : Json} {value value' : Value},
    Json.Rearranged input input' → input.WellFormed →
      node.Decodes reading (program.decodeModel reading steps) input value →
      node.Decodes reading (program.decodeModel reading steps) input' value' →
      value.equals value' = true := by
  have hfollow := followsProperly_decodeModel program reading
  induction steps, node using walkInduct program with
  | scalar steps kind nullable =>
    intro input input' value value' h _ hvalue hvalue'
    refine Node.equals_of_kind h hvalue hvalue' fun hdecode hdecode' => ?_
    obtain rfl := eq_of_decodeScalar_eq_ok h (Option.some.inj hdecode)
    obtain rfl := Report.ok_inj.mp (Option.some.inj (hdecode.symm.trans hdecode'))
    exact ScalarKind.equals_of_holds (decodeScalar_eq_ok (Option.some.inj hdecode)).1
  | enumeration steps values nullable =>
    intro input input' value value' h _ hvalue hvalue'
    refine Node.equals_of_kind h hvalue hvalue' fun hdecode hdecode' => ?_
    obtain ⟨text, rfl, -, rfl⟩ := decodeListed_eq_ok_iff.mp (Option.some.inj hdecode)
    obtain ⟨text', rfl, -, rfl⟩ := decodeListed_eq_ok_iff.mp (Option.some.inj hdecode')
    cases h
    exact BEq.rfl
  | object steps shape nullable ih =>
    intro input input' value value' h hinput hvalue hvalue'
    refine Node.equals_of_kind h hvalue hvalue' fun hdecode hdecode' => ?_
    obtain ⟨fields, hfields, rfl⟩ := Kind.decode_object_iff.mp hdecode
    obtain ⟨fields', hfields', rfl⟩ := Kind.decode_object_iff.mp hdecode'
    obtain ⟨hlength, hequal⟩ :=
      Shape.equalFields_of_rearranged (hfollow steps) ih h hinput hfields hfields'
    simp [Value.equals, hlength, hequal]
  | array steps element nullable ih =>
    intro input input' value value' h hinput hvalue hvalue'
    refine Node.equals_of_kind h hvalue hvalue' fun hdecode hdecode' => ?_
    obtain ⟨items, values, rfl, hvalues, rfl⟩ := (Kind.decode_array_iff (hfollow steps)).mp hdecode
    obtain ⟨items', values', rfl, hvalues', rfl⟩ :=
      (Kind.decode_array_iff (hfollow steps)).mp hdecode'
    cases h with
    | array hitems =>
      have hwell := (List.forall₂_and_left _ _).mpr ⟨Json.wellFormedItems_iff.mp hinput, hitems⟩
      exact Value.equalItems_of_forall₂
        (hwell.imp fun _ _ hitem _ _ => ih hitem.2 hitem.1) hvalues hvalues'
  | record steps node nullable ih =>
    intro input input' value value' h hinput hvalue hvalue'
    refine Node.equals_of_kind h hvalue hvalue' fun hdecode hdecode' => ?_
    obtain ⟨entries, fields, rfl, hfields, rfl⟩ :=
      (Kind.decode_record_iff (hfollow steps)).mp hdecode
    obtain ⟨entries', fields', rfl, hfields', rfl⟩ :=
      (Kind.decode_record_iff (hfollow steps)).mp hdecode'
    have hlength : fields.length = fields'.length := by
      have hkeys := h.perm_keys.length_eq
      simp only [Entries.keys, List.length_map] at hkeys
      rw [← hfields.length_eq, ← hfields'.length_eq, hkeys]
    have hequal : Value.equalFields fields fields' = true := by
      refine Value.equalFields_iff.mpr fun field hfield => ?_
      obtain ⟨entry, hentry, hkey, hvalue⟩ := Outcome.exists_of_forall₂_right hfields field hfield
      have hitems := h.lookup hinput.1 entry.1
      rw [Entries.lookup_of_mem hinput.1 hentry] at hitems
      generalize hitem' : entries'.lookup entry.1 = item' at hitems
      cases hitems with
      | some hrearranged =>
        obtain ⟨other, hother, -, hvalue'⟩ :=
          Entries.exists_lookup_of_forall₂ (fun _ _ h => h.1) hfields' hitem'
        have hwell := Json.wellFormedEntries_iff.mp hinput.2 entry hentry
        exact ⟨other, hkey ▸ hother, ih hrearranged hwell hvalue hvalue'⟩
    simp [Value.equals, hlength, hequal]
  | union steps tag variants nullable ih =>
    intro input input' value value' h hinput hvalue hvalue'
    refine Node.equals_of_kind h hvalue hvalue' fun hdecode hdecode' => ?_
    obtain ⟨entries, name, shape, fields, rfl, htag, hvariant, hfields, rfl⟩ :=
      Kind.decode_union_iff.mp hdecode
    obtain ⟨entries', name', shape', fields', rfl, htag', hvariant', hfields', rfl⟩ :=
      Kind.decode_union_iff.mp hdecode'
    have hnames := h.lookup hinput.1 tag
    rw [htag, htag'] at hnames
    obtain rfl : name = name' := by
      cases hnames with
      | some hname => cases hname; rfl
    obtain rfl := Option.some.inj (hvariant.symm.trans hvariant')
    obtain ⟨hlength, hequal⟩ := Shape.equalFields_of_rearranged (hfollow steps)
      (ih (name, shape) (Entries.mem_of_lookup hvariant)) h hinput hfields hfields'
    simp [Value.equals, hlength, hequal]
  | stop index nullable =>
    intro input input' value value' h _ hvalue hvalue'
    exact Node.equals_of_kind h hvalue hvalue' fun hdecode _ => (by cases hdecode)
  | step steps index nullable ih =>
    intro input input' value value' h hinput hvalue hvalue'
    refine Node.equals_of_kind h hvalue hvalue' fun hdecode hdecode' => ?_
    rw [Kind.decode, decodeModel] at hdecode hdecode'
    cases hmodel : program.models[index]? with
    | none =>
      rw [hmodel] at hdecode
      cases hdecode
    | some model =>
      rw [hmodel] at hdecode hdecode'
      exact ih model hmodel h hinput hdecode hdecode'

/-! ## Outcomes -/

/-- **Two outcomes of decoding are the same** but for order: the values are equal, or the errors
stand at the same places, each as often. -/
inductive SameOutcome : Except (List ValueError) Value → Except (List ValueError) Value → Prop
  | value {value value' : Value} :
    value.equals value' = true → SameOutcome (.ok value) (.ok value')
  | errors {errors errors' : List ValueError} :
    (errors.map places).Perm (errors'.map places) → SameOutcome (.error errors) (.error errors')

/-- Reports with errors at the same places, and equal values if there are none, have the same
outcome. -/
theorem sameOutcome_result {report report' : Report Value} (hproper : report.Proper)
    (hproper' : report'.Proper)
    (hplaces : (report.errors.map places).Perm (report'.errors.map places))
    (hvalues : ∀ value value', report = .ok value → report' = .ok value' →
      value.equals value' = true) :
    SameOutcome report.result report'.result := by
  by_cases herrors : report.errors = []
  · have herrors' : report'.errors = [] := by
      rw [herrors] at hplaces
      exact List.map_eq_nil_iff.mp hplaces.nil_eq.symm
    obtain ⟨value, rfl⟩ := hproper herrors
    obtain ⟨value', rfl⟩ := hproper' herrors'
    exact .value (hvalues value value' rfl rfl)
  · have herrors' : report'.errors ≠ [] := by
      intro hnil
      rw [hnil] at hplaces
      exact herrors (List.map_eq_nil_iff.mp hplaces.eq_nil)
    rw [Report.result_of_errors_ne_nil herrors, Report.result_of_errors_ne_nil herrors']
    exact .errors hplaces

/-- What comes out of decoding documents that are rearranged.

**Proof sketch.** Rearranged documents need not be seen to be of the same depth: both walks are
given as many steps as the deeper one needs. -/
theorem sameOutcome_decode {input input' : Json} (h : Json.Rearranged input input')
    (hinput : input.WellFormed) :
    Option.Rel SameOutcome ((program.decode reading input).map Report.result)
      ((program.decode reading input').map Report.result) := by
  have hwalk := program.isWalk_decode reading
  have hsteps {input : Json} {steps : Nat} (hbudget : program.budget input.depth ≤ steps) :
      program.decode reading input =
        program.root.decode reading (program.decodeModel reading steps) input :=
    hwalk.walk_of_budget_le program.root hbudget
  rw [hsteps (Nat.le_max_left _ (program.budget input'.depth)),
    hsteps (Nat.le_max_right (program.budget input.depth) _)]
  generalize max (program.budget input.depth) (program.budget input'.depth) = steps
  have hproper {input : Json} {report : Report Value}
      (hreport : program.root.decode reading (program.decodeModel reading steps) input =
        some report) : report.Proper :=
    Node.decode_proper (followsProperly_decodeModel program reading steps) hreport
  have hplaces : program.root.SamePlaces reading (program.decodeModel reading steps) input input' :=
    samePlaces_of_rearranged h hinput
  rw [Node.SamePlaces] at hplaces
  cases hreport : program.root.decode reading (program.decodeModel reading steps) input with
  | none =>
    rw [hreport] at hplaces
    obtain hreport' := Option.map_eq_none_iff.mp (Option.map_eq_none_iff.mp hplaces.symm)
    rw [hreport']
    exact .none
  | some report =>
    rw [hreport] at hplaces
    obtain ⟨errors', herrors', hsame⟩ := Option.map_eq_some_iff.mp hplaces.symm
    obtain ⟨report', hreport', rfl⟩ := Option.map_eq_some_iff.mp herrors'
    rw [hreport']
    refine .some (sameOutcome_result (hproper hreport) (hproper hreport')
      (Multiset.coe_eq_coe.mp hsame.symm) fun value value' hvalue hvalue' => ?_)
    exact equals_of_rearranged h hinput (hreport.trans (congrArg some hvalue))
      (hreport'.trans (congrArg some hvalue'))

end Program

/-- **Decoding does not hang on the order of keys.** Of two documents that are equal but for the
order of keys, at every depth, both are decoded or neither is. If they are, the values are equal as
maps; if they are not, the errors stand at the same places in the document and in the schema, each
as often. So it is when scalars may be converted. -/
theorem Validator.sameOutcome_of_rearranged {validator : Validator} {input input' : Json}
    (hinput : input.WellFormed) (h : Json.Rearranged input input') :
    Option.Rel Program.SameOutcome (validator.decode input) (validator.decode input') ∧
      Option.Rel Program.SameOutcome (validator.coerce input) (validator.coerce input') :=
  ⟨Program.sameOutcome_decode h hinput, Program.sameOutcome_decode h hinput⟩

/-- The case of a variant whose tag comes first or last beside a map, both ways around: with numbers
that are decoded, and with faults that are found in one order and in the other. -/
theorem Validator.sameOutcome_of_rearranged_pet :
    let cat : Program.Shape := ⟨[("name", ⟨.scalar .string, false⟩)], [], true⟩
    let fields : List (String × Program.Node) :=
      [("pet", ⟨.union "type" [("cat", cat)], false⟩),
        ("ages", ⟨.record ⟨.scalar .uint8, false⟩, false⟩)]
    let validator : Validator := ⟨⟨⟨.object ⟨fields, [], true⟩, false⟩, [], []⟩⟩
    let pet : Entries Json := [("type", .string "cat"), ("name", .string "Tom")]
    let first (ages : Entries Json) : Json := .object [("pet", .object pet), ("ages", .object ages)]
    let second (ages : Entries Json) : Json :=
      .object [("ages", .object ages.reverse), ("pet", .object pet.reverse)]
    let right : Entries Json :=
      [("a", .number (.whole 1 (by decide))), ("b", .number (.whole 2 (by decide)))]
    let wrong : Entries Json := [("a", .null), ("b", .number (.whole 300 (by decide)))]
    (∀ ages ∈ [right, wrong], (first ages).WellFormed ∧
      Json.Rearranged (first ages) (second ages)) ∧
    (∃ value value', validator.decode (first right) = some (.ok value) ∧
      validator.decode (second right) = some (.ok value') ∧ value.equals value' = true) ∧
    ∃ errors errors', validator.coerce (first wrong) = some (.error errors) ∧
      validator.coerce (second wrong) = some (.error errors') ∧ errors.length = 2 ∧
      (errors.map ValueError.places).Perm (errors'.map ValueError.places) := by
  intro cat fields validator pet first second right wrong
  have hinputs : ∀ ages ∈ [right, wrong], (first ages).WellFormed ∧
      Json.Rearranged (first ages) (second ages) := by
    intro ages hages
    constructor
    · have hwell : (Json.object ages).WellFormed := by
        rcases List.mem_pair.mp hages with rfl | rfl <;>
          simp [right, wrong, Json.WellFormed, Json.WellFormedEntries, Entries.Distinct,
            Entries.keys]
      have hpet : (Json.object pet).WellFormed := by
        simp [pet, Json.WellFormed, Json.WellFormedEntries, Entries.Distinct, Entries.keys]
      have hdistinct : ["pet", "ages"].Nodup := by decide
      exact ⟨hdistinct, hpet, hwell, trivial⟩
    · have hpet : Json.Rearranged (.object pet) (.object pet.reverse) :=
        .of_perm (List.reverse_perm pet).symm
      have hages : Json.Rearranged (.object ages) (.object ages.reverse) :=
        .of_perm (List.reverse_perm ages).symm
      exact @Json.Rearranged.object _
        [("pet", .object pet.reverse), ("ages", .object ages.reverse)] _ rfl
        (.cons hpet (.cons hages .nil)) (.swap _ _ _)
  obtain ⟨hwell, hrearranged⟩ := hinputs right List.mem_cons_self
  obtain ⟨hdecode, -⟩ := @sameOutcome_of_rearranged validator _ _ hwell hrearranged
  obtain ⟨hwell', hrearranged'⟩ := hinputs wrong (List.mem_cons_of_mem _ List.mem_cons_self)
  obtain ⟨-, hcoerce⟩ := @sameOutcome_of_rearranged validator _ _ hwell' hrearranged'
  refine ⟨hinputs, ?_, ?_⟩
  · obtain ⟨value, hvalue⟩ : ∃ value, validator.decode (first right) = some (.ok value) := ⟨_, rfl⟩
    obtain ⟨value', hvalue'⟩ : ∃ value, validator.decode (second right) = some (.ok value) :=
      ⟨_, rfl⟩
    rw [hvalue, hvalue'] at hdecode
    rcases hdecode with ⟨⟨hequal⟩⟩
    exact ⟨value, value', hvalue, hvalue', hequal⟩
  · obtain ⟨errors, herrors, hlength⟩ :
        ∃ errors, validator.coerce (first wrong) = some (.error errors) ∧ errors.length = 2 :=
      ⟨_, rfl, rfl⟩
    obtain ⟨errors', herrors'⟩ : ∃ errors, validator.coerce (second wrong) = some (.error errors) :=
      ⟨_, rfl⟩
    rw [herrors, herrors'] at hcoerce
    rcases hcoerce with ⟨_ | ⟨hplaces⟩⟩
    exact ⟨errors, errors', herrors, herrors', hlength, hplaces⟩

end RpcSchema
