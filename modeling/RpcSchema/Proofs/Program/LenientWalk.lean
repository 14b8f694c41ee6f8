import RpcSchema.Proofs.Program.Ending
import RpcSchema.Validator.Lenient

set_option autoImplicit false

/-!
# Lenient reading ends

Where a document is given, lenient reading goes down along it as decoding does. Where none is, it
goes on along models only, each of which is inside one default more, until there are more of them
inside each other than there are models. So it ends when decoding does.

## Main definitions

* `RpcSchema.Program.FollowsLeniently` — two ways of following references compare wherever lenient
  reading along a node may ask.

## Main results

* `RpcSchema.Program.Node.readLeniently_rel` — lenient readings compare when the ways of following
  references do.
* `RpcSchema.Program.isSome_readModelLeniently_none` — defaults of models end.
* `RpcSchema.Program.isSome_readLeniently` — lenient reading ends.
-/

namespace RpcSchema.Program

/-! ## What lenient reading asks for -/

/-- What is found in an object lies less deep than the document that is the object. -/
theorem depth_lt_of_lookup_entriesOf {input : Option Json} {key : String} {item : Json}
    (h : (entriesOf (given? input)).lookup key = some item) :
    ∃ whole, input = some whole ∧ item.depth < whole.depth := by
  cases input with
  | none => cases h
  | some whole =>
    cases whole with
    | object entries =>
      have hentry : (key, item) ∈ entries := Entries.mem_of_lookup h
      exact ⟨_, rfl, Json.depth_lt_of_entry hentry⟩
    | _ => cases h

/-- What is given is the document. -/
theorem eq_of_given? {input : Option Json} {whole : Json} (h : given? input = some whole) :
    input = some whole := (Option.filter_eq_some_iff.mp h).1

variable (c : Walk.Comparison)

/-- **Two ways of following references compare wherever lenient reading along a node may ask**:
without a document and for parts of it at the models that the node mentions, and for the document
itself if the node is a reference. -/
structure FollowsLeniently (inside : Nat) (node : Node) (input : Option Json)
    (f g : Nat → Nat → Option Json → Attempt Value) : Prop where
  missing : ∀ index, node.Mentions index → c.rel (f index inside none) (g index inside none)
  below : ∀ index whole item, node.Mentions index → input = some whole →
    item.depth < whole.depth → c.rel (f index inside (some item)) (g index inside (some item))
  here : ∀ index, node.target? = some index →
    c.rel (f index inside (given? input)) (g index inside (given? input))

section

variable {c} {inside : Nat} {f g : Nat → Nat → Option Json → Attempt Value}

/-- Lenient reading goes down to a node inside with a part of the document, or without any. -/
theorem FollowsLeniently.part {whole inner : Node} {input input' : Option Json}
    (h : FollowsLeniently c inside whole input f g)
    (hinner : ∀ index, inner.Mentions index → whole.Mentions index)
    (hpart : ∀ item, input' = some item → ∃ whole, input = some whole ∧ item.depth < whole.depth) :
    FollowsLeniently c inside inner input' f g where
  missing index hindex := h.missing index (hinner index hindex)
  below index item part hindex hitem hlt := by
    obtain ⟨whole, hwhole, hlt'⟩ := hpart item hitem
    exact h.below index whole part (hinner index hindex) hwhole (hlt.trans hlt')
  here index hindex := by
    have hmentions := hinner index (Node.mentions_of_target? hindex)
    cases hgiven : given? input' with
    | none => exact h.missing index hmentions
    | some item =>
      obtain ⟨whole, hwhole, hlt⟩ := hpart item (eq_of_given? hgiven)
      exact h.below index whole item hmentions hwhole hlt

/-- With a document, a reference asks for the document or, if that is `null`, for nothing. -/
theorem FollowsLeniently.of_some {node : Node} {whole : Json}
    (hmissing : ∀ index, node.Mentions index → c.rel (f index inside none) (g index inside none))
    (hbelow : ∀ index item, node.Mentions index → item.depth < whole.depth →
      c.rel (f index inside (some item)) (g index inside (some item)))
    (hhere : ∀ index, node.target? = some index →
      c.rel (f index inside (some whole)) (g index inside (some whole))) :
    FollowsLeniently c inside node (some whole) f g where
  missing := hmissing
  below := by
    rintro index _ item hindex ⟨⟩ hlt
    exact hbelow index item hindex hlt
  here index hindex := by
    cases hgiven : given? (some whole) with
    | none => exact hmissing index (Node.mentions_of_target? hindex)
    | some item =>
      obtain rfl : whole = item := Option.some.inj (eq_of_given? hgiven)
      exact hhere index hindex

end

variable {inside : Nat} {f g : Nat → Nat → Option Json → Attempt Value}

theorem readRequiredLeniently_rel {entries : Entries Json} :
    ∀ {properties : List (String × Node)},
      (∀ property ∈ properties,
        c.rel (property.2.readLeniently f inside (entries.lookup property.1))
          (property.2.readLeniently g inside (entries.lookup property.1))) →
      c.rel (readRequiredLeniently f inside entries properties)
        (readRequiredLeniently g inside entries properties)
  | [], _ => c.outcome _
  | (key, node) :: rest, h => by
    simp only [readRequiredLeniently]
    refine c.attemptBind (c.attemptUnder _ _ (h _ List.mem_cons_self)) fun value => ?_
    refine c.attemptBind (readRequiredLeniently_rel fun p hp => h p (List.mem_cons_of_mem _ hp)) ?_
    exact fun fields => c.outcome _

theorem readOptionalLeniently_rel {entries : Entries Json} :
    ∀ {properties : List (String × Node)},
      (∀ property ∈ properties,
        c.rel (property.2.readLeniently f inside (entries.lookup property.1))
          (property.2.readLeniently g inside (entries.lookup property.1))) →
      c.rel (readOptionalLeniently f inside entries properties)
        (readOptionalLeniently g inside entries properties)
  | [], _ => c.outcome _
  | (key, node) :: rest, h => by
    have hrest : c.rel (readOptionalLeniently f inside entries rest)
        (readOptionalLeniently g inside entries rest) :=
      readOptionalLeniently_rel fun p hp => h p (List.mem_cons_of_mem _ hp)
    have hfirst := h _ List.mem_cons_self
    simp only [readOptionalLeniently]
    cases hkey : entries.lookup key with
    | none => exact hrest
    | some item =>
      rw [hkey] at hfirst
      refine c.attemptBind (c.attemptUnder _ _ hfirst) fun value => ?_
      exact c.attemptBind hrest fun fields => c.outcome _

theorem Shape.readLeniently_rel {shape : Shape} {entries : Entries Json}
    (h : ∀ property ∈ shape.properties,
      c.rel (property.2.readLeniently f inside (entries.lookup property.1))
        (property.2.readLeniently g inside (entries.lookup property.1))) :
    c.rel (shape.readLeniently f inside entries) (shape.readLeniently g inside entries) := by
  obtain ⟨required, optional, strict⟩ := shape
  simp only [Shape.readLeniently]
  refine c.attemptBind (readRequiredLeniently_rel c fun p hp => h p (List.mem_append_left _ hp)) ?_
  intro present
  refine c.attemptBind (readOptionalLeniently_rel c fun p hp => h p (List.mem_append_right _ hp)) ?_
  exact fun further => c.outcome _

theorem readVariantLeniently_rel {entries : Entries Json} {tag name : String} :
    ∀ {variants : List (String × Shape)},
      (∀ variant ∈ variants, ∀ property ∈ variant.2.properties,
        c.rel (property.2.readLeniently f inside (entries.lookup property.1))
          (property.2.readLeniently g inside (entries.lookup property.1))) →
      c.rel (readVariantLeniently f inside tag name variants entries)
        (readVariantLeniently g inside tag name variants entries)
  | [], _ => c.outcome _
  | (other, shape) :: rest, h => by
    simp only [readVariantLeniently]
    split
    · have hfirst := Shape.readLeniently_rel c (h _ List.mem_cons_self)
      refine c.attemptBind (c.attemptUnder _ _ hfirst) ?_
      exact fun fields => c.outcome _
    · exact readVariantLeniently_rel fun v hv => h v (List.mem_cons_of_mem _ hv)

/-- **Lenient reading** hangs only on what following gives where the walk may ask. -/
theorem Node.readLeniently_rel (node : Node) : ∀ (input : Option Json),
    FollowsLeniently c inside node input f g →
    c.rel (node.readLeniently f inside input) (node.readLeniently g inside input) := by
  induction node using Node.induct with
  | scalar | enumeration =>
    intro input _
    simp only [Node.readLeniently, Kind.readLeniently]
    split <;> exact c.outcome _
  | object shape nullable ih =>
    intro input h
    simp only [Node.readLeniently, Kind.readLeniently]
    split
    · exact c.outcome _
    · split
      · exact c.outcome _
      · refine c.attemptBind (Shape.readLeniently_rel c fun p hp => ih p hp _ ?_) ?_
        · exact h.part (fun _ => .property hp) fun item => depth_lt_of_lookup_entriesOf
        · exact fun _ => c.outcome _
  | array element nullable ih =>
    intro input h
    simp only [Node.readLeniently, Kind.readLeniently]
    split
    · exact c.outcome _
    · split
      · rename_i items hitems
        refine c.attemptBind (c.attemptMapM fun item hitem => c.attemptUnder _ _ (ih _ ?_)) ?_
        · refine h.part (fun _ => .element) ?_
          rintro _ ⟨⟩
          exact ⟨_, eq_of_given? hitems, Json.depth_lt_of_mem (List.fst_mem_of_mem_zipIdx hitem)⟩
        · exact fun values => c.outcome _
      · exact c.outcome _
  | record node nullable ih =>
    intro input h
    simp only [Node.readLeniently, Kind.readLeniently]
    split
    · exact c.outcome _
    · split
      · rename_i entries hentries
        refine c.attemptBind (c.attemptMapM fun entry hentry => ?_) fun fields => c.outcome _
        refine c.attemptBind (c.attemptUnder _ _ (ih _ ?_)) fun value => c.outcome _
        refine h.part (fun _ => .value) ?_
        rintro _ ⟨⟩
        exact ⟨_, eq_of_given? hentries,
          Json.depth_lt_of_entry (show (entry.1, entry.2) ∈ entries from hentry)⟩
      · exact c.outcome _
  | union tag variants nullable ih =>
    intro input h
    simp only [Node.readLeniently, Kind.readLeniently]
    split
    · exact c.outcome _
    · split
      · refine readVariantLeniently_rel c fun v hv p hp => ih v hv p hp _ ?_
        exact h.part (fun _ => .variant hv hp) fun item => depth_lt_of_lookup_entriesOf
      · exact c.outcome _
  | ref index nullable =>
    intro input h
    simp only [Node.readLeniently, Kind.readLeniently]
    split
    · exact c.outcome _
    · exact h.here index rfl

/-! ## Defaults of models end -/

variable {program : Program}

/-- A model of a program is read with one step. -/
theorem readModelLeniently_succ {index : Nat} {node : Node}
    (hnode : program.models[index]? = some node) (steps inside : Nat) (input : Option Json) :
    program.readModelLeniently (steps + 1) index inside input =
      if input.isSome then node.readLeniently (program.readModelLeniently steps) inside input
      else if program.models.length < inside then
        .fail [] [] (.endlessDefault (program.modelNames[index]?.getD ""))
      else node.readLeniently (program.readModelLeniently steps) (inside + 1) input := by
  rw [readModelLeniently, hnode]

section

variable (hclosed : program.Closed)

include hclosed

/-- **Defaults of models end**: with a step for every default that there may be inside the ones
there are already, and one for the error. -/
theorem isSome_readModelLeniently_none (steps : Nat) : ∀ (inside index : Nat),
    index < program.models.length → inside ≤ program.models.length + 1 →
    program.models.length + 1 < steps + inside →
    (program.readModelLeniently steps index inside none).isSome = true := by
  induction steps with
  | zero =>
    intro inside index _ hinside hsteps
    omega
  | succ steps ih =>
    intro inside index hindex hinside hsteps
    have hnode := List.getElem?_eq_getElem hindex
    have hmentions := hclosed.models _ (List.mem_of_getElem? hnode)
    rw [readModelLeniently_succ hnode]
    simp only [Option.isSome_none, Bool.false_eq_true, ↓reduceIte]
    split
    · rfl
    · have hmissing : ∀ other, other < program.models.length →
          (program.readModelLeniently steps other (inside + 1) none).isSome = true :=
        fun other hother => ih (inside + 1) other hother (by omega) (by omega)
      refine Node.readLeniently_rel .ends (f := program.readModelLeniently steps) _ none
        ⟨?_, ?_, ?_⟩
      · exact fun other hother => hmissing other (hmentions other hother)
      · nofun
      · exact fun other hother =>
          hmissing other (hmentions other (Node.mentions_of_target? hother))

variable (hends : ∀ index, ¬ program.Endless index)

include hends

/-- A model that a document is read along ends with as many steps as decoding takes, and those for
the defaults. -/
theorem isSome_readModelLeniently_some (steps : Nat) : ∀ (input : Json) (index : Nat),
    index < program.models.length →
    input.depth * program.models.length + program.rank index + (program.models.length + 2) < steps →
    (program.readModelLeniently steps index 0 (some input)).isSome = true := by
  induction steps with
  | zero =>
    intro input index _ hsteps
    omega
  | succ steps ih =>
    intro input index hindex hsteps
    have hnode := List.getElem?_eq_getElem hindex
    have hmentions := hclosed.models _ (List.mem_of_getElem? hnode)
    rw [readModelLeniently_succ hnode]
    simp only [Option.isSome_some, ↓reduceIte]
    refine Node.readLeniently_rel .ends (f := program.readModelLeniently steps) _ _
      (.of_some ?_ ?_ ?_)
    · intro other hother
      exact isSome_readModelLeniently_none hclosed steps 0 other (hmentions other hother)
        (Nat.zero_le _) (by omega)
    · intro other item hother hlt
      have hother := hmentions other hother
      have := bound_lt hlt (rank_lt_length hends hother)
      exact ih item other hother (by omega)
    · intro other hother
      have hlt := hmentions other (Node.mentions_of_target? hother)
      have := rank_lt_of_target? hends hnode hother hlt
      exact ih input other hlt (by omega)

/-- **Lenient reading ends.** -/
theorem isSome_readLeniently (input : Json) : (program.readLeniently input).isSome = true := by
  have hbudget := program.budget_eq input.depth
  let follow := program.readModelLeniently (program.budget input.depth + program.models.length + 2)
  refine Node.readLeniently_rel .ends (f := follow) (g := follow) _ _ (.of_some ?_ ?_ ?_)
  · intro index hindex
    exact isSome_readModelLeniently_none hclosed _ 0 index (hclosed.root index hindex)
      (Nat.zero_le _) (by omega)
  · intro index item hindex hlt
    have hindex := hclosed.root index hindex
    have := bound_lt hlt (rank_lt_length hends hindex)
    exact isSome_readModelLeniently_some hclosed hends _ item index hindex (by omega)
  · intro index hindex
    have hlt := hclosed.root index (Node.mentions_of_target? hindex)
    have := rank_lt_length hends hlt
    exact isSome_readModelLeniently_some hclosed hends _ input index hlt (by omega)

end

end RpcSchema.Program
