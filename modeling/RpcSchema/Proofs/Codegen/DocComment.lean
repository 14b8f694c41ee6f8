import Mathlib.Data.List.Chain
import RpcSchema.Codegen.TypeScript.DocComment

set_option autoImplicit false

/-!
# Comments that end where they should

A comment goes on to the first star that is followed by a slash. In the comment for a description
that is its very end, whatever the description holds: inside a line a backslash keeps stars and
slashes apart, and between lines there are other characters.

## Main definitions

* `RpcSchema.TypeScript.StaysInside` — characters that do not end the comment they are put into.
* `RpcSchema.TypeScript.HasDocs` — there is something to say in a comment.
* `RpcSchema.TypeScript.IsClosedComment` — a comment that ends at its end and nowhere before.

## Main results

* `RpcSchema.TypeScript.isChain_guardTerminators` — a guarded line has no star before a slash.
* `RpcSchema.TypeScript.docComment_closed` — comments are closed, and there if there is something
  to say.
-/

namespace RpcSchema.TypeScript

/-! ## Characters in a comment -/

/-- A comment goes on behind two characters, unless they are a star and a slash. -/
def GoesOn (c d : Char) : Prop := c = '*' → d ≠ '/'

instance (c d : Char) : Decidable (GoesOn c d) := inferInstanceAs (Decidable (_ → _))

/-- **Characters stay inside** a comment that they are put into, even behind a star. -/
def StaysInside (chars : List Char) : Prop := List.IsChain GoesOn ('*' :: chars)

instance : DecidablePred StaysInside := fun chars =>
  inferInstanceAs (Decidable (List.IsChain GoesOn ('*' :: chars)))

theorem StaysInside.isChain {chars : List Char} (h : StaysInside chars) :
    List.IsChain GoesOn chars := List.IsChain.tail h

/-- Characters without a slash stay inside. -/
theorem staysInside_of_not_mem {chars : List Char} (h : '/' ∉ chars) : StaysInside chars := by
  unfold StaysInside
  generalize '*' = before
  induction chars generalizing before with
  | nil => exact List.isChain_singleton _
  | cons c rest ih =>
    rw [List.mem_cons, not_or] at h
    exact .cons_cons (fun _ hc => h.1 hc.symm) (ih h.2 c)

/-- What stays inside may follow whatever goes on so far. -/
theorem StaysInside.isChain_append {before chars : List Char} (h : StaysInside chars)
    (hbefore : List.IsChain GoesOn before) : List.IsChain GoesOn (before ++ chars) := by
  refine hbefore.append h.isChain fun c _ d hd _ => ?_
  exact List.IsChain.rel_head? h hd rfl

theorem StaysInside.append {chars rest : List Char} (h : StaysInside chars)
    (hrest : StaysInside rest) : StaysInside (chars ++ rest) :=
  hrest.isChain_append h

theorem staysInside_join {texts : List String} (h : ∀ text ∈ texts, StaysInside text.toList) :
    StaysInside (String.join texts).toList := by
  induction texts with
  | nil => decide
  | cons text rest ih =>
    obtain ⟨htext, hrest⟩ := List.forall_mem_cons.mp h
    rw [String.join_cons, String.toList_append]
    exact htext.append (ih hrest)

/-! ## Lines -/

theorem head?_guardTerminators (line : List Char) :
    (guardTerminators line).head? = line.head? := by
  unfold guardTerminators
  split <;> rfl

/-- **A guarded line** has no star with a slash behind it. -/
theorem isChain_guardTerminators (line : List Char) :
    List.IsChain GoesOn (guardTerminators line) := by
  fun_induction guardTerminators line with
  | case1 rest ih =>
    have hslash : List.IsChain GoesOn ('/' :: guardTerminators rest) :=
      ih.cons fun d _ hc => absurd hc (by decide)
    exact .cons_cons (by decide) (.cons_cons (by decide) hslash)
  | case2 c rest hc ih =>
    refine ih.cons fun d hd hstar hslash => ?_
    subst hslash
    rw [head?_guardTerminators, Option.mem_def, List.head?_eq_some_iff] at hd
    obtain ⟨rest', hrest⟩ := hd
    exact hc rest' hstar hrest
  | case3 => exact List.isChain_nil

/-- A line of a description is not lost: there are none only for the empty text. -/
theorem linesFrom_eq_nil_iff {current chars : List Char} :
    linesFrom current chars = [] ↔ current = [] ∧ chars = [] := by
  fun_induction linesFrom current chars with
  | case1 => simp
  | case2 current hne => simp_all
  | case3 current rest => simp
  | case4 current c rest hc ih => simp [ih]

theorem descriptionLines_eq_nil_iff {text : String} : descriptionLines text = [] ↔ text = "" := by
  rw [descriptionLines, linesFrom_eq_nil_iff, and_iff_right rfl, String.toList_eq_nil_iff]

/-- **Something is said** about a schema: it has a description that is not empty, or it is
deprecated. -/
def HasDocs (metadata : Metadata) : Prop :=
  (∃ text, metadata.description = some text ∧ text ≠ "") ∨ metadata.deprecated = true

theorem docLines_eq_nil_iff {metadata : Metadata} :
    docLines metadata = [] ↔ ¬ HasDocs metadata := by
  rw [docLines, List.append_eq_nil_iff, List.map_eq_nil_iff, HasDocs, not_or]
  refine and_congr ?_ (by simp)
  cases metadata.description with
  | none => simp
  | some text => simp [descriptionLines_eq_nil_iff]

/-- The lines of a comment have no star with a slash behind it. -/
theorem isChain_of_mem_docLines {metadata : Metadata} {line : String}
    (h : line ∈ docLines metadata) : List.IsChain GoesOn line.toList := by
  rcases List.mem_append.mp h with h | h
  · obtain ⟨described, -, rfl⟩ := List.mem_map.mp h
    rw [String.toList_ofList]
    exact isChain_guardTerminators described
  · rw [List.mem_ite_nil_right] at h
    rw [List.mem_singleton.mp h.2]
    decide

/-! ## Comments -/

/-- Indentation is made of spaces and tabs. -/
theorem blank_of_mem_indentation {config : GeneratorConfig} {depth : Nat} :
    ∀ c ∈ (config.indentation depth).toList, c = ' ' ∨ c = '\t' := by
  have hstep : ∀ c ∈ config.indent.text.toList, c = ' ' ∨ c = '\t' := by
    cases config.indent <;> simp [IndentStyle.text]
  rw [GeneratorConfig.indentation]
  induction depth with
  | zero => simp
  | succ depth ih =>
    rw [List.replicate_succ, String.join_cons, String.toList_append]
    exact List.forall_mem_append.mpr ⟨hstep, ih⟩

section

variable {pad line lines : String} (hpad : ∀ c ∈ pad.toList, c = ' ' ∨ c = '\t')

include hpad

theorem staysInside_pad : StaysInside pad.toList := by
  refine staysInside_of_not_mem fun hslash => ?_
  exact absurd (hpad _ hslash) (by decide)

/-- A line of a comment stays inside. -/
theorem staysInside_line (hline : List.IsChain GoesOn line.toList) :
    StaysInside (pad ++ " * " ++ line ++ "\n").toList := by
  have hline' : List.IsChain GoesOn (' ' :: line.toList) :=
    hline.cons fun d _ hc => absurd hc (by decide)
  have hstart : StaysInside (" * " ++ line).toList := by
    rw [String.toList_append]
    exact .cons_cons (by decide) (.cons_cons (by decide) (.cons_cons (by decide) hline'))
  have hend : StaysInside "\n".toList := by decide
  simpa using ((staysInside_pad hpad).append hstart).append hend

/-- The characters of a comment up to its last star. -/
theorem isChain_opened (hlines : StaysInside lines.toList) :
    List.IsChain GoesOn (pad ++ "/**\n" ++ lines ++ pad ++ " *").toList := by
  have hopening : List.IsChain GoesOn (pad ++ "/**\n").toList := by
    rw [String.toList_append]
    refine (staysInside_pad hpad).isChain.append (by decide) fun c hc _ _ hstar => ?_
    subst hstar
    exact absurd (hpad _ (List.mem_of_getLast? hc)) (by decide)
  have hclosing : StaysInside " *".toList := by decide
  simpa using (hlines.append ((staysInside_pad hpad).append hclosing)).isChain_append hopening

end

/-- A star with a slash behind it, in characters that had none before a slash and a line feed were
put behind them, is the last star with this slash. -/
theorem eq_of_append_eq_terminator {chars before after : List Char}
    (hchars : List.IsChain GoesOn chars)
    (h : chars ++ ['/', '\n'] = before ++ '*' :: '/' :: after) : after = ['\n'] := by
  rcases List.eq_nil_or_concat' after with rfl | ⟨after, c, rfl⟩
  · have hlast := congrArg List.getLast? h
    simp at hlast
  have hsplit : (chars ++ ['/']) ++ ['\n'] = (before ++ '*' :: '/' :: after) ++ [c] := by
    simpa using h
  obtain ⟨hstart, hc⟩ := List.append_inj' hsplit rfl
  rcases List.eq_nil_or_concat' after with rfl | ⟨after, d, rfl⟩
  · exact hc.symm
  have hsplit' : chars ++ ['/'] = (before ++ '*' :: '/' :: after) ++ [d] := by
    simpa using hstart
  obtain ⟨rfl, -⟩ := List.append_inj' hsplit' rfl
  exact absurd rfl ((List.isChain_append_cons_cons.mp hchars).2.1 rfl)

/-- **A comment is closed**: behind spaces and tabs it begins as a comment does, it ends with a
star, a slash and a line feed, and nowhere else in it is a star followed by a slash. -/
def IsClosedComment (text : String) : Prop :=
  (∃ pad inside, (∀ c ∈ pad.toList, c = ' ' ∨ c = '\t') ∧
    text = pad ++ "/**" ++ inside ++ "*/\n") ∧
  ∀ before after, text = before ++ "*/" ++ after → after = "\n"

/-- Lines that stay inside make up a closed comment. -/
theorem isClosedComment_of_lines {pad lines : String}
    (hpad : ∀ c ∈ pad.toList, c = ' ' ∨ c = '\t') (hlines : StaysInside lines.toList) :
    IsClosedComment (pad ++ "/**\n" ++ lines ++ pad ++ " */\n") := by
  refine ⟨⟨pad, "\n" ++ lines ++ pad ++ " ", hpad, ?_⟩, fun before after h => ?_⟩
  · rw [← String.toList_inj]
    simp
  · have hsplit : (pad ++ "/**\n" ++ lines ++ pad ++ " *").toList ++ ['/', '\n'] =
        before.toList ++ '*' :: '/' :: after.toList := by
      simpa using congrArg String.toList h
    have hafter := eq_of_append_eq_terminator (isChain_opened hpad hlines) hsplit
    exact String.toList_inj.mp hafter

/-- **The comment for what is said about a schema** is closed, whatever is said. There is none
exactly if comments are not wanted or nothing is said. -/
theorem docComment_closed (config : GeneratorConfig) (metadata : Metadata) (depth : Nat) :
    (docComment config metadata depth = "" ∨ IsClosedComment (docComment config metadata depth)) ∧
      (docComment config metadata depth = "" ↔
        config.generateDocs = false ∨ ¬ HasDocs metadata) := by
  have hblank := @blank_of_mem_indentation config depth
  have hlines : StaysInside (String.join ((docLines metadata).map fun line =>
      config.indentation depth ++ " * " ++ line ++ "\n")).toList := by
    refine staysInside_join fun text htext => ?_
    obtain ⟨line, hline, rfl⟩ := List.mem_map.mp htext
    exact staysInside_line hblank (isChain_of_mem_docLines hline)
  have hnone : (!config.generateDocs || (docLines metadata).isEmpty) = true ↔
      config.generateDocs = false ∨ ¬ HasDocs metadata := by
    rw [Bool.or_eq_true, Bool.not_eq_true', List.isEmpty_iff, docLines_eq_nil_iff]
  rw [docComment, ← hnone]
  dsimp only
  split_ifs with hempty
  · exact ⟨.inl rfl, iff_of_true rfl hempty⟩
  · refine ⟨.inr (isClosedComment_of_lines hblank hlines), iff_of_false ?_ hempty⟩
    intro heq
    simpa using congrArg String.toList heq

/-- A description that would end its comment twice, and whose second line begins with a slash. -/
example :
    docComment {} { description := some "a **/ b *//\n/ c *" } 1 =
      "  /**\n   * a **\\/ b *\\//\n   * / c *\n   */\n" := by
  decide

end RpcSchema.TypeScript
