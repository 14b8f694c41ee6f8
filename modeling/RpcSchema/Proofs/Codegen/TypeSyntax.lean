set_option autoImplicit false

/-!
# How expressions for types are read

An expression for a type is a list of words and marks. Square brackets behind a type bind tighter
than a bar between two types, and angle brackets keep to themselves what is between them. This
module has the grammar, and shows that no expression can be read in two ways.

| form | read as |
|------|---------|
| `A` | the word `A` |
| `A[]` | a list |
| `A<B, C>` | a word with arguments |
| `A \| B[]` | what is `A` or `B[]` |

## Main definitions

* `RpcSchema.TypeScript.tokens` — the words and marks of a text.
* `RpcSchema.TypeScript.TypeExpr` — what is read.
* `RpcSchema.TypeScript.ReadsUnion`, `RpcSchema.TypeScript.ReadsOperand` — the grammar.
* `RpcSchema.TypeScript.Reads` — a text is read as an expression.
* `RpcSchema.TypeScript.Reader` — what has been read so far, from left to right.

## Main results

* `RpcSchema.TypeScript.tokens_append` — a mark ends a word.
* `RpcSchema.TypeScript.ReadsOperand.run` — reading from left to right finds what the grammar says.
* `RpcSchema.TypeScript.Reads.unique` — a text is read in one way at most.
-/

namespace RpcSchema.TypeScript

/-! ## Words and marks -/

/-- **A word or a mark.** -/
inductive Token
  | word (text : String)
  | openAngle
  | closeAngle
  | comma
  | bar
  | openSquare
  | closeSquare
deriving DecidableEq

/-- What a character stands for that ends a word: a mark, or nothing if it is blank. Any other is
part of a word. -/
def mark? (c : Char) : Option (Option Token) :=
  match c with
  | '<' => some (some .openAngle)
  | '>' => some (some .closeAngle)
  | ',' => some (some .comma)
  | '|' => some (some .bar)
  | '[' => some (some .openSquare)
  | ']' => some (some .closeSquare)
  | c => if c.isWhitespace then some none else none

/-- The word of some characters, unless there are none. -/
def wordOf (chars : List Char) : List Token :=
  if chars = [] then [] else [.word (String.ofList chars)]

/-- The words and marks of a text, the first characters of whose first word are known. -/
def tokensFrom (begun : List Char) : List Char → List Token
  | [] => wordOf begun
  | c :: rest =>
    match mark? c with
    | none => tokensFrom (begun ++ [c]) rest
    | some token? => wordOf begun ++ token?.toList ++ tokensFrom [] rest

/-- **The words and marks of a text.** -/
def tokens (text : String) : List Token := tokensFrom [] text.toList

/-- **A word**: at least one character, and none that ends it. -/
def IsWord (text : String) : Prop := text.toList ≠ [] ∧ ∀ c ∈ text.toList, mark? c = none

theorem tokensFrom_append_of_forall {chars : List Char} (h : ∀ c ∈ chars, mark? c = none) :
    ∀ begun rest, tokensFrom begun (chars ++ rest) = tokensFrom (begun ++ chars) rest := by
  induction chars with
  | nil => simp
  | cons c chars ih =>
    intro begun rest
    obtain ⟨hc, hchars⟩ := List.forall_mem_cons.mp h
    rw [List.cons_append, tokensFrom, hc]
    simp only [ih hchars, List.append_assoc, List.singleton_append]

theorem tokens_of_isWord {text : String} (h : IsWord text) : tokens text = [.word text] := by
  have hword := tokensFrom_append_of_forall h.2 [] []
  rw [List.append_nil, List.nil_append] at hword
  rw [tokens, hword, tokensFrom, wordOf, if_neg h.1, String.ofList_toList]

/-- **A mark ends a word**: what stands in front of it is taken apart on its own. -/
theorem tokensFrom_append_mark {c : Char} (h : mark? c ≠ none) (rest : List Char) :
    ∀ chars begun, tokensFrom begun (chars ++ c :: rest) =
      tokensFrom begun chars ++ tokensFrom [] (c :: rest)
  | [], begun => by
    obtain ⟨token?, htoken⟩ := Option.ne_none_iff_exists'.mp h
    simp [tokensFrom, htoken, wordOf]
  | d :: chars, begun => by
    rw [List.cons_append, tokensFrom, tokensFrom]
    cases mark? d with
    | none => exact tokensFrom_append_mark h rest chars _
    | some token? => simp only [tokensFrom_append_mark h rest chars, List.append_assoc]

/-- What stands behind a mark is taken apart on its own. -/
theorem tokens_append_of_mark {first second : String} (chars : List Char) {c : Char}
    (hfirst : first.toList = chars ++ [c]) (h : mark? c ≠ none) :
    tokens (first ++ second) = tokens first ++ tokens second := by
  obtain ⟨token?, htoken⟩ := Option.ne_none_iff_exists'.mp h
  have hmark : ∀ rest, tokensFrom [] (c :: rest) = token?.toList ++ tokensFrom [] rest := by
    intro rest
    simp [tokensFrom, htoken, wordOf]
  rw [tokens, String.toList_append, hfirst, List.append_assoc, List.singleton_append,
    tokensFrom_append_mark h, hmark, tokens, hfirst, tokensFrom_append_mark h, hmark, tokens]
  simp [tokensFrom, wordOf]

theorem tokens_append {first second : String} {c : Char} {rest : List Char}
    (hsecond : second.toList = c :: rest) (h : mark? c ≠ none) :
    tokens (first ++ second) = tokens first ++ tokens second := by
  rw [tokens, String.toList_append, hsecond, tokensFrom_append_mark h, tokens, tokens, hsecond]

/-! ## The grammar -/

/-- **What is read.** -/
inductive TypeExpr
  | word (text : String)
  | list (element : TypeExpr)
  | apply (head : String) (arguments : List TypeExpr)
  | or (first second : TypeExpr)

mutual

/-- **A union**: operands with `|` between them. -/
inductive ReadsUnion : List Token → TypeExpr → Prop
  | operand {tokens : List Token} {expr : TypeExpr} :
    ReadsOperand tokens expr → ReadsUnion tokens expr
  | or {first second : List Token} {expr expr' : TypeExpr} :
    ReadsUnion first expr → ReadsOperand second expr' →
    ReadsUnion (first ++ .bar :: second) (.or expr expr')

/-- **An operand**: a word, a word with arguments, or an operand with `[]` behind it. -/
inductive ReadsOperand : List Token → TypeExpr → Prop
  | word (text : String) : ReadsOperand [.word text] (.word text)
  | apply (head : String) {tokens : List Token} {arguments : List TypeExpr} :
    ReadsArguments tokens arguments →
    ReadsOperand (.word head :: .openAngle :: tokens ++ [.closeAngle]) (.apply head arguments)
  | list {tokens : List Token} {expr : TypeExpr} :
    ReadsOperand tokens expr → ReadsOperand (tokens ++ [.openSquare, .closeSquare]) (.list expr)

/-- The arguments of a word: unions with commas between them. -/
inductive ReadsArguments : List Token → List TypeExpr → Prop
  | last {tokens : List Token} {expr : TypeExpr} :
    ReadsUnion tokens expr → ReadsArguments tokens [expr]
  | more {first rest : List Token} {expr : TypeExpr} {exprs : List TypeExpr} :
    ReadsUnion first expr → ReadsArguments rest exprs →
    ReadsArguments (first ++ .comma :: rest) (expr :: exprs)

end

/-- **A text is read as an expression.** -/
def Reads (text : String) (expr : TypeExpr) : Prop := ReadsUnion (tokens text) expr

/-! ## Reading from left to right

What the grammar derives is found by a reader that goes through the words and marks once and never
takes anything back. It leaves no choice, and so the grammar has none.
-/

/-- A word whose arguments are being read: what stood in front of it in its union, and the
arguments before the current one. -/
structure Frame where
  left : Option TypeExpr
  head : String
  arguments : List TypeExpr

/-- **What has been read** so far: the words whose arguments are not finished, innermost first, the
operands of the current union but the last, and that one; and whether a bracket is open. -/
structure Reader where
  frames : List Frame
  left : Option TypeExpr
  operand : Option TypeExpr
  bracket : Bool

/-- A union with one operand more. -/
def joined (left : Option TypeExpr) (operand : TypeExpr) : TypeExpr :=
  match left with
  | some expr => .or expr operand
  | none => operand

/-- **Reads one word or mark more.** -/
def Reader.step : Token → Reader → Option Reader
  | .word text, ⟨frames, left, none, false⟩ => some ⟨frames, left, some (.word text), false⟩
  | .openAngle, ⟨frames, left, some (.word head), false⟩ =>
    some ⟨⟨left, head, []⟩ :: frames, none, none, false⟩
  | .comma, ⟨⟨outer, head, arguments⟩ :: frames, left, some expr, false⟩ =>
    some ⟨⟨outer, head, arguments ++ [joined left expr]⟩ :: frames, none, none, false⟩
  | .closeAngle, ⟨⟨outer, head, arguments⟩ :: frames, left, some expr, false⟩ =>
    some ⟨frames, outer, some (.apply head (arguments ++ [joined left expr])), false⟩
  | .bar, ⟨frames, left, some expr, false⟩ => some ⟨frames, some (joined left expr), none, false⟩
  | .openSquare, ⟨frames, left, some expr, false⟩ => some ⟨frames, left, some expr, true⟩
  | .closeSquare, ⟨frames, left, some expr, true⟩ => some ⟨frames, left, some (.list expr), false⟩
  | _, _ => none

/-- Reads words and marks one after the other. -/
def Reader.run (tokens : List Token) (reader : Reader) : Option Reader :=
  tokens.foldlM (fun reader token => reader.step token) reader

namespace Reader

theorem run_cons (token : Token) (tokens : List Token) (reader : Reader) :
    reader.run (token :: tokens) = (reader.step token).bind (run tokens) := rfl

theorem run_append (first second : List Token) (reader : Reader) :
    reader.run (first ++ second) = (reader.run first).bind (run second) :=
  List.foldlM_append

end Reader

mutual

/-- A union is read up to its last operand. -/
theorem ReadsUnion.run {tokens : List Token} {expr : TypeExpr} :
    ReadsUnion tokens expr → ∃ left operand, joined left operand = expr ∧ ∀ frames,
      Reader.run tokens ⟨frames, none, none, false⟩ = some ⟨frames, left, some operand, false⟩
  | .operand h => ⟨none, expr, rfl, fun frames => h.run frames none⟩
  | @ReadsUnion.or _ _ first second hfirst hsecond => by
    obtain ⟨left, operand, hjoined, hrun⟩ := hfirst.run
    refine ⟨some first, second, rfl, fun frames => ?_⟩
    rw [Reader.run_append, hrun, Option.bind_some, Reader.run_cons]
    simp only [Reader.step, hjoined, Option.bind_some]
    exact hsecond.run frames (some first)

/-- **An operand is read** as one, whatever stands in front of it. -/
theorem ReadsOperand.run {tokens : List Token} {expr : TypeExpr} :
    ReadsOperand tokens expr → ∀ frames left,
      Reader.run tokens ⟨frames, left, none, false⟩ = some ⟨frames, left, some expr, false⟩
  | .word text => fun _ _ => rfl
  | .apply head h => fun frames left => h.run frames left head []
  | .list h => fun frames left => by
    rw [Reader.run_append, h.run frames left]
    rfl

/-- Arguments are read behind those before them. -/
theorem ReadsArguments.run {tokens : List Token} {arguments : List TypeExpr} :
    ReadsArguments tokens arguments → ∀ frames left head before,
      Reader.run (tokens ++ [.closeAngle]) ⟨⟨left, head, before⟩ :: frames, none, none, false⟩ =
        some ⟨frames, left, some (.apply head (before ++ arguments)), false⟩
  | .last h => fun frames left head before => by
    obtain ⟨inner, operand, hjoined, hrun⟩ := h.run
    rw [Reader.run_append, hrun, Option.bind_some, ← hjoined]
    rfl
  | @ReadsArguments.more _ _ expr _ hfirst hrest => fun frames left head before => by
    obtain ⟨inner, operand, hjoined, hrun⟩ := hfirst.run
    rw [List.append_assoc, Reader.run_append, hrun, Option.bind_some, List.cons_append,
      Reader.run_cons]
    simp only [Reader.step, hjoined, Option.bind_some]
    rw [hrest.run frames left head (before ++ [expr]), List.append_assoc, List.singleton_append]

end

/-- **A text is read in one way** at most. -/
theorem Reads.unique {text : String} {expr expr' : TypeExpr} (h : Reads text expr)
    (h' : Reads text expr') : expr = expr' := by
  obtain ⟨left, operand, rfl, hrun⟩ := ReadsUnion.run h
  obtain ⟨left', operand', rfl, hrun'⟩ := ReadsUnion.run h'
  have heq := (hrun []).symm.trans (hrun' [])
  simp only [Option.some.injEq, Reader.mk.injEq, true_and, and_true] at heq
  rw [heq.1, heq.2]

end RpcSchema.TypeScript
