import RpcSchema.Proofs.Json.Compact

set_option autoImplicit false

/-!
# Quotes in compact texts

In a compact text quotes come in pairs, whatever is escaped between them; everything but brackets,
commas, colons and three words stands between the quotes of a pair. So no compact text is the end
of another one behind an equals sign.

## Main definitions

* `RpcSchema.Json.scan` — whether a character stands between quotes, and whether it is escaped.
* `RpcSchema.Json.WellQuoted` — quotes in pairs, equals signs between them only, one line.

## Main results

* `RpcSchema.Json.wellQuoted_compactChars` — compact texts without numbers are well-quoted.
* `RpcSchema.Json.compactChars_ne_append` — no compact text ends in an equals sign and another one.
-/

namespace RpcSchema.Json

/-! ## Between quotes -/

/-- Whether a text is inside quotes and whether the next character is escaped, after one more
character. -/
def scan : Bool × Bool → Char → Bool × Bool
  | (inside, true), _ => (inside, false)
  | (inside, false), c =>
    if c = '\\' then (inside, true) else if c = '"' then (!inside, false) else (inside, false)

/-- Whether an equals sign stands outside quotes. -/
def exposes : Bool × Bool → List Char → Bool
  | _, [] => false
  | state, c :: rest => (c == '=' && !state.1) || exposes (scan state c) rest

theorem exposes_append (text rest : List Char) : ∀ state,
    exposes state (text ++ rest) =
      (exposes state text || exposes (text.foldl scan state) rest) := by
  induction text with
  | nil => exact fun state => (Bool.false_or _).symm
  | cons c text ih =>
    intro state
    rw [List.cons_append, exposes, ih, exposes, List.foldl_cons, Bool.or_assoc]

/-- Whether a character has no meaning for quotes and lines. -/
def isPlain (c : Char) : Bool := c != '\\' && c != '"' && c != '=' && c != '\n'

/-- **A well-quoted text**: quotes come in pairs, equals signs stand between them only, and the text
is on one line. -/
structure WellQuoted (text : List Char) : Prop where
  pairs : ∀ inside, text.foldl scan (inside, false) = (inside, false)
  sheltered : exposes (false, false) text = false
  line : '\n' ∉ text

namespace WellQuoted

theorem nil : WellQuoted [] := ⟨fun _ => rfl, rfl, List.not_mem_nil⟩

theorem append {text rest : List Char} (h : WellQuoted text) (h' : WellQuoted rest) :
    WellQuoted (text ++ rest) := by
  refine ⟨fun inside => ?_, ?_, ?_⟩
  · rw [List.foldl_append, h.pairs, h'.pairs]
  · rw [exposes_append, h.sheltered, h.pairs, h'.sheltered, Bool.or_self]
  · rw [List.mem_append, not_or]
    exact ⟨h.line, h'.line⟩

/-- Characters without a meaning for quotes and lines. -/
theorem plain {text : List Char} (h : text.all isPlain = true) : WellQuoted text := by
  induction text with
  | nil => exact nil
  | cons c rest ih =>
    rw [List.all_cons, Bool.and_eq_true] at h
    obtain ⟨hplain, hrest⟩ := h
    obtain ⟨⟨⟨hescape, hquote⟩, hequals⟩, hline⟩ :
        ((c ≠ '\\' ∧ c ≠ '"') ∧ c ≠ '=') ∧ c ≠ '\n' := by simpa [isPlain] using hplain
    have hfirst : WellQuoted [c] := by
      refine ⟨fun inside => ?_, ?_, ?_⟩
      · rw [List.foldl_cons, List.foldl_nil, scan, if_neg hescape, if_neg hquote]
      · rw [exposes, exposes, beq_false_of_ne hequals]
        rfl
      · rw [List.mem_singleton]
        exact hline.symm
    exact hfirst.append (ih hrest)

theorem flatMap {α : Type} {write : α → List Char} {rows : List α}
    (h : ∀ row ∈ rows, WellQuoted (write row)) : WellQuoted (rows.flatMap write) := by
  induction rows with
  | nil => exact nil
  | cons row others ih =>
    obtain ⟨hrow, hothers⟩ := List.forall_mem_cons.mp h
    rw [List.flatMap_cons]
    exact hrow.append (ih hothers)

/-- Rows between commas. -/
theorem intercalate {α : Type} {write : α → List Char} {rows : List α}
    (h : ∀ row ∈ rows, WellQuoted (write row)) :
    WellQuoted ([','].intercalate (rows.map write)) := by
  have hcomma : WellQuoted [','] := plain rfl
  cases rows with
  | nil => exact nil
  | cons row others =>
    obtain ⟨hrow, hothers⟩ := List.forall_mem_cons.mp h
    rw [intercalate_map_cons]
    exact hrow.append (flatMap fun other hother => hcomma.append (hothers other hother))

end WellQuoted

/-! ## Literals -/

theorem hexDigit_ne {n : Nat} (h : n < 16) :
    hexDigit n ≠ '\\' ∧ hexDigit n ≠ '"' ∧ hexDigit n ≠ '\n' := by
  revert n
  decide

/-- An escape has two characters, or six with two hexadecimal digits, or is the character. -/
theorem escape_cases (c : Char) :
    (∃ d, escape c = ['\\', d] ∧ d ≠ '\n') ∨
    (∃ high low, escape c = ['\\', 'u', '0', '0', hexDigit high, hexDigit low] ∧
      high < 16 ∧ low < 16) ∨
    (escape c = [c] ∧ c ≠ '"' ∧ c ≠ '\\' ∧ c ≠ '\n') := by
  unfold escape
  split
  · exact .inl ⟨_, rfl, by decide⟩
  split
  · exact .inl ⟨_, rfl, by decide⟩
  split
  · exact .inl ⟨_, rfl, by decide⟩
  split
  · exact .inl ⟨_, rfl, by decide⟩
  split
  · exact .inl ⟨_, rfl, by decide⟩
  split
  · exact .inl ⟨_, rfl, by decide⟩
  split
  · exact .inl ⟨_, rfl, by decide⟩
  split
  · exact .inr (.inl ⟨_, _, rfl, by omega, by omega⟩)
  · rename_i hquote hescape _ _ hline _ _ _
    exact .inr (.inr ⟨rfl, hquote, hescape, hline⟩)

/-- **An escape** leaves a literal neither open nor closed; it exposes nothing inside a literal, and
is on one line. -/
theorem scan_escape (c : Char) :
    (∀ inside, (escape c).foldl scan (inside, false) = (inside, false)) ∧
      exposes (true, false) (escape c) = false ∧ '\n' ∉ escape c := by
  rcases escape_cases c with ⟨d, heq, hline⟩ | ⟨high, low, heq, hhigh, hlow⟩ |
    ⟨heq, hquote, hescape, hline⟩
  · rw [heq]
    exact ⟨fun _ => rfl, by simp [exposes, scan], by simp [hline.symm]⟩
  · obtain ⟨hescape, hquote, hline⟩ := hexDigit_ne hhigh
    obtain ⟨hescape', hquote', hline'⟩ := hexDigit_ne hlow
    rw [heq]
    refine ⟨fun inside => ?_, ?_, ?_⟩
    · simp [scan, hescape, hquote, hescape', hquote']
    · simp [exposes, scan, hescape, hquote]
    · simp [hline.symm, hline'.symm]
  · rw [heq]
    refine ⟨fun inside => ?_, ?_, ?_⟩
    · simp [scan, hescape, hquote]
    · simp [exposes]
    · simp [hline.symm]

/-- What stands between the quotes of a literal. -/
theorem scan_flatMap_escape (chars : List Char) :
    (∀ inside, (chars.flatMap escape).foldl scan (inside, false) = (inside, false)) ∧
      exposes (true, false) (chars.flatMap escape) = false ∧ '\n' ∉ chars.flatMap escape := by
  induction chars with
  | nil => exact ⟨fun _ => rfl, rfl, List.not_mem_nil⟩
  | cons c chars ih =>
    obtain ⟨hpairs, hsheltered, hline⟩ := ih
    obtain ⟨hpairs', hsheltered', hline'⟩ := scan_escape c
    rw [List.flatMap_cons]
    refine ⟨fun inside => ?_, ?_, ?_⟩
    · rw [List.foldl_append, hpairs', hpairs]
    · rw [exposes_append, hpairs', hsheltered', hsheltered, Bool.or_self]
    · rw [List.mem_append, not_or]
      exact ⟨hline', hline⟩

/-- **String literals are well-quoted.** -/
theorem wellQuoted_quote (text : String) : WellQuoted (quote text).toList := by
  obtain ⟨hpairs, hsheltered, hline⟩ := scan_flatMap_escape text.toList
  rw [toList_quote]
  refine ⟨fun inside => ?_, ?_, ?_⟩
  · rw [List.foldl_cons, List.foldl_append]
    change List.foldl scan (List.foldl scan (!inside, false) _) _ = _
    rw [hpairs]
    cases inside <;> rfl
  · change exposes (true, false) (text.toList.flatMap escape ++ ['"']) = false
    rw [exposes_append, hsheltered, hpairs]
    rfl
  · rw [List.mem_cons, List.mem_append, List.mem_singleton]
    simp [hline]

/-! ## Compact texts -/

theorem wellQuoted_entryChars {entry : String × Json} (h : WellQuoted entry.2.compactChars) :
    WellQuoted (entryChars entry) := by
  have hcolon : WellQuoted [':'] := .plain rfl
  exact (wellQuoted_quote entry.1).append (hcolon.append h)

/-- **Compact texts without numbers are well-quoted.** -/
theorem wellQuoted_compactChars (value : Json) :
    value.NumberFree → WellQuoted value.compactChars := by
  induction value using induct with
  | null =>
    intro _
    rw [compactChars, compact]
    exact .plain rfl
  | bool flag =>
    intro _
    cases flag <;> rw [compactChars, compact] <;> exact .plain rfl
  | number value => exact fun h => h.elim
  | string text =>
    intro _
    rw [compactChars, compact]
    exact wellQuoted_quote text
  | array items ih =>
    intro h
    rw [numberFree_array_iff] at h
    have hopen : WellQuoted ['['] := .plain rfl
    have hclose : WellQuoted [']'] := .plain rfl
    rw [compactChars_array]
    exact hopen.append
      ((WellQuoted.intercalate fun item hitem => ih item hitem (h item hitem)).append hclose)
  | object entries ih =>
    intro h
    rw [numberFree_object_iff] at h
    have hopen : WellQuoted ['\x7b'] := .plain rfl
    have hclose : WellQuoted ['\x7d'] := .plain rfl
    rw [compactChars_object]
    exact hopen.append ((WellQuoted.intercalate fun entry hentry =>
      wellQuoted_entryChars (ih entry hentry (h entry hentry))).append hclose)

/-- **No compact text ends in an equals sign and another one.** The equals sign would stand between
quotes, and so would the end, as quotes come in pairs in the other text. -/
theorem compactChars_ne_append {value other : Json} (hvalue : value.NumberFree)
    (hother : other.NumberFree) (front : List Char) :
    value.compactChars ≠ front ++ '=' :: other.compactChars := by
  intro heq
  have hquoted := wellQuoted_compactChars value hvalue
  have hsheltered := hquoted.sheltered
  have hpairs := hquoted.pairs false
  rw [heq, exposes_append, Bool.or_eq_false_iff, exposes, Bool.or_eq_false_iff] at hsheltered
  have hinside : (front.foldl scan (false, false)).1 = true := by simpa using hsheltered.2.1
  have hstate : scan (front.foldl scan (false, false)) '=' = (true, false) := by
    generalize front.foldl scan (false, false) = state at hinside
    obtain ⟨inside, escaped⟩ := state
    obtain rfl : inside = true := hinside
    cases escaped <;> rfl
  rw [heq, List.foldl_append, List.foldl_cons, hstate,
    (wellQuoted_compactChars other hother).pairs] at hpairs
  cases hpairs

end RpcSchema.Json
