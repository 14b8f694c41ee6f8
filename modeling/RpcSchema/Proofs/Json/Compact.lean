import RpcSchema.Json.Writer
import RpcSchema.Proofs.Json.Induction

set_option autoImplicit false

/-!
# Compact texts delimit themselves

Where the compact text of a JSON value ends can be seen from the text itself, as long as there are
no numbers in it: two such texts that are followed by whatever cannot agree unless they are the same
text of the same value. (`1` followed by `2` agrees with `12`.)

## Main definitions

* `RpcSchema.Json.Delimited` — a text that agrees with no other but itself.
* `RpcSchema.Json.NumberFree` — a value without numbers.

## Main results

* `RpcSchema.Json.quote_append_inj` — string literals delimit themselves.
* `RpcSchema.Json.compact_append_inj` — compact texts without numbers delimit themselves.
-/

namespace RpcSchema.Json

/-- **The text of `a` delimits itself** among the texts of others with a property: if they agree up
to what follows, then they are the same, and so is what follows. -/
def Delimited {α : Type} (write : α → List Char) (p : α → Prop) (a : α) : Prop :=
  ∀ b, p b → ∀ rest rest', write a ++ rest = write b ++ rest' → a = b ∧ rest = rest'

/-! ## String literals -/

/-- The value of a hexadecimal digit in lower case. -/
def hexValue (c : Char) : Nat := if c.toNat < 58 then c.toNat - 48 else c.toNat - 87

/-- The character behind an escape, and what follows; a quote ends a literal and is none. -/
def unescape : List Char → Option (Char × List Char)
  | '\\' :: 'u' :: '0' :: '0' :: high :: low :: rest =>
    some (Char.ofNat (16 * hexValue high + hexValue low), rest)
  | '\\' :: 'b' :: rest => some ('\x08', rest)
  | '\\' :: 'f' :: rest => some ('\x0c', rest)
  | '\\' :: 'n' :: rest => some ('\n', rest)
  | '\\' :: 'r' :: rest => some ('\r', rest)
  | '\\' :: 't' :: rest => some ('\t', rest)
  | '\\' :: c :: rest => some (c, rest)
  | '"' :: _ => none
  | c :: rest => some (c, rest)
  | [] => none

theorem hexValue_hexDigit {n : Nat} (h : n < 16) : hexValue (hexDigit n) = n := by
  revert n
  decide

/-- **An escape is undone.** -/
theorem unescape_escape (c : Char) (rest : List Char) :
    unescape (escape c ++ rest) = some (c, rest) := by
  unfold escape
  split
  · simp_all [unescape]
  split
  · simp_all [unescape]
  split
  · simp_all [unescape]
  split
  · simp_all [unescape]
  split
  · simp_all [unescape]
  split
  · simp_all [unescape]
  split
  · simp_all [unescape]
  split
  · rename_i hcontrol
    simp only [List.cons_append, List.nil_append, unescape, Option.some.injEq, Prod.mk.injEq,
      and_true]
    rw [hexValue_hexDigit (by omega), hexValue_hexDigit (by omega), Nat.div_add_mod]
    exact Char.ofNat_toNat c
  · simp_all [unescape]

/-- The characters of a string literal. -/
theorem toList_quote (text : String) :
    (quote text).toList = '"' :: (text.toList.flatMap escape ++ ['"']) := by
  rw [quote, String.toList_ofList]

/-- Escaped texts end where the quote is. -/
theorem flatMap_escape_append_inj :
    ∀ {first second rest rest' : List Char},
      first.flatMap escape ++ '"' :: rest = second.flatMap escape ++ '"' :: rest' →
        first = second ∧ rest = rest'
  | [], [], rest, rest', h => ⟨rfl, (List.cons.inj h).2⟩
  | [], d :: second, rest, rest', h => by
    have hnone := congrArg unescape h
    rw [List.flatMap_nil, List.nil_append, List.flatMap_cons, List.append_assoc,
      unescape_escape] at hnone
    cases hnone
  | c :: first, [], rest, rest', h => by
    have hnone := congrArg unescape h
    rw [List.flatMap_nil, List.nil_append, List.flatMap_cons, List.append_assoc,
      unescape_escape] at hnone
    cases hnone
  | c :: first, d :: second, rest, rest', h => by
    rw [List.flatMap_cons, List.append_assoc, List.flatMap_cons, List.append_assoc] at h
    have hsome := congrArg unescape h
    rw [unescape_escape, unescape_escape, Option.some.injEq, Prod.mk.injEq] at hsome
    obtain ⟨rfl, htail⟩ := hsome
    obtain ⟨rfl, hrest⟩ := flatMap_escape_append_inj htail
    exact ⟨rfl, hrest⟩

/-- **String literals delimit themselves.** -/
theorem quote_append_inj {first second : String} {rest rest' : List Char}
    (h : (quote first).toList ++ rest = (quote second).toList ++ rest') :
    first = second ∧ rest = rest' := by
  rw [toList_quote, toList_quote, List.cons_append, List.cons_append, List.append_assoc,
    List.append_assoc] at h
  obtain ⟨hchars, hrest⟩ := flatMap_escape_append_inj (List.cons.inj h).2
  exact ⟨String.toList_inj.mp hchars, hrest⟩

/-! ## Rows -/

section

variable {α : Type} {write : α → List Char} {p : α → Prop} {mark close : Char}

/-- Rows between separators: each row but the first has one before it. -/
theorem intercalate_map_cons (first : α) (others : List α) :
    [mark].intercalate ((first :: others).map write) =
      write first ++ others.flatMap fun row => mark :: write row := by
  induction others generalizing first with
  | nil => simp
  | cons second others ih =>
    rw [List.map_cons, List.map_cons, List.intercalate_cons_cons, ← List.map_cons, ih,
      List.flatMap_cons, List.append_assoc, List.cons_append]
    rfl

/-- **Rows that have a mark before them** end where another mark closes them. -/
theorem flatMap_mark_append_inj (hclose : close ≠ mark) :
    ∀ {rows rows' : List α} {rest rest' : List Char}, (∀ row ∈ rows, Delimited write p row) →
      (∀ row ∈ rows', p row) →
      (rows.flatMap fun row => mark :: write row) ++ close :: rest =
          (rows'.flatMap fun row => mark :: write row) ++ close :: rest' →
        rows = rows' ∧ rest = rest'
  | [], [], rest, rest', _, _, h => ⟨rfl, (List.cons.inj h).2⟩
  | [], row :: rows', rest, rest', _, _, h => absurd (List.cons.inj h).1 hclose
  | row :: rows, [], rest, rest', _, _, h => absurd (List.cons.inj h).1.symm hclose
  | row :: rows, row' :: rows', rest, rest', hrows, hrows', h => by
    rw [List.flatMap_cons, List.flatMap_cons, List.append_assoc, List.append_assoc,
      List.cons_append, List.cons_append] at h
    obtain ⟨hrow, hothers⟩ := List.forall_mem_cons.mp hrows
    obtain ⟨hrow', hothers'⟩ := List.forall_mem_cons.mp hrows'
    obtain ⟨rfl, htail⟩ := hrow row' hrow' _ _ (List.cons.inj h).2
    obtain ⟨rfl, hrest⟩ := flatMap_mark_append_inj hclose hothers hothers' htail
    exact ⟨rfl, hrest⟩

/-- **Rows between separators** end where another mark closes them, as no row begins with it. -/
theorem intercalate_append_inj (hclose : close ≠ mark) {rows rows' : List α}
    {rest rest' : List Char} (hrows : ∀ row ∈ rows, Delimited write p row)
    (hp : ∀ row ∈ rows, p row) (hp' : ∀ row ∈ rows', p row)
    (hhead : ∀ row, p row → ∃ c tail, write row = c :: tail ∧ c ≠ close)
    (h : [mark].intercalate (rows.map write) ++ close :: rest =
      [mark].intercalate (rows'.map write) ++ close :: rest') :
    rows = rows' ∧ rest = rest' := by
  have hopen : ∀ {row : α} {tail tail' : List Char}, p row →
      write row ++ tail ≠ close :: tail' := by
    intro row tail tail' hrow heq
    obtain ⟨c, written, hwrite, hne⟩ := hhead row hrow
    rw [hwrite, List.cons_append] at heq
    exact hne (List.cons.inj heq).1
  cases rows with
  | nil =>
    cases rows' with
    | nil => exact ⟨rfl, (List.cons.inj h).2⟩
    | cons row' others' =>
      rw [intercalate_map_cons, List.append_assoc] at h
      exact absurd h.symm (hopen (List.forall_mem_cons.mp hp').1)
  | cons row others =>
    cases rows' with
    | nil =>
      rw [intercalate_map_cons, List.append_assoc] at h
      exact absurd h (hopen (List.forall_mem_cons.mp hp).1)
    | cons row' others' =>
      rw [intercalate_map_cons, intercalate_map_cons, List.append_assoc, List.append_assoc] at h
      obtain ⟨hrow, hothers⟩ := List.forall_mem_cons.mp hrows
      obtain ⟨hrow', hothers'⟩ := List.forall_mem_cons.mp hp'
      obtain ⟨rfl, htail⟩ := hrow row' hrow' _ _ h
      obtain ⟨rfl, hrest⟩ := flatMap_mark_append_inj hclose hothers hothers' htail
      exact ⟨rfl, hrest⟩

end

/-! ## Values without numbers -/

mutual

/-- **A value without numbers**, at any depth. -/
def NumberFree : Json → Prop
  | .number _ => False
  | .array items => NumberFreeItems items
  | .object entries => NumberFreeEntries entries
  | _ => True

/-- No item has numbers. -/
def NumberFreeItems : List Json → Prop
  | [] => True
  | item :: rest => item.NumberFree ∧ NumberFreeItems rest

/-- No entry has numbers. -/
def NumberFreeEntries : List (String × Json) → Prop
  | [] => True
  | (_, value) :: rest => value.NumberFree ∧ NumberFreeEntries rest

end

@[simp] theorem numberFree_bool (flag : Bool) : NumberFree (.bool flag) := trivial

@[simp] theorem numberFree_string (text : String) : NumberFree (.string text) := trivial

theorem numberFree_array_iff {items : List Json} :
    NumberFree (.array items) ↔ ∀ item ∈ items, item.NumberFree := by
  rw [NumberFree]
  induction items with
  | nil => simp [NumberFreeItems]
  | cons item rest ih => rw [NumberFreeItems, ih, List.forall_mem_cons]

theorem numberFree_object_iff {entries : List (String × Json)} :
    NumberFree (.object entries) ↔ ∀ entry ∈ entries, entry.2.NumberFree := by
  rw [NumberFree]
  induction entries with
  | nil => simp [NumberFreeEntries]
  | cons entry rest ih => rw [NumberFreeEntries, ih, List.forall_mem_cons]

/-! ## Compact texts -/

/-- The characters of a compact text. -/
def compactChars (value : Json) : List Char := value.compact.toList

/-- The characters of an entry in a compact text. -/
def entryChars (entry : String × Json) : List Char :=
  (quote entry.1).toList ++ ':' :: entry.2.compactChars

theorem compactItems_eq_map (items : List Json) : compactItems items = items.map compact := by
  induction items with
  | nil => rfl
  | cons item rest ih => rw [compactItems, ih, List.map_cons]

theorem map_toList_compactEntries (entries : List (String × Json)) :
    (compactEntries entries).map String.toList = entries.map entryChars := by
  induction entries with
  | nil => rfl
  | cons entry rest ih =>
    rw [compactEntries, List.map_cons, ih, List.map_cons, String.toList_append,
      String.toList_append, List.append_assoc]
    rfl

theorem compactChars_array (items : List Json) :
    compactChars (.array items) =
      '[' :: ([','].intercalate (items.map compactChars) ++ [']']) := by
  rw [compactChars, compact, String.toList_append, String.toList_append,
    String.toList_intercalate, compactItems_eq_map, List.map_map]
  rfl

theorem compactChars_object (entries : List (String × Json)) :
    compactChars (.object entries) =
      '\x7b' :: ([','].intercalate (entries.map entryChars) ++ ['\x7d']) := by
  rw [compactChars, compact, String.toList_append, String.toList_append,
    String.toList_intercalate, map_toList_compactEntries]
  rfl

/-- The character with which the compact text of a value begins; numbers have none of their own. -/
def opening : Json → Char
  | .null => 'n'
  | .bool true => 't'
  | .bool false => 'f'
  | .number _ => '0'
  | .string _ => '"'
  | .array _ => '['
  | .object _ => '\x7b'

/-- **The kind of a value** can be seen from the first character of its text. -/
theorem compactChars_eq_opening_cons {value : Json} (h : value.NumberFree) :
    ∃ tail, value.compactChars = value.opening :: tail := by
  cases value with
  | null => exact ⟨['u', 'l', 'l'], by rw [compactChars, compact]; rfl⟩
  | bool flag =>
    cases flag with
    | true => exact ⟨['r', 'u', 'e'], by rw [compactChars, compact]; rfl⟩
    | false => exact ⟨['a', 'l', 's', 'e'], by rw [compactChars, compact]; rfl⟩
  | number value => exact h.elim
  | string text => exact ⟨_, by rw [compactChars, compact, toList_quote]; rfl⟩
  | array items => exact ⟨_, compactChars_array items⟩
  | object entries => exact ⟨_, compactChars_object entries⟩

/-- No value begins with the bracket that closes an array. -/
theorem exists_compactChars_eq_cons_ne_bracket {value : Json} (h : value.NumberFree) :
    ∃ c tail, value.compactChars = c :: tail ∧ c ≠ ']' := by
  obtain ⟨tail, htail⟩ := compactChars_eq_opening_cons h
  refine ⟨_, tail, htail, ?_⟩
  cases value with
  | bool flag => cases flag <;> decide
  | _ => simp [opening]

/-- No entry begins with the brace that closes an object. -/
theorem exists_entryChars_eq_cons_ne_brace (entry : String × Json) :
    ∃ c tail, entryChars entry = c :: tail ∧ c ≠ '\x7d' := by
  rw [entryChars, toList_quote, List.cons_append]
  exact ⟨_, _, rfl, by decide⟩

/-- An entry delimits itself if its value does. -/
theorem delimited_entryChars {entry : String × Json}
    (h : Delimited compactChars NumberFree entry.2) :
    Delimited entryChars (fun entry => entry.2.NumberFree) entry := by
  intro entry' hfree rest rest' heq
  rw [entryChars, entryChars, List.append_assoc, List.append_assoc, List.cons_append,
    List.cons_append] at heq
  obtain ⟨hkey, hvalue⟩ := quote_append_inj heq
  obtain ⟨hvalue, hrest⟩ := h entry'.2 hfree _ _ (List.cons.inj hvalue).2
  exact ⟨Prod.ext hkey hvalue, hrest⟩

/-- **Compact texts without numbers delimit themselves.**

**Proof sketch.** Induction on the value. The first characters agree, so that the other value is of
the same kind; literals delimit themselves, and so do the rows of an array or an object by the
hypotheses, up to the bracket that closes them and begins no row. -/
theorem delimited_compactChars (value : Json) :
    value.NumberFree → Delimited compactChars NumberFree value := by
  have hkind : ∀ {value other : Json} {rest rest' : List Char}, value.NumberFree →
      other.NumberFree → value.compactChars ++ rest = other.compactChars ++ rest' →
      value.opening = other.opening := by
    intro value other rest rest' hvalue hother heq
    obtain ⟨tail, htail⟩ := compactChars_eq_opening_cons hvalue
    obtain ⟨tail', htail'⟩ := compactChars_eq_opening_cons hother
    rw [htail, htail', List.cons_append, List.cons_append] at heq
    exact (List.cons.inj heq).1
  induction value using induct with
  | null =>
    intro hvalue other hother rest rest' heq
    have hopen := hkind hvalue hother heq
    cases other with
    | null => exact ⟨rfl, List.append_cancel_left heq⟩
    | bool flag => cases flag <;> simp [opening] at hopen
    | _ => simp [opening] at hopen
  | bool flag =>
    intro hvalue other hother rest rest' heq
    have hopen := hkind hvalue hother heq
    cases other with
    | bool flag' =>
      obtain rfl : flag = flag' := by
        cases flag <;> cases flag' <;> simp_all [opening]
      exact ⟨rfl, List.append_cancel_left heq⟩
    | _ => cases flag <;> simp [opening] at hopen
  | number value =>
    intro hvalue
    exact hvalue.elim
  | string text =>
    intro hvalue other hother rest rest' heq
    have hopen := hkind hvalue hother heq
    cases other with
    | string text' =>
      rw [compactChars, compactChars, compact, compact] at heq
      obtain ⟨rfl, hrest⟩ := quote_append_inj heq
      exact ⟨rfl, hrest⟩
    | bool flag => cases flag <;> simp [opening] at hopen
    | _ => simp [opening] at hopen
  | array items ih =>
    intro hvalue other hother rest rest' heq
    have hopen := hkind hvalue hother heq
    cases other with
    | array items' =>
      have hfree := numberFree_array_iff.mp hvalue
      have hfree' := numberFree_array_iff.mp hother
      rw [compactChars_array, compactChars_array, List.cons_append, List.cons_append,
        List.append_assoc, List.append_assoc] at heq
      obtain ⟨rfl, hrest⟩ := intercalate_append_inj (by decide)
        (fun item hitem => ih item hitem (hfree item hitem)) hfree hfree'
        (fun item hitem => exists_compactChars_eq_cons_ne_bracket hitem) (List.cons.inj heq).2
      exact ⟨rfl, hrest⟩
    | bool flag => cases flag <;> simp [opening] at hopen
    | _ => simp [opening] at hopen
  | object entries ih =>
    intro hvalue other hother rest rest' heq
    have hopen := hkind hvalue hother heq
    cases other with
    | object entries' =>
      have hfree := numberFree_object_iff.mp hvalue
      have hfree' := numberFree_object_iff.mp hother
      rw [compactChars_object, compactChars_object, List.cons_append, List.cons_append,
        List.append_assoc, List.append_assoc] at heq
      obtain ⟨rfl, hrest⟩ := intercalate_append_inj (by decide)
        (fun entry hentry => delimited_entryChars (ih entry hentry (hfree entry hentry)))
        hfree hfree' (fun entry _ => exists_entryChars_eq_cons_ne_brace entry)
        (List.cons.inj heq).2
      exact ⟨rfl, hrest⟩
    | bool flag => cases flag <;> simp [opening] at hopen
    | _ => simp [opening] at hopen

/-- **Compact texts without numbers** agree, whatever follows them, only if they are those of the
same value. -/
theorem compact_append_inj {value other : Json} (hvalue : value.NumberFree)
    (hother : other.NumberFree) {rest rest' : List Char}
    (h : value.compact.toList ++ rest = other.compact.toList ++ rest') :
    value = other ∧ rest = rest' :=
  delimited_compactChars value hvalue other hother rest rest' h

end RpcSchema.Json
