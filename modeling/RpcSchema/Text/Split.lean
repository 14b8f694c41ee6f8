set_option autoImplicit false

/-!
# Splitting at a separator

## Main definitions

* `RpcSchema.Text.parts` — the parts of characters between the places of a separator.
* `RpcSchema.Text.split` — the same for a text.

## Main results

* `RpcSchema.Text.parts_ne_nil` — there is always a part.
* `RpcSchema.Text.not_mem_of_mem_parts` — no part holds the separator.
* `RpcSchema.Text.intercalate_parts` — joining the parts gives the characters back.
* `RpcSchema.Text.split_append` — the parts of texts with the separator between them.
* `RpcSchema.Text.split_intercalate` — joined texts without the separator are told apart again.
-/

namespace RpcSchema.Text

/-- Puts a character in front of the first part. -/
def consToFirst (c : Char) : List (List Char) → List (List Char)
  | [] => [[c]]
  | part :: rest => (c :: part) :: rest

/-- **The parts between the places of a separator**: one more than there are places. -/
def parts (separator : Char) : List Char → List (List Char)
  | [] => [[]]
  | c :: rest =>
    if c = separator then [] :: parts separator rest else consToFirst c (parts separator rest)

/-- The parts of a text between the places of a separator. -/
def split (separator : Char) (text : String) : List String :=
  (parts separator text.toList).map String.ofList

theorem parts_ne_nil (separator : Char) (chars : List Char) : parts separator chars ≠ [] := by
  cases chars with
  | nil => simp [parts]
  | cons c rest =>
    simp only [parts]
    split
    · simp
    · cases parts separator rest <;> simp [consToFirst]

/-- No part holds the separator. -/
theorem not_mem_of_mem_parts {separator : Char} {chars part : List Char}
    (h : part ∈ parts separator chars) : separator ∉ part := by
  induction chars generalizing part with
  | nil => simp_all [parts]
  | cons c rest ih =>
    simp only [parts] at h
    split at h
    · rcases List.mem_cons.mp h with rfl | h
      · simp
      · exact ih h
    · rename_i hc
      cases hp : parts separator rest with
      | nil => exact absurd hp (parts_ne_nil _ _)
      | cons first others =>
        rw [hp] at h ih
        rcases List.mem_cons.mp h with rfl | h
        · have := @ih first (by simp)
          simp [Ne.symm hc, this]
        · exact ih (by simp [h])

/-- Joining the parts gives the characters back. -/
theorem intercalate_parts (separator : Char) (chars : List Char) :
    [separator].intercalate (parts separator chars) = chars := by
  induction chars with
  | nil => simp [parts, List.intercalate]
  | cons c rest ih =>
    cases hp : parts separator rest with
    | nil => exact absurd hp (parts_ne_nil _ _)
    | cons first others =>
      rw [hp] at ih
      simp only [parts, hp]
      split
      · rename_i hc
        subst hc
        simpa [List.intercalate, List.intersperse] using ih
      · cases others with
        | nil => simpa [consToFirst, List.intercalate, List.intersperse] using ih
        | cons second others =>
          simpa [consToFirst, List.intercalate, List.intersperse] using ih

/-- Characters without the separator are one part. -/
theorem parts_of_not_mem {separator : Char} {chars : List Char} (h : separator ∉ chars) :
    parts separator chars = [chars] := by
  induction chars with
  | nil => rfl
  | cons c rest ih =>
    rw [List.mem_cons, not_or] at h
    rw [parts, if_neg (Ne.symm h.1), ih h.2, consToFirst]

/-- At a place of the separator the parts before it and those behind it meet. -/
theorem parts_append (separator : Char) (chars rest : List Char) :
    parts separator (chars ++ separator :: rest) =
      parts separator chars ++ parts separator rest := by
  induction chars with
  | nil => simp [parts]
  | cons c chars ih =>
    rw [List.cons_append, parts, parts, ih]
    split
    · rfl
    · obtain ⟨first, others, hparts⟩ := List.exists_cons_of_ne_nil (parts_ne_nil separator chars)
      rw [hparts, List.cons_append, consToFirst, consToFirst, List.cons_append]

/-- A text without the separator is one part. -/
theorem split_of_not_mem {separator : Char} {text : String} (h : separator ∉ text.toList) :
    split separator text = [text] := by
  rw [split, parts_of_not_mem h, List.map_singleton, String.ofList_toList]

/-- **The parts of texts with the separator between them** are the parts of the one and then those of
the other. -/
theorem split_append {separator : Char} {between : String} (h : between.toList = [separator])
    (first second : String) :
    split separator (first ++ between ++ second) =
      split separator first ++ split separator second := by
  rw [split, String.toList_append, String.toList_append, h, List.append_assoc,
    List.singleton_append, parts_append, List.map_append]
  rfl

/-- **Texts without the separator are told apart** by the separators between them. -/
theorem split_intercalate {separator : Char} {between : String}
    (h : between.toList = [separator]) {texts : List String} (hne : texts ≠ [])
    (htexts : ∀ text ∈ texts, separator ∉ text.toList) :
    split separator (between.intercalate texts) = texts := by
  induction texts with
  | nil => exact absurd rfl hne
  | cons text rest ih =>
    obtain ⟨htext, hrest⟩ := List.forall_mem_cons.mp htexts
    cases rest with
    | nil => rw [String.intercalate_singleton, split_of_not_mem htext]
    | cons next rest =>
      rw [String.intercalate_cons_cons, split_append h, split_of_not_mem htext,
        ih (List.cons_ne_nil _ _) hrest, List.singleton_append]

end RpcSchema.Text
