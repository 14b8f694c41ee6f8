import RpcSchema.Json.Pointer
import RpcSchema.Proofs.Digits
import RpcSchema.Proofs.Entries

set_option autoImplicit false

/-!
# Pointers and the places they name

The text of a pointer is read back as the pointer, whatever characters its tokens have: an escaped
token has no slash, and every tilde in it says which character it stands for. What a longer pointer
names is found on the way that a shorter one begins.

## Main results

* `RpcSchema.Pointer.ofText?_text` — the text of a pointer is read back.
* `RpcSchema.Json.resolve?_append` — a pointer is followed token by token.
* `RpcSchema.Json.item?_toString` — a position of an array, written in decimal, names its item.
-/

namespace RpcSchema

namespace Pointer

/-! ## Texts -/

/-- An escaped token is read back. -/
theorem unescape?_escape (token : List Char) : unescape? (token.flatMap escape) = some token := by
  induction token with
  | nil => rfl
  | cons c rest ih =>
    rw [List.flatMap_cons, escape]
    split
    · rename_i htilde
      subst htilde
      simp [unescape?, ih]
    · rename_i htilde
      split
      · rename_i hslash
        subst hslash
        simp [unescape?, ih]
      · simp [unescape?, htilde, ih]

/-- An escaped token has no slash. -/
theorem slash_not_mem_escape (token : List Char) : '/' ∉ token.flatMap escape := by
  rw [List.mem_flatMap]
  rintro ⟨c, -, hc⟩
  unfold escape at hc
  split at hc
  · simp at hc
  · split at hc
    · simp at hc
    · rename_i hslash
      exact hslash (List.mem_singleton.mp hc).symm

/-- Characters other than slashes are collected. -/
theorem tokens?_append {text : List Char} (h : '/' ∉ text) (rest : List Char) :
    ∀ current, tokens? (text ++ rest) current = tokens? rest (text.reverse ++ current) := by
  induction text with
  | nil => exact fun current => rfl
  | cons c text ih =>
    intro current
    obtain ⟨hc, htext⟩ := not_or.mp (fun hmem => h (List.mem_cons.mpr hmem))
    rw [List.cons_append, tokens?, if_neg (Ne.symm hc), ih htext, List.reverse_cons,
      List.append_assoc, List.singleton_append]

/-- The characters of a token, behind its slash. -/
theorem toList_tokenText (token : String) :
    (tokenText token).toList = '/' :: token.toList.flatMap escape := by
  rw [tokenText, String.toList_ofList]

theorem toList_text_cons (token : String) (rest : Pointer) :
    (text (token :: rest)).toList = '/' :: (token.toList.flatMap escape ++ (text rest).toList) := by
  rw [text, List.map_cons, String.join_cons, String.toList_append, toList_tokenText, text,
    List.cons_append]

/-- Behind the slash of the first token all tokens are read. -/
theorem tokens?_text (rest : Pointer) : ∀ token : String,
    tokens? (token.toList.flatMap escape ++ (text rest).toList) [] =
      some (token.toList :: rest.map String.toList) := by
  induction rest with
  | nil =>
    intro token
    rw [tokens?_append (slash_not_mem_escape _), text, List.map_nil, String.join_nil]
    simp [tokens?, unescape?_escape]
  | cons next rest ih =>
    intro token
    rw [tokens?_append (slash_not_mem_escape _), toList_text_cons, tokens?, if_pos rfl, ih next,
      List.append_nil, List.reverse_reverse, unescape?_escape]
    rfl

/-- **The text of a pointer is read back** as the pointer. -/
theorem ofText?_text (pointer : Pointer) : ofText? (text pointer) = some pointer := by
  cases pointer with
  | nil => rfl
  | cons token rest =>
    rw [ofText?, toList_text_cons]
    simp [tokens?_text, Function.comp_def]

end Pointer

namespace Json

/-! ## Well-formed documents -/

/-- The documents in a well-formed array are well-formed. -/
theorem wellFormedItems_iff {items : List Json} :
    WellFormedItems items ↔ ∀ item ∈ items, item.WellFormed := by
  induction items with
  | nil => simp [WellFormedItems]
  | cons item rest ih => rw [WellFormedItems, ih, List.forall_mem_cons]

/-- The documents in a well-formed object are well-formed. -/
theorem wellFormedEntries_iff {entries : Entries Json} :
    WellFormedEntries entries ↔ ∀ entry ∈ entries, entry.2.WellFormed := by
  induction entries with
  | nil => simp [WellFormedEntries]
  | cons entry rest ih => rw [WellFormedEntries, ih, List.forall_mem_cons]

/-- What a well-formed document holds under a key is well-formed. -/
theorem WellFormed.of_get? {document part : Json} {key : String} (h : document.WellFormed)
    (hpart : document.get? key = some part) : part.WellFormed := by
  cases document with
  | object entries => exact wellFormedEntries_iff.mp h.2 _ (Entries.mem_of_lookup hpart)
  | _ => cases hpart

/-- What a document holds under a key is smaller than the document. -/
theorem sizeOf_lt_of_get? {document part : Json} {key : String}
    (h : document.get? key = some part) : sizeOf part < sizeOf document := by
  cases document with
  | object entries =>
    have hentry := List.sizeOf_lt_of_mem (Entries.mem_of_lookup h)
    simp only [Prod.mk.sizeOf_spec] at hentry
    simp only [object.sizeOf_spec]
    omega
  | _ => cases h

/-! ## Places -/

/-- **A pointer is followed** token by token. -/
theorem resolve?_append (first second : Pointer) : ∀ input : Json,
    input.resolve? (first ++ second) = (input.resolve? first).bind (·.resolve? second) := by
  induction first with
  | nil => exact fun input => by simp [resolve?]
  | cons token rest ih =>
    intro input
    cases input with
    | object entries => simp [resolve?, ih, Option.bind_assoc]
    | array items => simp [resolve?, ih, Option.bind_assoc]
    | _ => rfl

/-- What is found on from a place is found from what is there. -/
theorem resolve?_append_of_eq {document part : Json} {outer : Pointer}
    (h : document.resolve? outer = some part) (inside : Pointer) :
    document.resolve? (outer ++ inside) = part.resolve? inside := by
  rw [resolve?_append, h, Option.bind_some]

theorem resolve?_nil (document : Json) : document.resolve? [] = some document := by
  cases document <;> rfl

/-- What a pointer leads to is found on from what its first key leads to. -/
theorem resolve?_cons_of_get? {document part : Json} {key : String}
    (h : document.get? key = some part) (inside : Pointer) :
    document.resolve? (key :: inside) = part.resolve? inside := by
  cases document with
  | object entries =>
    rw [resolve?, show entries.lookup key = some part from h]
    rfl
  | _ => cases h

/-- What a document holds under a key is found there. -/
theorem resolve?_of_get? {document part : Json} {key : String} (h : document.get? key = some part) :
    document.resolve? [key] = some part := by
  rw [resolve?_cons_of_get? h, resolve?_nil]

/-- Positions are told apart by how they are written. -/
theorem eq_of_toString_eq {i j : Nat} (h : toString i = toString j) : i = j := by
  have hdigits : Nat.toDigits 10 i = Nat.toDigits 10 j := by
    simpa [Nat.repr] using congrArg String.toList h
  rw [← Text.digitsValue_toDigits i, hdigits, Text.digitsValue_toDigits]

/-- **A position of an array**, written in decimal, names the item there. -/
theorem item?_toString {items : List Json} {i : Nat} {item : Json} (h : items[i]? = some item) :
    item? items (toString i) = some item := by
  have hlength : i < items.length := (List.getElem?_eq_some_iff.mp h).1
  obtain ⟨found, hfound⟩ : ∃ found, item? items (toString i) = some found := by
    rw [← Option.isSome_iff_exists, item?, List.isSome_findSome?, List.any_eq_true]
    exact ⟨i, List.mem_range.mpr hlength, by simp [Nat.repr, h]⟩
  obtain ⟨j, -, hj⟩ := List.exists_of_findSome?_eq_some hfound
  rw [Option.ite_none_right_eq_some] at hj
  rw [hfound, ← hj.2, eq_of_toString_eq hj.1, h]

end Json

end RpcSchema
