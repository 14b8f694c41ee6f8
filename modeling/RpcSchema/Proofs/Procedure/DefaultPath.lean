import RpcSchema.Proofs.Procedure.Flatten
import RpcSchema.Proofs.Text.Words

set_option autoImplicit false

/-!
# Paths that keys suggest

The path that a key suggests has a segment for every segment of the key. Characters that are known
to be unsafe in a path are left out of it, and what is left is written in lower case with hyphens
between the words. That leaves a clean path, of letters, digits, underscores and hyphens, exactly
when these are all that was left, and something was.

## Main definitions

* `RpcSchema.Procedure.isPathChar` — the characters of a clean path.
* `RpcSchema.Procedure.CleanPath` — a path of so many segments that are clean.
* `RpcSchema.Procedure.isKept` — the characters of a key that go into its path.

## Main results

* `RpcSchema.Procedure.cleanSegment_pathSegment_iff` — when a segment of a path is clean.
* `RpcSchema.Procedure.split_defaultPath` — a path has a segment for every segment of its key.
* `RpcSchema.Procedure.defaultPath_clean_iff` — when a path is clean.
-/

namespace RpcSchema.Procedure

open Text (IsAscii kelvinSign lowerChar)

/-! ## Clean paths -/

/-- **The characters of a clean path**: letters and digits of ASCII, underscores and hyphens. -/
def isPathChar (c : Char) : Bool := c.isAlphanum || c = '_' || c = '-'

/-- **A clean segment** has a character, and no others than those of clean paths. -/
def CleanSegment (segment : String) : Prop :=
  segment ≠ "" ∧ ∀ c ∈ segment.toList, isPathChar c = true

/-- **A clean path** is a slash and so many clean segments with slashes between them. -/
def CleanPath (count : Nat) (path : String) : Prop :=
  ∃ segments : List String, segments.length = count ∧ path = "/" ++ "/".intercalate segments ∧
    ∀ segment ∈ segments, CleanSegment segment

/-- The characters of clean paths are characters of ASCII. -/
theorem isAscii_of_isPathChar {c : Char} (h : isPathChar c = true) : IsAscii c := by
  simp only [isPathChar, Bool.or_eq_true, decide_eq_true_eq] at h
  rcases h with (h | rfl) | rfl
  · have hranges : ((decide (c.val ≥ 65 ∧ c.val ≤ 90) ||
        decide (c.val ≥ 97) && decide (c.val ≤ 122)) ||
        decide (c.val ≥ 48) && decide (c.val ≤ 57)) = true := h
    simp only [Bool.or_eq_true, Bool.and_eq_true, decide_eq_true_eq, UInt32.le_iff_toNat_le]
      at hranges
    have hcode : c.toNat = c.val.toNat := rfl
    rw [IsAscii, hcode]
    grind
  · decide
  · decide

/-! ## Characters -/

/-- **The characters of a key that go into its path** are those that are neither disallowed nor
blank. -/
def isKept (c : Char) : Bool := !disallowed.contains c && !Text.isBlank c

theorem pathSegment_eq (segment : String) :
    pathSegment segment = Text.kebab (String.ofList (segment.toList.filter isKept)) := rfl

/-- The lower-case form of a character is made of characters of clean paths exactly if it is one
itself, or the Kelvin sign. -/
theorem forall_isPathChar_lowerChar_iff {c : Char} :
    (∀ d ∈ lowerChar c, isPathChar d = true) ↔ isPathChar c = true ∨ c = kelvinSign := by
  by_cases hkelvin : c = kelvinSign
  · rw [hkelvin, Text.lowerChar_kelvinSign]
    exact iff_of_true (List.forall_mem_singleton.mpr rfl) (.inr rfl)
  rw [or_iff_left hkelvin]
  by_cases hascii : IsAscii c
  · have hall : ∀ n < 128, isPathChar (Char.ofNat n).toLower = isPathChar (Char.ofNat n) := by
      decide
    have hc := hall c.toNat hascii
    rw [Char.ofNat_toNat] at hc
    rw [Text.lowerChar_of_isAscii hascii, List.forall_mem_singleton, hc]
  · refine iff_of_false (fun hall => ?_) fun h => hascii (isAscii_of_isPathChar h)
    rcases Text.lowerChar_cases hascii with ⟨h, -⟩ | hlower | ⟨d, hlower, hd⟩
    · exact hkelvin h
    · rw [hlower] at hall
      exact absurd (hall '\u0307' (by simp)) (by decide)
    · rw [hlower, List.forall_mem_singleton] at hall
      exact hd (isAscii_of_isPathChar hall)

/-- No character but the slash has a slash in its lower-case form. -/
theorem slash_not_mem_lowerChar {c : Char} (h : c ≠ '/') : '/' ∉ lowerChar c := by
  by_cases hascii : IsAscii c
  · have hall : ∀ n < 128, Char.ofNat n ≠ '/' → (Char.ofNat n).toLower ≠ '/' := by decide
    have hc := hall c.toNat hascii
    rw [Char.ofNat_toNat] at hc
    rw [Text.lowerChar_of_isAscii hascii, List.mem_singleton]
    exact (hc h).symm
  · rcases Text.lowerChar_cases hascii with ⟨-, hlower⟩ | hlower | ⟨d, hlower, hd⟩
    · rw [hlower]
      decide
    · rw [hlower]
      decide
    · rw [hlower, List.mem_singleton]
      rintro rfl
      exact hd (by decide)

/-! ## Segments -/

/-- A kept character is none of the disallowed ones, and no blank. -/
theorem ne_of_isKept {c d : Char} (h : isKept c = true) (hd : isKept d = false) : c ≠ d := by
  rintro rfl
  exact absurd (h.symm.trans hd) (by decide)

/-- **The characters of a segment of a path** come from the kept characters of the segment of the
key, as far as separators and final sigmas do not matter. -/
theorem forall_mem_pathSegment_iff {p : Char → Prop} (hhyphen : p '-') (hunderscore : p '_')
    (hsigma : p 'ς' ↔ p 'σ') {segment : String} :
    (∀ d ∈ (pathSegment segment).toList, p d) ↔
      ∀ c ∈ segment.toList, isKept c = true → ∀ d ∈ lowerChar c, p d := by
  have hseparator : ∀ c ∈ (String.ofList (segment.toList.filter isKept)).toList,
      c = '_' ∨ c = '-' ∨ c = ' ' → ∀ d ∈ lowerChar c, p d := by
    intro c hc
    rw [String.toList_ofList, List.mem_filter] at hc
    rintro (rfl | rfl | rfl)
    · rwa [Text.lowerChar_of_isAscii (by decide), List.forall_mem_singleton]
    · rwa [Text.lowerChar_of_isAscii (by decide), List.forall_mem_singleton]
    · exact absurd rfl (ne_of_isKept hc.2 (by decide +kernel))
  rw [pathSegment_eq, Text.forall_mem_kebab_iff hhyphen hsigma hseparator, String.toList_ofList]
  simp only [List.mem_filter, and_imp]

/-- Nothing is left of a segment exactly if nothing of it is kept. -/
theorem pathSegment_eq_empty_iff {segment : String} :
    pathSegment segment = "" ↔ ∀ c ∈ segment.toList, isKept c = false := by
  rw [pathSegment_eq, Text.kebab_eq_empty_iff, ← String.toList_inj, String.toList_ofList,
    String.toList_empty, List.filter_eq_nil_iff]
  simp only [Bool.not_eq_true]

/-- **A segment of a path is clean** exactly if something was kept of the segment of the key, and
nothing that is no character of clean paths; the Kelvin sign becomes one. -/
theorem cleanSegment_pathSegment_iff {segment : String} :
    CleanSegment (pathSegment segment) ↔ (∃ c ∈ segment.toList, isKept c = true) ∧
      ∀ c ∈ segment.toList, isKept c = true → isPathChar c = true ∨ c = kelvinSign := by
  have hempty : pathSegment segment ≠ "" ↔ ∃ c ∈ segment.toList, isKept c = true := by
    rw [Ne, pathSegment_eq_empty_iff]
    simp
  have hsigma : isPathChar 'ς' = true ↔ isPathChar 'σ' = true := by decide
  rw [CleanSegment, hempty, forall_mem_pathSegment_iff (by decide) (by decide) hsigma]
  simp only [forall_isPathChar_lowerChar_iff]

theorem slash_not_mem_pathSegment (segment : String) : '/' ∉ (pathSegment segment).toList := by
  have hall : ∀ d ∈ (pathSegment segment).toList, d ≠ '/' := by
    rw [forall_mem_pathSegment_iff (by decide) (by decide) (by decide)]
    intro c _ hkept d hd heq
    exact slash_not_mem_lowerChar (ne_of_isKept hkept (by decide)) (heq ▸ hd)
  exact fun h => hall '/' h rfl

/-! ## Paths -/

/-- The segments of a path are told apart by its slashes. -/
theorem split_path {parts : List String} (hne : parts ≠ [])
    (hslash : ∀ part ∈ parts, '/' ∉ part.toList) :
    Text.split '/' ("/" ++ "/".intercalate parts) = "" :: parts := by
  have hsplit := @Text.split_append '/' "/" (by decide) "" ("/".intercalate parts)
  rw [String.empty_append, Text.split_intercalate (by decide) hne hslash] at hsplit
  exact hsplit

/-- **The path of a key** whose segments are not empty is made of all of them. -/
theorem defaultPath_eq {key : String} (h : ∀ segment ∈ segments key, segment ≠ "") :
    defaultPath key = "/" ++ "/".intercalate ((segments key).map pathSegment) := by
  have hfilter : (segments key).filter (· ≠ "") = segments key :=
    List.filter_eq_self.mpr fun segment hsegment => decide_eq_true (h segment hsegment)
  rw [defaultPath, hfilter]

/-- **The path of a key has a segment for every segment** of the key, if none of these is empty. -/
theorem split_defaultPath {key : String} (h : ∀ segment ∈ segments key, segment ≠ "") :
    Text.split '/' (defaultPath key) = "" :: (segments key).map pathSegment := by
  rw [defaultPath_eq h]
  refine split_path (by simpa using segments_ne_nil key) ?_
  simpa using fun segment _ => slash_not_mem_pathSegment segment

/-- The path of a key is clean exactly when its segments are. -/
theorem cleanPath_defaultPath_iff {key : String} (h : ∀ segment ∈ segments key, segment ≠ "") :
    CleanPath (segments key).length (defaultPath key) ↔
      ∀ segment ∈ segments key, CleanSegment (pathSegment segment) := by
  constructor
  · rintro ⟨parts, hlength, hpath, hparts⟩
    have hne : parts ≠ [] := by
      rintro rfl
      exact segments_ne_nil key (List.length_eq_zero_iff.mp hlength.symm)
    have hslash : ∀ part ∈ parts, '/' ∉ part.toList := fun part hpart hmem =>
      absurd ((hparts part hpart).2 '/' hmem) (by decide)
    have hsplit := split_defaultPath h
    rw [hpath, split_path hne hslash, List.cons.injEq] at hsplit
    rwa [hsplit.2, List.forall_mem_map] at hparts
  · intro hclean
    exact ⟨_, List.length_map _, defaultPath_eq h, List.forall_mem_map.mpr hclean⟩

/-- **The path that a key suggests is clean**, with a segment for every segment of the key, exactly
when every segment of the key has a character that is kept and none that is kept without being a
letter or a digit of ASCII, an underscore, a hyphen or the Kelvin sign. It has a segment for every
segment of the key anyway. -/
theorem defaultPath_clean_iff {key : String} (h : ∀ segment ∈ segments key, segment ≠ "") :
    Text.split '/' (defaultPath key) = "" :: (segments key).map pathSegment ∧
      (CleanPath (segments key).length (defaultPath key) ↔
        ∀ segment ∈ segments key, (∃ c ∈ segment.toList, isKept c = true) ∧
          ∀ c ∈ segment.toList, isKept c = true → isPathChar c = true ∨ c = kelvinSign) := by
  refine ⟨split_defaultPath h, ?_⟩
  rw [cleanPath_defaultPath_iff h]
  simp only [cleanSegment_pathSegment_iff]

/-- The condition on a segment as a test. -/
theorem keeps_iff_all (segment : String) :
    ((∃ c ∈ segment.toList, isKept c = true) ∧
      ∀ c ∈ segment.toList, isKept c = true → isPathChar c = true ∨ c = kelvinSign) ↔
    (segment.toList.any isKept &&
      segment.toList.all fun c => !isKept c || isPathChar c || c == kelvinSign) = true := by
  simp only [Bool.and_eq_true, List.any_eq_true, List.all_eq_true, Bool.or_eq_true,
    Bool.not_eq_true', beq_iff_eq, or_assoc, ← Bool.not_eq_true, imp_iff_not_or]

/-- The case of a key with a mark that is left out and with the Kelvin sign. -/
theorem defaultPath_clean_iff_say_hello :
    segments "say!Hello.get\u212AeyV2" = ["say!Hello", "get\u212AeyV2"] ∧
      CleanPath 2 (defaultPath "say!Hello.get\u212AeyV2") := by
  have hsegments : segments "say!Hello.get\u212AeyV2" = ["say!Hello", "get\u212AeyV2"] := by
    decide
  have hclean := (@defaultPath_clean_iff "say!Hello.get\u212AeyV2" (by decide)).2
  simp only [hsegments, keeps_iff_all] at hclean
  exact ⟨hsegments, hclean.mpr (by decide +kernel)⟩

/-- One segment that fails the test is enough. -/
theorem not_cleanPath_of_mem {key segment : String} (hne : ∀ segment ∈ segments key, segment ≠ "")
    (hsegment : segment ∈ segments key)
    (htest : (segment.toList.any isKept &&
      segment.toList.all fun c => !isKept c || isPathChar c || c == kelvinSign) = false) :
    ¬ CleanPath (segments key).length (defaultPath key) := by
  intro hclean
  have hpart := (cleanPath_defaultPath_iff hne).mp hclean segment hsegment
  rw [cleanSegment_pathSegment_iff, keeps_iff_all, htest] at hpart
  cases hpart

/-- A letter outside ASCII stays in a path, and so does a mark that is not on the list of disallowed
ones; a segment of marks that are all on it leaves an empty segment behind. -/
theorem not_cleanPath_defaultPath_accent :
    (segments "users.caf\u00E9" = ["users", "caf\u00E9"] ∧
      ¬ CleanPath 2 (defaultPath "users.caf\u00E9")) ∧
    (segments "users.a`b" = ["users", "a`b"] ∧ ¬ CleanPath 2 (defaultPath "users.a`b")) ∧
    (segments "users.!" = ["users", "!"] ∧ ¬ CleanPath 2 (defaultPath "users.!")) := by
  refine ⟨⟨by decide, ?_⟩, ⟨by decide, ?_⟩, ⟨by decide, ?_⟩⟩
  · exact @not_cleanPath_of_mem "users.caf\u00E9" "caf\u00E9" (by decide) (by decide)
      (by decide +kernel)
  · exact @not_cleanPath_of_mem "users.a`b" "a`b" (by decide) (by decide)
      (by decide +kernel)
  · exact @not_cleanPath_of_mem "users.!" "!" (by decide) (by decide)
      (by decide +kernel)

end RpcSchema.Procedure
