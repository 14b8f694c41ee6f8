import Mathlib.Data.String.Basic
import RpcSchema.Text.Case

set_option autoImplicit false

/-!
# What lower case does to ASCII

In lower case an ASCII text is still an ASCII text. The other way round only the Kelvin sign leads
from outside into ASCII: the lower-case form of every other character that is not ASCII has a
character that is not ASCII either.

## Main definitions

* `RpcSchema.Text.IsAscii` — the characters of ASCII.
* `RpcSchema.Text.kelvinSign` — the sign whose lower-case form is an ordinary `k`.

## Main results

* `RpcSchema.Text.forall_mem_lower_iff` — the characters of a text in lower case.
* `RpcSchema.Text.lowerChar_of_isAscii` — the lower-case form of a character of ASCII.
* `RpcSchema.Text.lowerChar_cases` — the lower-case form of a character outside ASCII.
* `RpcSchema.Text.lower_eq_nil_iff` — no text vanishes in lower case.
-/

namespace RpcSchema.Text

/-! ## Texts -/

/-- **The characters of a text in lower case** are those of its characters in lower case, if it does
not matter whether a sigma is a final one. -/
theorem forall_mem_lowerAfter_iff {p : Char → Prop} (hsigma : p 'ς' ↔ p 'σ') :
    ∀ {before chars : List Char},
      (∀ d ∈ lowerAfter before chars, p d) ↔ ∀ c ∈ chars, ∀ d ∈ lowerChar c, p d
  | before, [] => by simp [lowerAfter]
  | before, c :: rest => by
    rw [lowerAfter, List.forall_mem_append, List.forall_mem_cons, forall_mem_lowerAfter_iff hsigma]
    refine and_congr_left fun _ => ?_
    by_cases hc : c = 'Σ'
    · subst hc
      have hlower : lowerChar 'Σ' = ['σ'] := by decide +kernel
      rw [if_pos rfl, hlower]
      split_ifs <;> simp [hsigma]
    · rw [if_neg hc]

theorem forall_mem_lower_iff {p : Char → Prop} (hsigma : p 'ς' ↔ p 'σ') {chars : List Char} :
    (∀ d ∈ lower chars, p d) ↔ ∀ c ∈ chars, ∀ d ∈ lowerChar c, p d :=
  forall_mem_lowerAfter_iff hsigma

/-! ## Characters -/

/-- The characters of ASCII. -/
def IsAscii (c : Char) : Prop := c.toNat < 128

instance : DecidablePred IsAscii := fun c => inferInstanceAs (Decidable (c.toNat < 128))

/-- **The Kelvin sign**, whose lower-case form is an ordinary `k`. -/
def kelvinSign : Char := '\u212A'

theorem toNat_ofNat_of_isValidChar {n : Nat} (h : n.isValidChar) : (Char.ofNat n).toNat = n := by
  rw [Char.ofNat, dif_pos h]
  rfl

/-- A character that is mapped by runs lies in one of them, and is moved by its distance. -/
theorem exists_of_mapByRuns {runs : CaseRuns} {c d : Char} (h : mapByRuns runs c = some d) :
    ∃ run ∈ runs.toList, run.1 ≤ c.toNat ∧ c.toNat ≤ run.2.1 ∧
      d = Char.ofNat (c.toNat + run.2.2.2).toNat := by
  obtain ⟨run, hrun, hd⟩ := List.exists_of_findSome?_eq_some (Array.findSome?_toList.trans h)
  obtain ⟨first, last, step, shift⟩ := run
  simp only [Option.ite_none_right_eq_some, Bool.and_eq_true, decide_eq_true_eq,
    Option.some.injEq] at hd
  exact ⟨_, hrun, hd.1.1.1, hd.1.1.2, hd.2.symm⟩

/-- The first run of lower-case mappings lies in ASCII and all the others outside. -/
theorem lowerRuns_tail_outside : lowerRuns.toList.head? = some (0x41, 0x5A, 1, 32) ∧
    ∀ run ∈ lowerRuns.toList.tail, 128 ≤ run.1 := by
  decide +kernel

/-- **The lower-case form of a character of ASCII** is the one that ASCII has for it. -/
theorem lowerChar_of_isAscii {c : Char} (h : IsAscii c) : lowerChar c = [c.toLower] := by
  obtain ⟨hhead, htail⟩ := lowerRuns_tail_outside
  obtain ⟨rest, hruns⟩ := List.head?_eq_some_iff.mp hhead
  rw [hruns, List.tail_cons] at htail
  have hsequences : mapBySequences lowerSequences c = none := by
    have hne : 0x130 ≠ c.toNat := fun heq => absurd (heq ▸ h : 0x130 < 128) (by decide)
    simp [mapBySequences, lowerSequences, hne]
  have hlower : ∀ n < 128, (Char.ofNat n).toLower =
      if 0x41 ≤ n && n ≤ 0x5A then Char.ofNat (n + 32) else Char.ofNat n := by decide
  have hc := hlower c.toNat h
  rw [Char.ofNat_toNat] at hc
  rw [lowerChar, mapCase, mapByRuns, ← Array.findSome?_toList, hruns, List.findSome?_cons,
    (@List.findSome?_eq_none_iff _ _ _ rest).mpr, hsequences, hc]
  swap
  · -- No run but the first has characters of ASCII.
    refine fun run hrun => if_neg fun hin => ?_
    simp only [Bool.and_eq_true, decide_eq_true_eq] at hin
    exact absurd (Nat.lt_of_lt_of_le h (htail run hrun)) (Nat.not_lt.mpr hin.1.1)
  have hshift : ((c.toNat : Int) + 32).toNat = c.toNat + 32 := by omega
  simp only [Nat.mod_one, beq_self_eq_true, Bool.and_true, hshift]
  by_cases hin : (decide (0x41 ≤ c.toNat) && decide (c.toNat ≤ 0x5A)) = true
  · rw [if_pos hin, if_pos hin]
  · rw [if_neg hin, if_neg hin]
    rfl

/-- Where a run of lower-case mappings that lies outside ASCII leads to, the Kelvin sign apart. -/
theorem lowerRuns_lead_outside : ∀ run ∈ lowerRuns.toList,
    run.2.1 < 128 ∨ run = (0x212A, 0x212A, 1, -8383) ∨
      128 ≤ run.1 + run.2.2.2 ∧ run.2.1 + run.2.2.2 < 0xD800 ∨
      0xE000 ≤ run.1 + run.2.2.2 ∧ run.2.1 + run.2.2.2 < 0x110000 := by
  decide +kernel

theorem lowerChar_kelvinSign : lowerChar kelvinSign = ['k'] := by decide +kernel

/-- **The lower-case form of a character outside ASCII** is one character outside ASCII. The Kelvin
sign is an exception, and a capital `I` with a dot, whose form ends in the dot. -/
theorem lowerChar_cases {c : Char} (hc : ¬ IsAscii c) :
    (c = kelvinSign ∧ lowerChar c = ['k']) ∨ lowerChar c = ['i', '\u0307'] ∨
      ∃ d, lowerChar c = [d] ∧ ¬ IsAscii d := by
  have hcode : 128 ≤ c.toNat := Nat.le_of_not_lt hc
  by_cases hkelvin : c = kelvinSign
  · exact .inl ⟨hkelvin, hkelvin ▸ lowerChar_kelvinSign⟩
  rw [lowerChar, mapCase]
  cases hruns : mapByRuns lowerRuns c with
  | some d =>
    obtain ⟨⟨first, last, step, shift⟩, hrun, hfirst, hlast, rfl⟩ := exists_of_mapByRuns hruns
    have hlead := lowerRuns_lead_outside _ hrun
    have hne : (first, last, step, shift) ≠ (0x212A, 0x212A, 1, -8383) := by
      rintro heq
      cases heq
      exact hkelvin (Char.toNat_inj.mp (Nat.le_antisymm hlast hfirst))
    dsimp only at hlead hfirst hlast
    have hvalid : (c.toNat + shift).toNat.isValidChar ∧ 128 ≤ (c.toNat + shift).toNat := by
      unfold Nat.isValidChar
      rcases hlead with hlead | hlead | hlead | hlead
      · omega
      · exact absurd hlead hne
      · omega
      · omega
    refine .inr (.inr ⟨_, rfl, ?_⟩)
    rw [IsAscii, toNat_ofNat_of_isValidChar hvalid.1]
    exact Nat.not_lt.mpr hvalid.2
  | none =>
    simp only [mapBySequences, lowerSequences, ← Array.findSome?_toList, List.findSome?_cons,
      List.findSome?_nil]
    by_cases hdotted : 0x130 = c.toNat
    · rw [if_pos hdotted]
      exact .inr (.inl rfl)
    · rw [if_neg hdotted]
      exact .inr (.inr ⟨c, rfl, hc⟩)

/-! ## Nothing vanishes -/

theorem lowerChar_ne_nil (c : Char) : lowerChar c ≠ [] := by
  by_cases hc : IsAscii c
  · simp [lowerChar_of_isAscii hc]
  · rcases lowerChar_cases hc with ⟨-, h⟩ | h | ⟨d, h, -⟩
    all_goals simp [h]

/-- **No text vanishes** in lower case. -/
theorem lower_eq_nil_iff {chars : List Char} : lower chars = [] ↔ chars = [] := by
  cases chars with
  | nil => exact iff_of_true rfl rfl
  | cons c rest =>
    have hne : lowerAfter [] (c :: rest) ≠ [] := by
      rw [lowerAfter]
      split_ifs <;> simp [lowerChar_ne_nil]
    exact iff_of_false hne (List.cons_ne_nil c rest)

end RpcSchema.Text
