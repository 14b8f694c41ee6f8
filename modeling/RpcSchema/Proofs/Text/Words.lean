import RpcSchema.Proofs.Text.Case
import RpcSchema.Text.Words

set_option autoImplicit false

/-!
# The characters of words

A name is cut into clusters, and these are put together to words, of which none but the separators
is left out. So the words of a name have its characters, and when they are joined by hyphens nothing
but hyphens is new.

## Main results

* `RpcSchema.Text.flatten_clusters` — the clusters of a text are the text.
* `RpcSchema.Text.forall_mem_words_iff` — the characters of the words of a text.
* `RpcSchema.Text.forall_mem_kebab_iff` — the characters of a name whose words are joined by
  hyphens.
* `RpcSchema.Text.kebab_eq_empty_iff` — when nothing is left of a name.
-/

namespace RpcSchema.Text

/-! ## Clusters -/

theorem flatten_clustersFrom : ∀ current chars : List Char,
    (clustersFrom current chars).flatten = current.reverse ++ chars
  | current, [] => by cases current <;> simp [clustersFrom]
  | current, c :: rest => by
    rw [clustersFrom]
    split
    · rw [flatten_clustersFrom, List.reverse_cons, List.append_assoc, List.singleton_append]
    · rw [List.flatten_cons, flatten_clustersFrom, List.reverse_singleton, List.singleton_append]

/-- **The clusters of a text are the text.** -/
theorem flatten_clusters (chars : List Char) : (clusters chars).flatten = chars :=
  flatten_clustersFrom [] chars

/-- A separator is one of three characters by itself. -/
theorem clusterKind_eq_separator_iff {cluster : List Char} :
    clusterKind cluster = .separator ↔ cluster = ['_'] ∨ cluster = ['-'] ∨ cluster = [' '] := by
  unfold clusterKind
  by_cases hseparator : cluster = ['_'] ∨ cluster = ['-'] ∨ cluster = [' ']
  · rw [if_pos hseparator]
    exact iff_of_true rfl hseparator
  · rw [if_neg hseparator]
    dsimp only
    split_ifs
    all_goals exact iff_of_false nofun hseparator

/-! ## Words -/

theorem wordsFrom_ne_nil (current : List (List Char)) (pairs : List (List Char × ClusterKind)) :
    wordsFrom current pairs ≠ [] := by
  induction pairs generalizing current with
  | nil => exact List.cons_ne_nil _ _
  | cons pair rest ih =>
    obtain ⟨cluster, kind⟩ := pair
    rw [wordsFrom]
    split_ifs
    · exact List.cons_ne_nil _ _
    · exact List.cons_ne_nil _ _
    · exact ih _

/-- The words have the characters of all clusters but the separators. -/
theorem flatten_wordsFrom (current : List (List Char)) (pairs : List (List Char × ClusterKind)) :
    (wordsFrom current pairs).flatten = current.reverse.flatten ++
      (pairs.filter fun pair => pair.2 ≠ .separator).flatMap Prod.fst := by
  induction pairs generalizing current with
  | nil => simp [wordsFrom]
  | cons pair rest ih =>
    obtain ⟨cluster, kind⟩ := pair
    rw [wordsFrom]
    split_ifs with hkind hends
    · simp [ih, hkind]
    · simp [ih, hkind]
    · simp [ih, hkind]

/-- **The characters of the words** of a text are its characters, as far as separators do not
matter. -/
theorem forall_mem_words_iff {q : Char → Prop} {chars : List Char}
    (hseparator : ∀ c ∈ chars, c = '_' ∨ c = '-' ∨ c = ' ' → q c) :
    (∀ word ∈ words chars, ∀ c ∈ word, q c) ↔ ∀ c ∈ chars, q c := by
  have hwords : (∀ word ∈ words chars, ∀ c ∈ word, q c) ↔
      ∀ cluster ∈ clusters chars, clusterKind cluster ≠ .separator → ∀ c ∈ cluster, q c := by
    rw [← List.forall_mem_flatten, words, flatten_wordsFrom]
    simp only [List.reverse_nil, List.flatten_nil, List.nil_append, List.mem_flatMap,
      List.mem_filter, List.mem_map, decide_eq_true_eq]
    constructor
    · intro h cluster hcluster hkind c hc
      exact h c ⟨_, ⟨⟨cluster, hcluster, rfl⟩, hkind⟩, hc⟩
    · rintro h c ⟨_, ⟨⟨cluster, hcluster, rfl⟩, hkind⟩, hc⟩
      exact h cluster hcluster hkind c hc
  have hchars : (∀ c ∈ chars, q c) ↔ ∀ cluster ∈ clusters chars, ∀ c ∈ cluster, q c := by
    rw [← List.forall_mem_flatten, flatten_clusters]
  rw [hwords, hchars]
  refine ⟨fun h cluster hcluster => ?_, fun h cluster hcluster _ => h cluster hcluster⟩
  by_cases hkind : clusterKind cluster = .separator
  · intro c hc
    refine hseparator c ?_ ?_
    · rw [← flatten_clusters chars]
      exact List.mem_flatten_of_mem hcluster hc
    · rcases clusterKind_eq_separator_iff.mp hkind with rfl | rfl | rfl
      all_goals simp_all
  · exact h cluster hcluster hkind

/-- A text that is one word has no separators and is the word itself. -/
theorem eq_of_wordsFrom_eq_singleton {word : List Char} {current : List (List Char)}
    {pairs : List (List Char × ClusterKind)} (h : wordsFrom current pairs = [word]) :
    word = current.reverse.flatten ++ pairs.flatMap Prod.fst := by
  induction pairs generalizing current with
  | nil =>
    cases h
    simp
  | cons pair rest ih =>
    obtain ⟨cluster, kind⟩ := pair
    rw [wordsFrom] at h
    split_ifs at h
    · exact absurd (List.cons.inj h).2 (wordsFrom_ne_nil _ _)
    · exact absurd (List.cons.inj h).2 (wordsFrom_ne_nil _ _)
    · rw [ih h]
      simp

/-! ## Joined words -/

/-- The characters of joined texts are those of the texts and those of the text between them. -/
theorem forall_mem_intercalate_iff {p : Char → Prop} {between : String}
    (hbetween : ∀ d ∈ between.toList, p d) {texts : List String} :
    (∀ d ∈ (between.intercalate texts).toList, p d) ↔ ∀ text ∈ texts, ∀ d ∈ text.toList, p d := by
  induction texts with
  | nil => simp
  | cons text rest ih =>
    cases rest with
    | nil => simp
    | cons next rest =>
      rw [String.intercalate_cons_cons, String.toList_append, String.toList_append,
        List.forall_mem_append, List.forall_mem_append, ih, List.forall_mem_cons (a := text)]
      exact and_congr_left fun _ => and_iff_left hbetween

/-- **The characters of a name whose words are joined by hyphens** are hyphens and those of the name
in lower case, as far as separators and final sigmas do not matter. -/
theorem forall_mem_kebab_iff {p : Char → Prop} (hhyphen : p '-') (hsigma : p 'ς' ↔ p 'σ')
    {name : String}
    (hseparator : ∀ c ∈ name.toList, c = '_' ∨ c = '-' ∨ c = ' ' → ∀ d ∈ lowerChar c, p d) :
    (∀ d ∈ (kebab name).toList, p d) ↔ ∀ c ∈ name.toList, ∀ d ∈ lowerChar c, p d := by
  rw [kebab, forall_mem_intercalate_iff (by simpa using hhyphen), List.forall_mem_map,
    ← forall_mem_words_iff hseparator]
  simp only [String.toList_ofList, forall_mem_lower_iff hsigma]

/-- **Nothing is left of a name** only if it is empty. -/
theorem kebab_eq_empty_iff {name : String} : kebab name = "" ↔ name = "" := by
  constructor
  · intro h
    rw [kebab] at h
    rcases hwords : words name.toList with _ | ⟨first, _ | ⟨second, rest⟩⟩
    · exact absurd hwords (wordsFrom_ne_nil _ _)
    · rw [hwords, List.map_singleton, String.intercalate_singleton] at h
      have hfirst : first = [] := lower_eq_nil_iff.mp (by simpa using congrArg String.toList h)
      have hname : first = name.toList := by
        rw [eq_of_wordsFrom_eq_singleton hwords, List.flatMap_map, List.flatMap_id']
        exact flatten_clusters _
      rw [← String.toList_inj, ← hname, hfirst]
      rfl
    · rw [hwords, List.map_cons, List.map_cons, String.intercalate_cons_cons] at h
      simp at h
  · rintro rfl
    rfl

end RpcSchema.Text
