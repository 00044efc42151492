import Mathlib
import ReactiveSheet.Text.Blank

/-! # The words of a text

The words of a text stand in it one after another. What is before, between and behind them is
blank, so each word is a run of other characters that cannot be made longer.
-/

namespace ReactiveSheet.Text

set_option autoImplicit false

def IsGap (text : List Char) : Prop :=
  ∀ c ∈ text, isBlank c = true

structure IsWord (word : List Char) : Prop where
  nonempty : word ≠ []
  visible : ∀ c ∈ word, isBlank c = false

/-- The text has these words in this order, and a blank stands behind each of them or nothing. -/
inductive Spaced : List (List Char) → List Char → Prop
  | none {gap : List Char} (hGap : IsGap gap) : Spaced [] gap
  | word {gap word rest : List Char} {words : List (List Char)} (hGap : IsGap gap)
      (hWord : IsWord word) (hEnd : ∀ c ∈ rest.head?, isBlank c = true)
      (hRest : Spaced words rest) : Spaced (word :: words) (gap ++ (word ++ rest))

@[simp]
theorem words_nil : words [] = [] := by
  simp [words]

theorem words_append_blank {c : Char} (h : isBlank c = true) (first rest : List Char) :
    words (first ++ c :: rest) = words first ++ words rest := by
  rw [words, List.splitOnP_append_cons _ _ h, List.filter_append]
  rfl

theorem words_cons_blank {c : Char} (h : isBlank c = true) (rest : List Char) :
    words (c :: rest) = words rest := by
  simpa using words_append_blank h [] rest

theorem words_gap_append {gap : List Char} (h : IsGap gap) (rest : List Char) :
    words (gap ++ rest) = words rest := by
  induction gap with
  | nil => rfl
  | cons c gap ih =>
    rw [List.cons_append, words_cons_blank (h c List.mem_cons_self)]
    exact ih fun d hd => h d (List.mem_cons_of_mem _ hd)

theorem words_of_isWord {word : List Char} (h : IsWord word) : words word = [word] := by
  rw [words, List.splitOnP_eq_singleton h.visible]
  simp [h.nonempty]

theorem Spaced.words_eq {ws : List (List Char)} {text : List Char} (h : Spaced ws text) :
    words text = ws := by
  induction h with
  | @none gap hGap => simpa using words_gap_append hGap []
  | @word gap word rest ws hGap hWord hEnd hRest ih =>
    rw [words_gap_append hGap]
    cases rest with
    | nil =>
      rw [← ih, List.append_nil, words_of_isWord hWord, words_nil]
    | cons c rest =>
      have hBlank : isBlank c = true := hEnd c rfl
      rw [words_append_blank hBlank, words_of_isWord hWord, ← ih, words_cons_blank hBlank]
      rfl

theorem isGap_cons {c : Char} {gap : List Char} :
    IsGap (c :: gap) ↔ isBlank c = true ∧ IsGap gap :=
  List.forall_mem_cons

theorem IsWord.spaced_append {word rest : List Char} {ws : List (List Char)} (h : IsWord word)
    (hEnd : ∀ c ∈ rest.head?, isBlank c = true) (hRest : Spaced ws rest) :
    Spaced (word :: ws) (word ++ rest) := by
  have hNone : IsGap [] := by simp [IsGap]
  exact .word hNone h hEnd hRest

/-- A character that is not blank begins a word or makes the first one longer. -/
theorem Spaced.exists_cons {ws : List (List Char)} {text : List Char} (h : Spaced ws text)
    (c : Char) : ∃ more, Spaced more (c :: text) := by
  have hSingle : isBlank c = false → IsWord [c] := fun hc => ⟨by simp, by simpa using hc⟩
  cases hc : isBlank c with
  | true =>
    cases h with
    | none hGap => exact ⟨_, .none (isGap_cons.mpr ⟨hc, hGap⟩)⟩
    | word hGap hWord hEnd hRest => exact ⟨_, .word (isGap_cons.mpr ⟨hc, hGap⟩) hWord hEnd hRest⟩
  | false =>
    cases h with
    | none hGap =>
      have hEnd : ∀ d ∈ text.head?, isBlank d = true := fun d hd =>
        hGap d (List.mem_of_mem_head? hd)
      exact ⟨_, (hSingle hc).spaced_append hEnd (.none hGap)⟩
    | @word gap word rest ws hGap hWord hEnd hRest =>
      cases gap with
      | nil =>
        have hLonger : IsWord (c :: word) := by
          refine ⟨by simp, ?_⟩
          rw [List.forall_mem_cons]
          exact ⟨hc, hWord.visible⟩
        exact ⟨_, hLonger.spaced_append hEnd hRest⟩
      | cons d gap =>
        have hBlank : ∀ b ∈ (d :: gap ++ (word ++ rest)).head?, isBlank b = true := by
          rintro _ ⟨⟩
          exact hGap d List.mem_cons_self
        exact ⟨_, (hSingle hc).spaced_append hBlank (.word hGap hWord hEnd hRest)⟩

theorem spaced_words (text : List Char) : Spaced (words text) text := by
  have hExists : ∃ ws, Spaced ws text := by
    induction text with
    | nil => exact ⟨[], .none (by simp [IsGap])⟩
    | cons c text ih =>
      obtain ⟨ws, hText⟩ := ih
      exact hText.exists_cons c
  obtain ⟨ws, hText⟩ := hExists
  rwa [hText.words_eq]

theorem spaced_iff {ws : List (List Char)} {text : List Char} :
    Spaced ws text ↔ words text = ws :=
  ⟨Spaced.words_eq, fun h => h ▸ spaced_words text⟩

end ReactiveSheet.Text
