/-! # Blank characters

Definitions, expressions and typed commands all ignore blanks in their own way. The class is
the Unicode property White_Space, so it also holds line breaks and the wide spaces of other
scripts.
-/

namespace ReactiveSheet.Text

set_option autoImplicit false

def isBlank (c : Char) : Bool :=
  ('\t' ≤ c && c ≤ '\r') || c == ' ' || c == '\u0085' || c == '\u00a0' || c == '\u1680' ||
  ('\u2000' ≤ c && c ≤ '\u200a') || c == '\u2028' || c == '\u2029' || c == '\u202f' ||
  c == '\u205f' || c == '\u3000'

theorem isBlank_of_isWhitespace {c : Char} (h : c.isWhitespace = true) : isBlank c = true := by
  simp only [Char.isWhitespace, Bool.or_eq_true, decide_eq_true_eq] at h
  rcases h with ((rfl | rfl) | rfl) | rfl <;> decide

/-- Drops the blanks at both ends. -/
def trim (text : List Char) : List Char :=
  ((text.dropWhile isBlank).reverse.dropWhile isBlank).reverse

/-- The longest runs of characters that are not blank. -/
def words (text : List Char) : List (List Char) :=
  (text.splitOnP isBlank).filter fun word => !word.isEmpty

/-- The text without any of its blanks. -/
def compact (text : List Char) : List Char :=
  text.filter fun c => !isBlank c

theorem compact_append (first second : List Char) :
    compact (first ++ second) = compact first ++ compact second :=
  List.filter_append ..

theorem isBlank_of_mem_compact {text : List Char} {c : Char} (h : c ∈ compact text) :
    isBlank c = false := by
  simpa using (List.mem_filter.mp h).2

end ReactiveSheet.Text
