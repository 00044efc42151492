import ReactiveSheet.Text.Digit
import ReactiveSheet.Number.Index

/-! # References

A reference is a cell index in braces. A formula is cut into its references and the characters
between them; everything that is asked of the references of a formula is read off this one list.
-/

namespace ReactiveSheet

set_option autoImplicit false

inductive Segment where
  | plain (c : Char)
  | reference (digits : List Char)
  deriving DecidableEq, Repr

namespace Segment

def text : Segment → List Char
  | plain c => [c]
  | reference digits => '\x7b' :: (digits ++ ['\x7d'])

/-- The cell that a reference means. Digits that are no index mean the last one there is. -/
def index? : Segment → Option Nat
  | plain _ => none
  | reference digits => some ((Index.read? digits).getD (Index.bound - 1))

end Segment

namespace Reference

/-- The digits of the reference whose opening brace is just before the text, if there is one. -/
def digits? (text : List Char) : Option (List Char) :=
  let digits := text.takeWhile Text.isDecimalDigit
  let rest := text.dropWhile Text.isDecimalDigit
  if digits ≠ [] ∧ rest.head? = some '\x7d' then some digits else none

/-- Cuts a formula. Neither a digit nor a closing brace starts a reference, so what a reference
covers was cut into single characters, and these are dropped again. -/
def scan : List Char → List Segment
  | [] => []
  | c :: text =>
    if c = '\x7b' then
      match digits? text with
      | some digits => .reference digits :: (scan text).drop (digits.length + 1)
      | none => .plain c :: scan text
    else .plain c :: scan text

theorem ne_brace_of_isDecimalDigit {c : Char} (h : Text.isDecimalDigit c = true) :
    c ≠ '\x7b' := by
  rintro rfl
  exact absurd h (by decide)

theorem eq_append_of_digits? {text digits : List Char} (h : digits? text = some digits) :
    ∃ rest, text = digits ++ '\x7d' :: rest ∧ digits ≠ [] ∧
      ∀ c ∈ digits, Text.isDecimalDigit c = true := by
  simp only [digits?] at h
  split at h
  · rename_i hFound
    obtain ⟨hDigits, hBrace⟩ := hFound
    obtain rfl := Option.some.inj h
    have hText := List.takeWhile_append_dropWhile (p := Text.isDecimalDigit) (l := text)
    obtain ⟨rest, hRest⟩ := List.head?_eq_some_iff.mp hBrace
    refine ⟨rest, ?_, hDigits, fun c hc => ?_⟩
    · rw [← hRest, hText]
    · exact List.all_eq_true.mp List.all_takeWhile c hc
  · cases h

theorem digits?_append {digits : List Char} (rest : List Char) (hNonempty : digits ≠ [])
    (hDigits : ∀ c ∈ digits, Text.isDecimalDigit c = true) :
    digits? (digits ++ '\x7d' :: rest) = some digits := by
  have hTake : (digits ++ '\x7d' :: rest).takeWhile Text.isDecimalDigit = digits := by
    rw [List.takeWhile_append_of_pos hDigits,
      List.takeWhile_cons_of_neg (by decide), List.append_nil]
  have hDrop : (digits ++ '\x7d' :: rest).dropWhile Text.isDecimalDigit = '\x7d' :: rest := by
    rw [List.dropWhile_append_of_pos hDigits, List.dropWhile_cons_of_neg (by decide)]
  simp [digits?, hTake, hDrop, hNonempty]

theorem scan_append {text : List Char} (rest : List Char) (h : ∀ c ∈ text, c ≠ '\x7b') :
    scan (text ++ rest) = text.map .plain ++ scan rest := by
  induction text with
  | nil => rfl
  | cons c text ih =>
    have hc := h c List.mem_cons_self
    have hRest := ih fun d hd => h d (List.mem_cons_of_mem _ hd)
    rw [List.cons_append, scan, if_neg hc, hRest, List.map_cons, List.cons_append]

/-- A reference is cut as one piece, and the scan goes on behind it. -/
theorem scan_reference {digits : List Char} (rest : List Char) (hNonempty : digits ≠ [])
    (hDigits : ∀ c ∈ digits, Text.isDecimalDigit c = true) :
    scan ('\x7b' :: (digits ++ '\x7d' :: rest)) = .reference digits :: scan rest := by
  have hPlain : scan (digits ++ '\x7d' :: rest) =
      digits.map .plain ++ .plain '\x7d' :: scan rest := by
    rw [scan_append _ fun c hc => ne_brace_of_isDecimalDigit (hDigits c hc), scan,
      if_neg (by decide)]
  rw [scan, if_pos rfl, digits?_append rest hNonempty hDigits, hPlain]
  change Segment.reference digits :: List.drop (digits.length + 1) _ = _
  rw [← List.length_map (f := Segment.plain), List.drop_append]
  simp

/-- Nothing of a formula is lost. -/
theorem flatMap_text_scan (text : List Char) : (scan text).flatMap Segment.text = text := by
  induction hLength : text.length using Nat.strongRecOn generalizing text with
  | ind n ih =>
    subst hLength
    cases text with
    | nil => rfl
    | cons c text =>
      have hText : (scan text).flatMap Segment.text = text :=
        ih text.length (by simp) text rfl
      by_cases hBrace : c = '\x7b'
      · subst hBrace
        cases hFound : digits? text with
        | none =>
          rw [scan, if_pos rfl, hFound]
          exact congrArg ('\x7b' :: ·) hText
        | some digits =>
          obtain ⟨rest, rfl, hNonempty, hDigits⟩ := eq_append_of_digits? hFound
          rw [scan_reference rest hNonempty hDigits, List.flatMap_cons,
            ih rest.length (by simp; omega) rest rfl]
          simp [Segment.text]
      · rw [scan, if_neg hBrace]
        exact congrArg (c :: ·) hText

end Reference

end ReactiveSheet
