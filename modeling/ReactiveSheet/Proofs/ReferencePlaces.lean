import ReactiveSheet.Proofs.Evaluation

/-! # The places of references

A reference stands wherever an opening brace, decimal digits and a closing brace follow each other.
The scan finds these places and no others, in order, and the text that is put in for a reference
covers its place and leaves the rest of the formula as it is.
-/

namespace ReactiveSheet

set_option autoImplicit false

namespace Reference

/-- The digits that a reference can have. -/
structure IsNumeral (digits : List Char) : Prop where
  nonempty : digits ≠ []
  decimal : ∀ c ∈ digits, Text.isDecimalDigit c = true

instance (digits : List Char) : Decidable (IsNumeral digits) :=
  -- The instance for all characters would be found before the one for a list.
  haveI := List.decidableBAll (fun c => Text.isDecimalDigit c = true) digits
  decidable_of_iff (digits ≠ [] ∧ ∀ c ∈ digits, Text.isDecimalDigit c = true)
    ⟨fun ⟨hNonempty, hDecimal⟩ => ⟨hNonempty, hDecimal⟩, fun h => ⟨h.nonempty, h.decimal⟩⟩

/-- The value of ASCII digits if it fits, and otherwise the last index there is. -/
def numeralIndex (digits : List Char) : Nat :=
  let value := Nat.ofDigitChars 10 digits 0
  if digits.all Char.isDigit ∧ value < 2 ^ 64 then value else 2 ^ 64 - 1

/-- A position in a text and the digits that stand in braces there. -/
structure Occurrence where
  position : Nat
  digits : List Char
  deriving DecidableEq

namespace Occurrence

/-- The position behind the closing brace. -/
def stop (place : Occurrence) : Nat :=
  place.position + place.digits.length + 2

structure StandsIn (place : Occurrence) (text : List Char) : Prop where
  numeral : IsNumeral place.digits
  stands : ∃ rest, text.drop place.position = '\x7b' :: (place.digits ++ '\x7d' :: rest)

def index (place : Occurrence) : Nat :=
  numeralIndex place.digits

/-- The text from `start` on, with other texts in the places. -/
def splice (text : List Char) (filler : Occurrence → List Char) : Nat → List Occurrence → List Char
  | start, [] => text.drop start
  | start, place :: later =>
    (text.drop start).take (place.position - start) ++ filler place ++
      splice text filler place.stop later

theorem splice_of_drop {text rest : List Char} {c : Char} {filler : Occurrence → List Char}
    {start : Nat} {places : List Occurrence} (hText : text.drop start = c :: rest)
    (hPlaces : ∀ place ∈ places, start + 1 ≤ place.position) :
    splice text filler start places = c :: splice text filler (start + 1) places := by
  have hRest : text.drop (start + 1) = rest := by rw [← List.drop_drop, hText]; rfl
  cases places with
  | nil => rw [splice, splice, hText, hRest]
  | cons place later =>
    obtain ⟨more, hMore⟩ := Nat.exists_eq_add_of_le (hPlaces place List.mem_cons_self)
    have hLong : place.position - start = more + 1 := by omega
    have hShort : place.position - (start + 1) = more := by omega
    rw [splice, splice, hText, hRest, hLong, hShort, List.take_succ_cons, List.cons_append,
      List.cons_append]

theorem standsIn_cons {c : Char} {text digits : List Char} {position : Nat} :
    (Occurrence.mk (position + 1) digits).StandsIn (c :: text) ↔
      (Occurrence.mk position digits).StandsIn text :=
  ⟨fun h => ⟨h.numeral, h.stands⟩, fun h => ⟨h.numeral, h.stands⟩⟩

theorem standsIn_append {front text digits : List Char} {position : Nat} :
    (Occurrence.mk (front.length + position) digits).StandsIn (front ++ text) ↔
      (Occurrence.mk position digits).StandsIn text := by
  induction front with
  | nil => rw [List.length_nil, Nat.zero_add, List.nil_append]
  | cons c front ih =>
    rw [List.length_cons, Nat.add_right_comm, List.cons_append, standsIn_cons, ih]

theorem StandsIn.getElem?_eq {place : Occurrence} {text : List Char} (h : place.StandsIn text) :
    text[place.position]? = some '\x7b' := by
  obtain ⟨rest, hRest⟩ := h.stands
  rw [← Nat.add_zero place.position, ← List.getElem?_drop, hRest]
  rfl

theorem not_standsIn_of_not_mem {text : List Char} (h : '\x7b' ∉ text) (place : Occurrence) :
    ¬ place.StandsIn text :=
  fun hStands => h (List.mem_of_getElem? hStands.getElem?_eq)

end Occurrence

/-- The cut of a text: a reference where one begins, and one character where none does. -/
inductive Cut : List Char → List Segment → Prop
  | nil : Cut [] []
  | plain {c : Char} {text : List Char} {segments : List Segment}
      (hNone : ∀ digits, ¬ (Occurrence.mk 0 digits).StandsIn (c :: text))
      (hRest : Cut text segments) :
      Cut (c :: text) (.plain c :: segments)
  | reference {digits text : List Char} {segments : List Segment} (hNumeral : IsNumeral digits)
      (hRest : Cut text segments) :
      Cut ('\x7b' :: (digits ++ '\x7d' :: text)) (.reference digits :: segments)

theorem digits?_eq_none_iff {text : List Char} :
    digits? text = none ↔ ∀ digits, ¬ (Occurrence.mk 0 digits).StandsIn ('\x7b' :: text) := by
  constructor
  · rintro h digits ⟨hNumeral, rest, hRest⟩
    obtain rfl : text = digits ++ '\x7d' :: rest := List.tail_eq_of_cons_eq hRest
    rw [digits?_append rest hNumeral.nonempty hNumeral.decimal] at h
    cases h
  · intro h
    by_contra hSome
    obtain ⟨digits, hDigits⟩ := Option.ne_none_iff_exists'.mp hSome
    obtain ⟨rest, rfl, hNonempty, hDecimal⟩ := eq_append_of_digits? hDigits
    exact h digits ⟨⟨hNonempty, hDecimal⟩, rest, rfl⟩

theorem not_standsIn_of_ne_brace {c : Char} (h : c ≠ '\x7b') (text digits : List Char) :
    ¬ (Occurrence.mk 0 digits).StandsIn (c :: text) := by
  intro hStands
  exact h (Option.some.inj hStands.getElem?_eq)

theorem cut_scan (text : List Char) : Cut text (scan text) := by
  induction hLength : text.length using Nat.strongRecOn generalizing text with
  | ind n ih =>
    subst hLength
    cases text with
    | nil => exact .nil
    | cons c text =>
      have hText : Cut text (scan text) := ih text.length (by simp) text rfl
      by_cases hBrace : c = '\x7b'
      · subst hBrace
        cases hFound : digits? text with
        | none =>
          rw [scan, if_pos rfl, hFound]
          exact .plain (digits?_eq_none_iff.mp hFound) hText
        | some digits =>
          obtain ⟨rest, rfl, hNonempty, hDecimal⟩ := eq_append_of_digits? hFound
          rw [scan_reference rest hNonempty hDecimal]
          exact .reference ⟨hNonempty, hDecimal⟩ (ih rest.length (by simp; omega) rest rfl)
      · rw [scan, if_neg hBrace]
        exact .plain (not_standsIn_of_ne_brace hBrace text) hText

theorem Cut.eq_scan {text : List Char} {segments : List Segment} (h : Cut text segments) :
    segments = scan text := by
  induction h with
  | nil => rfl
  | @plain c text segments hNone _ ih =>
    by_cases hBrace : c = '\x7b'
    · subst hBrace
      rw [scan, if_pos rfl, digits?_eq_none_iff.mpr hNone, ih]
    · rw [scan, if_neg hBrace, ih]
  | reference hNumeral _ ih => rw [scan_reference _ hNumeral.nonempty hNumeral.decimal, ih]

/-- The references among the segments of a text that begins at a position. -/
def placesFrom : Nat → List Segment → List Occurrence
  | _, [] => []
  | start, .plain _ :: segments => placesFrom (start + 1) segments
  | start, .reference digits :: segments =>
    ⟨start, digits⟩ :: placesFrom (start + digits.length + 2) segments

theorem le_position_of_mem_placesFrom {segments : List Segment} {start : Nat} {place : Occurrence}
    (h : place ∈ placesFrom start segments) : start ≤ place.position := by
  induction segments generalizing start with
  | nil => cases h
  | cons segment segments ih =>
    cases segment with
    | plain c => exact Nat.le_of_succ_le (ih h)
    | reference digits =>
      rcases List.mem_cons.mp h with rfl | h
      · exact Nat.le_refl _
      · have hLater := ih h
        omega

theorem pairwise_placesFrom (segments : List Segment) (start : Nat) :
    (placesFrom start segments).Pairwise fun first second => first.stop ≤ second.position := by
  induction segments generalizing start with
  | nil => exact .nil
  | cons segment segments ih =>
    cases segment with
    | plain c => exact ih _
    | reference digits =>
      exact .cons (fun _ hPlace => le_position_of_mem_placesFrom hPlace) (ih _)

/-- A reference begins nowhere inside of another. -/
theorem not_standsIn_reference {digits others rest : List Char} {position : Nat}
    (hNumeral : IsNumeral digits) (hPosition : 0 < position)
    (hInside : position < digits.length + 2) :
    ¬ (Occurrence.mk position others).StandsIn ('\x7b' :: (digits ++ '\x7d' :: rest)) := by
  intro h
  obtain ⟨inner, rfl⟩ := Nat.exists_eq_add_of_lt hPosition
  have hBrace := h.getElem?_eq
  rw [Nat.zero_add, List.getElem?_cons_succ] at hBrace
  rcases Nat.lt_or_ge inner digits.length with hDigit | hEnd
  · rw [List.getElem?_append_left hDigit] at hBrace
    exact ne_brace_of_isDecimalDigit (hNumeral.decimal _ (List.mem_of_getElem? hBrace)) rfl
  · obtain rfl : inner = digits.length := by omega
    rw [List.getElem?_append_right (Nat.le_refl _), Nat.sub_self] at hBrace
    exact absurd hBrace (by simp)

theorem Cut.mem_placesFrom_iff {text : List Char} {segments : List Segment}
    (h : Cut text segments) (start : Nat) (place : Occurrence) :
    place ∈ placesFrom start segments ↔ ∃ position, place.position = start + position ∧
      (Occurrence.mk position place.digits).StandsIn text := by
  induction h generalizing start with
  | nil =>
    constructor
    · intro h
      cases h
    · rintro ⟨position, _, _, rest, hRest⟩
      cases hRest.symm.trans List.drop_nil
  | plain hNone _ ih =>
    rw [placesFrom, ih]
    constructor
    · rintro ⟨position, hPosition, hStands⟩
      exact ⟨position + 1, by omega, Occurrence.standsIn_cons.mpr hStands⟩
    · rintro ⟨position, hPosition, hStands⟩
      cases position with
      | zero => exact absurd hStands (hNone _)
      | succ position => exact ⟨position, by omega, Occurrence.standsIn_cons.mp hStands⟩
  | @reference digits text segments hNumeral _ ih =>
    have hLater : ∀ position others, (Occurrence.mk (digits.length + 2 + position) others).StandsIn
        ('\x7b' :: (digits ++ '\x7d' :: text)) ↔ (Occurrence.mk position others).StandsIn text := by
      intro position others
      have hFront : digits.length + 2 = ('\x7b' :: (digits ++ ['\x7d'])).length := by simp
      have hText : '\x7b' :: (digits ++ '\x7d' :: text) =
          '\x7b' :: (digits ++ ['\x7d']) ++ text := by simp
      rw [hFront, hText, Occurrence.standsIn_append]
    rw [placesFrom, List.mem_cons, ih]
    constructor
    · rintro (rfl | ⟨position, hPosition, hStands⟩)
      · exact ⟨0, rfl, hNumeral, text, rfl⟩
      · exact ⟨digits.length + 2 + position, by omega, (hLater _ _).mpr hStands⟩
    · rintro ⟨position, hPosition, hStands⟩
      rcases Nat.lt_or_ge position (digits.length + 2) with hInside | hBehind
      · rcases Nat.eq_zero_or_pos position with rfl | hPositive
        · obtain ⟨hOther, rest, hRest⟩ := hStands
          have hTails : digits ++ '\x7d' :: text = place.digits ++ '\x7d' :: rest :=
            List.tail_eq_of_cons_eq hRest
          have hDigits := digits?_append text hNumeral.nonempty hNumeral.decimal
          rw [hTails, digits?_append rest hOther.nonempty hOther.decimal] at hDigits
          left
          obtain ⟨own, others⟩ := place
          obtain rfl : own = start := hPosition
          obtain rfl : others = digits := Option.some.inj hDigits
          rfl
        · exact absurd hStands (not_standsIn_reference hNumeral hPositive hInside)
      · obtain ⟨more, rfl⟩ := Nat.exists_eq_add_of_le hBehind
        exact .inr ⟨more, by omega, (hLater _ _).mp hStands⟩

theorem index?_eq {digits : List Char} (h : IsNumeral digits) :
    (Segment.reference digits).index? = some (numeralIndex digits) := by
  have hDigits : Index.digits digits = digits := by
    rw [Index.digits]
    rintro rest rfl
    exact absurd (h.decimal '+' List.mem_cons_self) (by decide)
  have hBound : Index.bound = 2 ^ 64 := rfl
  have hNonempty : digits.isEmpty = false := by simpa using h.nonempty
  rw [Segment.index?, Index.read?, hDigits, hNonempty, Bool.false_or, numeralIndex, hBound]
  generalize (2 : Nat) ^ 64 = bound
  dsimp only
  cases digits.all Char.isDigit with
  | false => rfl
  | true => by_cases hRange : Nat.ofDigitChars 10 digits 0 < bound <;> simp [hRange]

theorem substituteSegment_reference (cells : List Cell) {digits : List Char}
    (h : IsNumeral digits) : Formula.substituteSegment cells (.reference digits) =
      Formula.valueText cells (numeralIndex digits) := by
  change ((Segment.reference digits).index?.map (Formula.valueText cells)).getD [] = _
  rw [index?_eq h]
  rfl

theorem Cut.filterMap_index?_eq {text : List Char} {segments : List Segment}
    (h : Cut text segments) (start : Nat) :
    segments.filterMap Segment.index? = (placesFrom start segments).map Occurrence.index := by
  induction h generalizing start with
  | nil => rfl
  | plain _ _ ih => exact ih _
  | reference hNumeral _ ih =>
    rw [List.filterMap_cons_some (index?_eq hNumeral), placesFrom, List.map_cons, ih]
    rfl

theorem Cut.splice_eq {text : List Char} {segments : List Segment} (h : Cut text segments)
    (cells : List Cell) {whole : List Char} {start : Nat} (hWhole : whole.drop start = text) :
    Occurrence.splice whole (fun place => Formula.valueText cells place.index) start
      (placesFrom start segments) = segments.flatMap (Formula.substituteSegment cells) := by
  induction h generalizing start with
  | nil => exact hWhole
  | @plain c text segments _ _ ih =>
    have hRest : whole.drop (start + 1) = text := by rw [← List.drop_drop, hWhole]; rfl
    rw [placesFrom, Occurrence.splice_of_drop hWhole fun _ => le_position_of_mem_placesFrom,
      ih hRest]
    rfl
  | @reference digits text segments hNumeral _ ih =>
    have hRest : whole.drop (start + digits.length + 2) = text := by
      rw [Nat.add_assoc, ← List.drop_drop, hWhole]
      simp
    rw [placesFrom, Occurrence.splice, List.flatMap_cons,
      substituteSegment_reference cells hNumeral, Nat.sub_self, List.take_zero, List.nil_append]
    exact congrArg _ (ih hRest)

end Reference

namespace Formula

open Reference

/-- The references of a formula are its places in order, each with the index that its digits mean.
For an evaluation these places are given other texts, all at once, and nothing else is touched. -/
theorem references_found_and_replaced (formula : String) :
    ∃ places : List Occurrence,
      (∀ place, place ∈ places ↔ place.StandsIn formula.toList) ∧
      places.Pairwise (fun first second => first.stop ≤ second.position) ∧
      references formula = places.map Occurrence.index ∧
      ∀ cells, (replace formula cells).text =
        Occurrence.splice formula.toList (fun place => valueText cells place.index) 0 places := by
  have hCut := Reference.cut_scan formula.toList
  refine ⟨Reference.placesFrom 0 (segments formula), ?_, Reference.pairwise_placesFrom _ _,
    hCut.filterMap_index?_eq 0, ?_⟩
  · intro place
    rw [segments, hCut.mem_placesFrom_iff]
    constructor
    · rintro ⟨position, hPosition, hStands⟩
      obtain rfl : place.position = position := by omega
      exact hStands
    · intro hStands
      exact ⟨place.position, by omega, hStands⟩
  · intro cells
    rw [replace_eq]
    exact (hCut.splice_eq cells rfl).symm

example : references "\x7b\x7b1\x7d\x7d+\x7b1\x7b002\x7d+\x7b\x7d+\x7b 1 \x7d+\x7b٣\x7d" =
    [1, 2, 2 ^ 64 - 1] := by decide +kernel

end Formula

/-! ## Characters between references -/

theorem Text.isDecimalDigit_of_isBlank {c : Char} (h : isBlank c = true) :
    isDecimalDigit c = false := by
  have hControls : ∀ n < 5, digitZeros.any (fun first =>
      first ≤ 0x9 + n && 0x9 + n < first + 10) = false := by decide
  have hSpaces : ∀ n < 11, digitZeros.any (fun first =>
      first ≤ 0x2000 + n && 0x2000 + n < first + 10) = false := by decide
  simp only [isBlank, Bool.or_eq_true, Bool.and_eq_true, beq_iff_eq, decide_eq_true_eq,
    or_assoc] at h
  rcases h with hControl | rfl | rfl | rfl | rfl | hSpace | rfl | rfl | rfl | rfl | rfl
  case inl =>
    have hLow : 0x9 ≤ c.toNat := hControl.1
    have hHigh : c.toNat ≤ 0xd := hControl.2
    obtain ⟨n, hn⟩ := Nat.exists_eq_add_of_le hLow
    rw [isDecimalDigit, hn]
    exact hControls n (by omega)
  case inr.inr.inr.inr.inr.inl =>
    have hLow : 0x2000 ≤ c.toNat := hSpace.1
    have hHigh : c.toNat ≤ 0x200a := hSpace.2
    obtain ⟨n, hn⟩ := Nat.exists_eq_add_of_le hLow
    rw [isDecimalDigit, hn]
    exact hSpaces n (by omega)
  all_goals decide

namespace Reference

/-- The characters that references are made of. -/
def isPart (c : Char) : Bool :=
  c == '\x7b' || c == '\x7d' || Text.isDecimalDigit c

theorem isPart_of_isBlank {c : Char} (h : Text.isBlank c = true) : isPart c = false := by
  rw [isPart, Text.isDecimalDigit_of_isBlank h, Bool.or_false, Bool.or_eq_false_iff,
    beq_eq_false_iff_ne, beq_eq_false_iff_ne]
  constructor
  · rintro rfl
    exact absurd h (by decide)
  · rintro rfl
    exact absurd h (by decide)

theorem ne_brace_of_isPart {c : Char} (h : isPart c = false) : c ≠ '\x7b' := by
  rintro rfl
  exact absurd h (by decide)

/-- No reference goes on over a character that is no part of one. -/
theorem standsIn_of_append_cons {c : Char} (hc : isPart c = false) {first second digits : List Char}
    (h : (Occurrence.mk 0 digits).StandsIn (first ++ c :: second)) :
    (Occurrence.mk 0 digits).StandsIn first := by
  obtain ⟨hNumeral, rest, hRest⟩ := h
  cases first with
  | nil => exact absurd (List.head_eq_of_cons_eq hRest) (ne_brace_of_isPart hc)
  | cons d first =>
    obtain rfl : d = '\x7b' := List.head_eq_of_cons_eq hRest
    have hTail : first ++ c :: second = (digits ++ ['\x7d']) ++ rest := by
      rw [List.append_assoc]
      exact List.tail_eq_of_cons_eq hRest
    rcases List.append_eq_append_iff.mp hTail with ⟨more, hMore, hSecond⟩ | ⟨more, hFirst, _⟩
    · cases more with
      | nil =>
        rw [List.append_nil] at hMore
        exact ⟨hNumeral, [], by rw [← hMore]; rfl⟩
      | cons e more =>
        obtain rfl : c = e := List.head_eq_of_cons_eq hSecond
        have hPart : c ∈ digits ++ ['\x7d'] := by simp [hMore]
        rcases List.mem_append.mp hPart with hDigit | hEnd
        · rw [isPart, hNumeral.decimal c hDigit, Bool.or_true] at hc
          cases hc
        · obtain rfl := List.mem_singleton.mp hEnd
          exact absurd hc (by decide)
    · exact ⟨hNumeral, more, by rw [hFirst]; simp⟩

theorem Cut.append_cons {first second : List Char} {segments others : List Segment} {c : Char}
    (h : Cut first segments) (hc : isPart c = false) (hSecond : Cut second others) :
    Cut (first ++ c :: second) (segments ++ .plain c :: others) := by
  induction h with
  | nil => exact .plain (not_standsIn_of_ne_brace (ne_brace_of_isPart hc) second) hSecond
  | plain hNone _ ih =>
    exact .plain (fun digits hStands => hNone digits (standsIn_of_append_cons hc hStands)) ih
  | reference hNumeral _ ih => simpa using Cut.reference hNumeral ih

theorem Cut.eq_map_plain {text : List Char} {segments : List Segment} (h : Cut text segments)
    (hNone : ∀ place : Occurrence, ¬ place.StandsIn text) : segments = text.map .plain := by
  induction h with
  | nil => rfl
  | @plain c text segments _ _ ih =>
    rw [ih fun place hStands => hNone ⟨place.position + 1, place.digits⟩
      (Occurrence.standsIn_cons.mpr hStands), List.map_cons]
  | @reference digits text segments hNumeral _ _ =>
    exact absurd ⟨hNumeral, text, rfl⟩ (hNone ⟨0, digits⟩)

/-- The text with other texts in the places of its references. -/
def fill (cells : List Cell) (text : List Char) : List Char :=
  (scan text).flatMap (Formula.substituteSegment cells)

theorem fill_append_cons (cells : List Cell) {c : Char} (hc : isPart c = false)
    (first second : List Char) :
    fill cells (first ++ c :: second) = fill cells first ++ c :: fill cells second := by
  rw [fill, ← ((cut_scan first).append_cons hc (cut_scan second)).eq_scan, List.flatMap_append,
    List.flatMap_cons]
  rfl

theorem fill_reference (cells : List Cell) {digits : List Char} (h : IsNumeral digits) :
    fill cells ('\x7b' :: (digits ++ ['\x7d'])) =
      Formula.valueText cells (numeralIndex digits) := by
  rw [fill, ← (Cut.reference h .nil).eq_scan, List.flatMap_cons,
    substituteSegment_reference cells h]
  exact List.append_nil _

theorem fill_of_none (cells : List Cell) {text : List Char}
    (h : ∀ place : Occurrence, ¬ place.StandsIn text) : fill cells text = text := by
  rw [fill, (cut_scan text).eq_map_plain h, List.flatMap_map]
  exact List.flatMap_singleton' text

theorem fill_blanks_append (cells : List Cell) {blanks : List Char}
    (h : ∀ c ∈ blanks, Text.isBlank c = true) (text : List Char) :
    fill cells (blanks ++ text) = blanks ++ fill cells text := by
  induction blanks with
  | nil => rfl
  | cons c blanks ih =>
    have hRest := ih fun d hd => h d (List.mem_cons_of_mem _ hd)
    have hc := isPart_of_isBlank (h c List.mem_cons_self)
    rw [List.cons_append, List.cons_append, ← hRest]
    exact fill_append_cons cells hc [] (blanks ++ text)

theorem fill_append_blanks (cells : List Cell) {blanks : List Char}
    (h : ∀ c ∈ blanks, Text.isBlank c = true) (text : List Char) :
    fill cells (text ++ blanks) = fill cells text ++ blanks := by
  cases blanks with
  | nil => rw [List.append_nil, List.append_nil]
  | cons c blanks =>
    have hBlanks := fill_blanks_append cells (fun d hd => h d (List.mem_cons_of_mem _ hd)) []
    rw [List.append_nil] at hBlanks
    rw [fill_append_cons cells (isPart_of_isBlank (h c List.mem_cons_self)), hBlanks]
    exact congrArg (fill cells text ++ c :: ·) (List.append_nil blanks)

end Reference

end ReactiveSheet
