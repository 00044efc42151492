import ReactiveSheet.Proofs.JsonText
import ReactiveSheet.Proofs.ReadBack

/-! # Numbers for data exchange

A number for data exchange has a point in it, a power of ten behind it, or both. In each of these
forms the parts can be told apart by their first characters, so the number is read again as the
float that it was written for. JSON also asks that there is no zero in front that could be left out.
-/

namespace ReactiveSheet

set_option autoImplicit false

open Float.Model.UnpackedFloat (Sign)

/-- Digits before a point and behind it, and a power of ten. There is no point if there are no
digits behind it. -/
structure Numeral where
  whole : List Char
  places : List Char
  power : Option Int
  whole_isDigit : ∀ c ∈ whole, c.isDigit = true
  places_isDigit : ∀ c ∈ places, c.isDigit = true
  noLeadingZero : whole = ['0'] ∨ ∃ c rest, c ≠ '0' ∧ whole = c :: rest

namespace Numeral

def powerText : Option Int → List Char
  | none => []
  | some power =>
    'e' :: (if 0 ≤ power then '+' else '-') :: Nat.toDigits 10 power.natAbs

/-- The text behind the whole digits. -/
def behind (numeral : Numeral) : List Char :=
  (if numeral.places = [] then [] else '.' :: numeral.places) ++ powerText numeral.power

def text (numeral : Numeral) : List Char :=
  numeral.whole ++ numeral.behind

def decimal (numeral : Numeral) : Decimal :=
  .ofDigits (numeral.whole ++ numeral.places) (numeral.power.getD 0 - numeral.places.length)

/-! ## Reading -/

theorem readExponent?_powerText (power : Option Int) :
    Number.readExponent? (powerText power) = some (power.getD 0) := by
  cases power with
  | none => rfl
  | some power =>
    have hDigits : (Nat.toDigits 10 power.natAbs).all Char.isDigit = true :=
      List.all_eq_true.mpr fun _ => Nat.isDigit_of_mem_toDigits (by decide) (by decide)
    have hNonempty : (Nat.toDigits 10 power.natAbs).isEmpty = false := by
      simp [Nat.toDigits_ne_nil]
    have hValue : Nat.ofDigitChars 10 (Nat.toDigits 10 power.natAbs) 0 = power.natAbs :=
      Nat.ofDigitChars_ten_toDigits
    by_cases hSign : 0 ≤ power
    · simp [powerText, hSign, Number.readExponent?, Number.readPower?, Number.readSign, hDigits,
        hNonempty, hValue]
    · have hNegative : -|power| = power := by rw [abs_of_neg (by omega), neg_neg]
      simp [powerText, hSign, Number.readExponent?, Number.readPower?, Number.readSign, hDigits,
        hNonempty, hValue, hNegative]

theorem span_append {digits rest : List Char} (h : ∀ c ∈ digits, c.isDigit = true)
    (hRest : ∀ c ∈ rest.head?, c.isDigit = false) :
    (digits ++ rest).takeWhile Char.isDigit = digits ∧
      (digits ++ rest).dropWhile Char.isDigit = rest := by
  rw [List.takeWhile_append_of_pos h, List.dropWhile_append_of_pos h]
  cases rest with
  | nil => simp
  | cons c rest =>
    have hc := hRest c rfl
    simp [hc]

theorem isDigit_head?_powerText (power : Option Int) :
    ∀ c ∈ (powerText power).head?, c.isDigit = false := by
  cases power with
  | none => simp [powerText]
  | some power => simp [powerText]

variable (numeral : Numeral)

theorem span_text : numeral.text.takeWhile Char.isDigit = numeral.whole ∧
    numeral.text.dropWhile Char.isDigit = numeral.behind := by
  apply span_append numeral.whole_isDigit
  rw [behind]
  split
  · exact isDigit_head?_powerText numeral.power
  · simp

theorem readFraction_behind :
    Number.readFraction numeral.behind = (numeral.places, powerText numeral.power) := by
  rw [behind]
  split
  · rename_i hNone
    rw [hNone, List.nil_append]
    cases numeral.power <;> rfl
  · obtain ⟨hTake, hDrop⟩ :=
      span_append numeral.places_isDigit (isDigit_head?_powerText numeral.power)
    rw [List.cons_append, Number.readFraction, hTake, hDrop]

theorem whole_ne_nil : numeral.whole ≠ [] := by
  rcases numeral.noLeadingZero with h | ⟨c, rest, _, h⟩ <;> simp [h]

theorem readDecimal?_text : Number.readDecimal? numeral.text = some numeral.decimal := by
  obtain ⟨hTake, hDrop⟩ := numeral.span_text
  simp [Number.readDecimal?, hTake, hDrop, readFraction_behind, readExponent?_powerText,
    whole_ne_nil, decimal]

theorem exists_digit : ∃ c rest, c.isDigit = true ∧ numeral.text = c :: rest := by
  obtain ⟨c, rest, hWhole⟩ := List.exists_cons_of_ne_nil numeral.whole_ne_nil
  refine ⟨c, rest ++ numeral.behind, numeral.whole_isDigit c ?_, ?_⟩
  · simp [hWhole]
  · rw [text, hWhole, List.cons_append]

theorem read?_text (s : Sign) : Number.read? (Number.sign s ++ numeral.text) =
    some (Number.signed s numeral.decimal.toFloat) := by
  obtain ⟨c, rest, hDigit, hText⟩ := numeral.exists_digit
  rw [hText, Number.read?_sign_append hDigit, ← hText, readDecimal?_text, Option.map_some]

/-! ## Numbers of JSON -/

theorem isNumber_text (s : Sign) : Json.isNumber (Number.sign s ++ numeral.text) = true := by
  have hUnsigned : (if (Number.sign s ++ numeral.text).head? == some '-'
      then (Number.sign s ++ numeral.text).tail else Number.sign s ++ numeral.text) =
        numeral.text := by
    cases s with
    | positive =>
      obtain ⟨c, rest, hDigit, hText⟩ := numeral.exists_digit
      have hc : c ≠ '-' := Number.ne_of_isDigit hDigit (by decide)
      simp [Number.sign, hText, hc]
    | negative => rfl
  have hWhole : (numeral.whole == ['0'] || numeral.whole.head?.any (· != '0')) = true := by
    rcases numeral.noLeadingZero with h | ⟨c, rest, hc, h⟩
    · simp [h]
    · simp [h, hc]
  have hPoint : (numeral.behind.head? != some '.' || !numeral.places.isEmpty) = true := by
    rw [behind]
    split
    · cases hPower : numeral.power <;> simp [powerText]
    · rename_i hPlaces
      simp [hPlaces]
  obtain ⟨hTake, hDrop⟩ := numeral.span_text
  rw [Json.isNumber, hUnsigned]
  simp only [hTake, hDrop, readFraction_behind, readExponent?_powerText, hWhole, hPoint]
  rfl

def isChar (c : Char) : Bool :=
  c.isDigit || ['-', '.', 'e', '+'].contains c

theorem isChar_of_isDigit {c : Char} (h : c.isDigit = true) : isChar c = true := by
  rw [isChar, h, Bool.true_or]

theorem isChar_of_mem_powerText {power : Option Int} {c : Char} (h : c ∈ powerText power) :
    isChar c = true := by
  cases power with
  | none => cases h
  | some power =>
    simp only [powerText, List.mem_cons] at h
    rcases h with rfl | rfl | h
    · decide
    · split <;> decide
    · exact isChar_of_isDigit (Nat.isDigit_of_mem_toDigits (by decide) (by decide) h)

theorem isChar_of_mem {s : Sign} {c : Char} (h : c ∈ Number.sign s ++ numeral.text) :
    isChar c = true := by
  simp only [text, behind, List.mem_append] at h
  rcases h with h | h | h | h
  · cases s with
    | positive => cases h
    | negative =>
      obtain rfl := List.mem_singleton.mp h
      decide
  · exact isChar_of_isDigit (numeral.whole_isDigit c h)
  · split at h
    · cases h
    · rcases List.mem_cons.mp h with rfl | h
      · decide
      · exact isChar_of_isDigit (numeral.places_isDigit c h)
  · exact isChar_of_mem_powerText h

theorem inWord_of_isChar {c : Char} (h : isChar c = true) : Json.inWord c = true := by
  by_contra hNot
  have hMem := Json.mem_of_not_inWord (Bool.eq_false_of_not_eq_true hNot)
  have hNone : ['"', ' ', '\n', '\r', '\t', '[', ']', '\x7b', '\x7d', ',', ':'].all
      (fun c => !isChar c) = true := by decide
  have hc := List.all_eq_true.mp hNone c hMem
  rw [h] at hc
  cases hc

theorem writes_text (s : Sign) :
    Json.Writes (Number.sign s ++ numeral.text)
      (.number (String.ofList (Number.sign s ++ numeral.text))) := by
  have hNonempty : numeral.text ≠ [] := by
    obtain ⟨c, rest, _, hText⟩ := numeral.exists_digit
    simp [hText]
  apply Json.writes_scalar
  · exact fun c hc => inWord_of_isChar (numeral.isChar_of_mem hc)
  · simp [hNonempty]
  · exact Json.scalar?_of_isNumber (numeral.isNumber_text s)

end Numeral

/-! ## Writing -/

theorem Decimal.exists_digits_eq {d : Decimal} (h : d.coefficient ≠ 0) :
    ∃ c rest, c ≠ '0' ∧ d.digits = c :: rest := by
  obtain ⟨n, exponent⟩ := d
  change n ≠ 0 at h
  change ∃ c rest, c ≠ '0' ∧ Nat.toDigits 10 n = c :: rest
  induction n using Nat.strongRecOn with
  | ind n ih =>
    rw [Nat.toDigits_eq_if (by decide)]
    split
    · exact ⟨_, [], mt Nat.digitChar_eq_zero.mp h, rfl⟩
    · obtain ⟨c, rest, hc, hRest⟩ := ih (n / 10) (by omega) (by omega)
      exact ⟨c, rest ++ [(n % 10).digitChar], hc, by rw [hRest]; rfl⟩

/-- A whole number has neither a point nor a power of ten. -/
def Numeral.ofNat (n : Nat) : Numeral where
  whole := Nat.toDigits 10 n
  places := []
  power := none
  whole_isDigit := (Decimal.mk n 0).isDigit_digits
  places_isDigit := by simp
  noLeadingZero := by
    by_cases hn : n = 0
    · left
      rw [hn]
      rfl
    · exact .inr (Decimal.exists_digits_eq (d := ⟨n, 0⟩) hn)

namespace Layout

variable {d : Decimal}

/-- The text is a numeral for the decimal. -/
def Denotes (text : List Char) (d : Decimal) : Prop :=
  ∃ numeral : Numeral, text = numeral.text ∧ numeral.decimal = d

theorem denotes_whole {count : Nat} (h : d.IsReduced) (hExponent : d.exponent = count) :
    Denotes (d.digits ++ List.replicate count '0' ++ ['.', '0']) d := by
  obtain ⟨first, others, hFirst, hOthers⟩ := Decimal.exists_digits_eq h.coefficient_ne_zero
  refine ⟨⟨d.digits ++ List.replicate count '0', ['0'], none, ?_, by simp, ?_⟩, ?_, ?_⟩
  · exact List.forall_mem_append.mpr ⟨d.isDigit_digits, fun _ => Number.isDigit_of_mem_zeros⟩
  · exact .inr ⟨first, _, hFirst, by rw [hOthers]; rfl⟩
  · simp [Numeral.text, Numeral.behind, Numeral.powerText]
  · rw [Numeral.decimal]
    dsimp only
    rw [Decimal.ofDigits_concat_zero]
    exact h.ofDigits_append_zeros hExponent

theorem denotes_point {front : Nat} (h : d.IsReduced) (hShort : front + 1 < d.digits.length)
    (hExponent : d.exponent = -(d.digits.length - (front + 1) : Nat)) :
    Denotes (d.digits.take (front + 1) ++ '.' :: d.digits.drop (front + 1)) d := by
  obtain ⟨first, others, hFirst, hOthers⟩ := Decimal.exists_digits_eq h.coefficient_ne_zero
  have hNonempty : d.digits.drop (front + 1) ≠ [] := by
    rw [← List.length_pos_iff_ne_nil, List.length_drop]
    omega
  refine ⟨⟨d.digits.take (front + 1), d.digits.drop (front + 1), none,
    fun c hc => d.isDigit_digits c (List.mem_of_mem_take hc),
    fun c hc => d.isDigit_digits c (List.mem_of_mem_drop hc), ?_⟩, ?_, ?_⟩
  · exact .inr ⟨first, _, hFirst, by rw [hOthers]; rfl⟩
  · simp [Numeral.text, Numeral.behind, Numeral.powerText, hNonempty]
  · rw [Numeral.decimal]
    dsimp only
    rw [List.take_append_drop, List.length_drop, Option.getD_none, Int.zero_sub]
    exact h.ofDigits_digits hExponent

theorem denotes_small {count : Nat} (h : d.IsReduced)
    (hExponent : d.exponent = -(count + d.digits.length : Nat)) :
    Denotes ('0' :: '.' :: (List.replicate count '0' ++ d.digits)) d := by
  have hNonempty : List.replicate count '0' ++ d.digits ≠ [] := by
    simp [Decimal.digits, Nat.toDigits_ne_nil]
  refine ⟨⟨['0'], List.replicate count '0' ++ d.digits, none, by simp,
    List.forall_mem_append.mpr ⟨fun _ => Number.isDigit_of_mem_zeros, d.isDigit_digits⟩,
    .inl rfl⟩, ?_, ?_⟩
  · rw [Numeral.text, Numeral.behind, if_neg hNonempty]
    simp [Numeral.powerText]
  · rw [Numeral.decimal]
    dsimp only
    rw [Option.getD_none, Int.zero_sub]
    exact h.ofDigits_zeros_append hExponent

theorem denotes_spellOut (h : d.IsReduced) :
    Denotes (spellOut ['.', '0'] d.digits d.exponent) d := by
  rw [spellOut]
  split
  · rename_i hExponent
    exact denotes_whole h (Int.toNat_of_nonneg hExponent).symm
  · rename_i hExponent
    dsimp only
    split
    · rename_i hShort
      obtain ⟨front, hFront⟩ : ∃ front, d.digits.length - (-d.exponent).toNat = front + 1 :=
        ⟨d.digits.length - (-d.exponent).toNat - 1, by omega⟩
      rw [hFront]
      exact denotes_point h (by omega) (by omega)
    · exact denotes_small h (by omega)

theorem denotes_withPower (h : d.IsReduced) :
    Denotes (withPower d.digits (d.digits.length - 1 + d.exponent)) d := by
  obtain ⟨first, others, hFirst, hOthers⟩ := Decimal.exists_digits_eq h.coefficient_ne_zero
  obtain ⟨hHead, hTail⟩ := List.forall_mem_cons.mp (hOthers ▸ d.isDigit_digits)
  have hSelf := h.ofDigits_digits rfl
  rw [hOthers] at hSelf ⊢
  refine ⟨⟨[first], others, some ((first :: others).length - 1 + d.exponent), by simp [hHead],
    hTail, .inr ⟨first, [], hFirst, rfl⟩⟩, ?_, ?_⟩
  · cases others <;> rfl
  · simp [Numeral.decimal, hSelf]

theorem denotes_write (h : d.IsReduced) : Denotes (exchange.write d) d := by
  simp only [write, exchange]
  split
  · exact denotes_spellOut h
  · exact denotes_withPower h

end Layout

namespace Number

variable {x : Float}

theorem exchange?_of_isFinite (h : x.isFinite = true) :
    ∃ (s : Sign) (numeral : Numeral), exchange? x = some (sign s ++ numeral.text) ∧
      signed s numeral.decimal.toFloat = x := by
  rcases unpack_of_isFinite h with ⟨s, hUnpack⟩ | ⟨s, m, e, hm, hUnpack⟩
  · refine ⟨s, ⟨['0'], ['0'], none, by simp, by simp, .inl rfl⟩, ?_, ?_⟩
    · rw [exchange?, write?, hUnpack]
      rfl
    · rw [eq_of_unpack hUnpack]
      cases s <;> decide
  · obtain ⟨hFloat, hReduced⟩ := shortest_spec Layout.exchange.tie
      (Binary.canonical_of_unpack hUnpack) (abs_of_unpack_finite hUnpack)
      (abs_ne_zero_of_unpack_finite hUnpack)
    obtain ⟨numeral, hText, hDecimal⟩ := Layout.denotes_write hReduced
    refine ⟨s, numeral, ?_, ?_⟩
    · rw [exchange?, write?, hUnpack, ← hText]
    · rw [hDecimal, hFloat, signed_abs_of_unpack_finite hUnpack]

theorem exchange?_of_not_isFinite (h : x.isFinite = false) : exchange? x = none := by
  rcases eq_of_not_isFinite h with rfl | rfl | rfl <;> rfl

end Number

end ReactiveSheet
