import Mathlib
import ReactiveSheet.Proofs.ExactValue

/-! # The value of a decimal

Reading digits keeps their value, whichever zeros they end in. A decimal whose value is that of a
float is read as the float, and so the shortest decimal of a float is read as the float that it was
made for.
-/

namespace ReactiveSheet

set_option autoImplicit false

namespace Decimal

@[simp]
theorem ofDigits_nil (exponent : Int) : ofDigits [] exponent = ⟨0, exponent⟩ := by
  simp [ofDigits, Nat.ofDigitChars]

@[simp]
theorem ofDigits_concat_zero (digits : List Char) (exponent : Int) :
    ofDigits (digits ++ ['0']) exponent = ofDigits digits (exponent + 1) := by
  have hLength := List.length_dropWhile_le (· == '0') digits.reverse
  rw [List.length_reverse] at hLength
  simp [ofDigits]
  omega

theorem ofDigits_concat_of_ne {c : Char} (h : c ≠ '0') (digits : List Char) (exponent : Int) :
    ofDigits (digits ++ [c]) exponent =
      ⟨Nat.ofDigitChars 10 (digits ++ [c]) 0, exponent⟩ := by
  simp [ofDigits, h]

/-- The number that a decimal stands for. -/
def value (d : Decimal) : ℚ :=
  d.coefficient * 10 ^ d.exponent

theorem value_ofDigits (digits : List Char) (exponent : Int) :
    (ofDigits digits exponent).value = Nat.ofDigitChars 10 digits 0 * 10 ^ exponent := by
  induction digits using List.reverseRecOn generalizing exponent with
  | nil => simp [value]
  | append_singleton digits c ih =>
    by_cases hc : c = '0'
    · subst hc
      rw [ofDigits_concat_zero, ih, Nat.ofDigitChars_append, zpow_add₀ (by norm_num)]
      simp [Nat.ofDigitChars_cons]
      ring
    · rw [ofDigits_concat_of_ne hc, value]

theorem ofDigitChars_concat (digits : List Char) (c : Char) :
    Nat.ofDigitChars 10 (digits ++ [c]) 0 = 10 * Nat.ofDigitChars 10 digits 0 + (c.toNat - 48) := by
  rw [Nat.ofDigitChars_append, Nat.ofDigitChars_cons, Nat.ofDigitChars_nil]
  rfl

theorem coefficient_ofDigits_mod_ten {digits : List Char} (hDigits : ∀ c ∈ digits, c.isDigit = true)
    (h : Nat.ofDigitChars 10 digits 0 ≠ 0) (exponent : Int) :
    (ofDigits digits exponent).coefficient % 10 ≠ 0 := by
  induction digits using List.reverseRecOn generalizing exponent with
  | nil => exact absurd rfl h
  | append_singleton digits c ih =>
    rw [ofDigitChars_concat] at h
    by_cases hc : c = '0'
    · subst hc
      rw [ofDigits_concat_zero]
      refine ih (fun d hd => hDigits d (List.mem_append_left _ hd)) ?_ _
      intro hZero
      exact h (by rw [hZero]; rfl)
    · rw [ofDigits_concat_of_ne hc, ofDigitChars_concat]
      have hDigit := hDigits c (by simp)
      simp only [Char.isDigit, Bool.and_eq_true, decide_eq_true_eq] at hDigit
      have hLow : 48 ≤ c.toNat := hDigit.1
      have hHigh : c.toNat ≤ 57 := hDigit.2
      have hNe : c.toNat ≠ 48 := fun hEq => hc (Char.toNat_inj.mp hEq)
      dsimp only
      omega

theorem ofDigits_append_zeros (digits : List Char) (exponent : Int) (count : Nat) :
    ofDigits (digits ++ List.replicate count '0') exponent =
      ofDigits digits (exponent + count) := by
  induction count generalizing exponent with
  | zero => simp
  | succ count ih =>
    rw [List.replicate_succ', ← List.append_assoc, ofDigits_concat_zero, ih]
    push_cast
    rw [add_assoc, add_comm (1 : Int)]

theorem ofDigits_zeros_append {digits : List Char} (h : Nat.ofDigitChars 10 digits 0 ≠ 0)
    (exponent : Int) (count : Nat) :
    ofDigits (List.replicate count '0' ++ digits) exponent = ofDigits digits exponent := by
  induction digits using List.reverseRecOn generalizing exponent with
  | nil => exact absurd rfl h
  | append_singleton digits c ih =>
    rw [← List.append_assoc]
    by_cases hc : c = '0'
    · subst hc
      rw [ofDigits_concat_zero, ofDigits_concat_zero]
      refine ih (fun hZero => h ?_) _
      rw [ofDigitChars_concat, hZero]
      rfl
    · rw [ofDigits_concat_of_ne hc, ofDigits_concat_of_ne hc, List.append_assoc,
        Nat.ofDigitChars_append, Nat.ofDigitChars_replicate_zero, Nat.mul_zero]

theorem isDigit_of_mem_digits {d : Decimal} {c : Char} (h : c ∈ d.digits) : c.isDigit = true :=
  Nat.isDigit_of_mem_toDigits (by decide) (by decide) h

theorem ofDigitChars_digits (d : Decimal) : Nat.ofDigitChars 10 d.digits 0 = d.coefficient :=
  Nat.ofDigitChars_ten_toDigits

theorem value_reduced (d : Decimal) : d.reduced.value = d.value := by
  rw [reduced, value_ofDigits, ofDigitChars_digits, value]

/-- There is no zero at the end of the coefficient. -/
def IsReduced (d : Decimal) : Prop :=
  d.coefficient % 10 ≠ 0

theorem isReduced_reduced {d : Decimal} (h : d.coefficient ≠ 0) : d.reduced.IsReduced :=
  coefficient_ofDigits_mod_ten (fun _ => isDigit_of_mem_digits) (by rwa [ofDigitChars_digits]) _

theorem IsReduced.reduced_eq {d : Decimal} (h : d.IsReduced) : d.reduced = d := by
  have hLast : ∃ front c, c ≠ '0' ∧ d.digits = front ++ [c] := by
    have hDigit : (d.coefficient % 10).digitChar ≠ '0' := mt Nat.digitChar_eq_zero.mp h
    rw [digits, Nat.toDigits_eq_if (by decide)]
    split
    · rename_i hSmall
      rw [Nat.mod_eq_of_lt hSmall] at hDigit
      exact ⟨[], _, hDigit, rfl⟩
    · exact ⟨_, _, hDigit, rfl⟩
  obtain ⟨front, c, hc, hDigits⟩ := hLast
  rw [reduced, hDigits, ofDigits_concat_of_ne hc, ← hDigits, ofDigitChars_digits]

theorem isDigit_digits (d : Decimal) : ∀ c ∈ d.digits, c.isDigit = true :=
  fun _ => isDigit_of_mem_digits

section

variable {d : Decimal} {count : Nat} (h : d.IsReduced)

include h

theorem IsReduced.coefficient_ne_zero : d.coefficient ≠ 0 := by
  intro hZero
  exact h (by rw [hZero])

theorem IsReduced.ofDigits_digits {exponent : Int} (hExponent : d.exponent = exponent) :
    ofDigits d.digits exponent = d := by
  rw [← hExponent]
  exact h.reduced_eq

theorem IsReduced.ofDigits_append_zeros (hExponent : d.exponent = count) :
    ofDigits (d.digits ++ List.replicate count '0') 0 = d := by
  rw [Decimal.ofDigits_append_zeros, Int.zero_add]
  exact h.ofDigits_digits hExponent

/-- The zeros stand before the digits, and the first one before the point. -/
theorem IsReduced.ofDigits_zeros_append (hExponent : d.exponent = -(count + d.digits.length : Nat)) :
    ofDigits (['0'] ++ (List.replicate count '0' ++ d.digits))
      (-(List.replicate count '0' ++ d.digits).length) = d := by
  have hPad : ['0'] ++ (List.replicate count '0' ++ d.digits) =
      List.replicate (count + 1) '0' ++ d.digits := by
    rw [List.replicate_succ, List.cons_append, List.cons_append, List.nil_append]
  have hValue : Nat.ofDigitChars 10 d.digits 0 ≠ 0 := by
    rw [ofDigitChars_digits]
    exact h.coefficient_ne_zero
  rw [hPad, Decimal.ofDigits_zeros_append hValue, List.length_append, List.length_replicate]
  exact h.ofDigits_digits hExponent

end

theorem value_eq_zero_iff {d : Decimal} : d.value = 0 ↔ d.coefficient = 0 := by
  simp [value, zpow_ne_zero]

theorem toFloat_of_exact {d : Decimal} {m : Nat} {e : Int} (h : Binary.Canonical m e)
    (hValue : d.value = m * 2 ^ e) : d.toFloat =
      .ofModel (.pack (.finite .positive m e h.pos)) := by
  rw [toFloat, Float.Model.ofScientific, Binary.ofScientific_of_exact h hValue]

theorem toFloat_of_coefficient_eq_zero {d : Decimal} (h : d.coefficient = 0) : d.toFloat = 0 := by
  rw [toFloat, Float.Model.ofScientific, h]
  rfl

end Decimal

namespace Shortest

theorem value_exact (m : Nat) (e : Int) : (exact m e).value = m * 2 ^ e := by
  rw [exact]
  split
  · rename_i he
    lift e to Nat using he
    simp [Decimal.value]
  · rename_i he
    obtain ⟨places, hPlaces⟩ := Int.eq_ofNat_of_zero_le (by omega : 0 ≤ -e)
    obtain rfl : e = -places := by omega
    have hTen : (10 : ℚ) ^ places = 5 ^ places * 2 ^ places := by rw [← mul_pow]; norm_num
    simp only [Decimal.value, neg_neg, Int.toNat_natCast, Nat.pow_eq, zpow_neg, zpow_natCast, hTen]
    push_cast
    field_simp

theorem of_onGrid? {tie : Tie} {x : Float} {m : Nat} {e grid : Int} {d : Decimal}
    (h : onGrid? tie x m e grid = some d) : d.toFloat = x ∧ ∃ p : Decimal, d = p.reduced := by
  have hFits : ∀ {n distance : Nat} {p : Decimal},
      fits x m n distance p = true → p.toFloat = x := by
    intro n distance p hFits
    rw [fits, Bool.and_eq_true, decide_eq_true_eq, decide_eq_true_eq] at hFits
    exact hFits.2
  rw [onGrid?] at h
  dsimp only at h
  split_ifs at h with hLower hUpper
  · obtain rfl := Option.some.inj h
    exact ⟨hFits (Bool.and_eq_true_iff.mp hLower).1, _, rfl⟩
  · obtain rfl := Option.some.inj h
    exact ⟨hFits hUpper, _, rfl⟩

theorem of_search {tie : Tie} {x : Float} {m : Nat} {e grid : Int} {steps : Nat} {d : Decimal}
    (h : search tie x m e steps grid = some d) : d.toFloat = x ∧ ∃ p : Decimal, d = p.reduced := by
  induction steps generalizing grid with
  | zero => cases h
  | succ steps ih =>
    rw [search] at h
    split at h
    · rename_i hGrid
      obtain rfl := Option.some.inj h
      exact of_onGrid? hGrid
    · exact ih h

end Shortest

/-- Whatever the search finds or does not find, what it leads to is read as the float. -/
theorem shortest_spec (tie : Tie) {x : Float} {m : Nat} {e : Int} (h : Binary.Canonical m e)
    (hx : x = .ofModel (.pack (.finite .positive m e h.pos))) (hZero : x ≠ 0) :
    (shortest tie x m e).toFloat = x ∧ (shortest tie x m e).IsReduced := by
  have hSpec : (shortest tie x m e).toFloat = x ∧
      ∃ p : Decimal, shortest tie x m e = p.reduced := by
    rw [shortest]
    cases hSearch : Shortest.search tie x m e Shortest.gridCount (Shortest.coarsest m e) with
    | some d => exact Shortest.of_search hSearch
    | none =>
      refine ⟨?_, _, rfl⟩
      rw [hx]
      exact Decimal.toFloat_of_exact h ((Decimal.value_reduced _).trans (Shortest.value_exact m e))
  obtain ⟨hFloat, p, hReduced⟩ := hSpec
  refine ⟨hFloat, ?_⟩
  rw [hReduced] at hFloat ⊢
  refine Decimal.isReduced_reduced fun hCoefficient => hZero ?_
  rw [← hFloat]
  apply Decimal.toFloat_of_coefficient_eq_zero
  rw [← Decimal.value_eq_zero_iff, Decimal.value_reduced, Decimal.value_eq_zero_iff, hCoefficient]

end ReactiveSheet
