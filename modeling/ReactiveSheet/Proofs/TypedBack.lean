import ReactiveSheet.Listing
import ReactiveSheet.Proofs.ReadBack
import ReactiveSheet.Shell.Command

/-! # Displayed numbers typed back

A whole number of moderate size is displayed by its own digits, any other finite number by its
shortest ones. These are the same text where both exist, since between the floats of that size there
is no room for another whole number. So what is displayed is what the number is written with, and
typed as a value it is the number again; the marks for what is not finite are no values.
-/

namespace ReactiveSheet

set_option autoImplicit false

open Float.Model (UnpackedFloat totalExponent)
open Float.Model.UnpackedFloat (Sign)

namespace Decimal

theorem toDigits_mul_pow {c : Nat} (hc : 0 < c) (count : Nat) :
    Nat.toDigits 10 (c * 10 ^ count) = Nat.toDigits 10 c ++ List.replicate count '0' := by
  induction count with
  | zero => simp
  | succ count ih =>
    have hTen : c * 10 ^ (count + 1) = c * 10 ^ count * 10 := by ring
    have hPositive : 0 < c * 10 ^ count := by positivity
    rw [Nat.toDigits_eq_if (by decide), if_neg (by omega), hTen, Nat.mul_div_cancel _ (by decide),
      Nat.mul_mod_left, ih, List.append_assoc, List.replicate_succ']
    rfl

theorem reduced_mul_pow {c : Nat} (hc : 0 < c) (count : Nat) :
    (Decimal.mk (c * 10 ^ count) 0).reduced = (Decimal.mk c count).reduced := by
  rw [reduced, reduced, digits, digits, toDigits_mul_pow hc, ofDigits_append_zeros, Int.zero_add]

theorem exists_reduced_eq (n : Nat) :
    ∃ c count : Nat, (Decimal.mk n 0).reduced = ⟨c, count⟩ ∧ n = c * 10 ^ count := by
  have hValue := value_reduced ⟨n, 0⟩
  have hExponent : 0 ≤ (Decimal.mk n 0).reduced.exponent := by simp [reduced, ofDigits]
  obtain ⟨count, hCount⟩ := Int.eq_ofNat_of_zero_le hExponent
  refine ⟨(Decimal.mk n 0).reduced.coefficient, count, by rw [← hCount], ?_⟩
  simp only [value, hCount, zpow_natCast, zpow_zero, mul_one] at hValue
  exact_mod_cast hValue.symm

theorem write_plain_reduced {n : Nat} (hn : 0 < n) :
    Layout.plain.write (Decimal.mk n 0).reduced = Nat.toDigits 10 n := by
  obtain ⟨c, count, hReduced, rfl⟩ := exists_reduced_eq n
  have hc : 0 < c := Nat.pos_of_mul_pos_right hn
  rw [hReduced, toDigits_mul_pow hc]
  simp [Layout.write, Layout.plain, Layout.spellOut, digits]

end Decimal

namespace Shortest

variable {tie : Tie} {x : Float} {m n : Nat} {e : Int}

theorem fits_of_far {numerator unit distance : Nat} {d : Decimal}
    (hUnit : numerator < 2 * m * unit) (h : unit ≤ distance) :
    fits x m numerator distance d = false := by
  have hFar : numerator < 2 * m * distance :=
    Nat.lt_of_lt_of_le hUnit (Nat.mul_le_mul_left _ h)
  rw [fits, decide_eq_false (by omega), Bool.false_and]

/-- The value is the whole number `n`, and no other whole number is read as the same float. -/
structure IsWhole (x : Float) (m : Nat) (e : Int) (n : Nat) : Prop where
  pos : 0 < n
  lt : n < 2 * m
  scaled_eq : m * 2 ^ e.toNat = n * 2 ^ (-e).toNat
  toFloat_eq : ∀ d : Decimal, d.value = n → d.toFloat = x

theorem IsWhole.onGrid?_eq (h : IsWhole x m e n) (grid : Nat) :
    onGrid? tie x m e grid =
      if n % 10 ^ grid = 0 then some (point (n / 10 ^ grid) grid) else none := by
  obtain ⟨unit, hUnit⟩ : ∃ unit, 2 ^ (-e).toNat = unit := ⟨_, rfl⟩
  have hPositive : 0 < unit := hUnit ▸ Nat.two_pow_pos _
  have hScaled : scaled m e grid = (unit * n, unit * 10 ^ grid) := by
    have hNone : (-(grid : Int)).toNat = 0 := by omega
    simp only [scaled, Nat.pow_eq, hNone, h.scaled_eq, hUnit, Int.toNat_natCast, pow_zero, mul_one]
    rw [Nat.mul_comm]
  have hNear : unit * n < 2 * m * unit := by
    rw [Nat.mul_comm]
    exact Nat.mul_lt_mul_of_pos_right h.lt hPositive
  have hRest : n % 10 ^ grid < 10 ^ grid := Nat.mod_lt _ (by positivity)
  have hUpper : unit ≤ unit * 10 ^ grid - unit * (n % 10 ^ grid) := by
    rw [← Nat.mul_sub]
    exact Nat.le_mul_of_pos_right _ (by omega)
  rw [onGrid?, hScaled]
  simp only [Nat.mul_div_mul_left _ _ hPositive, Nat.mul_mod_mul_left, fits_of_far hNear hUpper]
  by_cases hOn : n % 10 ^ grid = 0
  · have hValue : (point (n / 10 ^ grid) grid).value = n := by
      rw [point, Decimal.value_reduced, Decimal.value, zpow_natCast]
      exact_mod_cast Nat.div_mul_cancel (Nat.dvd_of_mod_eq_zero hOn)
    have hPrefers : prefersLower tie (n / 10 ^ grid) 0 (unit * 10 ^ grid) = true := by
      rw [prefersLower, decide_eq_true (by positivity), Bool.true_or]
    simp [hOn, hPrefers, fits, h.toFloat_eq _ hValue]
  -- Off the grid, either neighbour is a whole unit away and too far to be read back.
  · have hLower : unit ≤ unit * (n % 10 ^ grid) := Nat.le_mul_of_pos_right _ (by omega)
    simp [hOn, fits_of_far hNear hLower]

/-- The search does not stop before it comes to the digits of the number. -/
theorem IsWhole.search_eq (h : IsWhole x m e n) {steps grid : Nat} (hSteps : grid < steps) :
    search tie x m e steps grid = some (Decimal.mk n 0).reduced := by
  induction steps generalizing grid with
  | zero => omega
  | succ steps ih =>
    rw [search, h.onGrid?_eq]
    by_cases hOn : n % 10 ^ grid = 0
    · have hDvd := Nat.dvd_of_mod_eq_zero hOn
      have hQuotient : 0 < n / 10 ^ grid :=
        Nat.div_pos (Nat.le_of_dvd h.pos hDvd) (by positivity)
      rw [if_pos hOn, point, ← Decimal.reduced_mul_pow hQuotient, Nat.div_mul_cancel hDvd]
    -- The grid of the ones holds every whole number, so there is a finer grid to go on to.
    · have hGrid : 0 < grid := by
        rw [Nat.pos_iff_ne_zero]
        rintro rfl
        exact hOn (Nat.mod_one n)
      have hNext : (grid : Int) - 1 = (grid - 1 : Nat) := by omega
      rw [if_neg hOn, hNext]
      exact ih (by omega)

theorem mul_eq_of_whole? (h : Listing.whole? m e = some n) :
    m * 2 ^ e.toNat = n * 2 ^ (-e).toNat := by
  rw [Listing.whole?] at h
  dsimp only at h
  split_ifs at h with hExponent hWhole
  · obtain rfl := Option.some.inj h
    have hNone : (-e).toNat = 0 := by omega
    rw [hNone, pow_zero, mul_one, Nat.pow_eq]
  · obtain rfl := Option.some.inj h
    have hNone : e.toNat = 0 := by omega
    rw [hNone, pow_zero, mul_one]
    exact (Nat.div_mul_cancel (Nat.dvd_of_mod_eq_zero hWhole)).symm

theorem value_of_whole? (h : Listing.whole? m e = some n) : (m : ℚ) * 2 ^ e = n := by
  have hScaled : (m : ℚ) * 2 ^ e.toNat = n * 2 ^ (-e).toNat := by
    exact_mod_cast mul_eq_of_whole? h
  have hPower : (2 : ℚ) ^ e * 2 ^ (-e).toNat = 2 ^ e.toNat := by
    rw [← zpow_natCast, ← zpow_natCast, ← zpow_add₀ (by norm_num)]
    congr 1
    omega
  have hPositive : (0 : ℚ) < 2 ^ (-e).toNat := by positivity
  apply mul_right_cancel₀ hPositive.ne'
  rw [mul_assoc, hPower, hScaled]

/-- The mantissa of a whole number below the bound fits in fifty bits before the point. -/
theorem totalExponent_of_whole? (h : Binary.Canonical m e) (hWhole : Listing.whole? m e = some n)
    (hBound : n < Listing.wholeBound) : 0 < totalExponent m e ∧ totalExponent m e ≤ 50 := by
  have hValue := value_of_whole? hWhole
  have hUpper := Binary.lt_two_zpow_totalExponent m e
  have hLower := Binary.two_zpow_totalExponent_le h.pos e
  rw [hValue] at hUpper hLower
  have hOne : (1 : ℚ) ≤ n := by
    have hPositive : (0 : ℚ) < m * 2 ^ e := mul_pos (by exact_mod_cast h.pos) (by positivity)
    rw [hValue] at hPositive
    exact_mod_cast hPositive
  have hFifty : (n : ℚ) < 2 ^ (50 : Int) := by
    have hLess : n < 2 ^ 50 := Nat.lt_trans hBound (by decide)
    exact_mod_cast hLess
  have hFirst : (2 : ℚ) ^ (0 : Int) < 2 ^ totalExponent m e := by
    rw [zpow_zero]
    exact lt_of_le_of_lt hOne hUpper
  have hSecond : (2 : ℚ) ^ (totalExponent m e - 1) < 2 ^ (50 : Int) := lt_of_le_of_lt hLower hFifty
  have hFirst := (zpow_lt_zpow_iff_right₀ (by norm_num)).mp hFirst
  have hSecond := (zpow_lt_zpow_iff_right₀ (by norm_num)).mp hSecond
  omega

theorem isWhole_of_whole? (h : Binary.Canonical m e) (hWhole : Listing.whole? m e = some n)
    (hBound : n < Listing.wholeBound) :
    IsWhole (.ofModel (.pack (.finite .positive m e h.pos))) m e n := by
  have hExponent : e ≤ 0 := by
    have hTotal := (totalExponent_of_whole? h hWhole hBound).2
    have hTarget := h.target
    rw [Binary.targetExponent_eq] at hTarget
    omega
  have hScaled := mul_eq_of_whole? hWhole
  have hNone : e.toNat = 0 := by omega
  have hMantissa : m = n * 2 ^ (-e).toNat := by rw [← hScaled, hNone, pow_zero, mul_one]
  have hPositive : 0 < n := Nat.pos_of_mul_pos_right (hMantissa ▸ h.pos)
  refine ⟨hPositive, ?_, hScaled, fun d hd => ?_⟩
  · have hLe : n ≤ m := by
      rw [hMantissa]
      exact Nat.le_mul_of_pos_right _ (by positivity)
    omega
  · exact Decimal.toFloat_of_exact h (hd.trans (value_of_whole? hWhole).symm)

/-- A whole number below the bound has no digits shorter than its own. -/
theorem shortest_of_whole? (tie : Tie) (h : Binary.Canonical m e)
    (hWhole : Listing.whole? m e = some n) (hBound : n < Listing.wholeBound) :
    shortest tie (.ofModel (.pack (.finite .positive m e h.pos))) m e =
      (Decimal.mk n 0).reduced := by
  have hTotal := totalExponent_of_whole? h hWhole hBound
  have hStart : 0 ≤ coarsest m e ∧ coarsest m e < gridCount := by
    simp only [coarsest, gridCount, totalExponent] at hTotal ⊢
    omega
  obtain ⟨grid, hGrid⟩ := Int.eq_ofNat_of_zero_le hStart.1
  have hSteps : grid < gridCount := by
    have hLess := hStart.2
    rw [hGrid] at hLess
    exact_mod_cast hLess
  rw [shortest, hGrid, (isWhole_of_whole? h hWhole hBound).search_eq hSteps, Option.getD_some]

end Shortest

namespace Listing

variable {x : Float}

theorem plain_of_whole? {s : Sign} {m n : Nat} {e : Int} {hm : 0 < m}
    (h : x.toModel.unpack = .finite s m e hm) (hWhole : whole? m e = some n)
    (hBound : n < wholeBound) : Number.plain x = Number.sign s ++ Nat.toDigits 10 n := by
  have hCanonical := Binary.canonical_of_unpack h
  have hPositive := (Shortest.isWhole_of_whole? hCanonical hWhole hBound).pos
  rw [Number.plain, Number.write?, h, Option.getD_some, Number.abs_of_unpack_finite h,
    Shortest.shortest_of_whole? _ hCanonical hWhole hBound, Decimal.write_plain_reduced hPositive]

theorem number_of_isFinite (h : x.isFinite = true) :
    number x = String.ofList (Number.plain x) := by
  rw [number]
  rcases Number.unpack_of_isFinite h with ⟨s, hUnpack⟩ | ⟨s, m, e, hm, hUnpack⟩
  · rw [Number.plain, Number.write?, hUnpack]
    rfl
  · rw [hUnpack]
    dsimp only
    split
    · rename_i n hWhole
      split
      · rename_i hBound
        rw [plain_of_whole? hUnpack hWhole hBound]
      · rfl
    · rfl

theorem readValue_number (h : x.isFinite = true) :
    Command.readValue (number x).toList = .ok x := by
  rw [number_of_isFinite h, String.toList_ofList, Command.readValue, Number.read?_plain]
  exact if_pos h

theorem readValue_number_of_not_isFinite (h : x.isFinite = false) :
    Command.readValue (number x).toList = .error (.invalidNumber (number x)) := by
  rcases Number.eq_of_not_isFinite h with rfl | rfl | rfl <;> decide

theorem eq_infinity_of_not_isFinite (h : x.isFinite = false) (hNumber : x.isNaN = false) :
    x = Number.infinity ∨ x = -Number.infinity := by
  refine (Number.eq_of_not_isFinite h).resolve_left ?_
  rintro rfl
  cases hNumber

theorem number_injective {y : Float} (hx : x.isNaN = false) (hy : y.isNaN = false)
    (h : number x = number y) : x = y := by
  cases hFirst : x.isFinite with
  | true =>
    have hRead := readValue_number hFirst
    rw [h] at hRead
    cases hSecond : y.isFinite with
    | true => exact Except.ok.inj (hRead.symm.trans (readValue_number hSecond))
    | false => cases hRead.symm.trans (readValue_number_of_not_isFinite hSecond)
  | false =>
    have hRead := readValue_number_of_not_isFinite hFirst
    rw [h] at hRead
    cases hSecond : y.isFinite with
    | true => cases hRead.symm.trans (readValue_number hSecond)
    | false =>
      rcases eq_infinity_of_not_isFinite hFirst hx with rfl | rfl <;>
        rcases eq_infinity_of_not_isFinite hSecond hy with rfl | rfl
      · rfl
      · exact absurd h (by decide)
      · exact absurd h (by decide)
      · rfl

/-- What a finite number is displayed as is also the text it is defined with, and it can be typed to
have the number again. The marks of other numbers cannot be typed, and no two numbers look alike. -/
theorem displayed_is_typed_back :
    (∀ x : Float, x.isFinite = true →
      number x = String.ofList (Number.plain x) ∧ number x = (Cell.input x).definition ∧
        Command.readValue (number x).toList = .ok x) ∧
    (∀ x : Float, x.isNaN = true ∨ x.isInf = true →
      Command.readValue (number x).toList = .error (.invalidNumber (number x))) ∧
    ∀ x y : Float, x.isNaN = false → y.isNaN = false → number x = number y → x = y :=
  ⟨fun _ h => ⟨number_of_isFinite h, number_of_isFinite h, readValue_number h⟩,
    fun _ h => readValue_number_of_not_isFinite (Number.isFinite_eq_false_iff.mpr h),
    fun _ _ => number_injective⟩

/-- On either side of the bound for whole numbers, a zero with a sign, and a sum that is rounded. -/
theorem displayed_is_typed_back_of_bounds :
    number 999999999999999 = "999999999999999" ∧ number 1000000000000000.5 = "1000000000000000.5" ∧
      Command.readValue (number (-0)).toList = .ok (-0) ∧
      Command.readValue (number (1 / 0)).toList = .error (.invalidNumber "#INF!") ∧
      (0.1 + 0.2 : Float) = 0.30000000000000004 := by
  obtain ⟨hFinite, hOther, hAlike⟩ := displayed_is_typed_back
  refine ⟨?_, ?_, (hFinite (-0) (by decide)).2.2, hOther (1 / 0) (.inr (by decide)),
    hAlike _ _ (by decide) (by decide) (by decide +kernel)⟩
  · rw [(hFinite _ (by decide)).1]
    decide +kernel
  · rw [(hFinite _ (by decide)).1]
    decide +kernel

end Listing

end ReactiveSheet
