import Mathlib
import ReactiveSheet.Number.Layout

/-! # Decimals with the value of a float

Where a decimal has exactly the value of a float, the conversion to a float has nothing to round:
the power of ten is in range, the product or the quotient comes out even, and the mantissa that is
left is the one of the float.
-/

namespace ReactiveSheet

set_option autoImplicit false

open Float.Model (Format UnpackedFloat totalExponent)
open Float.Model.UnpackedFloat (Sign Accuracy ExtendedMantissa roundWithAccuracy packComponents
  unpackExponent unpackMantissa)

namespace Binary

theorem targetExponent_eq (total : Int) :
    Format.binary64.targetExponent total = max (total - 53) (-1074) :=
  rfl

/-- A mantissa with its exponent as a float has them: the mantissa has all its bits, or the exponent
is the least one. -/
structure Canonical (mantissa : Nat) (exponent : Int) : Prop where
  pos : 0 < mantissa
  target : Format.binary64.targetExponent (totalExponent mantissa exponent) = exponent
  le : exponent ≤ 971

theorem toNat_hidden_append (field : BitVec 52) : (1#1 ++ field).toNat = 2 ^ 52 + field.toNat := by
  rw [BitVec.toNat_append]
  exact (Nat.two_pow_add_eq_or_of_lt field.isLt 1).symm

theorem canonical_of_unpack {bits : BitVec Format.binary64.numBits} {s : Sign} {m : Nat} {e : Int}
    {hm : 0 < m} (h : UnpackedFloat.unpack .binary64 bits = .finite s m e hm) : Canonical m e := by
  have hField : (unpackMantissa bits).toNat < 2 ^ 52 := (unpackMantissa bits).isLt
  unfold UnpackedFloat.unpack at h
  dsimp only at h
  split_ifs at h with hTop hFraction hSubnormal hFraction
  · injection h with _ hMantissa hExponent
    rw [hMantissa] at hField
    have hLog : m.log2 < 52 := (Nat.log2_lt (by omega)).mpr hField
    rw [hSubnormal] at hExponent
    change (0 : Int) - (1023 + 52) + 1 = e at hExponent
    refine ⟨hm, ?_, by omega⟩
    rw [targetExponent_eq, totalExponent]
    omega
  · injection h with _ hMantissa hExponent
    rw [toNat_hidden_append] at hMantissa
    have hLog : m.log2 = 52 := (Nat.log2_eq_iff (by omega)).mpr ⟨by omega, by omega⟩
    have hNonzero : (unpackExponent bits).toNat ≠ 0 := fun hZero =>
      hSubnormal (BitVec.eq_of_toNat_eq hZero)
    have hBounded : (unpackExponent bits).toNat ≠ 2047 := fun hEq =>
      hTop (BitVec.eq_of_toNat_eq hEq)
    have hRange := (unpackExponent bits).isLt
    change ((unpackExponent bits).toNat : Int) - (1023 + 52) = e at hExponent
    change (unpackExponent bits).toNat < 2048 at hRange
    refine ⟨hm, ?_, by omega⟩
    rw [targetExponent_eq, totalExponent, hLog]
    omega

/-- The sign is kept apart from the other bits. -/
theorem unpack_pack_of_unpack {bits : BitVec Format.binary64.numBits} {s : Sign} {m : Nat} {e : Int}
    {hm : 0 < m} (h : UnpackedFloat.unpack .binary64 bits = .finite s m e hm) (t : Sign) :
    UnpackedFloat.unpack .binary64 (UnpackedFloat.pack .binary64 (.finite t m e hm)) =
      .finite t m e hm := by
  have hFields : UnpackedFloat.unpack .binary64
      (packComponents .binary64 t (unpackExponent bits) (unpackMantissa bits)) =
        .finite t m e hm := by
    unfold UnpackedFloat.unpack at h ⊢
    simp only [UnpackedFloat.unpackSign_packComponents, UnpackedFloat.unpackExponent_packComponents,
      UnpackedFloat.unpackMantissa_packComponents, Sign.ofBitVec_toBitVec]
    dsimp only at h
    split_ifs at h ⊢
    · injection h with _ hMantissa hExponent
      subst hMantissa hExponent
      rfl
    · injection h with _ hMantissa hExponent
      subst hMantissa hExponent
      rfl
  have hValid : Format.binary64.Valid
      (packComponents .binary64 t (unpackExponent bits) (unpackMantissa bits)) := by
    refine ⟨fun hTop => ?_⟩
    unfold UnpackedFloat.unpack at hFields
    dsimp only at hFields
    rw [if_pos hTop] at hFields
    split_ifs at hFields
  have hPack := UnpackedFloat.pack_unpack_of_valid hValid (by decide)
  rw [hFields] at hPack
  rw [hPack, hFields]

/-- Zeros at the end are shifted out without a trace. -/
theorem shiftRight_exact (m k : Nat) :
    (ExtendedMantissa.ofMantissaAndAccuracy (m * 2 ^ k) .exact) >>> k =
      ExtendedMantissa.ofMantissaAndAccuracy m .exact := by
  induction k generalizing m with
  | zero => rw [Nat.pow_zero, Nat.mul_one]; rfl
  | succ k ih =>
    have hHalf : m * 2 ^ (k + 1) = m * 2 * 2 ^ k := by ring
    have hStep : ∀ em : ExtendedMantissa, em >>> (k + 1) = (em >>> k).shiftRightOne := fun _ => rfl
    rw [hStep, hHalf, ih]
    simp [ExtendedMantissa.ofMantissaAndAccuracy, ExtendedMantissa.shiftRightOne]

theorem totalExponent_scaled {m : Nat} (hm : 0 < m) (e : Int) (k : Nat) :
    totalExponent (m * 2 ^ k) (e - k) = totalExponent m e := by
  have hLog : (m * 2 ^ k).log2 = m.log2 + k := by
    rw [Nat.log2_eq_iff (by positivity)]
    constructor
    · rw [Nat.pow_add]
      exact Nat.mul_le_mul_right _ (Nat.log2_self_le (by omega))
    · rw [Nat.add_right_comm, Nat.pow_add]
      exact Nat.mul_lt_mul_of_pos_right Nat.lt_log2_self (by positivity)
  rw [totalExponent, totalExponent, hLog]
  push_cast
  ring

theorem round_exact {m : Nat} {e : Int} (h : Canonical m e) (s : Sign) (k : Nat) :
    roundWithAccuracy .binary64 s (m * 2 ^ k) (e - k) .exact = .finite s m e h.pos := by
  have hShift : (e - (e - k)).toNat = k := by omega
  have hNone : (e - e).toNat = 0 := by omega
  have hZero : ∀ em : ExtendedMantissa, em >>> 0 = em := fun _ => rfl
  simp only [roundWithAccuracy, UnpackedFloat.shiftToTargetExponent, UnpackedFloat.shiftToExponent,
    totalExponent_scaled h.pos, h.target, hShift, shiftRight_exact, Int.sub_add_cancel]
  simp [ExtendedMantissa.ofMantissaAndAccuracy, ExtendedMantissa.roundedMantissa,
    ExtendedMantissa.accuracy, Accuracy.roundToNearestEven, h.target, hZero, h.pos.ne']

theorem lt_two_zpow_totalExponent (m : Nat) (e : Int) :
    (m : ℚ) * 2 ^ e < 2 ^ totalExponent m e := by
  have hLog : (m : ℚ) < 2 ^ ((m.log2 : Int) + 1) := by exact_mod_cast Nat.lt_log2_self (n := m)
  rw [totalExponent, zpow_add₀ (by norm_num) _ e]
  exact mul_lt_mul_of_pos_right hLog (by positivity)

theorem two_zpow_totalExponent_le {m : Nat} (hm : 0 < m) (e : Int) :
    (2 : ℚ) ^ (totalExponent m e - 1) ≤ m * 2 ^ e := by
  have hLog : (2 : ℚ) ^ (m.log2 : Int) ≤ m := by exact_mod_cast Nat.log2_self_le (by omega)
  have hExponent : totalExponent m e - 1 = m.log2 + e := by rw [totalExponent]; ring
  rw [hExponent, zpow_add₀ (by norm_num)]
  exact mul_le_mul_of_nonneg_right hLog (by positivity)

theorem Canonical.totalExponent_le {m : Nat} {e : Int} (h : Canonical m e) :
    totalExponent m e ≤ e + 53 := by
  have hTarget := h.target
  rw [targetExponent_eq] at hTarget
  omega

theorem Canonical.le_exponent {m : Nat} {e : Int} (h : Canonical m e) : -1074 ≤ e := by
  have hTarget := h.target
  rw [targetExponent_eq] at hTarget
  omega

section

variable {c m : Nat} {k e : Int}

theorem lt_of_exact (h : Canonical m e) (hc : 0 < c) (hValue : (c : ℚ) * 10 ^ k = m * 2 ^ e) :
    k < 1024 := by
  by_contra hLarge
  have hTen : (2 : ℚ) ^ k ≤ 10 ^ k := zpow_le_zpow_left₀ (by omega) (by norm_num) (by norm_num)
  have hOne : (1 : ℚ) ≤ c := by exact_mod_cast hc
  have hTotal := h.totalExponent_le
  have hExponent := h.le
  have hLess : (2 : ℚ) ^ k < 2 ^ totalExponent m e := by
    calc (2 : ℚ) ^ k ≤ 10 ^ k := hTen
      _ ≤ c * 10 ^ k := le_mul_of_one_le_left (by positivity) hOne
      _ = m * 2 ^ e := hValue
      _ < 2 ^ totalExponent m e := lt_two_zpow_totalExponent m e
  have hBound := (zpow_lt_zpow_iff_right₀ (by norm_num)).mp hLess
  omega

theorem le_of_exact (h : Canonical m e) (hValue : (c : ℚ) * 10 ^ k = m * 2 ^ e) :
    -(1075 + (c.log2 : Int)) ≤ k := by
  by_contra hSmall
  have hTen : (10 : ℚ) ^ k ≤ 2 ^ k := by
    have hInverse : (2 : ℚ) ^ (-k) ≤ 10 ^ (-k) :=
      zpow_le_zpow_left₀ (by omega) (by norm_num) (by norm_num)
    simpa [zpow_neg] using inv_anti₀ (by positivity) hInverse
  have hOne : (1 : ℚ) ≤ m := by exact_mod_cast h.pos
  have hExponent := h.le_exponent
  have hLess : (2 : ℚ) ^ e < 2 ^ totalExponent c k := by
    calc (2 : ℚ) ^ e ≤ m * 2 ^ e := le_mul_of_one_le_left (by positivity) hOne
      _ = c * 10 ^ k := hValue.symm
      _ ≤ c * 2 ^ k := mul_le_mul_of_nonneg_left hTen (by positivity)
      _ < 2 ^ totalExponent c k := lt_two_zpow_totalExponent c k
  have hBound := (zpow_lt_zpow_iff_right₀ (by norm_num)).mp hLess
  rw [totalExponent] at hBound
  omega

/-- A product of whole numbers is exact, and it is not below one. -/
theorem ofScientific_of_nonneg (h : Canonical m e) (hc : 0 < c) (hk : 0 ≤ k)
    (hValue : (c : ℚ) * 10 ^ k = m * 2 ^ e) :
    roundWithAccuracy .binary64 .positive ((c <<< 53) * 10 ^ k.toNat) (-53) .exact =
      .finite .positive m e h.pos := by
  lift k to Nat using hk
  rw [zpow_natCast] at hValue
  have hExponent : 0 ≤ e + 53 := by
    by_contra hSmall
    have hOne : (1 : ℚ) ≤ c * 10 ^ k := by exact_mod_cast Nat.one_le_iff_ne_zero.mpr (by positivity)
    have hLess : (2 : ℚ) ^ (0 : Int) < 2 ^ totalExponent m e := by
      calc (2 : ℚ) ^ (0 : Int) = 1 := zpow_zero 2
        _ ≤ c * 10 ^ k := hOne
        _ = m * 2 ^ e := hValue
        _ < 2 ^ totalExponent m e := lt_two_zpow_totalExponent m e
    have hBound := (zpow_lt_zpow_iff_right₀ (by norm_num)).mp hLess
    have hTotal := h.totalExponent_le
    omega
  obtain ⟨shift, hShift⟩ := Int.eq_ofNat_of_zero_le hExponent
  have hMantissa : (c <<< 53) * 10 ^ k = m * 2 ^ shift := by
    have hScaled : (c : ℚ) * 2 ^ 53 * 10 ^ k = m * 2 ^ shift := by
      calc (c : ℚ) * 2 ^ 53 * 10 ^ k = c * 10 ^ k * 2 ^ (53 : Int) := by norm_cast; ring
        _ = m * (2 ^ e * 2 ^ (53 : Int)) := by rw [hValue, mul_assoc]
        _ = m * 2 ^ shift := by rw [← zpow_add₀ (by norm_num), hShift, zpow_natCast]
    rw [Nat.shiftLeft_eq]
    exact_mod_cast hScaled
  have hExponentEq : (-53 : Int) = e - shift := by omega
  rw [Int.toNat_natCast, hMantissa, hExponentEq]
  exact round_exact h .positive shift

/-- A quotient that is a float comes out even. -/
theorem divCore_exact {d : Nat} (h : Canonical m e) (hc : 0 < c) (hd : 0 < d)
    (hValue : (c : ℚ) = m * 2 ^ e * d) :
    ∃ shift : Nat,
      UnpackedFloat.divCore .binary64 c 0 d 0 = (m * 2 ^ shift, e - shift, .exact) := by
  have hLogs : (c.log2 : Int) ≤ totalExponent m e + d.log2 := by
    have hLess : (2 : ℚ) ^ (totalExponent c 0 - 1) <
        2 ^ (totalExponent m e + totalExponent d 0) := by
      calc (2 : ℚ) ^ (totalExponent c 0 - 1) ≤ c * 2 ^ (0 : Int) := two_zpow_totalExponent_le hc 0
        _ = m * 2 ^ e * (d * 2 ^ (0 : Int)) := by rw [hValue, zpow_zero, mul_one, mul_one]
        _ < 2 ^ totalExponent m e * 2 ^ totalExponent d 0 :=
          mul_lt_mul'' (lt_two_zpow_totalExponent m e) (lt_two_zpow_totalExponent d 0)
            (by positivity) (by positivity)
        _ = _ := (zpow_add₀ (by norm_num) _ _).symm
    have hBound := (zpow_lt_zpow_iff_right₀ (by norm_num)).mp hLess
    simp only [totalExponent] at hBound ⊢
    omega
  obtain ⟨target, hTarget⟩ : ∃ target : Int, min (0 - 0) (Format.binary64.targetExponent
      (totalExponent c 0 - totalExponent d 0)) = target := ⟨_, rfl⟩
  have hReady : target ≤ e ∧ target ≤ 0 := by
    have hOwn := h.target
    rw [targetExponent_eq] at hTarget hOwn
    simp only [totalExponent] at hTarget hOwn hLogs
    omega
  obtain ⟨shift, hShift⟩ := Int.eq_ofNat_of_zero_le (by omega : 0 ≤ e - target)
  obtain ⟨places, hPlaces⟩ := Int.eq_ofNat_of_zero_le (by omega : 0 ≤ -target)
  have hScaled : c * 2 ^ places = m * 2 ^ shift * d := by
    have hPowers : (2 : ℚ) ^ e * 2 ^ places = 2 ^ shift := by
      rw [← zpow_natCast, ← zpow_natCast, ← zpow_add₀ (by norm_num), ← hPlaces, ← hShift,
        Int.sub_eq_add_neg]
    have hRational : (c : ℚ) * 2 ^ places = m * 2 ^ shift * d := by
      rw [hValue, ← hPowers]
      ring
    exact_mod_cast hRational
  refine ⟨shift, ?_⟩
  have hAmount : (0 - 0 - target).toNat = places := by omega
  rw [UnpackedFloat.divCore]
  rw [hTarget, hAmount, Nat.shiftLeft_eq, hScaled, Nat.mul_div_cancel _ hd, Nat.mul_mod_left]
  have hExponent : target = e - shift := by omega
  rw [hExponent]
  rfl

theorem ofScientific_of_exact (h : Canonical m e) (hValue : (c : ℚ) * 10 ^ k = m * 2 ^ e) :
    UnpackedFloat.ofScientific .binary64 c k = .finite .positive m e h.pos := by
  have hNonzero : c ≠ 0 := by
    rintro rfl
    have hPos : (0 : ℚ) < m * 2 ^ e := mul_pos (by exact_mod_cast h.pos) (by positivity)
    rw [← hValue] at hPos
    simp at hPos
  have hHigh := lt_of_exact h (Nat.pos_of_ne_zero hNonzero) hValue
  have hLow := le_of_exact h hValue
  have hBits : (2 : Int) ^ Format.binary64.exponentBits = 2048 := rfl
  rw [UnpackedFloat.ofScientific, dif_neg hNonzero, hBits, if_neg (by omega), if_neg (by omega)]
  split
  · rename_i hk
    exact ofScientific_of_nonneg h (Nat.pos_of_ne_zero hNonzero) hk hValue
  · rename_i hk
    have hValue' : (c : ℚ) = m * 2 ^ e * (10 ^ (-k).toNat : Nat) := by
      have hPower : ((10 ^ (-k).toNat : Nat) : ℚ) = 10 ^ (-k) := by
        rw [Nat.cast_pow, ← zpow_natCast, Int.toNat_of_nonneg (by omega)]
        norm_num
      rw [hPower, ← hValue, mul_assoc, ← zpow_add₀ (by norm_num), add_neg_cancel, zpow_zero,
        mul_one]
    obtain ⟨shift, hDivision⟩ :=
      divCore_exact h (Nat.pos_of_ne_zero hNonzero) (by positivity) hValue'
    rw [UnpackedFloat.div, hDivision]
    exact round_exact h .positive shift

end

end Binary

end ReactiveSheet
