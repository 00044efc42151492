import Mathlib
import ReactiveSheet.Recalculation

/-! # The same value

Two floats are the same value when they are the same float or zeros of either sign. This makes it
an equivalence, and adding zero, which is what happens to a value before its text is put into a
formula, leaves no trace of the sign.
-/

namespace ReactiveSheet

set_option autoImplicit false

def IsZero (x : Float) : Prop :=
  x = 0 ∨ x = -0

instance (x : Float) : Decidable (IsZero x) :=
  inferInstanceAs (Decidable (_ ∨ _))

/-- Only the sign of zero is left out of the comparison. -/
theorem sameValue_iff {x y : Float} : sameValue x y = true ↔ x = y ∨ IsZero x ∧ IsZero y := by
  rw [sameValue, Bool.or_eq_true, Bool.and_eq_true, Float.isNaN_eq_decide_eq_nan,
    Float.isNaN_eq_decide_eq_nan, decide_eq_true_eq, decide_eq_true_eq,
    Float.beq_iff_ne_nan_and_eq, IsZero, IsZero]
  have hPositive : (0 : Float) ≠ Float.nan := by decide
  have hNegative : (-0 : Float) ≠ Float.nan := by decide
  constructor
  · rintro (⟨_, _, hEq | ⟨hx, hy⟩ | ⟨hx, hy⟩⟩ | ⟨hx, hy⟩)
    · exact .inl hEq
    · exact .inr ⟨.inl hx, .inr hy⟩
    · exact .inr ⟨.inr hx, .inl hy⟩
    · exact .inl (hx.trans hy.symm)
  · rintro (rfl | ⟨rfl | rfl, rfl | rfl⟩)
    · by_cases hNumber : x = Float.nan
      · exact .inr ⟨hNumber, hNumber⟩
      · exact .inl ⟨hNumber, hNumber, .inl rfl⟩
    all_goals simp [hPositive, hNegative]

@[simp]
theorem sameValue_refl (x : Float) : sameValue x x = true :=
  sameValue_iff.mpr (.inl rfl)

theorem sameValue_symm {x y : Float} (h : sameValue x y = true) : sameValue y x = true := by
  rw [sameValue_iff] at h ⊢
  rcases h with rfl | ⟨hx, hy⟩
  · exact .inl rfl
  · exact .inr ⟨hy, hx⟩

theorem sameValue_trans {x y z : Float} (hxy : sameValue x y = true)
    (hyz : sameValue y z = true) : sameValue x z = true := by
  rw [sameValue_iff] at hxy hyz ⊢
  rcases hxy with rfl | ⟨hx, hy⟩
  · exact hyz
  · rcases hyz with rfl | ⟨_, hz⟩
    · exact .inr ⟨hx, hy⟩
    · exact .inr ⟨hx, hz⟩

/-- Adding zero makes the two zeros one. -/
theorem add_zero_congr {x y : Float} (h : sameValue x y = true) : x + 0 = y + 0 := by
  have hZero : ∀ z : Float, IsZero z → z + 0 = 0 := by
    rintro z (rfl | rfl) <;> decide
  rcases sameValue_iff.mp h with rfl | ⟨hx, hy⟩
  · rfl
  · rw [hZero x hx, hZero y hy]

end ReactiveSheet
