import ReactiveSheet.Proofs.Coupling

/-! # The sign of zero

A value is put into a formula without the sign of a zero, and a sweep does not count a change of
that sign. So two lists of cells that differ in the signs of their zeros go through the same sweeps
with the same outcome.
-/

namespace ReactiveSheet

set_option autoImplicit false

namespace Cell

/-- The same formula, or an input both times, and the same value. -/
def Alike (a b : Cell) : Prop :=
  a.formula? = b.formula? ∧ sameValue a.value b.value = true

theorem Alike.refresh {a b : Cell} {seen others : List Cell} (h : a.Alike b)
    (hSeen : ∀ formula ∈ a.formula?, Formula.value formula seen = Formula.value formula others) :
    (a.refresh seen).Alike (b.refresh others) := by
  obtain ⟨hFormula, hValue⟩ := h
  refine ⟨by simp [hFormula], ?_⟩
  cases hOwn : a.formula? with
  | none =>
    rw [refresh_of_no_formula hOwn, refresh_of_no_formula (hFormula ▸ hOwn)]
    exact hValue
  | some formula =>
    -- Both values are now the one that the formula has found, up to the sign of a zero.
    have hFirst := sameValue_refresh hOwn seen
    have hSecond := sameValue_refresh (hFormula ▸ hOwn) others
    rw [hSeen formula hOwn] at hFirst
    exact sameValue_trans hFirst (sameValue_symm hSecond)

end Cell

theorem coupling_alike : Coupling Cell.Alike where
  formula? h := h.1
  sameValue h := h.2
  refresh h := h.refresh

theorem relatedAt_alike {first second : List Cell} (hFormulas : SameFormulas first second)
    {index : Nat} (h : AgreeAt first second index) : RelatedAt Cell.Alike first second index := by
  rcases hFormulas.getElem?_cases index with ⟨ha, hb⟩ | ⟨x, y, ha, hb⟩ |
    ⟨formula, dependencies, others, x, y, ha, hb⟩
  · exact relatedAt_of_none ha hb
  · rw [AgreeAt, ha, hb, Option.rel_some_some] at h
    exact relatedAt_of_some ha hb ⟨rfl, h⟩
  · rw [AgreeAt, ha, hb, Option.rel_some_some] at h
    exact relatedAt_of_some ha hb ⟨rfl, h⟩

namespace Recalculation

theorem run_alike {first second : List Cell} (hFormulas : SameFormulas first second)
    (hValues : ∀ index, AgreeAt first second index) (maxPasses : Nat) :
    (run first maxPasses).result = (run second maxPasses).result ∧
      SameFormulas (run first maxPasses).cells (run second maxPasses).cells ∧
      ∀ index, AgreeAt (run first maxPasses).cells (run second maxPasses).cells index := by
  have hLength := hFormulas.length_eq.symm
  have hSwept : ∀ count index,
      RelatedAt Cell.Alike (swept first count) (swept second count) index := fun count index =>
    coupling_alike.swept (closed_true first) hLength
      (fun position _ => relatedAt_alike hFormulas (hValues position)) count index trivial
  have hRest : ∀ count, AtRest (swept first count) ↔ AtRest (swept second count) := fun count =>
    coupling_alike.atRest_iff (by simp [length_swept, hLength]) (hSwept count)
  obtain ⟨hResult, count, hFirst, hSecond⟩ := run_congr hFormulas hRest maxPasses
  rw [hFirst, hSecond]
  exact ⟨hResult, hFormulas.swept count, fun index => coupling_alike.agreeAt (hSwept count index)⟩

theorem agreeAt_set_input {cells : List Cell} {index : Nat} {x value : Float}
    (h : cells[index]? = some (.input x)) (hSame : sameValue x value = true) (other : Nat) :
    AgreeAt cells (cells.set index (.input value)) other := by
  by_cases hOther : index = other
  · subst hOther
    have hSet : (cells.set index (.input value))[index]? = some (.input value) :=
      List.getElem?_set_self (List.getElem?_eq_some_iff.mp h).1
    exact agreeAt_of_some h hSet hSame
  · exact agreeAt_of_eq (List.getElem?_set_ne hOther).symm

/-- Whether a zero is negative makes no difference to a run. In particular nothing is computed anew
when an input of cells at rest is given the value it has. -/
theorem ignores_zero_signs :
    (∀ first second, SameFormulas first second → (∀ index, AgreeAt first second index) →
      ∀ maxPasses, (run first maxPasses).result = (run second maxPasses).result ∧
        SameFormulas (run first maxPasses).cells (run second maxPasses).cells ∧
        ∀ index, AgreeAt (run first maxPasses).cells (run second maxPasses).cells index) ∧
    ∀ (cells : List Cell) (index : Nat) (x value : Float), AtRest cells →
      cells[index]? = some (.input x) → sameValue x value = true → ∀ maxPasses, 1 ≤ maxPasses →
        (run (cells.set index (.input value)) maxPasses).result = .ok ⟨1, reports cells⟩ ∧
        (run (cells.set index (.input value)) maxPasses).cells =
          cells.set index (.input value) := by
  constructor
  · intro first second hFormulas hValues maxPasses
    exact run_alike hFormulas hValues maxPasses
  · intro cells index x value hRest hInput hSame maxPasses hPasses
    have hFormulas : SameFormulas cells (cells.set index (.input value)) :=
      (map_set_input hInput (fun _ _ => rfl) value).symm
    have hRelated := fun other => relatedAt_alike hFormulas (agreeAt_set_input hInput hSame other)
    have hRestAgain : AtRest (cells.set index (.input value)) :=
      (coupling_alike.atRest_iff (List.length_set ..) hRelated).mp hRest
    obtain ⟨hCells, hResult⟩ := run_of_atRest hRestAgain hPasses
    rw [hFormulas.reports_eq]
    exact ⟨hResult, hCells⟩

/-- Zeros of both signs in an input, as the cached value of a circle and as a result. -/
theorem ignores_zero_signs_of_mixture :
    let first : List Cell :=
      [.input (-0), .computed "1/{0}+{9}" [] 0, .computed "{2}*{3}" [] (-0), .input (0 / 0)]
    let second : List Cell :=
      [.input 0, .computed "1/{0}+{9}" [] (-0), .computed "{2}*{3}" [4] 0, .input (0 / 0)]
    let rested := (run first 3).cells
    (run first 3).result = (run second 3).result ∧
      (run first 3).result = .ok ⟨2, [.referenceOutOfRange 9 4]⟩ ∧
      (run (rested.set 0 (.input 0)) 5).result = .ok ⟨1, [.referenceOutOfRange 9 4]⟩ := by
  intro first second rested
  have hOk : (run first 3).result = .ok ⟨2, [.referenceOutOfRange 9 4]⟩ := by decide +kernel
  have hValues : ∀ index, AgreeAt first second index := by
    rintro (_ | _ | _ | _ | index)
    · exact agreeAt_of_some rfl rfl (by decide)
    · exact agreeAt_of_some rfl rfl (by decide)
    · exact agreeAt_of_some rfl rfl (by decide)
    · exact agreeAt_of_some rfl rfl (by decide)
    · exact agreeAt_of_eq rfl
  have hInput : rested[0]? = some (.input (-0)) := by decide +kernel
  obtain ⟨hRest, hReports⟩ := atRest_of_ok hOk
  have hAgain := ignores_zero_signs.2 rested 0 (-0) 0 hRest hInput (by decide) 5 (by decide)
  rw [← hReports] at hAgain
  exact ⟨(ignores_zero_signs.1 first second rfl hValues 3).1, hOk, hAgain.1⟩

end Recalculation

end ReactiveSheet
