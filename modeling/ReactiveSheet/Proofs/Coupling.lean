import ReactiveSheet.Proofs.ReferenceGraph
import ReactiveSheet.Proofs.Rest

/-! # Runs side by side

Two lists of cells are compared position by position, under a relation that says nothing a formula
could miss. Sweeps over both keep the relation on every part of the positions that reads nothing
outside of itself, whatever the cells in the rest are.
-/

namespace ReactiveSheet

set_option autoImplicit false

theorem sameFormulas_swept (cells : List Cell) (count : Nat) :
    SameFormulas cells (swept cells count) :=
  (map_swept Cell.formula?_refresh cells count).symm

theorem length_swept (cells : List Cell) (count : Nat) :
    (swept cells count).length = cells.length :=
  (sameFormulas_swept cells count).length_eq.symm

theorem SameFormulas.swept {first second : List Cell} (h : SameFormulas first second)
    (count : Nat) : SameFormulas (swept first count) (swept second count) :=
  ((sameFormulas_swept first count).symm.trans h).trans (sameFormulas_swept second count)

theorem SameFormulas.reports_eq {first second : List Cell} (h : SameFormulas first second) :
    reports first = reports second := by
  rw [reports_eq_allOutOfRange, reports_eq_allOutOfRange, h]

def RelatedAt (R : Cell → Cell → Prop) (first second : List Cell) (index : Nat) : Prop :=
  Option.Rel R first[index]? second[index]?

theorem RelatedAt.cases {R : Cell → Cell → Prop} {first second : List Cell} {index : Nat}
    (h : RelatedAt R first second index) :
    (first[index]? = none ∧ second[index]? = none) ∨
    ∃ a b, first[index]? = some a ∧ second[index]? = some b ∧ R a b := by
  rw [RelatedAt] at h
  generalize first[index]? = a at h
  generalize second[index]? = b at h
  cases h with
  | none => exact .inl ⟨rfl, rfl⟩
  | some hab => exact .inr ⟨_, _, rfl, rfl, hab⟩

theorem relatedAt_of_none {R : Cell → Cell → Prop} {first second : List Cell} {index : Nat}
    (hFirst : first[index]? = none) (hSecond : second[index]? = none) :
    RelatedAt R first second index := by
  rw [RelatedAt, hFirst, hSecond]
  exact .none

theorem relatedAt_of_some {R : Cell → Cell → Prop} {first second : List Cell} {index : Nat}
    {a b : Cell} (hFirst : first[index]? = some a) (hSecond : second[index]? = some b)
    (h : R a b) : RelatedAt R first second index := by
  rw [RelatedAt, hFirst, hSecond]
  exact .some h

/-- The formulas in a part have the values of their cells. -/
def AtRestOn (cells : List Cell) (part : Nat → Prop) : Prop :=
  ∀ index, part index → ∀ cell, cells[index]? = some cell → cell.Current cells

theorem atRest_iff_atRestOn {cells : List Cell} : AtRest cells ↔ AtRestOn cells fun _ => True := by
  simp [atRest_iff, AtRestOn]

/-- Related cells compute the same, and a visit keeps them related if it sees the same. -/
structure Coupling (R : Cell → Cell → Prop) : Prop where
  formula? : ∀ {a b : Cell}, R a b → a.formula? = b.formula?
  sameValue : ∀ {a b : Cell}, R a b → sameValue a.value b.value = true
  refresh : ∀ {a b : Cell} {seen others : List Cell}, R a b →
    (∀ formula ∈ a.formula?, Formula.value formula seen = Formula.value formula others) →
    R (a.refresh seen) (b.refresh others)

theorem coupling_eq : Coupling Eq where
  formula? h := congrArg Cell.formula? h
  sameValue h := h ▸ sameValue_refl _
  refresh h hSeen := h ▸ Cell.refresh_congr hSeen

namespace Coupling

variable {R : Cell → Cell → Prop} {first second : List Cell} {part : Nat → Prop}

theorem agreeAt (hR : Coupling R) {index : Nat} (h : RelatedAt R first second index) :
    AgreeAt first second index := by
  rcases h.cases with ⟨hFirst, hSecond⟩ | ⟨a, b, hFirst, hSecond, hab⟩
  · exact agreeAt_of_eq (hFirst.trans hSecond.symm)
  · exact agreeAt_of_some hFirst hSecond (hR.sameValue hab)

/-- A formula within a closed part has the same value on all cells that agree there. -/
theorem value_eq {seen others : List Cell} (hClosed : Closed first part)
    (hSeen : seen.length = first.length) (hOthers : others.length = first.length)
    (h : ∀ other, part other → AgreeAt seen others other) {index : Nat} (hIndex : part index)
    {a : Cell} (hCell : first[index]? = some a) :
    ∀ formula ∈ a.formula?, Formula.value formula seen = Formula.value formula others := by
  intro formula hFormula
  have hAt : formulaAt? first index = some formula := by rw [formulaAt?, hCell]; exact hFormula
  refine Formula.value_congr fun other hOther => ?_
  rcases Nat.lt_or_ge other first.length with hRange | hRange
  · have hReads : Reads first index other := ⟨mem_referencesAt.mpr ⟨formula, hAt, hOther⟩, hRange⟩
    exact h other (hClosed index hIndex other hReads)
  · exact agreeAt_of_eq (by simp [hSeen, hOthers, hRange])

theorem sweep (hR : Coupling R) (hClosed : Closed first part)
    (hLength : second.length = first.length)
    (h : ∀ index, part index → RelatedAt R first second index) (index : Nat)
    (hIndex : part index) :
    RelatedAt R (Sweep.run first).cells (Sweep.run second).cells index := by
  induction index using Nat.strongRecOn with
  | ind index ih =>
    -- What is seen from a position is new before it and old from it on, on both sides alike.
    have hSees : ∀ other, part other →
        AgreeAt (Sweep.seenAt first index) (Sweep.seenAt second index) other := by
      intro other hOther
      rcases Nat.lt_or_ge other index with hSide | hSide
      · rw [AgreeAt, Sweep.getElem?_seenAt_of_lt _ hSide, Sweep.getElem?_seenAt_of_lt _ hSide]
        exact hR.agreeAt (ih other hSide hOther)
      · rw [AgreeAt, Sweep.getElem?_seenAt_of_le _ hSide, Sweep.getElem?_seenAt_of_le _ hSide]
        exact hR.agreeAt (h other hOther)
    rw [RelatedAt, Sweep.getElem?_run, Sweep.getElem?_run]
    rcases (h index hIndex).cases with ⟨hFirst, hSecond⟩ | ⟨a, b, hFirst, hSecond, hab⟩
    · rw [hFirst, hSecond]
      exact .none
    · rw [hFirst, hSecond]
      have hOthers : (Sweep.seenAt second index).length = first.length := by
        rw [Sweep.length_seenAt, hLength]
      exact .some (hR.refresh hab
        (value_eq hClosed (Sweep.length_seenAt first index) hOthers hSees hIndex hFirst))

theorem swept (hR : Coupling R) (hClosed : Closed first part)
    (hLength : second.length = first.length)
    (h : ∀ index, part index → RelatedAt R first second index) (count index : Nat)
    (hIndex : part index) :
    RelatedAt R (ReactiveSheet.swept first count) (ReactiveSheet.swept second count) index := by
  induction count generalizing index with
  | zero => exact h index hIndex
  | succ count ih =>
    have hKept := (sameFormulas_swept first count).closed hClosed
    exact hR.sweep hKept (by simp [length_swept, hLength]) ih index hIndex

theorem current_iff (hR : Coupling R) {a b : Cell} {seen others : List Cell} (hab : R a b)
    (hSeen : ∀ formula ∈ a.formula?, Formula.value formula seen = Formula.value formula others) :
    a.Current seen ↔ b.Current others := by
  rw [Cell.Current, Cell.Current, ← hR.formula? hab]
  refine forall₂_congr fun formula hFormula => ?_
  rw [Formula.evaluate_eq, Formula.evaluate_eq, hSeen formula hFormula]
  have hValue := hR.sameValue hab
  exact ⟨sameValue_trans (sameValue_symm hValue), sameValue_trans hValue⟩

/-- Inside a closed part both are at rest or neither is. -/
theorem atRestOn_iff (hR : Coupling R) (hClosed : Closed first part)
    (hLength : second.length = first.length)
    (h : ∀ index, part index → RelatedAt R first second index) :
    AtRestOn first part ↔ AtRestOn second part := by
  refine forall₂_congr fun index hIndex => ?_
  rcases (h index hIndex).cases with ⟨hFirst, hSecond⟩ | ⟨a, b, hFirst, hSecond, hab⟩
  · simp [hFirst, hSecond]
  · have hSeen := value_eq hClosed rfl hLength (fun other hOther => hR.agreeAt (h other hOther))
      hIndex hFirst
    simpa [hFirst, hSecond] using hR.current_iff hab hSeen

theorem atRest_iff (hR : Coupling R) (hLength : second.length = first.length)
    (h : ∀ index, RelatedAt R first second index) : AtRest first ↔ AtRest second := by
  rw [atRest_iff_atRestOn, atRest_iff_atRestOn]
  exact hR.atRestOn_iff (closed_true first) hLength fun index _ => h index

end Coupling

/-- Runs in which each sweep finds the cells at rest on both sides or on neither. -/
theorem Recalculation.run_congr {first second : List Cell} (hFormulas : SameFormulas first second)
    (h : ∀ count, AtRest (swept first count) ↔ AtRest (swept second count)) (maxPasses : Nat) :
    (run first maxPasses).result = (run second maxPasses).result ∧
      ∃ count, (run first maxPasses).cells = swept first count ∧
        (run second maxPasses).cells = swept second count := by
  have hReports : ∀ count, reports (swept first count) = reports (swept second count) :=
    fun count => (hFormulas.swept count).reports_eq
  rcases run_cases first maxPasses with ⟨count, hRoom, hRests, hCells, hResult⟩ |
    ⟨hMoves, hCells, hResult⟩
  · have hOther : RestsAfter second count :=
      ⟨(h count).mp hRests.atRest, fun earlier hEarlier =>
        mt (h earlier).mpr (hRests.notBefore earlier hEarlier)⟩
    obtain ⟨hOtherCells, hOtherResult⟩ := run_of_restsAfter hOther hRoom
    exact ⟨by rw [hResult, hOtherResult, hReports], count, hCells, hOtherCells⟩
  · have hOther : Moves second maxPasses := fun earlier hEarlier =>
      mt (h earlier).mpr (hMoves earlier hEarlier)
    obtain ⟨hOtherCells, hOtherResult⟩ := run_of_moves hOther
    exact ⟨hResult.trans hOtherResult.symm, maxPasses, hCells, hOtherCells⟩

end ReactiveSheet
