import ReactiveSheet.Proofs.Coupling
import ReactiveSheet.Proofs.SheetUpdate

/-! # What an edit reaches

A sheet is at rest when an input is changed. The positions from which that input cannot be reached
read nothing but each other, so they go through the sweeps as if nothing had been changed, and
the sweeps of cells at rest change nothing.
-/

namespace ReactiveSheet

set_option autoImplicit false

/-- Cells at rest stay as they are in a closed part, whatever else is run with them. -/
theorem Recalculation.getElem?_run_of_closed {cells changed : List Cell} {part : Nat → Prop}
    (hRest : AtRest cells) (hClosed : Closed cells part)
    (hLength : changed.length = cells.length)
    (hSame : ∀ index, part index → changed[index]? = cells[index]?) (maxPasses index : Nat)
    (hIndex : part index) : (run changed maxPasses).cells[index]? = cells[index]? := by
  have hRelated : ∀ index, part index → RelatedAt Eq cells changed index := by
    intro index hIndex
    rw [RelatedAt, hSame index hIndex]
    cases cells[index]? with
    | none => exact .none
    | some cell => exact .some rfl
  obtain ⟨count, hCells⟩ := exists_cells_eq_swept changed maxPasses
  have hSwept := coupling_eq.swept hClosed hLength hRelated count index hIndex
  rw [swept_of_atRest hRest, ← hCells] at hSwept
  rcases hSwept.cases with ⟨hFirst, hSecond⟩ | ⟨a, b, hFirst, hSecond, rfl⟩
  · exact hSecond.trans hFirst.symm
  · exact hSecond.trans hFirst.symm

namespace Sheet

/-- The last recalculation succeeded. Refused edits and new bounds may have come after it. -/
inductive Recalculated : Sheet → Prop where
  | recalculate {sheet : Sheet} {passes : Nat} (h : sheet.recalculate.result = .ok passes) :
      Recalculated sheet.recalculate.sheet
  | edit {sheet : Sheet} {index passes : Nat} {value : Float}
      (h : (sheet.setInput index value).result = .ok passes) :
      Recalculated (sheet.setInput index value).sheet
  | refuse {sheet : Sheet} {index : Nat} {value : Float} (hSheet : Recalculated sheet)
      (h : Answer.succeeded? (sheet.setInput index value).result = none) :
      Recalculated (sheet.setInput index value).sheet
  | bound {sheet : Sheet} (maxPasses : Nat) (hSheet : Recalculated sheet) :
      Recalculated (sheet.withMaxPasses maxPasses)

theorem atRest_recalculate {sheet : Sheet} {passes : Nat}
    (h : sheet.recalculate.result = .ok passes) : AtRest sheet.recalculate.sheet.cells := by
  rcases sheet.recalculate_cases with ⟨_, _, hSettled⟩ | ⟨failure, hFailure, _⟩
  · exact hSettled.atRest
  · cases h.symm.trans hFailure

theorem atRest_setInput {sheet : Sheet} {index passes : Nat} {value : Float}
    (h : (sheet.setInput index value).result = .ok passes) :
    AtRest (sheet.setInput index value).sheet.cells := by
  cases hCell : sheet.cells[index]? with
  | none => rw [setInput_of_none hCell] at h; cases h
  | some cell =>
    cases cell with
    | computed formula dependencies x => rw [setInput_of_computed hCell] at h; cases h
    | input x =>
      rw [setInput_of_input hCell] at h ⊢
      exact atRest_recalculate (mapError_eq_ok_iff.mp h)

theorem Recalculated.atRest {sheet : Sheet} (h : sheet.Recalculated) : AtRest sheet.cells := by
  induction h with
  | recalculate hResult => exact atRest_recalculate hResult
  | edit hResult => exact atRest_setInput hResult
  | refuse _ hRefused ih => rwa [sheet_setInput_of_refused hRefused]
  | bound maxPasses _ ih => exact ih

theorem setInput_answers {sheet : Sheet} {index : Nat} {x : Float}
    (h : sheet.cells[index]? = some (.input x)) (value : Float) :
    (∃ passes, (sheet.setInput index value).result = .ok passes) ∨
    ∃ failure, (sheet.setInput index value).result = .error (.unsettled failure) := by
  rw [setInput_of_input h]
  cases (sheet.put index value).recalculate.result with
  | ok passes => exact .inl ⟨passes, rfl⟩
  | error failure => exact .inr ⟨failure, rfl⟩

/-- An edit of a sheet at rest is felt only where its input can be reached, also when the cells do
not come to rest again. -/
theorem edit_reaches_dependents {sheet : Sheet} (hSheet : sheet.Recalculated) {index : Nat}
    {x : Float} (hInput : sheet.cells[index]? = some (.input x)) (value : Float)
    (maxPasses : Nat) :
    let edit := { sheet with maxPasses }.setInput index value
    ((∃ passes, edit.result = .ok passes) ∨
      ∃ failure, edit.result = .error (.unsettled failure)) ∧
    ∀ other, other ≠ index → ¬ Reaches sheet.cells other index →
      edit.sheet.cells[other]? = sheet.cells[other]? := by
  intro edit
  have hBounded : { sheet with maxPasses }.cells[index]? = some (.input x) := hInput
  refine ⟨setInput_answers hBounded value, fun other hOther hUnreached => ?_⟩
  have hClosed := closed_not_reaches sheet.cells index
  change ({ sheet with maxPasses }.setInput index value).sheet.cells[other]? = _
  rw [setInput_of_input hBounded, cells_recalculate]
  refine Recalculation.getElem?_run_of_closed hSheet.atRest hClosed (List.length_set ..) ?_
    maxPasses other ⟨hOther, hUnreached⟩
  rintro position ⟨hPosition, _⟩
  exact List.getElem?_set_ne hPosition.symm

/-- A cell that reads itself and the input begins to swing, and so does a cell behind it. The circle
of two cells that reads neither is left alone. -/
theorem edit_reaches_dependents_of_swing :
    let sheet : Sheet :=
      ⟨[.input 0, .computed "{0}-{1}" [] 0, .computed "{3}+0" [] 0, .computed "{2}*{4}" [] 0,
        .input 5, .computed "{1}+{4}" [] 5], 1000, []⟩
    let edit := { sheet with maxPasses := 7 }.setInput 0 1
    sheet.Recalculated ∧ edit.result = .error (.unsettled ⟨7⟩) ∧
      edit.sheet.cells[5]? = some (.computed "{1}+{4}" [] 6) ∧
      edit.sheet.cells[2]? = sheet.cells[2]? := by
  intro sheet edit
  have hResult : sheet.recalculate.result = .ok 1 := by decide +kernel
  have hSame : sheet.recalculate.sheet = sheet := by decide +kernel
  have hSheet : sheet.Recalculated := hSame ▸ .recalculate hResult
  have hReferences : ∀ index ∈ [2, 3, 4], ∀ other ∈ referencesAt sheet.cells index,
      other ∈ [2, 3, 4] := by
    decide +kernel
  have hClosed : Closed sheet.cells (· ∈ [2, 3, 4]) := fun index hIndex other hReads =>
    hReferences index hIndex other hReads.1
  have hUnreached : ¬ Reaches sheet.cells 2 0 := fun hReaches =>
    absurd (hClosed.of_reaches (by decide) hReaches) (by decide)
  have hKept := (edit_reaches_dependents hSheet rfl 1 7).2 2 (by decide) hUnreached
  exact ⟨hSheet, by decide +kernel, by decide +kernel, hKept⟩

end Sheet

end ReactiveSheet
