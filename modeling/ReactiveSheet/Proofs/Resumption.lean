import ReactiveSheet.Proofs.Rest

/-! # Runs that are resumed

The bound on the sweeps cuts a run off and has no other part in it. All bounds that leave room for
the sweep in which the cells are found at rest give the same outcome, and a run that was cut off
is taken up by the next one as if there had been a single run under both bounds together.
-/

namespace ReactiveSheet

set_option autoImplicit false

theorem swept_swept (cells : List Cell) (earlier count : Nat) :
    swept (swept cells earlier) count = swept cells (earlier + count) := by
  induction count with
  | zero => rfl
  | succ count ih =>
    rw [swept, ih]
    rfl

theorem Moves.add {cells : List Cell} {earlier count : Nat} (h : Moves cells earlier)
    (hAfter : Moves (swept cells earlier) count) : Moves cells (earlier + count) := by
  intro other hOther
  rcases Nat.lt_or_ge other earlier with hSide | hSide
  · exact h other hSide
  · obtain ⟨later, rfl⟩ := Nat.exists_eq_add_of_le hSide
    rw [← swept_swept]
    exact hAfter later (by omega)

theorem Moves.restsAfter {cells : List Cell} {earlier count : Nat} (h : Moves cells earlier)
    (hAfter : RestsAfter (swept cells earlier) count) : RestsAfter cells (earlier + count) where
  atRest := swept_swept cells earlier count ▸ hAfter.atRest
  notBefore := h.add hAfter.notBefore

namespace Recalculation

/-- The result of a run with so many sweeps made before it. -/
def resultAfter (passes : Nat) : Except Unsettled Settled → Except Unsettled Settled
  | .ok settled => .ok ⟨passes + settled.passes, settled.diagnostics⟩
  | .error failure => .error ⟨passes + failure.passes⟩

theorem resultAfter_eq_ok_iff {passes more : Nat} {diagnostics : List Diagnostic}
    {result : Except Unsettled Settled} :
    resultAfter passes result = .ok ⟨passes + more, diagnostics⟩ ↔
      result = .ok ⟨more, diagnostics⟩ := by
  cases result with
  | error failure => simp [resultAfter]
  | ok settled =>
    obtain ⟨count, reported⟩ := settled
    simp [resultAfter]

theorem run_add {cells : List Cell} {passes : Nat} (h : Moves cells passes) (more : Nat) :
    (run cells (passes + more)).cells = (run (swept cells passes) more).cells ∧
      (run cells (passes + more)).result =
        resultAfter passes (run (swept cells passes) more).result := by
  rcases run_cases (swept cells passes) more with
    ⟨count, hRoom, hRests, hCells, hResult⟩ | ⟨hMoves, hCells, hResult⟩
  · have hFits : passes + count < passes + more := Nat.add_lt_add_left hRoom passes
    obtain ⟨hWhole, hWholeResult⟩ := run_of_restsAfter (h.restsAfter hRests) hFits
    rw [hCells, hResult, hWhole, hWholeResult, swept_swept]
    exact ⟨rfl, rfl⟩
  · obtain ⟨hWhole, hWholeResult⟩ := run_of_moves (h.add hMoves)
    rw [hCells, hResult, hWhole, hWholeResult, swept_swept]
    exact ⟨rfl, rfl⟩

/-- A run that succeeds does the same under every bound that it fits in and fails under all others.
A run that fails can be continued from where it stopped. -/
theorem resumes_where_stopped (cells : List Cell) (passes more : Nat) :
    (∀ settled, (run cells passes).result = .ok settled →
      1 ≤ settled.passes ∧ settled.passes ≤ passes ∧
      (∀ bound, settled.passes ≤ bound → (run cells bound).result = .ok settled ∧
        (run cells bound).cells = (run cells passes).cells) ∧
      ∀ bound, bound < settled.passes → (run cells bound).result = .error ⟨bound⟩) ∧
    ∀ failure, (run cells passes).result = .error failure →
      let rest := run (run cells passes).cells more
      let whole := run cells (passes + more)
      failure.passes = passes ∧
      (∀ count diagnostics, rest.result = .ok ⟨count, diagnostics⟩ ↔
        whole.result = .ok ⟨passes + count, diagnostics⟩) ∧
      (∀ late, rest.result = .error late → whole.result = .error ⟨passes + more⟩) ∧
      rest.cells = whole.cells := by
  constructor
  · intro settled hOk
    obtain ⟨count, hRoom, hRests, rfl, hCells⟩ := restsAfter_of_ok hOk
    refine ⟨by simp, hRoom, fun bound hBound => ?_, fun bound hBound => ?_⟩
    · obtain ⟨hSame, hResult⟩ := run_of_restsAfter hRests hBound
      exact ⟨hResult, hSame.trans hCells.symm⟩
    · have hMoves : Moves cells bound := fun earlier hEarlier =>
        hRests.notBefore earlier (Nat.lt_of_lt_of_le hEarlier (Nat.le_of_lt_succ hBound))
      exact (run_of_moves hMoves).2
  · intro failure hError rest whole
    obtain ⟨hMoves, rfl, hCells⟩ := moves_of_error hError
    obtain ⟨hWhole, hResult⟩ := run_add hMoves more
    rw [← hCells] at hWhole hResult
    refine ⟨rfl, fun count diagnostics => ?_, fun late hLate => ?_, hWhole.symm⟩
    · exact (hResult ▸ resultAfter_eq_ok_iff).symm
    · obtain ⟨_, rfl, _⟩ := moves_of_error hLate
      exact hResult.trans (congrArg (resultAfter passes) hLate)

/-- Cells that are found at rest in the third sweep, under bounds below and above, and a cell that
swings for ever. -/
theorem resumes_where_stopped_of_chain :
    let cells := Definitions.cells "={1}+1, ={2}*2, 3, ={8}"
    let swing := Definitions.cells "=1-{0}"
    let diagnostics := [Diagnostic.referenceOutOfRange 8 4]
    (run cells 9).result = .ok ⟨3, diagnostics⟩ ∧
      (run cells 3).cells = (run cells 9).cells ∧ (run cells 2).result = .error ⟨2⟩ ∧
      (run (run cells 1).cells 5).result = .ok ⟨2, diagnostics⟩ ∧
      (run (run cells 1).cells 5).cells = (run cells (1 + 5)).cells ∧
      (run swing (2 + 3)).result = .error ⟨5⟩ := by
  intro cells swing diagnostics
  have hOk : (run cells 9).result = .ok ⟨3, diagnostics⟩ := by decide +kernel
  have hError : (run cells 1).result = .error ⟨1⟩ := by decide +kernel
  have hSwing : (run swing 2).result = .error ⟨2⟩ := by decide +kernel
  obtain ⟨_, _, hRoom, hShort⟩ := (resumes_where_stopped cells 9 0).1 _ hOk
  obtain ⟨_, hResult, _, hCells⟩ := (resumes_where_stopped cells 1 5).2 _ hError
  obtain ⟨_, _, hFails, _⟩ := (resumes_where_stopped swing 2 3).2 _ hSwing
  refine ⟨hOk, (hRoom 3 (by decide)).2, hShort 2 (by decide), (hResult 2 diagnostics).mpr ?_,
    hCells, hFails ⟨3⟩ (by decide +kernel)⟩
  decide +kernel

end Recalculation

end ReactiveSheet
