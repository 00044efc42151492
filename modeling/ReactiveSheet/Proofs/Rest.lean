import ReactiveSheet.Definitions
import ReactiveSheet.Proofs.Sweep

/-! # Cells at rest

Cells are at rest when each formula has the value of its cell. These are the cells that a sweep
does not change, so a run of sweeps ends with the first cells at rest that it comes to, or with
whatever its last sweep has left.
-/

namespace ReactiveSheet

set_option autoImplicit false

def AtRest (cells : List Cell) : Prop :=
  ∀ cell ∈ cells, cell.Current cells

instance (cell : Cell) (seen : List Cell) : Decidable (cell.Current seen) :=
  inferInstanceAs (Decidable (∀ formula ∈ cell.formula?, _ = true))

instance (cells : List Cell) : Decidable (AtRest cells) :=
  inferInstanceAs (Decidable (∀ cell ∈ cells, _))

theorem atRest_iff {cells : List Cell} :
    AtRest cells ↔ ∀ (index : Nat) (cell : Cell), cells[index]? = some cell →
      cell.Current cells := by
  constructor
  · intro h index cell hCell
    exact h cell (List.mem_of_getElem? hCell)
  · intro h cell hCell
    obtain ⟨index, hIndex⟩ := List.mem_iff_getElem?.mp hCell
    exact h index cell hIndex

namespace Sweep

theorem seenAt_of_run_eq {cells : List Cell} (h : (run cells).cells = cells) (index : Nat) :
    seenAt cells index = cells := by
  rw [seenAt, h, List.take_append_drop]

theorem getElem?_run_of_current {cells : List Cell} (h : AtRest cells) (index : Nat) :
    (run cells).cells[index]? = cells[index]? := by
  induction index using Nat.strongRecOn with
  | ind index ih =>
    -- Nothing has changed before this position, so its formula sees the cells as they were.
    have hSeen : seenAt cells index = cells := by
      apply List.ext_getElem?
      intro other
      rcases Nat.lt_or_ge other index with hOther | hOther
      · rw [getElem?_seenAt_of_lt cells hOther, ih other hOther]
      · rw [getElem?_seenAt_of_le cells hOther]
    rw [getElem?_run, hSeen]
    cases hCell : cells[index]? with
    | none => rfl
    | some cell =>
      exact congrArg some (Cell.refresh_eq_self_iff.mpr (atRest_iff.mp h index cell hCell))

theorem run_eq_iff {cells : List Cell} : (run cells).cells = cells ↔ AtRest cells := by
  refine ⟨fun h => ?_, fun h => List.ext_getElem? (getElem?_run_of_current h)⟩
  rw [atRest_iff]
  intro index cell hCell
  have hRun := getElem?_run cells index
  rw [seenAt_of_run_eq h, h, hCell] at hRun
  exact Cell.refresh_eq_self_iff.mp (Option.some.inj hRun).symm

theorem changed_eq_zero_iff_atRest {cells : List Cell} :
    (run cells).changed = 0 ↔ AtRest cells :=
  changed_eq_zero_iff.trans run_eq_iff

end Sweep

def swept (cells : List Cell) : Nat → List Cell
  | 0 => cells
  | count + 1 => (Sweep.run (swept cells count)).cells

theorem swept_run (cells : List Cell) (count : Nat) :
    swept (Sweep.run cells).cells count = swept cells (count + 1) := by
  induction count with
  | zero => rfl
  | succ count ih =>
    rw [swept, ih]
    rfl

theorem map_swept {α : Type} {view : Cell → α}
    (h : ∀ seen cell, view (Cell.refresh seen cell) = view cell) (cells : List Cell) (count : Nat) :
    (swept cells count).map view = cells.map view := by
  induction count with
  | zero => rfl
  | succ count ih => exact (Sweep.map_run h _).trans ih

theorem map_set_input {α : Type} {view : Cell → α} {cells : List Cell} {index : Nat} {x : Float}
    (h : cells[index]? = some (.input x)) (hView : ∀ y z, view (.input y) = view (.input z))
    (value : Float) : (cells.set index (.input value)).map view = cells.map view := by
  obtain ⟨hIndex, hCell⟩ := List.getElem?_eq_some_iff.mp h
  rw [List.map_set, hView value x, ← List.map_set, ← hCell, List.set_getElem_self]

theorem swept_of_atRest {cells : List Cell} (h : AtRest cells) (count : Nat) :
    swept cells count = cells := by
  induction count with
  | zero => rfl
  | succ count ih => rw [swept, ih, Sweep.run_eq_iff.mpr h]

/-- The cells come to rest after this many sweeps and not before. -/
structure RestsAfter (cells : List Cell) (count : Nat) : Prop where
  atRest : AtRest (swept cells count)
  notBefore : ∀ earlier < count, ¬ AtRest (swept cells earlier)

theorem RestsAfter.succ {cells : List Cell} {count : Nat} (hCells : ¬ AtRest cells)
    (h : RestsAfter (Sweep.run cells).cells count) : RestsAfter cells (count + 1) where
  atRest := swept_run cells count ▸ h.atRest
  notBefore earlier hEarlier := by
    cases earlier with
    | zero => exact hCells
    | succ earlier =>
      rw [← swept_run]
      exact h.notBefore earlier (by omega)

theorem RestsAfter.unique {cells : List Cell} {count other : Nat} (h : RestsAfter cells count)
    (hOther : RestsAfter cells other) : count = other := by
  rcases Nat.lt_trichotomy count other with hLess | hEq | hLess
  · exact absurd h.atRest (hOther.notBefore count hLess)
  · exact hEq
  · exact absurd hOther.atRest (h.notBefore other hLess)

/-- The cells are in motion before each of so many sweeps. -/
def Moves (cells : List Cell) (count : Nat) : Prop :=
  ∀ earlier < count, ¬ AtRest (swept cells earlier)

namespace Recalculation

theorem continued_of_atRest {cells : List Cell} (h : AtRest cells) (changes : List Nat)
    (passes : Nat) : continued changes cells (passes + 1) =
      ⟨cells, (0 :: changes).reverse, .ok ⟨changes.length + 1, reports cells⟩⟩ := by
  have hChanged := Sweep.changed_eq_zero_iff_atRest.mpr h
  rw [continued, Sweep.diagnostics_run, Sweep.run_eq_iff.mpr h, hChanged]
  rfl

theorem continued_of_not_atRest {cells : List Cell} (h : ¬ AtRest cells) (changes : List Nat)
    (passes : Nat) : continued changes cells (passes + 1) =
      continued ((Sweep.run cells).changed :: changes) (Sweep.run cells).cells passes := by
  rw [continued]
  exact if_neg (mt Sweep.changed_eq_zero_iff_atRest.mp h)

/-- All that a run can do: stop with the first cells at rest, or give up after its last sweep. -/
theorem continued_cases (cells : List Cell) (changes : List Nat) (passes : Nat) :
    (∃ count < passes, RestsAfter cells count ∧
      (continued changes cells passes).cells = swept cells count ∧
      (continued changes cells passes).result =
        .ok ⟨changes.length + count + 1, reports (swept cells count)⟩) ∨
    ((∀ count < passes, ¬ AtRest (swept cells count)) ∧
      (continued changes cells passes).cells = swept cells passes ∧
      (continued changes cells passes).result = .error ⟨changes.length + passes⟩) := by
  induction passes generalizing cells changes with
  | zero => exact .inr ⟨by simp, rfl, rfl⟩
  | succ passes ih =>
    by_cases hRest : AtRest cells
    · rw [continued_of_atRest hRest]
      exact .inl ⟨0, by omega, ⟨hRest, by simp⟩, rfl, rfl⟩
    · rw [continued_of_not_atRest hRest]
      rcases ih (Sweep.run cells).cells ((Sweep.run cells).changed :: changes) with
        ⟨count, hCount, hRests, hCells, hResult⟩ | ⟨hNever, hCells, hResult⟩
      · refine .inl ⟨count + 1, by omega, hRests.succ hRest, ?_, ?_⟩
        · rw [hCells, swept_run]
        · rw [hResult, swept_run, List.length_cons, Nat.add_right_comm _ 1 count,
            Nat.add_assoc _ count 1]
      · refine .inr ⟨?_, ?_, ?_⟩
        · intro count hCount
          cases count with
          | zero => exact hRest
          | succ count => exact swept_run cells count ▸ hNever count (by omega)
        · rw [hCells, swept_run]
        · rw [hResult, List.length_cons, Nat.add_right_comm, Nat.add_assoc]

theorem run_cases (cells : List Cell) (maxPasses : Nat) :
    (∃ count < maxPasses, RestsAfter cells count ∧
      (run cells maxPasses).cells = swept cells count ∧
      (run cells maxPasses).result = .ok ⟨count + 1, reports (swept cells count)⟩) ∨
    ((∀ count < maxPasses, ¬ AtRest (swept cells count)) ∧
      (run cells maxPasses).cells = swept cells maxPasses ∧
      (run cells maxPasses).result = .error ⟨maxPasses⟩) := by
  simpa [run] using continued_cases cells [] maxPasses

theorem run_of_restsAfter {cells : List Cell} {count maxPasses : Nat} (h : RestsAfter cells count)
    (hRoom : count < maxPasses) : (run cells maxPasses).cells = swept cells count ∧
      (run cells maxPasses).result = .ok ⟨count + 1, reports (swept cells count)⟩ := by
  rcases run_cases cells maxPasses with ⟨other, _, hOther, hCells, hResult⟩ | ⟨hMoves, _⟩
  · obtain rfl := h.unique hOther
    exact ⟨hCells, hResult⟩
  · exact absurd h.atRest (hMoves count hRoom)

theorem run_of_moves {cells : List Cell} {maxPasses : Nat} (h : Moves cells maxPasses) :
    (run cells maxPasses).cells = swept cells maxPasses ∧
      (run cells maxPasses).result = .error ⟨maxPasses⟩ := by
  rcases run_cases cells maxPasses with ⟨count, hCount, hRests, _⟩ | ⟨_, hCells, hResult⟩
  · exact absurd hRests.atRest (h count hCount)
  · exact ⟨hCells, hResult⟩

theorem restsAfter_of_ok {cells : List Cell} {maxPasses : Nat} {settled : Settled}
    (h : (run cells maxPasses).result = .ok settled) : ∃ count < maxPasses,
      RestsAfter cells count ∧ settled = ⟨count + 1, reports (swept cells count)⟩ ∧
      (run cells maxPasses).cells = swept cells count := by
  rcases run_cases cells maxPasses with ⟨count, hRoom, hRests, hCells, hResult⟩ | ⟨_, _, hResult⟩
  · exact ⟨count, hRoom, hRests, Except.ok.inj (h.symm.trans hResult), hCells⟩
  · cases h.symm.trans hResult

theorem moves_of_error {cells : List Cell} {maxPasses : Nat} {failure : Unsettled}
    (h : (run cells maxPasses).result = .error failure) : Moves cells maxPasses ∧
      failure = ⟨maxPasses⟩ ∧ (run cells maxPasses).cells = swept cells maxPasses := by
  rcases run_cases cells maxPasses with ⟨_, _, _, _, hResult⟩ | ⟨hMoves, hCells, hResult⟩
  · cases h.symm.trans hResult
  · exact ⟨hMoves, Except.error.inj (h.symm.trans hResult), hCells⟩

theorem exists_cells_eq_swept (cells : List Cell) (maxPasses : Nat) :
    ∃ count, (run cells maxPasses).cells = swept cells count := by
  rcases run_cases cells maxPasses with ⟨count, _, _, hCells, _⟩ | ⟨_, hCells, _⟩
  · exact ⟨count, hCells⟩
  · exact ⟨maxPasses, hCells⟩

theorem map_run {α : Type} {view : Cell → α}
    (h : ∀ seen cell, view (Cell.refresh seen cell) = view cell) (cells : List Cell)
    (maxPasses : Nat) : (run cells maxPasses).cells.map view = cells.map view := by
  obtain ⟨count, hCells⟩ := exists_cells_eq_swept cells maxPasses
  rw [hCells, map_swept h]

theorem run_of_atRest {cells : List Cell} (h : AtRest cells) {maxPasses : Nat}
    (hPasses : 1 ≤ maxPasses) : (run cells maxPasses).cells = cells ∧
      (run cells maxPasses).result = .ok ⟨1, reports cells⟩ := by
  obtain ⟨passes, rfl⟩ := Nat.exists_eq_add_of_le' hPasses
  rw [run, continued_of_atRest h]
  exact ⟨rfl, rfl⟩

theorem atRest_of_ok {cells : List Cell} {maxPasses : Nat} {settled : Settled}
    (h : (run cells maxPasses).result = .ok settled) :
    AtRest (run cells maxPasses).cells ∧
      settled.diagnostics = reports (run cells maxPasses).cells := by
  obtain ⟨count, _, hRests, rfl, hCells⟩ := restsAfter_of_ok h
  rw [hCells]
  exact ⟨hRests.atRest, rfl⟩

/-- A run that succeeds leaves cells at rest, and these are exactly the cells that every further
run confirms in its first sweep. -/
theorem settles_at_rest (cells : List Cell) (maxPasses : Nat) :
    (∀ settled, (run cells maxPasses).result = .ok settled →
      AtRest (run cells maxPasses).cells ∧
      ∀ again, 1 ≤ again →
        (run (run cells maxPasses).cells again).result = .ok ⟨1, settled.diagnostics⟩ ∧
        (run (run cells maxPasses).cells again).cells = (run cells maxPasses).cells) ∧
    (AtRest cells → ∀ again, 1 ≤ again →
      (run cells again).result = .ok ⟨1, reports cells⟩ ∧ (run cells again).cells = cells) := by
  constructor
  · intro settled hOk
    obtain ⟨hRest, hDiagnostics⟩ := atRest_of_ok hOk
    refine ⟨hRest, fun again hAgain => ?_⟩
    obtain ⟨hCells, hResult⟩ := run_of_atRest hRest hAgain
    exact ⟨hDiagnostics ▸ hResult, hCells⟩
  · intro hRest again hAgain
    obtain ⟨hCells, hResult⟩ := run_of_atRest hRest hAgain
    exact ⟨hResult, hCells⟩

/-- Two cells in a circle, a reference that means no cell, what is not a number, and a formula
whose value is a negative zero. -/
theorem settles_at_rest_of_knot :
    let cells := Definitions.cells "={1}, ={0}+{9}, oops, ={2}*{4}, -0, =1-2*{4}"
    let rested := run cells 2
    rested.result = .ok ⟨2, [.referenceOutOfRange 9 6]⟩ ∧ AtRest rested.cells ∧
      (run rested.cells 1).result = .ok ⟨1, [.referenceOutOfRange 9 6]⟩ ∧
      (run rested.cells 7).cells = rested.cells := by
  intro cells rested
  have hOk : rested.result = .ok ⟨2, [.referenceOutOfRange 9 6]⟩ := by decide +kernel
  obtain ⟨hRest, hAgain⟩ := (settles_at_rest cells 2).1 _ hOk
  exact ⟨hOk, hRest, (hAgain 1 (by decide)).1, ((settles_at_rest rested.cells 1).2 hRest 7
    (by decide)).2⟩

end Recalculation

end ReactiveSheet
