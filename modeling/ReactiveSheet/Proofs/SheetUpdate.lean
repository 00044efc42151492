import ReactiveSheet.Loading
import ReactiveSheet.Proofs.Rest

/-! # What is done to a sheet

A recalculation brings the cells to rest and keeps what is then reported, or it fails and nothing
is reported. An edit does one of three things: it finds no cell, it finds a computed cell, or it
changes an input and recalculates. The first two leave the sheet as it was.
-/

namespace ReactiveSheet

set_option autoImplicit false

/-- How an operation that recalculates answers; an edit may also be refused. -/
abbrev Answer := Except EditError Nat

namespace Answer

/-- Whether the recalculation behind an answer succeeded. A refused edit has none. -/
def succeeded? : Answer → Option Bool
  | .ok _ => some true
  | .error (.unsettled _) => some false
  | .error (.indexOutOfRange _ _) => none
  | .error (.notAnInput _) => none

theorem succeeded?_mapError (result : Except Unsettled Nat) :
    succeeded? (result.mapError .unsettled) = some result.isOk := by
  cases result <;> rfl

end Answer

namespace Sheet

variable {sheet : Sheet} {index : Nat} {value : Float}

theorem cells_recalculate (sheet : Sheet) : sheet.recalculate.sheet.cells =
    (Recalculation.run sheet.cells sheet.maxPasses).cells := by
  rw [recalculate]
  split <;> rfl

theorem map_cells_recalculate {α : Type} {view : Cell → α}
    (h : ∀ seen cell, view (Cell.refresh seen cell) = view cell) (sheet : Sheet) :
    sheet.recalculate.sheet.cells.map view = sheet.cells.map view := by
  rw [cells_recalculate, Recalculation.map_run h]

/-- The cells are at rest and the diagnostics are theirs. -/
structure Settled (sheet : Sheet) : Prop where
  atRest : AtRest sheet.cells
  diagnostics : sheet.diagnostics = reports sheet.cells

theorem recalculate_cases (sheet : Sheet) :
    (∃ passes, sheet.recalculate.result = .ok passes ∧ sheet.recalculate.sheet.Settled) ∨
    ∃ failure, sheet.recalculate.result = .error failure ∧
      sheet.recalculate.sheet.diagnostics = [] := by
  rw [recalculate]
  split
  next settled hResult =>
    obtain ⟨hRest, hDiagnostics⟩ := Recalculation.atRest_of_ok hResult
    exact .inl ⟨settled.passes, rfl, hRest, hDiagnostics⟩
  next failure _ => exact .inr ⟨failure, rfl, rfl⟩

def put (sheet : Sheet) (index : Nat) (value : Float) : Sheet :=
  { sheet with cells := sheet.cells.set index (.input value) }

theorem map_cells_put {α : Type} {view : Cell → α} {x : Float}
    (h : sheet.cells[index]? = some (.input x)) (hView : ∀ y z, view (.input y) = view (.input z)) :
    (sheet.put index value).cells.map view = sheet.cells.map view :=
  map_set_input h hView value

theorem setInput_of_none (h : sheet.cells[index]? = none) :
    sheet.setInput index value =
      ⟨sheet, .error (.indexOutOfRange index sheet.cells.length), []⟩ := by
  rw [setInput, h]

theorem setInput_of_computed {formula : String} {dependencies : List Nat} {x : Float}
    (h : sheet.cells[index]? = some (.computed formula dependencies x)) :
    sheet.setInput index value = ⟨sheet, .error (.notAnInput index), []⟩ := by
  rw [setInput, h]
  rfl

theorem setInput_of_input {x : Float} (h : sheet.cells[index]? = some (.input x)) :
    sheet.setInput index value =
      ⟨(sheet.put index value).recalculate.sheet,
        (sheet.put index value).recalculate.result.mapError .unsettled,
        (sheet.put index value).recalculate.events⟩ := by
  rw [setInput, h]
  rfl

theorem mapError_eq_ok_iff {ε δ α : Type} {f : ε → δ} {result : Except ε α} {a : α} :
    result.mapError f = .ok a ↔ result = .ok a := by
  cases result <;> simp [Except.mapError]

theorem succeeded?_setInput_of_input {x : Float} (h : sheet.cells[index]? = some (.input x)) :
    Answer.succeeded? (sheet.setInput index value).result ≠ none := by
  rw [setInput_of_input h, Answer.succeeded?_mapError]
  exact Option.some_ne_none _

theorem setInput_eq_indexOutOfRange_iff {position count : Nat} :
    (sheet.setInput index value).result = .error (.indexOutOfRange position count) ↔
      sheet.cells.length ≤ index ∧ position = index ∧ count = sheet.cells.length := by
  constructor
  · intro h
    cases hCell : sheet.cells[index]? with
    | none =>
      rw [setInput_of_none hCell] at h
      cases h
      exact ⟨List.getElem?_eq_none_iff.mp hCell, rfl, rfl⟩
    | some cell =>
      cases cell with
      | input x => exact absurd (congrArg Answer.succeeded? h) (succeeded?_setInput_of_input hCell)
      | computed => rw [setInput_of_computed hCell] at h; cases h
  · rintro ⟨hLength, rfl, rfl⟩
    rw [setInput_of_none (List.getElem?_eq_none hLength)]

theorem setInput_eq_notAnInput_iff {position : Nat} :
    (sheet.setInput index value).result = .error (.notAnInput position) ↔
      (∃ cell, sheet.cells[index]? = some cell ∧ cell.isInput = false) ∧ position = index := by
  constructor
  · intro h
    cases hCell : sheet.cells[index]? with
    | none => rw [setInput_of_none hCell] at h; cases h
    | some cell =>
      cases cell with
      | input x => exact absurd (congrArg Answer.succeeded? h) (succeeded?_setInput_of_input hCell)
      | computed formula dependencies x =>
        rw [setInput_of_computed hCell] at h
        cases h
        exact ⟨⟨_, rfl, rfl⟩, rfl⟩
  · rintro ⟨⟨cell, hCell, hComputed⟩, rfl⟩
    cases cell with
    | input x => cases hComputed
    | computed => rw [setInput_of_computed hCell]

theorem sheet_setInput_of_refused
    (h : Answer.succeeded? (sheet.setInput index value).result = none) :
    (sheet.setInput index value).sheet = sheet := by
  cases hCell : sheet.cells[index]? with
  | none => rw [setInput_of_none hCell]
  | some cell =>
    cases cell with
    | input x => exact absurd h (succeeded?_setInput_of_input hCell)
    | computed => rw [setInput_of_computed hCell]

/-- Which edits are refused, with which error, and that nothing comes of them. -/
structure Refuses (sheet : Sheet) (index : Nat) (value : Float) : Prop where
  outOfRange : ∀ position count,
    (sheet.setInput index value).result = .error (.indexOutOfRange position count) ↔
      sheet.cells.length ≤ index ∧ position = index ∧ count = sheet.cells.length
  notAnInput : ∀ position, (sheet.setInput index value).result = .error (.notAnInput position) ↔
    (∃ cell, sheet.cells[index]? = some cell ∧ cell.isInput = false) ∧ position = index
  unchanged : Answer.succeeded? (sheet.setInput index value).result = none →
    (sheet.setInput index value).sheet = sheet

theorem refuses (sheet : Sheet) (index : Nat) (value : Float) : sheet.Refuses index value where
  outOfRange _ _ := setInput_eq_indexOutOfRange_iff
  notAnInput _ := setInput_eq_notAnInput_iff
  unchanged := sheet_setInput_of_refused

end Sheet

end ReactiveSheet
