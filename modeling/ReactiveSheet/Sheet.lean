import ReactiveSheet.Definitions
import ReactiveSheet.Entry
import ReactiveSheet.Event

/-! # Sheets

A sheet keeps its cells, the bound on its sweeps and the diagnostics of its last settled state.
An edit that is refused leaves the sheet as it was. An edit that is accepted stays even when the
cells do not come to rest behind it; the sheet then has no diagnostics.
-/

namespace ReactiveSheet

set_option autoImplicit false

structure Sheet where
  cells : List Cell
  maxPasses : Nat
  diagnostics : List Diagnostic
  deriving DecidableEq

/-- A sheet after an operation, with the number of sweeps or the cause of failure. -/
structure Update (ε : Type) where
  sheet : Sheet
  result : Except ε Nat
  events : List Event

inductive EditError where
  | indexOutOfRange (index count : Nat)
  | notAnInput (index : Nat)
  | unsettled (failure : Unsettled)
  deriving DecidableEq

def EditError.message : EditError → String
  | indexOutOfRange index count =>
    "Cell index " ++ toString index ++ " is out of range (" ++ toString count ++ " cells)"
  | notAnInput index =>
    "Cell " ++ toString index ++ " is a formula; only input cells can be changed"
  | unsettled failure => failure.message

namespace Sheet

def ofCells (cells : List Cell) : Sheet :=
  ⟨cells, Recalculation.defaultMaxPasses, []⟩

/-- Reads the cells and evaluates nothing. -/
def ofDefinitions? (text : String) : Option Sheet :=
  (Definitions.read? text).map ofCells

/-- There is always room for one sweep. -/
def withMaxPasses (sheet : Sheet) (maxPasses : Nat) : Sheet :=
  { sheet with maxPasses := max maxPasses 1 }

def recalculate (sheet : Sheet) : Update Unsettled :=
  let run := Recalculation.run sheet.cells sheet.maxPasses
  match run.result with
  | .ok settled =>
    ⟨{ sheet with cells := run.cells, diagnostics := settled.diagnostics }, .ok settled.passes,
      Event.ofRecalculation run⟩
  | .error failure =>
    ⟨{ sheet with cells := run.cells, diagnostics := [] }, .error failure,
      Event.ofRecalculation run⟩

/-- Changes an input and recalculates. -/
def setInput (sheet : Sheet) (index : Nat) (value : Float) : Update EditError :=
  match sheet.cells[index]? with
  | none => ⟨sheet, .error (.indexOutOfRange index sheet.cells.length), []⟩
  | some cell =>
    match cell.setInput? value with
    | none => ⟨sheet, .error (.notAnInput index), []⟩
    | some cell =>
      let update := { sheet with cells := sheet.cells.set index cell }.recalculate
      ⟨update.sheet, update.result.mapError .unsettled, update.events⟩

def entries (sheet : Sheet) : List Entry :=
  Entry.ofCells sheet.cells

end Sheet

end ReactiveSheet
