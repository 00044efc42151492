import ReactiveSheet.Cell

/-! # Entries

What is shown of a cell from outside is its position and its value.
-/

namespace ReactiveSheet

set_option autoImplicit false

structure Entry where
  index : Nat
  value : Float
  deriving DecidableEq

def Entry.ofCells (cells : List Cell) : List Entry :=
  cells.zipIdx.map fun (cell, index) => ⟨index, cell.value⟩

end ReactiveSheet
