import ReactiveSheet.Cell

/-! # Definitions text

The cells of a sheet are written in one text, in order, with commas between them. A formula
cannot hold a comma, so every comma separates two cells.
-/

namespace ReactiveSheet.Definitions

set_option autoImplicit false

/-- The cells of any text; one without commas is one cell. -/
def cells (text : String) : List Cell :=
  (text.toList.splitOn ',').map Cell.ofDefinition

/-- Blank text defines no sheet. -/
def read? (text : String) : Option (List Cell) :=
  if text.toList.all Text.isBlank then none else some (cells text)

def write (cells : List Cell) : String :=
  ",".intercalate (cells.map Cell.definition)

end ReactiveSheet.Definitions
