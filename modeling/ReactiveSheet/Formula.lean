import ReactiveSheet.Cell
import ReactiveSheet.Expression
import ReactiveSheet.Reference

/-! # Formulas

A formula is an expression with references. Each reference is replaced by the text of a value,
all of them at once, and what comes out is evaluated as an expression. The text of a negative
value starts with a minus sign, which there is an operator.
-/

namespace ReactiveSheet

set_option autoImplicit false

/-- The text that stands for a formula, and what was reported of its references on the way. -/
structure Replacement where
  text : List Char
  diagnostics : List Diagnostic
  deriving DecidableEq

namespace Replacement

/-- A character is copied. A reference is replaced by the text of a value, and by a zero with a
report if it means no cell. Adding zero makes a negative zero positive. -/
def prepend (cells : List Cell) (segment : Segment) (later : Replacement) : Replacement :=
  match segment.index? with
  | none => { later with text := segment.text ++ later.text }
  | some index =>
    match cells[index]? with
    | some cell => { later with text := Number.plain (cell.value + 0) ++ later.text }
    | none => ⟨'0' :: later.text, .referenceOutOfRange index cells.length :: later.diagnostics⟩

end Replacement

namespace Formula

def segments (formula : String) : List Segment :=
  Reference.scan formula.toList

/-- The indices that a formula refers to, in the order of the text. -/
def references (formula : String) : List Nat :=
  (segments formula).filterMap Segment.index?

def replace (formula : String) (cells : List Cell) : Replacement :=
  (segments formula).foldr (Replacement.prepend cells) ⟨[], []⟩

def evaluate (formula : String) (cells : List Cell) : Evaluation :=
  let replaced := replace formula cells
  Expression.evaluate replaced.text replaced.diagnostics

end Formula

end ReactiveSheet
