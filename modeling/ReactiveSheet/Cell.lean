import ReactiveSheet.Text.Blank
import ReactiveSheet.Number.Layout

/-! # Cells

A cell is an input, which holds a number, or it is computed, which holds a formula and the value
the formula had when it was last evaluated. A definition is the text of one cell: an equals sign
starts a formula, anything else is a number or is not one.
-/

namespace ReactiveSheet

set_option autoImplicit false

inductive Cell where
  | input (value : Float)
  | computed (formula : String) (dependencies : List Nat) (value : Float)
  deriving DecidableEq

namespace Cell

def value : Cell → Float
  | input value => value
  | computed _ _ value => value

def isInput : Cell → Bool
  | input _ => true
  | computed .. => false

def formula? : Cell → Option String
  | input _ => none
  | computed formula _ _ => some formula

def dependencies? : Cell → Option (List Nat)
  | input _ => none
  | computed _ dependencies _ => some dependencies

def withValue (value : Float) : Cell → Cell
  | input _ => input value
  | computed formula dependencies _ => computed formula dependencies value

/-- Only an input takes a number from outside. -/
def setInput? (cell : Cell) (value : Float) : Option Cell :=
  if cell.isInput then some (cell.withValue value) else none

/-- A new computed cell declares no dependencies and starts at zero. -/
def ofDefinition (text : List Char) : Cell :=
  match Text.trim text with
  | '=' :: formula => computed (String.ofList formula) [] 0
  | literal => input ((Number.read? literal).getD Number.notANumber)

def definition : Cell → String
  | input value => String.ofList (Number.plain value)
  | computed formula _ _ => "=" ++ formula

@[simp]
theorem value_withValue (value : Float) (cell : Cell) : (cell.withValue value).value = value := by
  cases cell <;> rfl

@[simp]
theorem isInput_withValue (value : Float) (cell : Cell) :
    (cell.withValue value).isInput = cell.isInput := by
  cases cell <;> rfl

@[simp]
theorem formula?_withValue (value : Float) (cell : Cell) :
    (cell.withValue value).formula? = cell.formula? := by
  cases cell <;> rfl

@[simp]
theorem dependencies?_withValue (value : Float) (cell : Cell) :
    (cell.withValue value).dependencies? = cell.dependencies? := by
  cases cell <;> rfl

end Cell

end ReactiveSheet
