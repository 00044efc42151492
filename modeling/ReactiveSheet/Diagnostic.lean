/-! # Diagnostics

Evaluation never fails. What it had to pass over is reported beside the value.
-/

namespace ReactiveSheet

set_option autoImplicit false

inductive Diagnostic where
  | referenceOutOfRange (index count : Nat)
  | unknownOperator (symbol : Char)
  deriving DecidableEq, Repr

namespace Diagnostic

def message : Diagnostic → String
  | referenceOutOfRange index count =>
    "cell reference \x7b" ++ toString index ++ "\x7d is out of range (" ++ toString count ++
      " cells), using 0"
  | unknownOperator symbol => "unknown operator '" ++ symbol.toString ++ "' skipped"

end Diagnostic

/-- A value and the diagnostics raised on the way to it, in order. -/
structure Evaluation where
  value : Float
  diagnostics : List Diagnostic
  deriving DecidableEq

end ReactiveSheet
