import ReactiveSheet.Recalculation

/-! # Events

What happens to a sheet besides its answers is told as events. The outer layer writes them as
log lines, the details only if they are wanted.
-/

namespace ReactiveSheet

set_option autoImplicit false

inductive Level where
  | debug
  | info
  | warning
  deriving DecidableEq, Repr

def Level.label : Level → String
  | debug => "DEBUG"
  | info => "INFO"
  | warning => "WARN"

inductive Event where
  | swept (pass changed : Nat)
  | reported (diagnostic : Diagnostic)
  | unsettled (failure : Unsettled)
  | loaded (source : String) (cells passes : Nat)
  deriving DecidableEq

namespace Event

def level : Event → Level
  | swept .. => .debug
  | loaded .. => .info
  | reported _ => .warning
  | unsettled _ => .warning

def message : Event → String
  | swept pass changed =>
    "propagation pass pass=" ++ toString pass ++ " changed=" ++ toString changed
  | reported diagnostic => diagnostic.message
  | unsettled failure => failure.message
  | loaded source cells passes =>
    "loaded sheet source=" ++ source ++ " cells=" ++ toString cells ++ " passes=" ++
      toString passes

/-- Warnings are always shown, everything else only on demand. -/
def shown (verbose : Bool) (event : Event) : Bool :=
  verbose || event.level == .warning

def line (event : Event) : String :=
  event.level.label ++ " " ++ event.message

/-- One event for each sweep, and then what the run came to. -/
def ofRecalculation (run : Recalculation) : List Event :=
  run.changes.zipIdx.map (fun (changed, index) => swept (index + 1) changed) ++
    match run.result with
    | .ok settled => settled.diagnostics.map reported
    | .error failure => [unsettled failure]

end Event

end ReactiveSheet
