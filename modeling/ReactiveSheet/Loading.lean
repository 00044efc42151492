import ReactiveSheet.Config
import ReactiveSheet.Fault
import ReactiveSheet.Sheet
import ReactiveSheet.Text.Utf8

/-! # Loading a sheet

A sheet is loaded in one piece: its source is read, its cells are taken from the text, and it is
brought to rest. Only a sheet at rest is handed on.
-/

namespace ReactiveSheet

set_option autoImplicit false

inductive LoadError where
  | unreadable (path : String) (fault : Fault)
  | empty
  | unsettled (failure : Unsettled)
  deriving DecidableEq

namespace LoadError

def message : LoadError → String
  | unreadable path fault => "Cannot read definitions from " ++ path ++ ": " ++ fault.message
  | empty => "Definitions source is empty"
  | unsettled failure => failure.message

/-- The fault behind an unreadable source is told once more as the cause. -/
def report : LoadError → String
  | unreadable path fault => (unreadable path fault).message ++ ": " ++ fault.message
  | failure => failure.message

end LoadError

/-- Gives the bytes of the file with a path. -/
abbrev FileReader := String → Except Fault (List UInt8)

def Source.text (read : FileReader) : Source → Except LoadError String
  | file path =>
    match read path with
    | .error fault => .error (.unreadable path fault)
    | .ok bytes =>
      match Text.decode? bytes with
      | none => .error (.unreadable path .notText)
      | some text => .ok text
  | inline text => .ok text

structure Loading where
  result : Except LoadError Sheet
  events : List Event

namespace Loading

/-- Brings the sheet of a text to rest. -/
def ofText (config : Config) (text : String) : Loading :=
  match Sheet.ofDefinitions? text with
  | none => ⟨.error .empty, []⟩
  | some sheet =>
    let update := (sheet.withMaxPasses config.maxPasses).recalculate
    match update.result with
    | .error failure => ⟨.error (.unsettled failure), update.events⟩
    | .ok passes =>
      ⟨.ok update.sheet,
        update.events ++ [.loaded config.source.describe update.sheet.cells.length passes]⟩

def run (read : FileReader) (config : Config) : Loading :=
  match config.source.text read with
  | .error failure => ⟨.error failure, []⟩
  | .ok text => ofText config text

end Loading

end ReactiveSheet
