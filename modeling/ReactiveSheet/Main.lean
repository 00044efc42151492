import ReactiveSheet.Program

/-! # The command

The outer layer reads the environment, files and typed lines, and writes what the program
answers.
-/

namespace ReactiveSheet.Terminal

set_option autoImplicit false

def faultOf : IO.Error → Fault
  | .noFileOrDirectory _ code description => .system description code.toNat
  | .inappropriateType _ code description => .system description code.toNat
  | .permissionDenied _ code description => .system description code.toNat
  | .invalidArgument _ code description => .system description code.toNat
  | error => .other error.toString

def readFile (path : String) : IO (Except Fault (List UInt8)) := do
  try
    let handle ← IO.FS.Handle.mk path .read
    return .ok (← handle.readBinToEnd).toList
  catch error => return .error (faultOf error)

def readSource : Source → IO (Except Fault (List UInt8))
  | .file path => readFile path
  | .inline _ => return .ok []

def writeEvents (verbose : Bool) (events : List Event) : IO Unit := do
  for event in events.filter (Event.shown verbose) do
    IO.eprintln event.line

def writeOutput (text : String) : IO Unit := do
  let output ← IO.getStdout
  output.putStr text
  output.flush

def writeOutcome (verbose : Bool) (outcome : Program.Outcome) : IO UInt32 := do
  writeEvents verbose outcome.events
  writeOutput outcome.output
  IO.eprint outcome.errors
  return outcome.status.toUInt32

/-- The bytes up to the next line feed, with it, behind those of `done`. -/
partial def readLine (input : IO.FS.Stream) (done : List UInt8) : IO (List UInt8) := do
  match (← input.read 1).toList with
  | [] => return done.reverse
  | byte :: _ =>
    if byte == Text.lineFeed then return (byte :: done).reverse
    else readLine input (byte :: done)

partial def hold (verbose : Bool) (input : IO.FS.Stream) (sheet : Sheet) : IO UInt32 := do
  writeOutput Session.prompt
  let line ← readLine input []
  let turn := Session.answer sheet (Text.lines line).head?
  writeEvents verbose turn.events
  writeOutput turn.output
  match turn.ended with
  | none => hold verbose input turn.sheet
  | some ended =>
    let (status, errors) := Program.closing ended
    IO.eprint errors
    return status.toUInt32

def run (arguments : List String) : IO UInt32 := do
  let environment ← IO.getEnv "CELLFLOW_MAX_PASSES"
  match CommandLine.Options.read arguments environment with
  | .error reason => writeOutcome false (Program.stop reason)
  | .ok options =>
    let content ← readSource options.config.source
    match Program.start options (fun _ => content) with
    | .finished outcome => writeOutcome options.verbose outcome
    | .session sheet events =>
      writeEvents options.verbose events
      writeOutput (Session.opening sheet)
      hold options.verbose (← IO.getStdin) sheet

end ReactiveSheet.Terminal

def main (arguments : List String) : IO UInt32 :=
  ReactiveSheet.Terminal.run arguments
