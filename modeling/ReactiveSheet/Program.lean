import ReactiveSheet.CommandLine.Reading
import ReactiveSheet.Loading
import ReactiveSheet.Shell.Session
import ReactiveSheet.Snapshot

/-! # The program

A run reads the command line, loads the sheet, and either shows it once or holds a session on
it. If the sheet cannot be loaded, nothing is shown of it.
-/

namespace ReactiveSheet.Program

set_option autoImplicit false

open CommandLine

structure Outcome where
  status : Nat
  output : String
  errors : String
  events : List Event

def batchOutput (format : Format) (sheet : Sheet) : String :=
  match format with
  | .text => sheet.listing
  | .json => Snapshot.indented sheet.entries ++ "\n"

def loadFailure (source : Source) (failure : LoadError) : String :=
  Session.errorLine ("failed to load " ++ source.describe ++ ": " ++ failure.report)

/-- A run is over before any input is read, or it holds a session on a sheet. -/
inductive Start where
  | finished (outcome : Outcome)
  | session (sheet : Sheet) (events : List Event)

def start (options : Options) (read : FileReader) : Start :=
  let loading := Loading.run read options.config
  match loading.result, options.config.mode with
  | .error failure, _ =>
    .finished ⟨1, "", loadFailure options.config.source failure, loading.events⟩
  | .ok sheet, .batch => .finished ⟨0, batchOutput options.format sheet, "", loading.events⟩
  | .ok sheet, .interactive => .session sheet loading.events

/-- The status and the error text that the end of a session leads to. -/
def closing : Except Fault Unit → Nat × String
  | .ok _ => (0, "")
  | .error fault => (1, Session.errorLine fault.message)

def run (options : Options) (read : FileReader) (input : List UInt8) : Outcome :=
  match start options read with
  | .finished outcome => outcome
  | .session sheet events =>
    let transcript := Session.run sheet input
    let (status, errors) := closing transcript.ended
    ⟨status, transcript.output, errors, events ++ transcript.events⟩

def usage : String :=
  "Usage: cellflow [OPTIONS] <FILE|--cells <CELLS>>\n"

def version : String :=
  "cellflow 0.1.0\n"

/-- Asking for help is no failure; any other reason to stop is one. -/
def stop : Stop → Outcome
  | .helpAsked => ⟨0, usage, "", []⟩
  | .versionAsked => ⟨0, version, "", []⟩
  | _ => ⟨2, "", usage, []⟩

/-- Only the events that are to be shown remain. -/
def execute (arguments : List String) (environment : Option String) (read : FileReader)
    (input : List UInt8) : Outcome :=
  match Options.read arguments environment with
  | .error reason => stop reason
  | .ok options =>
    let outcome := run options read input
    { outcome with events := outcome.events.filter (Event.shown options.verbose) }

end ReactiveSheet.Program
