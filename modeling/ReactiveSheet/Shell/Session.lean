import ReactiveSheet.Fault
import ReactiveSheet.Listing
import ReactiveSheet.Sheet
import ReactiveSheet.Shell.Command
import ReactiveSheet.Text.Utf8

/-! # Sessions

A session shows the sheet, then answers typed lines one by one, each behind a prompt. A line in
error is reported and changes nothing. The session ends at the command to quit, at the end of
the input, or at a line that is not text.
-/

namespace ReactiveSheet

set_option autoImplicit false

namespace Sheet

def listing (sheet : Sheet) : String :=
  String.join ((Listing.lines sheet.cells).map (· ++ "\n"))

end Sheet

namespace Session

def banner (sheet : Sheet) : String :=
  "cellflow: " ++ toString sheet.cells.length ++ " cells loaded. Type 'help' for commands.\n"

def prompt : String := "> "

def helpText : String :=
  "Commands:\n" ++
  "  print | p | 1                 Show every cell value\n" ++
  "  set <index> <value> | 2 ...   Change an input cell and recalculate\n" ++
  "  show <index>                  Show a cell's definition\n" ++
  "  help | h | ?                  Show this help\n" ++
  "  quit | q | exit | 3           Leave\n"

def errorLine (message : String) : String :=
  "Error: " ++ message ++ "\n"

/-- What one line led to. The session goes on unless it has ended. -/
structure Turn where
  sheet : Sheet
  output : String
  events : List Event
  ended : Option (Except Fault Unit)

/-- An answer that leaves the sheet alone. -/
def say (sheet : Sheet) (output : String) : Turn :=
  ⟨sheet, output, [], none⟩

def warningLine (diagnostic : Diagnostic) : String :=
  "warning: " ++ diagnostic.message ++ "\n"

def change (sheet : Sheet) (index : Nat) (value : Float) : Turn :=
  let update := sheet.setInput index value
  let output :=
    match update.result with
    | .ok passes =>
      "Cell " ++ toString index ++ " set to " ++ Listing.number value ++ " (" ++
        toString passes ++ " passes)\n" ++
        String.join (update.sheet.diagnostics.map warningLine)
    | .error failure => errorLine failure.message
  ⟨update.sheet, output, update.events, none⟩

def referenceList (formula : String) : String :=
  match Formula.references formula with
  | [] => "none"
  | references => ", ".intercalate (references.map toString)

def inspection (sheet : Sheet) (index : Nat) : String :=
  match sheet.cells[index]? with
  | none => errorLine (EditError.indexOutOfRange index sheet.cells.length).message
  | some cell =>
    "[" ++ toString index ++ "] " ++ cell.definition ++
      match cell.formula? with
      | some formula =>
        " = " ++ Listing.number cell.value ++ " (refs: " ++ referenceList formula ++ ")\n"
      | none => " (input)\n"

def execute (sheet : Sheet) : Command → Turn
  | .print => say sheet sheet.listing
  | .set index value => change sheet index value
  | .inspect index => say sheet (inspection sheet index)
  | .help => say sheet helpText
  | .quit => ⟨sheet, "", [], some (.ok ())⟩

/-- A blank line asks for nothing. -/
def respond (sheet : Sheet) (line : String) : Turn :=
  if line.toList.all Text.isBlank then say sheet ""
  else
    match Command.parse line with
    | .ok command => execute sheet command
    | .error failure => say sheet (errorLine failure.message)

/-- Answers the bytes of a line, or the end of the input. -/
def answer (sheet : Sheet) : Option (List UInt8) → Turn
  | none => ⟨sheet, "\n", [], some (.ok ())⟩
  | some bytes =>
    match Text.decode? bytes with
    | none => ⟨sheet, "", [], some (.error .notText)⟩
    | some line => respond sheet line

/-- All that is left of a session. -/
structure Transcript where
  sheet : Sheet
  output : String
  events : List Event
  ended : Except Fault Unit

/-- Answers lines until the session ends. -/
def converse (sheet : Sheet) : List (List UInt8) → Transcript
  | [] =>
    let turn := answer sheet none
    ⟨turn.sheet, prompt ++ turn.output, turn.events, .ok ()⟩
  | bytes :: rest =>
    let turn := answer sheet (some bytes)
    match turn.ended with
    | some ended => ⟨turn.sheet, prompt ++ turn.output, turn.events, ended⟩
    | none =>
      let later := converse turn.sheet rest
      ⟨later.sheet, prompt ++ turn.output ++ later.output, turn.events ++ later.events,
        later.ended⟩

def opening (sheet : Sheet) : String :=
  banner sheet ++ sheet.listing

def run (sheet : Sheet) (input : List UInt8) : Transcript :=
  let conversation := converse sheet (Text.lines input)
  { conversation with output := opening sheet ++ conversation.output }

end Session

end ReactiveSheet
