import ReactiveSheet.CommandLine.Setting
import ReactiveSheet.Config

/-! # Reading the command line

Arguments are read from left to right. A setting is only taken over when the next option or the
end shows that nothing more belongs to it, so a mistake in its value is noticed behind a mistake
in the name of the option after it. Behind two dashes alone every argument is the file.
-/

namespace ReactiveSheet.CommandLine

set_option autoImplicit false

/-- A setting that is not taken over yet; it has no value until one is read. -/
structure Pending where
  setting : Setting
  value : Option String
  deriving DecidableEq, Repr

structure Reading where
  given : Given
  pending : Option Pending
  onlyFiles : Bool
  deriving DecidableEq, Repr

namespace Reading

def start : Reading :=
  ⟨.nothing, none, false⟩

/-- Takes the pending setting over. One without a value is an error. -/
def settle (reading : Reading) : Except Stop Given :=
  match reading.pending with
  | none => .ok reading.given
  | some ⟨_, none⟩ => .error .invalidValue
  | some ⟨setting, some value⟩ => reading.given.put setting value

def turnOn (reading : Reading) (switch : Switch) : Except Stop Reading := do
  let given ← reading.settle
  let given ← given.turnOn switch
  return { reading with given := given, pending := none }

def put (reading : Reading) (setting : Setting) (value : String) : Except Stop Reading := do
  let given ← reading.settle
  let given ← given.put setting value
  return { reading with given := given, pending := none }

def expect (reading : Reading) (setting : Setting) (value : Option String) :
    Except Stop Reading := do
  let given ← reading.settle
  return { reading with given := given, pending := some ⟨setting, value⟩ }

def hasFile (reading : Reading) : Bool :=
  reading.given.file.isSome || (reading.pending.map (·.setting)) == some .file

def readFile (reading : Reading) (path : String) : Except Stop Reading :=
  if reading.hasFile then .error .unknownArgument
  else reading.expect .file (some path)

/-- An argument that is not an option is the value of a setting that waits for one, or else the
file. -/
def readPlain (reading : Reading) (argument : String) : Except Stop Reading :=
  match reading.pending with
  | some ⟨setting, none⟩ => .ok { reading with pending := some ⟨setting, some argument⟩ }
  | _ => reading.readFile argument

/-- A word behind two dashes, with its value behind an equals sign or in the next argument. -/
def readWord (reading : Reading) (text : List Char) : Except Stop Reading :=
  let word := String.ofList (text.takeWhile (· != '='))
  match Name.ofWord? word, text.dropWhile (· != '=') with
  | none, _ => .error .unknownArgument
  | some (.switch switch), [] => reading.turnOn switch
  | some (.switch _), _ :: _ => .error .unexpectedValue
  | some (.setting setting), [] => reading.expect setting none
  | some (.setting setting), _ :: value => reading.put setting (String.ofList value)

def dropEquals : List Char → List Char
  | '=' :: text => text
  | text => text

/-- Letters behind one dash. The first setting among them takes what follows as its value. -/
def readLetters (reading : Reading) : List Char → Except Stop Reading
  | [] => .ok reading
  | letter :: text =>
    match Name.ofLetter? letter with
    | none => .error .unknownArgument
    | some (.switch switch) => (reading.turnOn switch).bind fun next => next.readLetters text
    | some (.setting setting) =>
      if text.isEmpty then reading.expect setting none
      else reading.put setting (String.ofList (dropEquals text))

def read (reading : Reading) (argument : String) : Except Stop Reading :=
  if reading.onlyFiles then reading.readFile argument
  else
    match argument.toList with
    | ['-', '-'] => .ok { reading with onlyFiles := true }
    | '-' :: '-' :: text => reading.readWord text
    | '-' :: letter :: text => reading.readLetters (letter :: text)
    | _ => reading.readPlain argument

def readAll (reading : Reading) : List String → Except Stop Given
  | [] => reading.settle
  | argument :: arguments => (reading.read argument).bind fun next => next.readAll arguments

end Reading

structure Options where
  config : Config
  format : Format
  verbose : Bool
  deriving DecidableEq, Repr

namespace Options

/-- Exactly one source must be given. -/
def checkSource (given : Given) : Except Stop Unit :=
  match given.file, given.cells with
  | some _, none => .ok ()
  | none, some _ => .ok ()
  | some _, some _ => .error .conflict
  | none, none => .error .missingSource

/-- The check leaves one of the two; without a check, no source would be an empty text. -/
def source (given : Given) : Source :=
  match given.file, given.cells with
  | _, some text => .inline text
  | some path, none => .file path
  | none, none => .inline ""

/-- The bound on sweeps: as given, else from the environment, else the usual one. -/
def maxPasses (given : Given) (environment : Option String) : Except Stop Nat :=
  match given.maxPasses, environment with
  | some passes, _ => .ok passes
  | none, some value => Given.readMaxPasses value
  | none, none => .ok Recalculation.defaultMaxPasses

def ofGiven (given : Given) (environment : Option String) : Except Stop Options := do
  let passes ← maxPasses given environment
  checkSource given
  let mode := if given.batch then .batch else .interactive
  return ⟨{ Config.ofSource (source given) with mode := mode }.withMaxPasses passes,
    given.format.getD .text, given.verbose⟩

/-- `environment` is the bound that the environment sets, if it sets one. -/
def read (arguments : List String) (environment : Option String) : Except Stop Options := do
  let given ← Reading.start.readAll arguments
  ofGiven given environment

end Options

end ReactiveSheet.CommandLine
