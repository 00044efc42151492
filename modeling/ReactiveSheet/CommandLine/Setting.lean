import ReactiveSheet.Number.Index

/-! # Options of the command line

A switch is on or off and a setting has a value. The file is the one setting without a name: it
is given by its position. Each option can be given once.
-/

namespace ReactiveSheet.CommandLine

set_option autoImplicit false

inductive Switch where
  | batch
  | verbose
  | help
  | version
  deriving DecidableEq, Repr

inductive Setting where
  | file
  | cells
  | format
  | maxPasses
  deriving DecidableEq, Repr

inductive Name where
  | switch (switch : Switch)
  | setting (setting : Setting)
  deriving DecidableEq, Repr

def Name.ofWord? (word : String) : Option Name :=
  match word with
  | "cells" => some (setting .cells)
  | "batch" => some (switch .batch)
  | "format" => some (setting .format)
  | "max-passes" => some (setting .maxPasses)
  | "verbose" => some (switch .verbose)
  | "help" => some (switch .help)
  | "version" => some (switch .version)
  | _ => none

def Name.ofLetter? (letter : Char) : Option Name :=
  match letter with
  | 'c' => some (setting .cells)
  | 'b' => some (switch .batch)
  | 'v' => some (switch .verbose)
  | 'h' => some (switch .help)
  | 'V' => some (switch .version)
  | _ => none

inductive Format where
  | text
  | json
  deriving DecidableEq, Repr

def Format.ofWord? (word : String) : Option Format :=
  match word with
  | "text" => some text
  | "json" => some json
  | _ => none

/-- Why a command line gives no options to run with. -/
inductive Stop where
  | missingSource
  | conflict
  | unknownArgument
  | invalidValue
  | malformedNumber
  | unexpectedValue
  | helpAsked
  | versionAsked
  deriving DecidableEq, Repr

/-- The options that have been given so far. -/
structure Given where
  file : Option String
  cells : Option String
  format : Option Format
  maxPasses : Option Nat
  batch : Bool
  verbose : Bool
  deriving DecidableEq, Repr

namespace Given

def nothing : Given :=
  ⟨none, none, none, none, false, false⟩

def readMaxPasses (value : String) : Except Stop Nat :=
  match Index.read? value.toList with
  | some passes => .ok passes
  | none => .error .malformedNumber

/-- A second value for a setting is a conflict, whatever it is. -/
def put (given : Given) : Setting → String → Except Stop Given
  | .file, value =>
    if given.file.isSome then .error .conflict
    else if value = "" then .error .invalidValue
    else .ok { given with file := some value }
  | .cells, value =>
    if given.cells.isSome then .error .conflict
    else .ok { given with cells := some value }
  | .format, value =>
    if given.format.isSome then .error .conflict
    else
      match Format.ofWord? value with
      | some format => .ok { given with format := some format }
      | none => .error .invalidValue
  | .maxPasses, value =>
    if given.maxPasses.isSome then .error .conflict
    else (readMaxPasses value).map fun passes => { given with maxPasses := some passes }

def turnOn (given : Given) : Switch → Except Stop Given
  | .batch => if given.batch then .error .conflict else .ok { given with batch := true }
  | .verbose => if given.verbose then .error .conflict else .ok { given with verbose := true }
  | .help => .error .helpAsked
  | .version => .error .versionAsked

end Given

end ReactiveSheet.CommandLine
