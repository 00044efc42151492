import ReactiveSheet.Number.Index
import ReactiveSheet.Number.Literal
import ReactiveSheet.Text.Blank

/-! # Typed commands

A command is a line of words. The first one names it in either case of its letters; most names
have short forms. A value that is typed must be finite.
-/

namespace ReactiveSheet

set_option autoImplicit false

inductive Verb where
  | print
  | set
  | inspect
  | help
  | quit
  deriving DecidableEq, Repr

def Verb.ofName? (name : String) : Option Verb :=
  if name ∈ ["print", "p", "1"] then some print
  else if name ∈ ["set", "2"] then some set
  else if name ∈ ["show"] then some inspect
  else if name ∈ ["help", "h", "?"] then some help
  else if name ∈ ["quit", "q", "exit", "3"] then some quit
  else none

inductive Command where
  | print
  | set (index : Nat) (value : Float)
  | inspect (index : Nat)
  | help
  | quit
  deriving DecidableEq

inductive CommandError where
  | empty
  | unknown (name : String)
  | usage (form : String)
  | invalidIndex (text : String)
  | invalidNumber (text : String)
  deriving DecidableEq, Repr

def CommandError.message : CommandError → String
  | empty => "Empty command"
  | unknown name => "Unknown command: " ++ name ++ " (type 'help')"
  | usage form => "Usage: " ++ form
  | invalidIndex text => "Invalid cell index: " ++ text
  | invalidNumber text => "Invalid number: " ++ text

namespace Command

def readIndex (word : List Char) : Except CommandError Nat :=
  match Index.read? word with
  | some index => .ok index
  | none => .error (.invalidIndex (String.ofList word))

def readValue (word : List Char) : Except CommandError Float :=
  match Number.read? word with
  | some value =>
    if value.isFinite then .ok value else .error (.invalidNumber (String.ofList word))
  | none => .error (.invalidNumber (String.ofList word))

def readSet : List (List Char) → Except CommandError Command
  | [index, value] => do
    let index ← readIndex index
    let value ← readValue value
    return set index value
  | _ => .error (.usage "set <index> <value>")

def readInspect : List (List Char) → Except CommandError Command
  | [index] => do
    let index ← readIndex index
    return inspect index
  | _ => .error (.usage "show <index>")

def parse (line : String) : Except CommandError Command :=
  match Text.words line.toList with
  | [] => .error .empty
  | word :: arguments =>
    let name := String.ofList (word.map Char.toLower)
    match Verb.ofName? name with
    | some .print => .ok print
    | some .set => readSet arguments
    | some .inspect => readInspect arguments
    | some .help => .ok help
    | some .quit => .ok quit
    | none => .error (.unknown name)

end Command

end ReactiveSheet
