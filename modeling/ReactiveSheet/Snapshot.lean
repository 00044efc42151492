import ReactiveSheet.Entry

/-! # The snapshot for programs

The entries of a sheet as JSON: an array with one object for each cell. A value that is not
finite has no number in JSON and is written as null.
-/

namespace ReactiveSheet.Snapshot

set_option autoImplicit false

def number (x : Float) : String :=
  match Number.exchange? x with
  | some text => String.ofList text
  | none => "null"

/-- The names and the written values of an object. -/
def fields (entry : Entry) : List (String × String) :=
  [("index", toString entry.index), ("value", number entry.value)]

def quote (name : String) : String :=
  "\"" ++ name ++ "\""

def compactField (field : String × String) : String :=
  quote field.1 ++ ":" ++ field.2

def compactEntry (entry : Entry) : String :=
  "\x7b" ++ ",".intercalate ((fields entry).map compactField) ++ "\x7d"

/-- The whole array without blanks. -/
def compact (entries : List Entry) : String :=
  "[" ++ ",".intercalate (entries.map compactEntry) ++ "]"

def indentedField (field : String × String) : String :=
  "    " ++ quote field.1 ++ ": " ++ field.2

def indentedEntry (entry : Entry) : String :=
  "  \x7b\n" ++ ",\n".intercalate ((fields entry).map indentedField) ++ "\n  \x7d"

/-- One line for each field, two blanks deeper for each level. -/
def indented : List Entry → String
  | [] => "[]"
  | entries => "[\n" ++ ",\n".intercalate (entries.map indentedEntry) ++ "\n]"

end ReactiveSheet.Snapshot
