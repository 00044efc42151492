import ReactiveSheet.Fault

/-! # Trees of files

A tree of directories stands in for a disk, so that a whole run of the program is a function of
its inputs. A path is followed name by name from the working directory or from the root.
-/

namespace ReactiveSheet

set_option autoImplicit false

inductive FileTree where
  | file (content : List UInt8)
  | directory (entries : List (String × FileTree))

/-- A tree and the directories above it, the nearest first. -/
structure Place where
  above : List FileTree
  here : FileTree

namespace Place

def root (place : Place) : Place :=
  ⟨[], place.above.getLast?.getD place.here⟩

/-- The directory above the root is the root. -/
def parent (place : Place) : Place :=
  match place.above with
  | [] => place
  | here :: above => ⟨above, here⟩

/-- The longest name that a directory can hold, in bytes. -/
def maxNameSize : Nat := 255

/-- The longest path, in bytes. -/
def maxPathSize : Nat := 4095

/-- One name on the way. Only a directory can be passed, also by an empty name. -/
def step (place : Place) (name : String) : Except Fault Place :=
  match place.here with
  | .file _ => .error .notADirectory
  | .directory entries =>
    if name = "" ∨ name = "." then .ok place
    else if name = ".." then .ok place.parent
    else if maxNameSize < name.utf8ByteSize then .error .nameTooLong
    else
      match entries.lookup name with
      | none => .error .notFound
      | some tree => .ok ⟨place.here :: place.above, tree⟩

def walk (place : Place) : List String → Except Fault Place
  | [] => .ok place
  | name :: names => (place.step name).bind fun next => next.walk names

def start (place : Place) (path : List Char) : Place :=
  if path.head? = some '/' then place.root else place

def read (place : Place) (path : String) : Except Fault (List UInt8) :=
  if path.toList.contains '\x00' then .error .nulInName
  else if path = "" then .error .notFound
  else if maxPathSize < path.utf8ByteSize then .error .nameTooLong
  else
    let names := (path.toList.splitOn '/').map String.ofList
    match (place.start path.toList).walk names with
    | .error fault => .error fault
    | .ok ⟨_, .directory _⟩ => .error .isADirectory
    | .ok ⟨_, .file content⟩ => .ok content

end Place

end ReactiveSheet
