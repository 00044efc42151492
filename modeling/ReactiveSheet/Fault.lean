/-! # Faults of reading

Why bytes could not be read or were not text.
-/

namespace ReactiveSheet

set_option autoImplicit false

/-- The system numbers most of its faults; `other` is one without a number. -/
inductive Fault where
  | system (description : String) (code : Nat)
  | other (description : String)
  | nulInName
  | notText
  deriving DecidableEq, Repr

namespace Fault

def notFound : Fault := system "No such file or directory" 2

def notADirectory : Fault := system "Not a directory" 20

def isADirectory : Fault := system "Is a directory" 21

def nameTooLong : Fault := system "File name too long" 36

def message : Fault → String
  | system description code => description ++ " (os error " ++ toString code ++ ")"
  | other description => description
  | nulInName => "file name contained an unexpected NUL byte"
  | notText => "stream did not contain valid UTF-8"

end Fault

end ReactiveSheet
