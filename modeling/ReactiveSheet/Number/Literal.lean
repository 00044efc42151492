import ReactiveSheet.Number.Decimal

/-! # Number literals

A literal is an optional sign before a decimal or before one of the words for infinity and for
what is not a number. It must be the whole text: no blanks, no separators between digits.
-/

namespace ReactiveSheet.Number

set_option autoImplicit false

def infinity : Float := 1 / 0

def notANumber : Float := 0 / 0

/-- Splits a leading sign off; true is minus. -/
def readSign : List Char → Bool × List Char
  | '-' :: rest => (true, rest)
  | '+' :: rest => (false, rest)
  | text => (false, text)

/-- A signed power of ten; at least one digit is needed. -/
def readPower? (text : List Char) : Option Int :=
  let (negative, digits) := readSign text
  if digits.isEmpty || !digits.all Char.isDigit then none
  else
    let magnitude : Int := Nat.ofDigitChars 10 digits 0
    some (if negative then -magnitude else magnitude)

def readExponent? : List Char → Option Int
  | [] => some 0
  | c :: rest => if c == 'e' || c == 'E' then readPower? rest else none

/-- Splits the digits behind a decimal point off. -/
def readFraction : List Char → List Char × List Char
  | '.' :: rest => (rest.takeWhile Char.isDigit, rest.dropWhile Char.isDigit)
  | text => ([], text)

/-- Digits with a point anywhere among them or none, and then a power of ten or nothing. -/
def readDecimal? (text : List Char) : Option Decimal :=
  let whole := text.takeWhile Char.isDigit
  let (fraction, rest) := readFraction (text.dropWhile Char.isDigit)
  if whole.isEmpty && fraction.isEmpty then none
  else
    (readExponent? rest).map fun exponent =>
      Decimal.ofDigits (whole ++ fraction) (exponent - fraction.length)

/-- The words are read in either case of their letters. -/
def readMagnitude? (text : List Char) : Option Float :=
  let word := text.map Char.toLower
  if word == ['n', 'a', 'n'] then some notANumber
  else if word == ['i', 'n', 'f'] || word == ['i', 'n', 'f', 'i', 'n', 'i', 't', 'y'] then
    some infinity
  else (readDecimal? text).map Decimal.toFloat

def read? (text : List Char) : Option Float :=
  let (negative, magnitude) := readSign text
  (readMagnitude? magnitude).map fun x => if negative then -x else x

end ReactiveSheet.Number
