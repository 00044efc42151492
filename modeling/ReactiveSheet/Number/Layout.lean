import ReactiveSheet.Number.Literal
import ReactiveSheet.Number.Shortest

/-! # The written form of a float

Both written forms show the shortest digits. The plain form spells every number out; the form
for data exchange marks whole numbers with a fraction and writes very large and very small
numbers with a power of ten.
-/

namespace ReactiveSheet

set_option autoImplicit false

structure Layout where
  /-- The powers of the leading digit that are spelled out; all of them without bounds. -/
  positional : Option (Int × Int)
  /-- What follows the digits of a whole number that is spelled out. -/
  wholeEnding : List Char
  tie : Tie
  deriving DecidableEq, Repr

namespace Layout

def plain : Layout where
  positional := none
  wholeEnding := []
  tie := .up

def exchange : Layout where
  positional := some (-5, 15)
  wholeEnding := ['.', '0']
  tie := .even

/-- Digits times a power of ten, spelled out. -/
def spellOut (wholeEnding digits : List Char) (exponent : Int) : List Char :=
  if 0 ≤ exponent then digits ++ List.replicate exponent.toNat '0' ++ wholeEnding
  else
    let places := (-exponent).toNat
    if places < digits.length then
      digits.take (digits.length - places) ++ '.' :: digits.drop (digits.length - places)
    else '0' :: '.' :: (List.replicate (places - digits.length) '0' ++ digits)

/-- One digit before the point, and a signed power of ten. -/
def withPower (digits : List Char) (leading : Int) : List Char :=
  let mantissa :=
    match digits with
    | first :: second :: rest => first :: '.' :: second :: rest
    | _ => digits
  mantissa ++ 'e' :: (if 0 ≤ leading then '+' else '-') :: Nat.toDigits 10 leading.natAbs

def write (layout : Layout) (d : Decimal) : List Char :=
  let leading := d.digits.length - 1 + d.exponent
  match layout.positional with
  | none => spellOut layout.wholeEnding d.digits d.exponent
  | some (least, greatest) =>
    if least ≤ leading ∧ leading ≤ greatest then
      spellOut layout.wholeEnding d.digits d.exponent
    else withPower d.digits leading

end Layout

namespace Number

def sign : Float.Model.UnpackedFloat.Sign → List Char
  | .positive => []
  | .negative => ['-']

/-- The written form of a finite float, by its decoded value. -/
def write? (layout : Layout) (x : Float) : Option (List Char) :=
  match x.toModel.unpack with
  | .notANumber => none
  | .infinity _ => none
  | .zero s => some (sign s ++ layout.write ⟨0, 0⟩)
  | .finite s mantissa exponent _ =>
    some (sign s ++ layout.write (shortest layout.tie x.abs mantissa exponent))

/-- The written form for data exchange, which has none for infinities and what is not a
number. -/
def exchange? (x : Float) : Option (List Char) :=
  write? .exchange x

/-- The words for what `write?` does not write. -/
def word (x : Float) : List Char :=
  match x.toModel.unpack with
  | .infinity s => sign s ++ ['i', 'n', 'f']
  | _ => ['N', 'a', 'N']

def plain (x : Float) : List Char :=
  (write? .plain x).getD (word x)

example : plain 0.00001 = ['0', '.', '0', '0', '0', '0', '1'] := by decide
example : plain (-0.0) = ['-', '0'] := by decide
example : exchange? 100 = some ['1', '0', '0', '.', '0'] := by decide
example : exchange? 1e16 = some ['1', 'e', '+', '1', '6'] := by decide
example : exchange? 0.0000015 = some ['1', '.', '5', 'e', '-', '6'] := by decide

end Number

end ReactiveSheet
