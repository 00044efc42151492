/-! # Decimals

A decimal is a whole coefficient times a power of ten. Reading a literal gives a decimal and
printing a float chooses one, so the two directions meet in this type.
-/

namespace ReactiveSheet

set_option autoImplicit false

structure Decimal where
  coefficient : Nat
  exponent : Int
  deriving DecidableEq, Repr

namespace Decimal

/-- Digits times a power of ten. Zeros at the end are counted into the exponent, so that a
number does not depend on how many of them are written. -/
def ofDigits (digits : List Char) (exponent : Int) : Decimal :=
  let kept := (digits.reverse.dropWhile (· == '0')).reverse
  ⟨Nat.ofDigitChars 10 kept 0, exponent + (digits.length - kept.length : Nat)⟩

def digits (d : Decimal) : List Char :=
  Nat.toDigits 10 d.coefficient

/-- The same number without zeros at the end of the coefficient. -/
def reduced (d : Decimal) : Decimal :=
  ofDigits d.digits d.exponent

/-- The nearest float; halfway between two floats, the one with the even mantissa. -/
def toFloat (d : Decimal) : Float :=
  .ofModel (.ofScientific d.coefficient d.exponent)

end Decimal

end ReactiveSheet
