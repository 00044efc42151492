import ReactiveSheet.Entry

/-! # The listing for people

One line for each cell: its index in brackets and its value. Values that are not finite are
shown by marks that cannot be read back as numbers.
-/

namespace ReactiveSheet.Listing

set_option autoImplicit false

/-- The whole number `mantissa * 2 ^ exponent`, if it is one. -/
def whole? (mantissa : Nat) (exponent : Int) : Option Nat :=
  if 0 ≤ exponent then some (mantissa * Nat.pow 2 exponent.toNat)
  else
    let divisor := Nat.pow 2 (-exponent).toNat
    if mantissa % divisor = 0 then some (mantissa / divisor) else none

/-- Whole numbers below this are shown by their own digits. -/
def wholeBound : Nat := Nat.pow 10 15

def number (x : Float) : String :=
  match x.toModel.unpack with
  | .notANumber => "#NAN!"
  | .infinity .positive => "#INF!"
  | .infinity .negative => "-#INF!"
  | .zero s => String.ofList (Number.sign s ++ Nat.toDigits 10 0)
  | .finite s mantissa exponent _ =>
    match whole? mantissa exponent with
    | some n =>
      if n < wholeBound then String.ofList (Number.sign s ++ Nat.toDigits 10 n)
      else String.ofList (Number.plain x)
    | none => String.ofList (Number.plain x)

example : number (-4) = "-4" := by decide
example : number (1 / 0) = "#INF!" := by decide
example : number 0.1 = "0.1" := by decide

def line (entry : Entry) : String :=
  "[" ++ toString entry.index ++ "] " ++ number entry.value

def lines (cells : List Cell) : List String :=
  (Entry.ofCells cells).map line

end ReactiveSheet.Listing
