import ReactiveSheet.Number.Decimal

/-! # The shortest decimal of a float

A float is written with the fewest digits that read back as the same float. The multiples of a
power of ten form a grid, and a coarser grid means fewer digits: the search goes from coarse to
fine and looks on each grid at the two neighbours of the float. Every accepted decimal has been
read back, and the exact value of the float stands in should no grid be fine enough.
-/

namespace ReactiveSheet

set_option autoImplicit false

/-- What to do when both neighbours read back and are equally near. -/
inductive Tie where
  | up
  | even
  deriving DecidableEq, Repr

namespace Shortest

/-- The quotient of `mantissa * 2 ^ exponent` by `10 ^ grid` as two whole numbers. -/
def scaled (mantissa : Nat) (exponent grid : Int) : Nat × Nat :=
  (mantissa * Nat.pow 2 exponent.toNat * Nat.pow 10 (-grid).toNat,
   Nat.pow 2 (-exponent).toNat * Nat.pow 10 grid.toNat)

/-- The exact value of `mantissa * 2 ^ exponent`. -/
def exact (mantissa : Nat) (exponent : Int) : Decimal :=
  if 0 ≤ exponent then ⟨mantissa * Nat.pow 2 exponent.toNat, 0⟩
  else ⟨mantissa * Nat.pow 5 (-exponent).toNat, exponent⟩

/-- The lower neighbour is taken if it is nearer, and at a tie as `tie` says. -/
def prefersLower (tie : Tie) (lower remainder divisor : Nat) : Bool :=
  2 * remainder < divisor ||
  (2 * remainder == divisor && tie == .even && lower % 2 == 0)

def point (coefficient : Nat) (grid : Int) : Decimal :=
  (Decimal.mk coefficient grid).reduced

/-- A decimal reads back only if it is at most half a unit of the mantissa from the value. With the
value at `numerator`, that unit is `numerator / mantissa`. -/
def fits (value : Float) (mantissa numerator distance : Nat) (d : Decimal) : Bool :=
  2 * mantissa * distance ≤ numerator && d.toFloat = value

def onGrid? (tie : Tie) (value : Float) (mantissa : Nat) (exponent grid : Int) :
    Option Decimal :=
  let (numerator, divisor) := scaled mantissa exponent grid
  let lower := numerator / divisor
  let remainder := numerator % divisor
  let lowerFits := fits value mantissa numerator remainder (point lower grid)
  let upperFits := fits value mantissa numerator (divisor - remainder) (point (lower + 1) grid)
  if lowerFits && (prefersLower tie lower remainder divisor || !upperFits) then
    some (point lower grid)
  else if upperFits then some (point (lower + 1) grid)
  else none

/-- Tries `steps` grids, each ten times finer than the one before. -/
def search (tie : Tie) (value : Float) (mantissa : Nat) (exponent : Int) :
    Nat → Int → Option Decimal
  | 0, _ => none
  | steps + 1, grid =>
    match onGrid? tie value mantissa exponent grid with
    | some d => some d
    | none => search tie value mantissa exponent steps (grid - 1)

/-- A power of ten that is not below `mantissa * 2 ^ exponent`, by its logarithm. -/
def coarsest (mantissa : Nat) (exponent : Int) : Int :=
  (mantissa.log2 + 1 + exponent) * 30103 / 100000 + 1

/-- Seventeen digits tell every two floats apart, and the search may start up to two grids
above the first digit. -/
def gridCount : Nat := 20

end Shortest

/-- The shortest decimal of a float whose value is `mantissa * 2 ^ exponent`. -/
def shortest (tie : Tie) (value : Float) (mantissa : Nat) (exponent : Int) : Decimal :=
  (Shortest.search tie value mantissa exponent Shortest.gridCount
    (Shortest.coarsest mantissa exponent)).getD (Shortest.exact mantissa exponent).reduced

end ReactiveSheet
