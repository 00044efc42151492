import ReactiveSheet.Formula

/-! # Recalculation

A sweep evaluates the formulas in the order of the cells, each against the values as they are at
that moment. Sweeps are repeated until one changes nothing. Formulas that refer to each other in
a circle may never come to rest, so the number of sweeps is bounded.
-/

namespace ReactiveSheet

set_option autoImplicit false

/-- Numbers that compare equal, and any two that are not numbers, are the same value. -/
def sameValue (x y : Float) : Bool :=
  x == y || (x.isNaN && y.isNaN)

structure Sweep where
  cells : List Cell
  changed : Nat
  diagnostics : List Diagnostic
  deriving DecidableEq

namespace Sweep

/-- Evaluates the formula of one cell and keeps the old value if it is the same. -/
def recompute (done : Sweep) (index : Nat) : Sweep :=
  match done.cells[index]? with
  | some (.computed formula dependencies value) =>
    let next := Formula.evaluate formula done.cells
    if sameValue value next.value then
      { done with diagnostics := done.diagnostics ++ next.diagnostics }
    else
      { cells := done.cells.set index (.computed formula dependencies next.value)
        changed := done.changed + 1
        diagnostics := done.diagnostics ++ next.diagnostics }
  | _ => done

def run (cells : List Cell) : Sweep :=
  (List.range cells.length).foldl recompute ⟨cells, 0, []⟩

theorem length_recompute (done : Sweep) (index : Nat) :
    (done.recompute index).cells.length = done.cells.length := by
  unfold recompute
  split
  · dsimp only
    split
    · rfl
    · exact List.length_set ..
  · rfl

theorem getElem?_recompute_of_ne (done : Sweep) {index other : Nat} (h : index ≠ other) :
    (done.recompute index).cells[other]? = done.cells[other]? := by
  unfold recompute
  split
  · dsimp only
    split
    · rfl
    · exact List.getElem?_set_ne h
  · rfl

theorem length_foldl_recompute (indices : List Nat) (done : Sweep) :
    (indices.foldl recompute done).cells.length = done.cells.length := by
  induction indices generalizing done with
  | nil => rfl
  | cons index indices ih => exact (ih _).trans (length_recompute done index)

theorem length_run (cells : List Cell) : (run cells).cells.length = cells.length :=
  length_foldl_recompute ..

end Sweep

/-- How many sweeps it took, and what the last of them reported. -/
structure Settled where
  passes : Nat
  diagnostics : List Diagnostic
  deriving DecidableEq

/-- The cells still changed after this many sweeps. -/
structure Unsettled where
  passes : Nat
  deriving DecidableEq

def Unsettled.message (failure : Unsettled) : String :=
  "cells did not converge after " ++ toString failure.passes ++ " passes"

structure Recalculation where
  cells : List Cell
  /-- How many cells each sweep changed. -/
  changes : List Nat
  result : Except Unsettled Settled

namespace Recalculation

def defaultMaxPasses : Nat := 1000

/-- At most `passes` more sweeps behind those that made `changes`, the latest of them first. -/
def continued (changes : List Nat) (cells : List Cell) : (passes : Nat) → Recalculation
  | 0 => ⟨cells, changes.reverse, .error ⟨changes.length⟩⟩
  | passes + 1 =>
    let sweep := Sweep.run cells
    let changes := sweep.changed :: changes
    if sweep.changed = 0 then
      ⟨sweep.cells, changes.reverse, .ok ⟨changes.length, sweep.diagnostics⟩⟩
    else continued changes sweep.cells passes

def run (cells : List Cell) (maxPasses : Nat) : Recalculation :=
  continued [] cells maxPasses

end Recalculation

end ReactiveSheet
