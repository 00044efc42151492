import ReactiveSheet.Program
import ReactiveSheet.Proofs.SheetUpdate

/-! # What the program shows

A command line names a source, a bound on the sweeps and a mode. If the text of the source settles
within the bound, its cells are shown, in both modes by the same lines. If not, nothing is shown in
either.
-/

namespace ReactiveSheet

set_option autoImplicit false

namespace Sheet

variable {sheet : Sheet}

end Sheet

/-! ## Loading -/

/-- The text has cells in it, and they come to rest within the bound. -/
def Settles (text : String) (passes : Nat) : Prop :=
  text.toList.all Text.isBlank = false ∧
    ∃ settled, (Recalculation.run (Definitions.cells text) (max passes 1)).result = .ok settled

def Config.asked (source : Source) (passes : Nat) (mode : Mode) : Config :=
  { Config.ofSource source with mode := mode }.withMaxPasses passes

namespace Loading

variable {read : FileReader} {source : Source} {text : String} {passes : Nat}

end Loading

/-! ## Showing -/

namespace Program

open CommandLine

variable {options : Options} {read : FileReader}

/-- The arguments and the environment ask for a source to be shown in a mode. -/
def Asks (arguments : List String) (environment : Option String) (source : Source) (passes : Nat)
    (mode : Mode) (format : Format) : Prop :=
  ∃ verbose, Options.read arguments environment =
    .ok ⟨.asked source passes mode, format, verbose⟩

theorem exists_of_bind_eq_ok {ε α β : Type} {first : Except ε α} {next : α → Except ε β} {b : β}
    (h : (first >>= next) = .ok b) : ∃ a, first = .ok a ∧ next a = .ok b := by
  cases first with
  | error failure => cases h
  | ok a => exact ⟨a, rfl, h⟩

/-- Every command line that is accepted asks for a source to be shown. -/
theorem exists_asks {arguments : List String} {environment : Option String}
    (h : Options.read arguments environment = .ok options) :
    ∃ source passes mode format, Asks arguments environment source passes mode format := by
  obtain ⟨given, _, hGiven⟩ := exists_of_bind_eq_ok h
  obtain ⟨passes, _, hPasses⟩ := exists_of_bind_eq_ok hGiven
  obtain ⟨_, _, hSource⟩ := exists_of_bind_eq_ok hPasses
  obtain rfl := Except.ok.inj hSource
  exact ⟨Options.source given, passes, _, _, _, h⟩

def cellLines (cells : List Cell) : String :=
  String.join (cells.mapIdx fun index cell =>
    "[" ++ toString index ++ "] " ++ Listing.number cell.value ++ "\n")

theorem listing_eq_cellLines (sheet : Sheet) : sheet.listing = cellLines sheet.cells := by
  rw [Sheet.listing, Listing.lines, Entry.ofCells, cellLines, List.mapIdx_eq_zipIdx_map,
    List.map_map, List.map_map]
  rfl

variable {source : Source} {text : String} {passes : Nat}

end Program

end ReactiveSheet
