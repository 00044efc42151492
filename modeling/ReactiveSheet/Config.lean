import ReactiveSheet.Recalculation

/-! # Configuration

Where the definitions come from, what is done with the sheet, and how many sweeps it may take.
-/

namespace ReactiveSheet

set_option autoImplicit false

inductive Source where
  | file (path : String)
  | inline (text : String)
  deriving DecidableEq, Repr

def Source.describe : Source → String
  | file path => path
  | inline _ => "<inline definitions>"

inductive Mode where
  | interactive
  | batch
  deriving DecidableEq, Repr

structure Config where
  source : Source
  mode : Mode
  maxPasses : Nat
  deriving DecidableEq, Repr

namespace Config

def ofSource (source : Source) : Config :=
  ⟨source, .interactive, Recalculation.defaultMaxPasses⟩

/-- There is always room for one sweep. -/
def withMaxPasses (config : Config) (maxPasses : Nat) : Config :=
  { config with maxPasses := max maxPasses 1 }

end Config

end ReactiveSheet
