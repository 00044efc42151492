import ReactiveSheet.Diagnostic
import ReactiveSheet.Text.Blank
import ReactiveSheet.Number.Literal

/-! # Flat expressions

An expression is a chain of operands with an operator between every two of them. It is evaluated
from left to right and no operator binds closer than another. A sign is not part of an operand,
so a leading minus has an empty operand before it, and an operand that is no number counts as
not a number.
-/

namespace ReactiveSheet

set_option autoImplicit false

inductive Operator where
  | add
  | subtract
  | multiply
  | divide
  deriving DecidableEq, Repr

namespace Operator

def ofSymbol? : Char → Option Operator
  | '+' => some add
  | '-' => some subtract
  | '*' => some multiply
  | '/' => some divide
  | _ => none

def isSymbol (c : Char) : Bool :=
  (ofSymbol? c).isSome

def apply : Operator → Float → Float → Float
  | add, x, y => x + y
  | subtract, x, y => x - y
  | multiply, x, y => x * y
  | divide, x, y => x / y

end Operator

/-- The first operand, and every further one behind its operator symbol. -/
structure Chain where
  first : List Char
  rest : List (Char × List Char)
  deriving DecidableEq, Repr

namespace Chain

/-- An operator symbol starts a chain with an empty operand; any other character belongs to the
first operand. -/
def prepend (c : Char) (chain : Chain) : Chain :=
  if Operator.isSymbol c then ⟨[], (c, chain.first) :: chain.rest⟩
  else ⟨c :: chain.first, chain.rest⟩

def ofText (text : List Char) : Chain :=
  text.foldr prepend ⟨[], []⟩

/-- Operands and operators in the order of the text. -/
def tokens (chain : Chain) : List (List Char) :=
  chain.first :: chain.rest.flatMap fun (symbol, operand) => [[symbol], operand]

theorem flatten_tokens_prepend (c : Char) (chain : Chain) :
    (chain.prepend c).tokens.flatten = c :: chain.tokens.flatten := by
  unfold prepend
  split <;> simp [tokens]

theorem flatten_tokens_ofText (text : List Char) : (ofText text).tokens.flatten = text := by
  induction text with
  | nil => rfl
  | cons c text ih => rw [ofText, List.foldr_cons, flatten_tokens_prepend, ← ofText, ih]

/-- Every operator of a chain read from text is known. -/
theorem isSymbol_of_mem_ofText {text : List Char} {link : Char × List Char}
    (h : link ∈ (ofText text).rest) : Operator.isSymbol link.1 = true := by
  induction text with
  | nil => cases h
  | cons c text ih =>
    rw [ofText, List.foldr_cons, ← ofText, prepend] at h
    split at h
    · rename_i hSymbol
      rcases List.mem_cons.mp h with rfl | h
      · exact hSymbol
      · exact ih h
    · exact ih h

def operandValue (operand : List Char) : Float :=
  (Number.read? operand).getD Number.notANumber

/-- An operator that is not known is skipped together with its operand. -/
def step (done : Evaluation) (link : Char × List Char) : Evaluation :=
  match Operator.ofSymbol? link.1 with
  | some operator => { done with value := operator.apply done.value (operandValue link.2) }
  | none => { done with diagnostics := done.diagnostics ++ [.unknownOperator link.1] }

/-- Evaluates a chain when `raised` has been reported already. -/
def evaluate (chain : Chain) (raised : List Diagnostic) : Evaluation :=
  chain.rest.foldl step ⟨operandValue chain.first, raised⟩

end Chain

namespace Expression

/-- Blanks do not count, not even inside a number. -/
def evaluate (text : List Char) (raised : List Diagnostic) : Evaluation :=
  (Chain.ofText (Text.compact text)).evaluate raised

end Expression

end ReactiveSheet
