import ReactiveSheet.Proofs.LeftToRight
import ReactiveSheet.Proofs.NotANumber
import ReactiveSheet.Proofs.ReadBack
import ReactiveSheet.Proofs.ReferencePlaces

/-! # Formulas as arithmetic

A formula whose operands are references and numbers means what it says: the value of its text with
the values of cells written into it is the value of its operations on the cells. The exception is a
negative value, since the minus sign that it is written with is an operator behind no operand.
-/

namespace ReactiveSheet

set_option autoImplicit false

namespace Number

open Float.Model (UnpackedFloat)

theorem lt_zero_iff {x : Float} : x < 0 ↔ x.toModel.unpack.lt (.zero .positive) = true :=
  decide_eq_true_iff

theorem add_zero_of_unpack_finite {x : Float} {s : UnpackedFloat.Sign} {m : Nat} {e : Int}
    {hm : 0 < m} (h : x.toModel.unpack = .finite s m e hm) : x + 0 = x := by
  change Float.ofModel (.pack (.add .binary64 x.toModel.unpack (.zero .positive))) = x
  rw [h]
  exact (eq_of_unpack h).symm

theorem not_isZero_of_unpack_finite {x : Float} {s : UnpackedFloat.Sign} {m : Nat} {e : Int}
    {hm : 0 < m} (h : x.toModel.unpack = .finite s m e hm) : ¬ IsZero x := by
  rintro (rfl | rfl) <;> cases h

/-- A negative value is written with a minus sign in front. -/
theorem plain_add_zero_cases (x : Float) :
    (x < 0 ∧ ∃ rest, plain (x + 0) = '-' :: rest ∧ '-' ∉ rest) ∨
    (¬ x < 0 ∧ '-' ∉ plain (x + 0) ∧ x + 0 = if IsZero x then 0 else x) := by
  cases hUnpack : x.toModel.unpack with
  | notANumber =>
    rw [eq_of_unpack hUnpack]
    exact .inr (by decide)
  | infinity s =>
    rw [eq_of_unpack hUnpack]
    cases s with
    | positive => exact .inr (by decide)
    | negative => exact .inl ⟨by decide, ['i', 'n', 'f'], by decide, by decide⟩
  | zero s =>
    rw [eq_of_unpack hUnpack]
    cases s <;> exact .inr (by decide)
  | finite s m e hm =>
    obtain ⟨d, text, hText, hSpelled, _⟩ := plain_of_unpack_finite hUnpack
    have hMinus : '-' ∉ text := fun hMem =>
      absurd (hSpelled.isDigit_or_point '-' hMem) (by decide)
    rw [add_zero_of_unpack_finite hUnpack, lt_zero_iff, hUnpack, hText,
      if_neg (not_isZero_of_unpack_finite hUnpack)]
    cases s with
    | positive => exact .inr ⟨by simp [UnpackedFloat.lt, UnpackedFloat.compare], hMinus, rfl⟩
    | negative => exact .inl ⟨by simp [UnpackedFloat.lt, UnpackedFloat.compare], text, rfl, hMinus⟩

theorem isSymbol_of_isWritten {c : Char} (h : isWritten c = true) (hMinus : c ≠ '-') :
    Operator.isSymbol c = false := by
  rw [← Bool.not_eq_true, Operator.isSymbol_iff]
  rintro ⟨operator, rfl⟩
  cases operator with
  | subtract => exact hMinus rfl
  | _ => exact absurd h (by decide)

end Number

theorem Reference.isPart_symbol (operator : Operator) : isPart operator.symbol = false := by
  cases operator <;> decide

theorem Formula.substitute_ofList (cells : List Cell) (text : List Char) :
    substitute (String.ofList text) cells = Reference.fill cells text := by
  rw [substitute, segments, String.toList_ofList, Reference.fill]

namespace Expression

theorem value_of_blank {blanks : List Char} (h : ∀ c ∈ blanks, Text.isBlank c = true) :
    value blanks = Number.notANumber := by
  rw [value, evaluate, Text.compact_of_blank h]
  rfl

/-- The text of one operand and what it means. A minus sign stands in it only in front, and then
it means nothing. -/
inductive Means : List Char → Float → Prop
  | number {text : List Char} {x : Float} (hSymbols : ∀ c ∈ text, Operator.isSymbol c = false)
      (hValue : value text = x) : Means text x
  | negative {blanks text : List Char} (hBlank : ∀ c ∈ blanks, Text.isBlank c = true)
      (hSymbols : ∀ c ∈ text, Operator.isSymbol c = false) :
      Means (blanks ++ Operator.subtract.symbol :: text) Number.notANumber

namespace Means

variable {text : List Char} {x : Float}

theorem value_eq (h : Means text x) : value text = x := by
  cases h with
  | number _ hValue => exact hValue
  | negative hBlank hSymbols =>
    rw [value_append_operand _ _ hSymbols, value_of_blank hBlank, Operator.apply_notANumber_left]

theorem value_append (h : Means text x) (before : List Char) (operator : Operator) :
    value (before ++ operator.symbol :: text) = operator.apply (value before) x := by
  cases h with
  | number hSymbols hValue => rw [value_append_operand _ _ hSymbols, hValue]
  | @negative blanks text hBlank hSymbols =>
    have hSplit : before ++ operator.symbol :: (blanks ++ Operator.subtract.symbol :: text) =
        (before ++ operator.symbol :: blanks) ++ Operator.subtract.symbol :: text := by simp
    -- The operator before the minus sign has no operand but the blanks.
    rw [hSplit, value_append_operand _ _ hSymbols,
      value_append_operand _ _ (Operator.isSymbol_of_blank hBlank), value_of_blank hBlank,
      Operator.apply_notANumber_right, Operator.apply_notANumber_left]

theorem padded {before after : List Char} (h : Means text x)
    (hBefore : ∀ c ∈ before, Text.isBlank c = true) (hAfter : ∀ c ∈ after, Text.isBlank c = true) :
    Means (before ++ text ++ after) x := by
  have hSymbolsBefore := Operator.isSymbol_of_blank hBefore
  have hSymbolsAfter := Operator.isSymbol_of_blank hAfter
  cases h with
  | number hSymbols hValue =>
    apply Means.number
    · rw [List.forall_mem_append, List.forall_mem_append]
      exact ⟨⟨hSymbolsBefore, hSymbols⟩, hSymbolsAfter⟩
    · rw [← hValue]
      apply value_congr
      rw [Text.compact_append, Text.compact_append, Text.compact_of_blank hBefore,
        Text.compact_of_blank hAfter, List.nil_append, List.append_nil]
  | @negative blanks text hBlank hSymbols =>
    have hSplit : before ++ (blanks ++ Operator.subtract.symbol :: text) ++ after =
        (before ++ blanks) ++ Operator.subtract.symbol :: (text ++ after) := by simp
    rw [hSplit]
    apply Means.negative
    · exact List.forall_mem_append.mpr ⟨hBefore, hBlank⟩
    · exact List.forall_mem_append.mpr ⟨hSymbols, hSymbolsAfter⟩

end Means

end Expression

/-- A reference, or a text that operators and references do not cut. -/
inductive Operand where
  | reference (digits : List Char) (hNumeral : Reference.IsNumeral digits)
  | literal (text : List Char) (hUncut : Expression.Uncut text)
      (hReferences : ∀ place : Reference.Occurrence, ¬ place.StandsIn text)

namespace Operand

def text : Operand → List Char
  | reference digits _ => '\x7b' :: (digits ++ ['\x7d'])
  | literal text _ _ => text

/-- What a reference to a cell with the value means. -/
def valueMeaning (x : Float) : Float :=
  if x < 0 then Number.notANumber else if IsZero x then 0 else x

def meaning (cells : List Cell) : Operand → Float
  | reference digits _ =>
    match cells[Reference.numeralIndex digits]? with
    | some cell => valueMeaning cell.value
    | none => 0
  | literal text _ _ =>
    (Number.read? (text.filter fun c => !Text.isBlank c)).getD Number.notANumber

theorem means_plain_add_zero (x : Float) :
    Expression.Means (Number.plain (x + 0)) (valueMeaning x) := by
  have hWritten : ∀ {c : Char}, c ∈ Number.plain (x + 0) → c ≠ '-' →
      Operator.isSymbol c = false := fun hc =>
    Number.isSymbol_of_isWritten (Number.isWritten_of_mem_plain hc)
  rcases Number.plain_add_zero_cases x with ⟨hNegative, rest, hText, hRest⟩ | ⟨hSign, hMinus, hSum⟩
  · rw [hText] at hWritten ⊢
    rw [valueMeaning, if_pos hNegative]
    exact .negative (fun _ hc => absurd hc List.not_mem_nil) fun c hc =>
      hWritten (List.mem_cons_of_mem _ hc) fun hEq => hRest (hEq ▸ hc)
  · have hSymbols : ∀ c ∈ Number.plain (x + 0), Operator.isSymbol c = false := fun c hc =>
      hWritten hc fun hEq => hMinus (hEq ▸ hc)
    have hCompact : Text.compact (Number.plain (x + 0)) = Number.plain (x + 0) := by
      rw [Text.compact, List.filter_eq_self]
      intro c hc
      simp [Number.isBlank_of_isWritten (Number.isWritten_of_mem_plain hc)]
    refine .number hSymbols ?_
    rw [Expression.value_of_no_symbol hSymbols, hCompact, Chain.operandValue, Number.read?_plain,
      valueMeaning, if_neg hSign, ← hSum]
    rfl

theorem means_fill (cells : List Cell) (operand : Operand) :
    Expression.Means (Reference.fill cells operand.text) (operand.meaning cells) := by
  cases operand with
  | reference digits hNumeral =>
    rw [text, Reference.fill_reference cells hNumeral, meaning, Formula.valueText]
    cases cells[Reference.numeralIndex digits]? with
    | some cell => exact means_plain_add_zero cell.value
    | none => exact .number (by simp [Operator.isSymbol, Operator.ofSymbol?]) (by decide +kernel)
  | literal text hUncut hReferences =>
    rw [Operand.text, Reference.fill_of_none cells hReferences]
    exact .number hUncut.not_isSymbol (Expression.value_of_no_symbol hUncut.not_isSymbol)

end Operand

/-- An operand with blanks around it. -/
structure Padded where
  before : List Char
  operand : Operand
  after : List Char
  blank_before : ∀ c ∈ before, Text.isBlank c = true
  blank_after : ∀ c ∈ after, Text.isBlank c = true

namespace Padded

def text (padded : Padded) : List Char :=
  padded.before ++ padded.operand.text ++ padded.after

theorem means_fill (cells : List Cell) (padded : Padded) :
    Expression.Means (Reference.fill cells padded.text) (padded.operand.meaning cells) := by
  rw [text, Reference.fill_append_blanks cells padded.blank_after,
    Reference.fill_blanks_append cells padded.blank_before]
  exact (padded.operand.means_fill cells).padded padded.blank_before padded.blank_after

end Padded

/-- An operand, and every further one behind its operator. -/
structure Arithmetic where
  first : Padded
  rest : List (Operator × Padded)

namespace Arithmetic

def text (arithmetic : Arithmetic) : List Char :=
  arithmetic.first.text ++
    arithmetic.rest.flatMap fun (operator, padded) => operator.symbol :: padded.text

def operands (arithmetic : Arithmetic) : List Operand :=
  arithmetic.first.operand :: arithmetic.rest.map (·.2.operand)

def step (cells : List Cell) (x : Float) (link : Operator × Padded) : Float :=
  let y := link.2.operand.meaning cells
  match link.1 with
  | .add => x + y
  | .subtract => x - y
  | .multiply => x * y
  | .divide => x / y

/-- The operations from left to right on what the operands mean. -/
def value (cells : List Cell) (arithmetic : Arithmetic) : Float :=
  arithmetic.rest.foldl (step cells) (arithmetic.first.operand.meaning cells)

theorem step_eq_apply (cells : List Cell) (x : Float) (link : Operator × Padded) :
    step cells x link = link.1.apply x (link.2.operand.meaning cells) := by
  obtain ⟨operator, padded⟩ := link
  cases operator <;> rfl

theorem value_fill_text (cells : List Cell) (arithmetic : Arithmetic) :
    Expression.value (Reference.fill cells arithmetic.text) = arithmetic.value cells := by
  obtain ⟨first, rest⟩ := arithmetic
  -- The last operator is applied last, so the induction takes operands from the end.
  induction rest using List.reverseRecOn with
  | nil =>
    rw [text, List.flatMap_nil, List.append_nil]
    exact (first.means_fill cells).value_eq
  | append_singleton rest link ih =>
    obtain ⟨operator, padded⟩ := link
    have hText : text ⟨first, rest ++ [(operator, padded)]⟩ =
        text ⟨first, rest⟩ ++ operator.symbol :: padded.text := by simp [text]
    have hValue : value cells ⟨first, rest ++ [(operator, padded)]⟩ =
        operator.apply (value cells ⟨first, rest⟩) (padded.operand.meaning cells) := by
      simp [value, step_eq_apply]
    rw [hText, hValue, Reference.fill_append_cons cells (Reference.isPart_symbol operator),
      (padded.means_fill cells).value_append, ih]

theorem foldl_step_notANumber (cells : List Cell) (links : List (Operator × Padded)) :
    links.foldl (step cells) Number.notANumber = Number.notANumber := by
  induction links with
  | nil => rfl
  | cons link links ih => rw [List.foldl_cons, step_eq_apply, Operator.apply_notANumber_left, ih]

theorem value_of_mem {cells : List Cell} {arithmetic : Arithmetic} {operand : Operand}
    (hMem : operand ∈ arithmetic.operands) (h : operand.meaning cells = Number.notANumber) :
    arithmetic.value cells = Number.notANumber := by
  obtain ⟨first, rest⟩ := arithmetic
  rcases List.mem_cons.mp hMem with rfl | hMem
  · rw [value, h, foldl_step_notANumber]
  · obtain ⟨link, hLink, rfl⟩ := List.mem_map.mp hMem
    obtain ⟨before, after, rfl⟩ := List.append_of_mem hLink
    rw [value, List.foldl_append, List.foldl_cons, step_eq_apply, h,
      Operator.apply_notANumber_right, foldl_step_notANumber]

/-- What comes of writing values into the text of an arithmetic is the value of its operations, and
one reference to a negative value makes it no number. -/
theorem evaluates_as_arithmetic (cells : List Cell) (arithmetic : Arithmetic) :
    (Formula.evaluate (String.ofList arithmetic.text) cells).value = arithmetic.value cells ∧
      ∀ digits hNumeral cell, .reference digits hNumeral ∈ arithmetic.operands →
        cells[Reference.numeralIndex digits]? = some cell → cell.value < 0 →
        (Formula.evaluate (String.ofList arithmetic.text) cells).value.isNaN = true := by
  have hValue : (Formula.evaluate (String.ofList arithmetic.text) cells).value =
      arithmetic.value cells := by
    rw [Formula.evaluate_eq, ← value_fill_text, ← Formula.substitute_ofList, Formula.value]
  refine ⟨hValue, ?_⟩
  intro digits hNumeral cell hOperand hCell hNegative
  rw [hValue, isNaN_iff]
  apply value_of_mem hOperand
  rw [Operand.meaning, hCell]
  exact if_pos hNegative

/-- Every operator with blanks around it, a reference to no cell, and one to a negative value. -/
theorem evaluates_as_arithmetic_of_negative :
    let cells := Definitions.cells "3, -2, 8"
    (Formula.evaluate "\x7b0\x7d*\t1 .5 +\x7b2\x7d/\t2 -\t\x7b7\x7d -1" cells).value = 5.25 ∧
      cells[1]? = some (.input (-2)) ∧ (-2 : Float) < 0 ∧
      (Formula.evaluate "\x7b0\x7d-\t\x7b1\x7d " cells).value.isNaN = true := by
  intro cells
  let bare (operand : Operand) : Padded := ⟨[], operand, [], by simp, by simp⟩
  let spaced (operand : Operand) : Padded :=
    ⟨['\t'], operand, [' '], by simp [Text.isBlank], by simp [Text.isBlank]⟩
  let number (text : List Char) (hUncut : Expression.Uncut text) (hBrace : '\x7b' ∉ text) :
      Operand := .literal text hUncut (Reference.Occurrence.not_standsIn_of_not_mem hBrace)
  let first : Operand := .reference ['0'] (by decide)
  let negative : Operand := .reference ['1'] (by decide)
  let third : Operand := .reference ['2'] (by decide)
  let missing : Operand := .reference ['7'] (by decide)
  let sum : Arithmetic := ⟨bare first,
    [(.multiply, spaced (number ['1', ' ', '.', '5'] (by decide) (by decide))),
      (.add, bare third), (.divide, spaced (number ['2'] (by decide) (by decide))),
      (.subtract, spaced missing), (.subtract, bare (number ['1'] (by decide) (by decide)))]⟩
  let difference : Arithmetic := ⟨bare first, [(.subtract, spaced negative)]⟩
  have hSum : String.ofList sum.text = "\x7b0\x7d*\t1 .5 +\x7b2\x7d/\t2 -\t\x7b7\x7d -1" := rfl
  have hDifference : String.ofList difference.text = "\x7b0\x7d-\t\x7b1\x7d " := rfl
  have hOperand : negative ∈ difference.operands := by simp [operands, difference, spaced]
  have hCell : cells[1]? = some (.input (-2)) := by decide +kernel
  have hNegative : (-2 : Float) < 0 := by decide
  rw [← hSum, ← hDifference]
  refine ⟨?_, hCell, hNegative, ?_⟩
  · rw [(evaluates_as_arithmetic cells sum).1]
    decide +kernel
  · exact (evaluates_as_arithmetic cells difference).2 ['1'] _ (.input (-2)) hOperand hCell
      hNegative

end Arithmetic

end ReactiveSheet
