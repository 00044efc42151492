import ReactiveSheet.Proofs.Evaluation

/-! # From left to right

An operator symbol cuts an expression in two wherever it stands. So an operand and the operator
before it are applied last of all, to the value of everything before them, and together with the
value of a lone operand this determines the value of every text.
-/

namespace ReactiveSheet

set_option autoImplicit false

namespace Operator

def symbol : Operator → Char
  | add => '+'
  | subtract => '-'
  | multiply => '*'
  | divide => '/'

@[simp]
theorem ofSymbol?_symbol (operator : Operator) : ofSymbol? operator.symbol = some operator := by
  cases operator <;> rfl

theorem isSymbol_iff {c : Char} :
    isSymbol c = true ↔ ∃ operator : Operator, c = operator.symbol := by
  constructor
  · intro h
    rw [isSymbol, ofSymbol?.eq_def] at h
    split at h
    · exact ⟨add, rfl⟩
    · exact ⟨subtract, rfl⟩
    · exact ⟨multiply, rfl⟩
    · exact ⟨divide, rfl⟩
    · cases h
  · rintro ⟨operator, rfl⟩
    simp [isSymbol]

theorem isSymbol_iff_mem {c : Char} : isSymbol c = true ↔ c ∈ ['+', '-', '*', '/'] := by
  rw [isSymbol_iff]
  constructor
  · rintro ⟨operator, rfl⟩
    cases operator <;> decide
  · intro h
    simp only [List.mem_cons, List.not_mem_nil, or_false] at h
    rcases h with rfl | rfl | rfl | rfl
    · exact ⟨add, rfl⟩
    · exact ⟨subtract, rfl⟩
    · exact ⟨multiply, rfl⟩
    · exact ⟨divide, rfl⟩

theorem isBlank_symbol (operator : Operator) : Text.isBlank operator.symbol = false := by
  cases operator <;> decide

theorem isSymbol_of_blank {blanks : List Char} (h : ∀ c ∈ blanks, Text.isBlank c = true) :
    ∀ c ∈ blanks, isSymbol c = false := by
  intro c hc
  rw [← Bool.not_eq_true, isSymbol_iff]
  rintro ⟨operator, rfl⟩
  have hBlank := h _ hc
  rw [isBlank_symbol] at hBlank
  cases hBlank

end Operator

theorem Text.compact_of_blank {blanks : List Char} (h : ∀ c ∈ blanks, isBlank c = true) :
    compact blanks = [] := by
  rw [compact, List.filter_eq_nil_iff]
  intro c hc
  simp [h c hc]

theorem Text.compact_append_symbol (first second : List Char) (operator : Operator) :
    compact (first ++ operator.symbol :: second) =
      compact first ++ operator.symbol :: compact second := by
  simp [compact, operator.isBlank_symbol]

namespace Chain

theorem ofText_cons (c : Char) (text : List Char) :
    ofText (c :: text) = (ofText text).prepend c :=
  rfl

theorem ofText_of_no_symbol {text : List Char} (h : ∀ c ∈ text, Operator.isSymbol c = false) :
    ofText text = ⟨text, []⟩ := by
  induction text with
  | nil => rfl
  | cons c text ih =>
    have hRest : ∀ d ∈ text, Operator.isSymbol d = false := fun d hd =>
      h d (List.mem_cons_of_mem _ hd)
    rw [ofText_cons, ih hRest, prepend]
    simp [h c List.mem_cons_self]

theorem ofText_append_cons {c : Char} (hc : Operator.isSymbol c = true)
    (first second : List Char) : ofText (first ++ c :: second) =
      ⟨(ofText first).first,
        (ofText first).rest ++ (c, (ofText second).first) :: (ofText second).rest⟩ := by
  induction first with
  | nil =>
    rw [List.nil_append, ofText_cons, prepend, if_pos hc]
    rfl
  | cons d first ih =>
    rw [List.cons_append, ofText_cons, ofText_cons, ih, prepend, prepend]
    split <;> rfl

end Chain

namespace Expression

/-- No operator stands in the text. -/
def Uncut (text : List Char) : Prop :=
  ∀ c ∈ ['+', '-', '*', '/'], c ∉ text

instance (text : List Char) : Decidable (Uncut text) :=
  List.decidableBAll (fun c => c ∉ text) ['+', '-', '*', '/']

theorem Uncut.not_isSymbol {text : List Char} (h : Uncut text) :
    ∀ c ∈ text, Operator.isSymbol c = false := by
  intro c hc
  rw [← Bool.not_eq_true, Operator.isSymbol_iff_mem]
  exact fun hOperator => h c hOperator hc

theorem value_congr {first second : List Char} (h : Text.compact first = Text.compact second) :
    value first = value second := by
  rw [value, value, evaluate, evaluate, h]

theorem value_of_no_symbol {operand : List Char}
    (h : ∀ c ∈ operand, Operator.isSymbol c = false) :
    value operand = Chain.operandValue (Text.compact operand) := by
  have hCompact : ∀ c ∈ Text.compact operand, Operator.isSymbol c = false := fun c hc =>
    h c (List.mem_of_mem_filter hc)
  rw [value, evaluate, Chain.ofText_of_no_symbol hCompact]
  rfl

/-- The last operator is applied last. -/
theorem value_append_operand (text : List Char) (operator : Operator) {operand : List Char}
    (h : ∀ c ∈ operand, Operator.isSymbol c = false) :
    value (text ++ operator.symbol :: operand) = operator.apply (value text) (value operand) := by
  have hCompact : ∀ c ∈ Text.compact operand, Operator.isSymbol c = false := fun c hc =>
    h c (List.mem_of_mem_filter hc)
  have hSymbol := Operator.isSymbol_iff.mpr ⟨operator, rfl⟩
  rw [value_of_no_symbol h, value, evaluate, Text.compact_append_symbol,
    Chain.ofText_append_cons hSymbol, Chain.ofText_of_no_symbol hCompact, Chain.evaluate,
    List.foldl_append, List.foldl_cons, List.foldl_nil, Chain.step, Operator.ofSymbol?_symbol]
  rfl

/-- The value of a text is found from its end: an operand alone is read without its blanks, and the
last operator is applied to the value of what stands before it and to the operand behind it. So
blanks do not count anywhere. -/
theorem evaluates_from_left :
    (∀ operand : List Char, Uncut operand →
      value operand =
        (Number.read? (operand.filter fun c => !Text.isBlank c)).getD Number.notANumber) ∧
    (∀ text operand : List Char, Uncut operand →
      value (text ++ '+' :: operand) = value text + value operand ∧
      value (text ++ '-' :: operand) = value text - value operand ∧
      value (text ++ '*' :: operand) = value text * value operand ∧
      value (text ++ '/' :: operand) = value text / value operand) ∧
    ∀ before blanks after : List Char, (∀ c ∈ blanks, Text.isBlank c = true) →
      value (before ++ blanks ++ after) = value (before ++ after) := by
  refine ⟨fun operand h => value_of_no_symbol h.not_isSymbol, ?_, ?_⟩
  · intro text operand h
    have hOperator (operator : Operator) := value_append_operand text operator h.not_isSymbol
    exact ⟨hOperator .add, hOperator .subtract, hOperator .multiply, hOperator .divide⟩
  · intro before blanks after h
    apply value_congr
    rw [Text.compact_append, Text.compact_append, Text.compact_of_blank h, List.append_nil,
      Text.compact_append]

/-- Every operator once, with a blank inside of the last operand, and two operators side by side. -/
theorem evaluates_from_left_of_double_operator :
    value ['9', '-', '2', '*', '3', '/', '4', '+', '1', ' ', '5'] = 20.25 ∧
      value ['1', '5'] = 15 ∧ (value ['7', '*', '-', '1', ' ', '5']).isNaN = true := by
  obtain ⟨hOperand, hOperator, hBlanks⟩ := evaluates_from_left
  have hNine : value ['9'] = 9 := (hOperand _ (by decide)).trans (by decide +kernel)
  have hTwo : value ['2'] = 2 := (hOperand _ (by decide)).trans (by decide +kernel)
  have hThree : value ['3'] = 3 := (hOperand _ (by decide)).trans (by decide +kernel)
  have hFour : value ['4'] = 4 := (hOperand _ (by decide)).trans (by decide +kernel)
  have hSeven : value ['7'] = 7 := (hOperand _ (by decide)).trans (by decide +kernel)
  have hFifteen : value ['1', ' ', '5'] = 15 :=
    (hOperand _ (by decide)).trans (by decide +kernel)
  have hNone : value [] = Number.notANumber := (hOperand _ (by decide)).trans (by decide)
  have hDifference : value ['9', '-', '2'] = value ['9'] - value ['2'] :=
    (hOperator ['9'] ['2'] (by decide)).2.1
  have hProduct : value ['9', '-', '2', '*', '3'] = value ['9', '-', '2'] * value ['3'] :=
    (hOperator ['9', '-', '2'] ['3'] (by decide)).2.2.1
  have hQuotient : value ['9', '-', '2', '*', '3', '/', '4'] =
      value ['9', '-', '2', '*', '3'] / value ['4'] :=
    (hOperator ['9', '-', '2', '*', '3'] ['4'] (by decide)).2.2.2
  have hSum : value ['9', '-', '2', '*', '3', '/', '4', '+', '1', ' ', '5'] =
      value ['9', '-', '2', '*', '3', '/', '4'] + value ['1', ' ', '5'] :=
    (hOperator ['9', '-', '2', '*', '3', '/', '4'] ['1', ' ', '5'] (by decide)).1
  have hEmpty : value ['7', '*'] = value ['7'] * value [] := (hOperator ['7'] [] (by decide)).2.2.1
  have hDouble : value ['7', '*', '-', '1', ' ', '5'] = value ['7', '*'] - value ['1', ' ', '5'] :=
    (hOperator ['7', '*'] ['1', ' ', '5'] (by decide)).2.1
  refine ⟨?_, (hBlanks ['1'] [' '] ['5'] (by simp [Text.isBlank])).symm.trans hFifteen, ?_⟩
  · rw [hSum, hQuotient, hProduct, hDifference, hNine, hTwo, hThree, hFour, hFifteen]
    decide +kernel
  · rw [hDouble, hEmpty, hSeven, hNone, hFifteen]
    decide +kernel

end Expression

end ReactiveSheet
