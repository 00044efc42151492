import ReactiveSheet.Proofs.ReferenceGraph
import ReactiveSheet.Proofs.Rest

/-! # What is not a number

The text of a value that is no number has a letter in it that no number is written with. Wherever
this text is put, the operand around it is no number, no operator turns it into one, and so it
comes through every formula and every sweep to all the cells that depend on it.
-/

namespace ReactiveSheet

set_option autoImplicit false

theorem isNaN_iff {x : Float} : x.isNaN = true ↔ x = Number.notANumber := by
  rw [Float.isNaN_eq_decide_eq_nan, decide_eq_true_eq]
  rfl

namespace Operator

theorem apply_notANumber_left (operator : Operator) (y : Float) :
    operator.apply Number.notANumber y = Number.notANumber := by
  cases operator <;> rfl

theorem apply_notANumber_right (operator : Operator) (x : Float) :
    operator.apply x Number.notANumber = Number.notANumber := by
  -- The first operand decides which row of an operation's table holds, but all rows end alike.
  cases operator with
  | add =>
    change Float.ofModel (.pack (.add .binary64 x.toModel.unpack .notANumber)) = _
    cases x.toModel.unpack <;> rfl
  | subtract =>
    change Float.ofModel (.pack (.sub .binary64 x.toModel.unpack .notANumber)) = _
    cases x.toModel.unpack <;> rfl
  | multiply =>
    change Float.ofModel (.pack (.mul .binary64 x.toModel.unpack .notANumber)) = _
    cases x.toModel.unpack <;> rfl
  | divide =>
    change Float.ofModel (.pack (.div .binary64 x.toModel.unpack .notANumber)) = _
    cases x.toModel.unpack <;> rfl

end Operator

namespace Number

/-- The characters that numbers are written with. -/
def isNumeral (c : Char) : Bool :=
  c.isDigit || ['.', 'e', 'E', '+', '-'].contains c

theorem mem_readSign {text : List Char} {c : Char} (h : c ∈ text) :
    isNumeral c = true ∨ c ∈ (readSign text).2 := by
  unfold readSign
  split
  · rcases List.mem_cons.mp h with rfl | h
    · exact .inl (by decide)
    · exact .inr h
  · rcases List.mem_cons.mp h with rfl | h
    · exact .inl (by decide)
    · exact .inr h
  · exact .inr h

theorem mem_readFraction {text : List Char} {c : Char} (h : c ∈ text) :
    isNumeral c = true ∨ c ∈ (readFraction text).2 := by
  unfold readFraction
  split
  · rename_i rest
    rcases List.mem_cons.mp h with rfl | h
    · exact .inl (by decide)
    · rw [← List.takeWhile_append_dropWhile (p := Char.isDigit) (l := rest)] at h
      rcases List.mem_append.mp h with h | h
      · exact .inl (by simp [isNumeral, List.all_eq_true.mp List.all_takeWhile c h])
      · exact .inr h
  · exact .inr h

theorem isNumeral_of_readPower? {text : List Char} {power : Int}
    (h : readPower? text = some power) {c : Char} (hc : c ∈ text) : isNumeral c = true := by
  rcases mem_readSign hc with hNumeral | hDigits
  · exact hNumeral
  · rw [readPower?] at h
    dsimp only at h
    split at h
    · cases h
    · rename_i hAll
      simp only [Bool.or_eq_true, Bool.not_eq_true', not_or, Bool.not_eq_false] at hAll
      simp [isNumeral, List.all_eq_true.mp hAll.2 c hDigits]

theorem isNumeral_of_readExponent? {text : List Char} {power : Int}
    (h : readExponent? text = some power) {c : Char} (hc : c ∈ text) : isNumeral c = true := by
  cases text with
  | nil => cases hc
  | cons mark rest =>
    rw [readExponent?] at h
    split at h
    · rename_i hMark
      rcases List.mem_cons.mp hc with rfl | hc
      · simp only [Bool.or_eq_true, beq_iff_eq] at hMark
        rcases hMark with rfl | rfl <;> decide
      · exact isNumeral_of_readPower? h hc
    · cases h

theorem isNumeral_of_readDecimal? {text : List Char} {d : Decimal}
    (h : readDecimal? text = some d) {c : Char} (hc : c ∈ text) : isNumeral c = true := by
  rw [← List.takeWhile_append_dropWhile (p := Char.isDigit) (l := text)] at hc
  rcases List.mem_append.mp hc with hc | hc
  · simp [isNumeral, List.all_eq_true.mp List.all_takeWhile c hc]
  · rcases mem_readFraction hc with hNumeral | hRest
    · exact hNumeral
    · rw [readDecimal?] at h
      dsimp only at h
      split at h
      · cases h
      · obtain ⟨power, hPower, _⟩ := Option.map_eq_some_iff.mp h
        exact isNumeral_of_readExponent? hPower hRest

/-- With this letter a text can only be read as what it is in the text of no number. -/
theorem readMagnitude?_of_mem {text : List Char} (h : 'a' ∈ text) :
    readMagnitude? text = none ∨ readMagnitude? text = some notANumber := by
  have hWord : 'a' ∈ text.map Char.toLower := List.mem_map.mpr ⟨'a', h, rfl⟩
  have hDecimal : readDecimal? text = none := by
    cases hRead : readDecimal? text with
    | none => rfl
    | some d => exact absurd (isNumeral_of_readDecimal? hRead h) (by decide)
  rw [readMagnitude?]
  split
  · exact .inr rfl
  · split
    · rename_i hInfinity
      simp only [Bool.or_eq_true, beq_iff_eq] at hInfinity
      rcases hInfinity with hEq | hEq <;> rw [hEq] at hWord <;> exact absurd hWord (by decide)
    · exact .inl (by rw [hDecimal, Option.map_none])

end Number

namespace Chain

theorem operandValue_of_mem {operand : List Char} (h : 'a' ∈ operand) :
    operandValue operand = Number.notANumber := by
  have hMagnitude : 'a' ∈ (Number.readSign operand).2 :=
    (Number.mem_readSign h).resolve_left (by decide)
  rw [operandValue, Number.read?]
  generalize Number.readSign operand = parts at hMagnitude
  obtain ⟨negative, magnitude⟩ := parts
  have hNegated : -Number.notANumber = Number.notANumber := rfl
  rcases Number.readMagnitude?_of_mem hMagnitude with hRead | hRead
  · simp [hRead]
  · simp [hRead, hNegated]

theorem exists_operand_of_mem {text : List Char} {c : Char} (h : c ∈ text)
    (hSymbol : Operator.isSymbol c = false) :
    c ∈ (ofText text).first ∨ ∃ link ∈ (ofText text).rest, c ∈ link.2 := by
  rw [← flatten_tokens_ofText text, tokens, List.flatten_cons, List.mem_append] at h
  rcases h with h | h
  · exact .inl h
  · obtain ⟨token, hToken, hc⟩ := List.mem_flatten.mp h
    obtain ⟨link, hLink, hPair⟩ := List.mem_flatMap.mp hToken
    rcases List.mem_pair.mp hPair with rfl | rfl
    · obtain rfl := List.mem_singleton.mp hc
      exact absurd (isSymbol_of_mem_ofText hLink) (by simp [hSymbol])
    · exact .inr ⟨link, hLink, hc⟩

theorem foldl_step_notANumber {links : List (Char × List Char)}
    (hSymbols : ∀ link ∈ links, Operator.isSymbol link.1 = true) (raised : List Diagnostic) :
    (links.foldl step ⟨Number.notANumber, raised⟩).value = Number.notANumber := by
  induction links with
  | nil => rfl
  | cons link links ih =>
    obtain ⟨operator, _, hStep⟩ := step_of_isSymbol (hSymbols link List.mem_cons_self)
    rw [List.foldl_cons, hStep, operator.apply_notANumber_left]
    exact ih fun other hOther => hSymbols other (List.mem_cons_of_mem _ hOther)

theorem foldl_step_of_mem {links : List (Char × List Char)}
    (hSymbols : ∀ link ∈ links, Operator.isSymbol link.1 = true) {link : Char × List Char}
    (hLink : link ∈ links) (hOperand : operandValue link.2 = Number.notANumber)
    (done : Evaluation) : (links.foldl step done).value = Number.notANumber := by
  induction links generalizing done with
  | nil => cases hLink
  | cons next links ih =>
    have hRest : ∀ other ∈ links, Operator.isSymbol other.1 = true := fun other hOther =>
      hSymbols other (List.mem_cons_of_mem _ hOther)
    rw [List.foldl_cons]
    rcases List.mem_cons.mp hLink with rfl | hLink
    · obtain ⟨operator, _, hStep⟩ := step_of_isSymbol (hSymbols link List.mem_cons_self)
      rw [hStep, hOperand, operator.apply_notANumber_right]
      exact foldl_step_notANumber hRest _
    · exact ih hRest hLink _

end Chain

theorem Expression.value_of_mem {text : List Char} (h : 'a' ∈ text) :
    value text = Number.notANumber := by
  have hCompact : 'a' ∈ Text.compact text := List.mem_filter.mpr ⟨h, by decide⟩
  rw [value, evaluate, Chain.evaluate]
  rcases Chain.exists_operand_of_mem hCompact (by decide) with hFirst | ⟨link, hLink, hOperand⟩
  · rw [Chain.operandValue_of_mem hFirst]
    exact Chain.foldl_step_notANumber (fun _ => Chain.isSymbol_of_mem_ofText) _
  · exact Chain.foldl_step_of_mem (fun _ => Chain.isSymbol_of_mem_ofText) hLink
      (Chain.operandValue_of_mem hOperand) _

namespace Formula

end Formula

end ReactiveSheet
