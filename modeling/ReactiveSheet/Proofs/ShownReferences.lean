import ReactiveSheet.Proofs.Conversation
import ReactiveSheet.Proofs.Evaluation
import ReactiveSheet.Proofs.ReadBack

/-! # The references that are shown

A session that is asked about a computed cell lists the references of its formula. They can be read
off the answer, and nothing else that stands on a sheet has a bearing on what the formula gives.
-/

namespace ReactiveSheet

set_option autoImplicit false

namespace Formula

theorem lt_bound_of_mem_references {formula : String} {index : Nat}
    (h : index ∈ references formula) : index < Index.bound := by
  obtain ⟨segment, _, hIndex⟩ := List.mem_filterMap.mp h
  cases segment with
  | plain c => cases hIndex
  | reference digits =>
    obtain rfl : (Index.read? digits).getD (Index.bound - 1) = index := Option.some.inj hIndex
    cases hRead : Index.read? digits with
    | none => decide
    | some index => exact Index.lt_bound_of_read? hRead

/-- Another cell in this place makes the formula give another value. -/
def AffectedAt (formula : String) (cells : List Cell) (index : Nat) : Prop :=
  ∃ cell, (evaluate formula (cells.set index cell)).value ≠ (evaluate formula cells).value

theorem evaluate_value_congr {formula : String} {first second : List Cell}
    (h : ∀ index ∈ references formula, AgreeAt first second index) :
    (evaluate formula first).value = (evaluate formula second).value := by
  rw [evaluate_eq, evaluate_eq]
  exact value_congr h

theorem mem_references_of_affectedAt {formula : String} {cells : List Cell} {index : Nat}
    (h : AffectedAt formula cells index) : index ∈ references formula := by
  obtain ⟨cell, hCell⟩ := h
  by_contra hNot
  refine hCell (evaluate_value_congr fun other hOther => agreeAt_of_eq ?_)
  have hNe : index ≠ other := by
    rintro rfl
    exact hNot hOther
  exact List.getElem?_set_ne hNe

end Formula

namespace Text

theorem compact_intercalate (items : List (List Char)) :
    compact ([',', ' '].intercalate items) = [','].intercalate (items.map compact) := by
  induction items with
  | nil => rfl
  | cons item items ih =>
    cases items with
    | nil => simp
    | cons next items =>
      rw [List.intercalate_cons_cons, compact_append, compact_append, ih]
      simp only [List.map_cons, List.intercalate_cons_cons]
      rfl

theorem not_mem_intercalate {c : Char} {separator : List Char} {items : List (List Char)}
    (hSeparator : c ∉ separator) (hItems : ∀ item ∈ items, c ∉ item) :
    c ∉ separator.intercalate items := by
  induction items with
  | nil => simp
  | cons item items ih =>
    have hItem := hItems item List.mem_cons_self
    have hRest := ih fun other hOther => hItems other (List.mem_cons_of_mem _ hOther)
    cases items with
    | nil => simpa using hItem
    | cons next items => simp [List.intercalate_cons_cons, hItem, hSeparator, hRest]

theorem rtakeWhile_append {mark : Char} (front : List Char) {rest : List Char} (h : mark ∉ rest) :
    (front ++ mark :: rest).rtakeWhile (· != mark) = rest := by
  have hRest : ∀ c ∈ rest.reverse, (c != mark) = true := by
    intro c hc
    rw [bne_iff_ne]
    rintro rfl
    exact h (List.mem_reverse.mp hc)
  rw [List.rtakeWhile, List.reverse_append, List.reverse_cons, List.append_assoc,
    List.takeWhile_append_of_pos hRest]
  simp

end Text

namespace Session

/-- The indices between the last colon of an answer and the bracket that closes it. -/
def listed (answer : String) : List Nat :=
  ((Text.compact (answer.toList.rtakeWhile (· != ':'))).dropLast.splitOn ',').filterMap Index.read?

theorem compact_toString (index : Nat) :
    Text.compact (toString index).toList = (toString index).toList := by
  apply List.filter_eq_self.mpr
  intro c hc
  rw [Number.isBlank_of_isDigit (Index.isDigit_of_mem_toString hc)]
  rfl

theorem compact_referenceList {formula : String} (h : Formula.references formula ≠ []) :
    Text.compact (referenceList formula).toList =
      [','].intercalate ((Formula.references formula).map fun index => (toString index).toList) := by
  obtain ⟨index, rest, hReferences⟩ := List.exists_cons_of_ne_nil h
  rw [referenceList, hReferences]
  dsimp only
  rw [String.toList_intercalate]
  change Text.compact ([',', ' '].intercalate _) = _
  rw [Text.compact_intercalate, List.map_map, List.map_map]
  congr 1
  exact List.map_congr_left fun index _ => compact_toString index

/-- The numbers in a list are read from it, and in the word for an empty one there is none. -/
theorem filterMap_read?_referenceList (formula : String) :
    ((Text.compact (referenceList formula).toList).splitOn ',').filterMap Index.read? =
      Formula.references formula := by
  by_cases hEmpty : Formula.references formula = []
  · rw [referenceList, hEmpty]
    decide
  · rw [compact_referenceList hEmpty, List.splitOn_intercalate]
    · rw [List.filterMap_map]
      refine (List.filterMap_congr fun index hIndex => ?_).trans List.filterMap_some
      exact Index.read?_toString (Formula.lt_bound_of_mem_references hIndex)
    · intro piece hPiece
      obtain ⟨index, _, rfl⟩ := List.mem_map.mp hPiece
      exact Index.not_mem_toString (by decide) index
    · simpa using hEmpty

theorem not_mem_referenceList {c : Char} (hDigit : c.isDigit = false)
    (hOther : c ∉ [',', ' ', 'n', 'o', 'e']) (formula : String) :
    c ∉ (referenceList formula).toList := by
  have hWord : "none".toList ⊆ [',', ' ', 'n', 'o', 'e'] := by decide
  have hSeparator : ", ".toList ⊆ [',', ' ', 'n', 'o', 'e'] := by decide
  rw [referenceList]
  split
  · exact fun hMem => hOther (hWord hMem)
  · rw [String.toList_intercalate]
    apply Text.not_mem_intercalate
    · exact fun hMem => hOther (hSeparator hMem)
    · intro item hItem
      obtain ⟨text, hText, rfl⟩ := List.mem_map.mp hItem
      obtain ⟨index, _, rfl⟩ := List.mem_map.mp hText
      exact Index.not_mem_toString hDigit index

theorem listed_append_referenceList (front formula : String) :
    listed (front ++ " (refs: " ++ referenceList formula ++ ")\n") =
      Formula.references formula := by
  have hText : (front ++ " (refs: " ++ referenceList formula ++ ")\n").toList =
      (front ++ " (refs").toList ++
        ':' :: (' ' :: (referenceList formula).toList ++ [')', '\n']) := by
    simp
  have hColon : ':' ∉ ' ' :: (referenceList formula).toList ++ [')', '\n'] := by
    simpa using not_mem_referenceList (by decide) (by decide) formula
  have hCompact : Text.compact (' ' :: (referenceList formula).toList ++ [')', '\n']) =
      Text.compact (referenceList formula).toList ++ [')'] := by
    rw [Text.compact_append]
    rfl
  rw [listed, hText, Text.rtakeWhile_append _ hColon, hCompact, List.dropLast_concat,
    filterMap_read?_referenceList]

theorem inspection_of_computed {sheet : Sheet} {index : Nat} {formula : String}
    {dependencies : List Nat} {value : Float}
    (h : sheet.cells[index]? = some (.computed formula dependencies value)) :
    inspection sheet index = "[" ++ toString index ++ "] =" ++ formula ++ " = " ++
      Listing.number value ++ " (refs: " ++ referenceList formula ++ ")\n" := by
  have hBracket : "] =" = "] " ++ "=" := by decide
  rw [inspection, h, hBracket]
  simp only [Cell.definition, Cell.formula?, Cell.value, String.append_assoc]

/-- A formula depends on no cells but those that it refers to. They are listed where a session is
asked about a computed cell, so that a cell which is not listed there has no effect on it. -/
theorem lists_all_that_matter :
    (∀ (formula : String) (first second : List Cell),
      (∀ index ∈ Formula.references formula, AgreeAt first second index) →
        (Formula.evaluate formula first).value = (Formula.evaluate formula second).value) ∧
    ∀ (sheet : Sheet) (line : String) (index : Nat) (formula : String) (dependencies : List Nat)
      (value : Float), Command.parse line = .ok (.inspect index) →
      sheet.cells[index]? = some (.computed formula dependencies value) →
      let answer := (respond sheet line).output
      answer = "[" ++ toString index ++ "] =" ++ formula ++ " = " ++ Listing.number value ++
        " (refs: " ++ referenceList formula ++ ")\n" ∧
      listed answer = Formula.references formula ∧
      (∀ first second : List Cell, (∀ other ∈ listed answer, AgreeAt first second other) →
        (Formula.evaluate formula first).value = (Formula.evaluate formula second).value) ∧
      ∀ (cells : List Cell) (other : Nat), Formula.AffectedAt formula cells other →
        other ∈ listed answer := by
  refine ⟨fun formula first second => Formula.evaluate_value_congr, ?_⟩
  intro sheet line index formula dependencies value hLine hCell answer
  have hAnswer : answer = inspection sheet index :=
    congrArg Turn.output (respond_of_ok hLine sheet)
  rw [inspection_of_computed hCell] at hAnswer
  have hListed : listed answer = Formula.references formula := by
    rw [hAnswer, listed_append_referenceList]
  refine ⟨hAnswer, hListed, ?_, ?_⟩
  · intro first second h
    rw [hListed] at h
    exact Formula.evaluate_value_congr h
  · intro cells other h
    rw [hListed]
    exact Formula.mem_references_of_affectedAt h

/-- The sheets differ in length, in the kinds of their cells and in the sign of a zero. -/
theorem lists_all_that_matter_of_digits :
    let formula := "2{0}-{1}-{9}"
    let first : List Cell := [.input 3, .computed "x" [] 0, .input 7]
    let second : List Cell := [.computed "y" [] 3, .input (-0)]
    let answer := (respond (Sheet.ofCells [.computed formula [] 5]) "SHOW 0").output
    answer = "[0] =2{0}-{1}-{9} = 5 (refs: 0, 1, 9)\n" ∧ listed answer = [0, 1, 9] ∧
      (Formula.evaluate formula first).value = (Formula.evaluate formula second).value ∧
      (Formula.evaluate formula second).value = 23 ∧
      Formula.AffectedAt formula first 0 ∧ 0 ∈ listed answer := by
  intro formula first second answer
  obtain ⟨hFormula, hSession⟩ := lists_all_that_matter
  obtain ⟨hAnswer, hListed, _, hAffected⟩ := hSession (Sheet.ofCells [.computed formula [] 5])
    "SHOW 0" 0 formula [] 5 (by decide +kernel) rfl
  have hReferences : Formula.references formula = [0, 1, 9] := by decide +kernel
  have hChanged : Formula.AffectedAt formula first 0 := ⟨.input 4, by decide +kernel⟩
  refine ⟨?_, hListed.trans hReferences, hFormula _ _ _ ?_, ?_, hChanged,
    hAffected first 0 hChanged⟩
  · exact hAnswer.trans (by decide +kernel)
  · rw [hReferences]
    simp only [List.forall_mem_cons, List.not_mem_nil, false_imp_iff, implies_true, and_true]
    exact ⟨.some (by decide), .some (by decide), .none⟩
  · decide +kernel

end Session

end ReactiveSheet
