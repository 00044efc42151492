import ReactiveSheet.Proofs.SameValue

/-! # What an evaluation depends on

An expression has a value, and nothing is reported while it is found. A formula reads the cells
that it refers to and no others, and of each of them only which value it is.
-/

namespace ReactiveSheet

set_option autoImplicit false

namespace Chain

theorem step_of_isSymbol {link : Char × List Char} (h : Operator.isSymbol link.1 = true) :
    ∃ operator, Operator.ofSymbol? link.1 = some operator ∧ ∀ done : Evaluation,
      step done link =
        ⟨operator.apply done.value (operandValue link.2), done.diagnostics⟩ := by
  obtain ⟨operator, hOperator⟩ := Option.isSome_iff_exists.mp h
  refine ⟨operator, hOperator, fun done => ?_⟩
  rw [step, hOperator]

theorem foldl_step (links : List (Char × List Char))
    (h : ∀ link ∈ links, Operator.isSymbol link.1 = true) (x : Float) (raised : List Diagnostic) :
    links.foldl step ⟨x, raised⟩ = ⟨(links.foldl step ⟨x, []⟩).value, raised⟩ := by
  induction links generalizing x with
  | nil => rfl
  | cons link links ih =>
    obtain ⟨operator, _, hStep⟩ := step_of_isSymbol (h link List.mem_cons_self)
    rw [List.foldl_cons, List.foldl_cons, hStep, hStep]
    exact ih (fun link hLink => h link (List.mem_cons_of_mem _ hLink)) _

end Chain

namespace Expression

def value (text : List Char) : Float :=
  (evaluate text []).value

theorem evaluate_eq (text : List Char) (raised : List Diagnostic) :
    evaluate text raised = ⟨value text, raised⟩ :=
  Chain.foldl_step _ (fun _ hLink => Chain.isSymbol_of_mem_ofText hLink) _ raised

end Expression

/-- Both have the cell and it has the same value, or neither has it. -/
def AgreeAt (first second : List Cell) (index : Nat) : Prop :=
  Option.Rel (fun a b : Cell => sameValue a.value b.value = true) first[index]? second[index]?

theorem agreeAt_of_eq {first second : List Cell} {index : Nat}
    (h : first[index]? = second[index]?) : AgreeAt first second index := by
  rw [AgreeAt, h]
  cases second[index]? with
  | none => exact .none
  | some cell => exact .some (sameValue_refl _)

theorem agreeAt_of_some {first second : List Cell} {index : Nat} {a b : Cell}
    (hFirst : first[index]? = some a) (hSecond : second[index]? = some b)
    (h : sameValue a.value b.value = true) : AgreeAt first second index := by
  rw [AgreeAt, hFirst, hSecond]
  exact .some h

namespace Formula

/-- What stands in for a reference. -/
def valueText (cells : List Cell) (index : Nat) : List Char :=
  match cells[index]? with
  | some cell => Number.plain (cell.value + 0)
  | none => ['0']

def substituteSegment (cells : List Cell) : Segment → List Char
  | .plain c => [c]
  | segment => (segment.index?.map (valueText cells)).getD []

def substitute (formula : String) (cells : List Cell) : List Char :=
  (segments formula).flatMap (substituteSegment cells)

/-- One diagnostic for each reference that means no cell. -/
def outOfRange (formula : String) (count : Nat) : List Diagnostic :=
  ((references formula).filter (count ≤ ·)).map (.referenceOutOfRange · count)

theorem replace_eq (formula : String) (cells : List Cell) :
    replace formula cells = ⟨substitute formula cells, outOfRange formula cells.length⟩ := by
  rw [replace, substitute, outOfRange, references]
  induction segments formula with
  | nil => rfl
  | cons segment segments ih =>
    rw [List.foldr_cons, ih, List.flatMap_cons, Replacement.prepend]
    cases segment with
    | plain c => rfl
    | reference digits =>
      have hIndex : (Segment.reference digits).index? =
          some ((Index.read? digits).getD (Index.bound - 1)) := rfl
      have hText : substituteSegment cells (.reference digits) =
          valueText cells ((Index.read? digits).getD (Index.bound - 1)) := rfl
      generalize (Index.read? digits).getD (Index.bound - 1) = index at hIndex hText
      rw [List.filterMap_cons_some hIndex, hText, hIndex, valueText]
      dsimp only
      cases hCell : cells[index]? with
      | none =>
        have hRange : cells.length ≤ index := List.getElem?_eq_none_iff.mp hCell
        simp [hRange]
      | some cell =>
        have hRange : index < cells.length := (List.getElem?_eq_some_iff.mp hCell).1
        simp [hRange]

def value (formula : String) (cells : List Cell) : Float :=
  Expression.value (substitute formula cells)

theorem evaluate_eq (formula : String) (cells : List Cell) :
    evaluate formula cells = ⟨value formula cells, outOfRange formula cells.length⟩ := by
  rw [evaluate, replace_eq]
  exact Expression.evaluate_eq ..

theorem valueText_congr {first second : List Cell} {index : Nat}
    (h : AgreeAt first second index) : valueText first index = valueText second index := by
  rw [AgreeAt] at h
  rw [valueText, valueText]
  generalize first[index]? = a at h
  generalize second[index]? = b at h
  cases h with
  | none => rfl
  | some hSame => exact congrArg Number.plain (add_zero_congr hSame)

theorem substitute_congr {formula : String} {first second : List Cell}
    (h : ∀ index ∈ references formula, AgreeAt first second index) :
    substitute formula first = substitute formula second := by
  apply List.flatMap_congr
  intro segment hSegment
  cases segment with
  | plain c => rfl
  | reference digits =>
    apply valueText_congr
    exact h _ (List.mem_filterMap.mpr ⟨_, hSegment, rfl⟩)

/-- A formula has one value on all cells that agree where it refers to. -/
theorem value_congr {formula : String} {first second : List Cell}
    (h : ∀ index ∈ references formula, AgreeAt first second index) :
    value formula first = value formula second :=
  congrArg Expression.value (substitute_congr h)

end Formula

end ReactiveSheet
