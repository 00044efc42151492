import ReactiveSheet.Proofs.ReferenceGraph
import ReactiveSheet.Proofs.SheetUpdate

/-! # Journals

A journal follows a sheet from its definitions through any sequence of operations and keeps every
call with its answer. The calls tell what the sheet is like: its inputs hold what was given last,
and its diagnostics are those of the cells, or there are none, as the last recalculation went.
-/

namespace ReactiveSheet

set_option autoImplicit false

inductive Operation where
  | recalculate
  | setInput (index : Nat) (value : Float)
  | withMaxPasses (maxPasses : Nat)

def Operation.perform (sheet : Sheet) : Operation → Sheet × Option Answer
  | recalculate => (sheet.recalculate.sheet, some (sheet.recalculate.result.mapError .unsettled))
  | setInput index value => ((sheet.setInput index value).sheet,
      some (sheet.setInput index value).result)
  | withMaxPasses maxPasses => (sheet.withMaxPasses maxPasses, none)

/-- An operation with its answer. A change of the bound has none. -/
structure Call where
  operation : Operation
  answer : Option Answer

namespace Call

def succeeded? (call : Call) : Option Bool :=
  call.answer.bind Answer.succeeded?

/-- What the call gives to the input at a position. An edit that is not refused gives its value
even if the recalculation behind it fails. -/
def given? (call : Call) (index : Nat) : Option Float :=
  match call.operation with
  | .setInput position value =>
    if position = index ∧ call.succeeded?.isSome then some value else none
  | _ => none

theorem given?_of_refused {call : Call} (h : call.succeeded? = none) (index : Nat) :
    call.given? index = none := by
  rw [given?]
  split
  · rw [h]
    exact if_neg (by simp)
  · rfl

theorem given?_setInput_self {answer : Answer} {index : Nat} {value : Float}
    (h : answer.succeeded?.isSome = true) :
    given? ⟨.setInput index value, some answer⟩ index = some value :=
  if_pos ⟨rfl, h⟩

theorem given?_setInput_of_ne {answer : Option Answer} {index other : Nat} {value : Float}
    (h : index ≠ other) : given? ⟨.setInput index value, answer⟩ other = none :=
  if_neg fun hGiven => h hGiven.1

end Call

/-- What calls, the latest of them first, have given to the input at a position. -/
def given? (calls : List Call) (index : Nat) : Option Float :=
  calls.findSome? (Call.given? · index)

/-- Whether the last recalculation succeeded, if there was one. -/
def succeeded? (calls : List Call) : Option Bool :=
  calls.findSome? Call.succeeded?

theorem given?_cons (call : Call) (calls : List Call) (index : Nat) :
    given? (call :: calls) index = (call.given? index).or (given? calls index) := by
  rw [given?, List.findSome?_cons]
  cases call.given? index <;> rfl

theorem succeeded?_cons (call : Call) (calls : List Call) :
    succeeded? (call :: calls) = call.succeeded?.or (succeeded? calls) := by
  rw [succeeded?, List.findSome?_cons]
  cases call.succeeded? <;> rfl

structure Journal where
  sheet : Sheet
  /-- The latest call comes first. -/
  calls : List Call

namespace Journal

def perform (journal : Journal) (operation : Operation) : Journal :=
  let (sheet, answer) := operation.perform journal.sheet
  ⟨sheet, ⟨operation, answer⟩ :: journal.calls⟩

def run (text : String) (operations : List Operation) : Journal :=
  operations.foldl perform ⟨Sheet.ofCells (Definitions.cells text), []⟩

theorem run_concat (text : String) (operations : List Operation) (operation : Operation) :
    run text (operations ++ [operation]) = (run text operations).perform operation := by
  rw [run, List.foldl_append]
  rfl

theorem succeeded?_perform {journal : Journal} (operation : Operation) (passes : Nat)
    (h : (operation.perform journal.sheet).2 = some (.ok passes)) :
    ReactiveSheet.succeeded? (journal.perform operation).calls = some true := by
  rw [perform, succeeded?_cons, Call.succeeded?, h]
  rfl

/-- The cells are those of the start, but for the values of formulas and of the inputs that were
given one. -/
structure Holds (start cells : List Cell) (given : Nat → Option Float) : Prop where
  formulas : SameFormulas start cells
  dependencies : start.map Cell.dependencies? = cells.map Cell.dependencies?
  inputs : ∀ (index : Nat) (literal : Float), start[index]? = some (.input literal) →
    cells[index]? = some (.input ((given index).getD literal))

structure Kept (start : List Cell) (journal : Journal) : Prop where
  holds : Holds start journal.sheet.cells (given? journal.calls)
  settled : succeeded? journal.calls = some true → journal.sheet.Settled
  silent : succeeded? journal.calls ≠ some true → journal.sheet.diagnostics = []

variable {start : List Cell}

theorem Holds.recalculate {sheet : Sheet} {given : Nat → Option Float}
    (h : Holds start sheet.cells given) : Holds start sheet.recalculate.sheet.cells given where
  formulas := h.formulas.trans (sheet.map_cells_recalculate Cell.formula?_refresh).symm
  dependencies := h.dependencies.trans (sheet.map_cells_recalculate Cell.dependencies?_refresh).symm
  inputs index literal hLiteral := by
    rw [getElem?_eq_input_iff, sheet.map_cells_recalculate Cell.input?_refresh,
      ← getElem?_eq_input_iff]
    exact h.inputs index literal hLiteral

theorem Holds.put {sheet : Sheet} {before after : Nat → Option Float} {index : Nat}
    {x value : Float} (h : Holds start sheet.cells before)
    (hCell : sheet.cells[index]? = some (.input x)) (hGiven : after index = some value)
    (hOthers : ∀ other, index ≠ other → after other = before other) :
    Holds start (sheet.put index value).cells after where
  formulas := h.formulas.trans (Sheet.map_cells_put hCell fun _ _ => rfl).symm
  dependencies := h.dependencies.trans (Sheet.map_cells_put hCell fun _ _ => rfl).symm
  inputs other literal hLiteral := by
    have hOther := h.inputs other literal hLiteral
    rw [Sheet.put]
    by_cases hIndex : index = other
    · subst hIndex
      rw [List.getElem?_set_self (List.getElem?_eq_some_iff.mp hCell).1, hGiven]
      rfl
    · rw [List.getElem?_set_ne hIndex, hOthers other hIndex]
      exact hOther

theorem kept_of_recalculate {sheet : Sheet} {call : Call} {calls : List Call}
    (h : Holds start sheet.cells (given? (call :: calls)))
    (hAnswer : call.answer = some (sheet.recalculate.result.mapError .unsettled)) :
    Kept start ⟨sheet.recalculate.sheet, call :: calls⟩ := by
  have hLast : succeeded? (call :: calls) = some sheet.recalculate.result.isOk := by
    rw [succeeded?_cons, Call.succeeded?, hAnswer, Option.bind_some, Answer.succeeded?_mapError,
      Option.some_or]
  rcases sheet.recalculate_cases with ⟨passes, hResult, hSettled⟩ | ⟨failure, hResult, hSilent⟩
  · rw [hResult] at hLast
    exact ⟨h.recalculate, fun _ => hSettled, fun hNot => absurd hLast hNot⟩
  · rw [hResult] at hLast
    exact ⟨h.recalculate, fun hOk => (nomatch hLast.symm.trans hOk), fun _ => hSilent⟩

/-- A call that neither gives anything nor recalculates may be left out. -/
theorem Kept.refused {journal : Journal} {sheet : Sheet} {call : Call} (h : Kept start journal)
    (hRefused : call.succeeded? = none) (hCells : sheet.cells = journal.sheet.cells)
    (hDiagnostics : sheet.diagnostics = journal.sheet.diagnostics) :
    Kept start ⟨sheet, call :: journal.calls⟩ := by
  have hGiven : given? (call :: journal.calls) = given? journal.calls := by
    funext index
    rw [given?_cons, call.given?_of_refused hRefused, Option.none_or]
  have hLast : succeeded? (call :: journal.calls) = succeeded? journal.calls := by
    rw [succeeded?_cons, hRefused, Option.none_or]
  refine ⟨?_, ?_, ?_⟩
  · rw [hGiven, hCells]
    exact h.holds
  · intro hOk
    rw [hLast] at hOk
    have hSettled := h.settled hOk
    exact ⟨hCells ▸ hSettled.atRest, by rw [hDiagnostics, hCells, hSettled.diagnostics]⟩
  · intro hNot
    rw [hLast] at hNot
    rw [hDiagnostics, h.silent hNot]

theorem Kept.setInput {journal : Journal} (h : Kept start journal) (index : Nat) (value : Float) :
    Kept start (journal.perform (.setInput index value)) := by
  rw [perform, Operation.perform]
  dsimp only
  cases hCell : journal.sheet.cells[index]? with
  | none =>
    rw [Sheet.setInput_of_none hCell]
    exact h.refused rfl rfl rfl
  | some cell =>
    cases cell with
    | computed formula dependencies x =>
      rw [Sheet.setInput_of_computed hCell]
      exact h.refused rfl rfl rfl
    | input x =>
      rw [Sheet.setInput_of_input hCell]
      refine kept_of_recalculate (h.holds.put hCell ?_ ?_) rfl
      · rw [given?_cons, Call.given?_setInput_self (by rw [Answer.succeeded?_mapError]; rfl),
          Option.some_or]
      · intro other hOther
        rw [given?_cons, Call.given?_setInput_of_ne hOther, Option.none_or]

theorem Kept.perform {journal : Journal} (h : Kept start journal) (operation : Operation) :
    Kept start (journal.perform operation) := by
  cases operation with
  | recalculate =>
    have hGiven : given? ((journal.perform .recalculate).calls) = given? journal.calls := by
      funext index
      exact given?_cons ..
    exact kept_of_recalculate (hGiven ▸ h.holds) rfl
  | setInput index value => exact h.setInput index value
  | withMaxPasses maxPasses => exact h.refused rfl rfl rfl

theorem kept_start (start : List Cell) : Kept start ⟨Sheet.ofCells start, []⟩ where
  holds := ⟨rfl, rfl, fun _ _ hLiteral => hLiteral⟩
  settled hOk := by cases hOk
  silent _ := rfl

theorem Kept.foldl {journal : Journal} (h : Kept start journal) (operations : List Operation) :
    Kept start (operations.foldl Journal.perform journal) := by
  induction operations generalizing journal with
  | nil => exact h
  | cons operation operations ih => exact ih (h.perform operation)

theorem kept_run (text : String) (operations : List Operation) :
    Kept (Definitions.cells text) (run text operations) :=
  (kept_start _).foldl operations

theorem dependencies_eq_nil {text : String} {cell : Cell} (h : cell ∈ Definitions.cells text)
    {dependencies : List Nat} (hCell : cell.dependencies? = some dependencies) :
    dependencies = [] := by
  obtain ⟨segment, _, rfl⟩ := List.mem_map.mp h
  rw [Cell.ofDefinition] at hCell
  split at hCell
  · exact (Option.some.inj hCell).symm
  · cases hCell

/-- Whatever is done with the sheet of a text and however it answers, its cells stay those of the
text, its inputs hold what they were given last, its diagnostics are those of the last
recalculation if that succeeded, and an edit that it refuses changes nothing. -/
theorem tells_sheet_state (text : String) (operations : List Operation) :
    (run text operations).Kept (Definitions.cells text) ∧
    (∀ cell ∈ (run text operations).sheet.cells, ∀ dependencies,
      cell.dependencies? = some dependencies → dependencies = []) ∧
    ∀ index value, (run text operations).sheet.Refuses index value := by
  have hKept := kept_run text operations
  refine ⟨hKept, ?_, (run text operations).sheet.refuses⟩
  intro cell hCell dependencies hDependencies
  have hMem := List.mem_map_of_mem (f := Cell.dependencies?) hCell
  rw [← hKept.holds.dependencies] at hMem
  obtain ⟨parsed, hParsed, hEq⟩ := List.mem_map.mp hMem
  exact dependencies_eq_nil hParsed (hEq.trans hDependencies)

example : (run "1, =1-{1}" [.withMaxPasses 3, .setInput 0 5]).sheet =
    ⟨[.input 5, .computed "1-{1}" [] 1], 3, []⟩ := by decide +kernel

end Journal

end ReactiveSheet
