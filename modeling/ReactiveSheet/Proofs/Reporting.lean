import ReactiveSheet.Proofs.Conversation
import ReactiveSheet.Proofs.Journal

/-! # What is reported

What a recalculation reports if it succeeds is determined by the formulas: one diagnostic for each
reference that means no cell. No value of a cell counts, and neither does the number of sweeps, so
a sheet reports the same all its life, or nothing after a recalculation that has failed.
-/

namespace ReactiveSheet

set_option autoImplicit false

theorem Recalculation.diagnostics_of_ok {cells : List Cell} {maxPasses : Nat} {settled : Settled}
    (h : (run cells maxPasses).result = .ok settled) :
    settled.diagnostics = allOutOfRange (cells.map Cell.formula?) := by
  rw [(atRest_of_ok h).2, reports_eq_allOutOfRange, map_run Cell.formula?_refresh]

namespace Sheet

theorem Settled.diagnostics_eq {sheet : Sheet} (h : sheet.Settled) :
    sheet.diagnostics = allOutOfRange (sheet.cells.map Cell.formula?) := by
  rw [h.diagnostics, reports_eq_allOutOfRange]

/-- What a sheet reports later on, by how the last recalculation went if there was one. -/
def reportsAfter (sheet : Sheet) : Option Bool → List Diagnostic
  | some true => allOutOfRange (sheet.cells.map Cell.formula?)
  | some false => []
  | none => sheet.diagnostics

structure Reported (before after : Sheet) (last : Option Bool) : Prop where
  formulas : SameFormulas before.cells after.cells
  diagnostics : after.diagnostics = before.reportsAfter last

theorem Reported.trans {first second third : Sheet} {earlier later : Option Bool}
    (h : Reported first second earlier) (hLater : Reported second third later) :
    Reported first third (later.or earlier) where
  formulas := h.formulas.trans hLater.formulas
  diagnostics := by
    rw [hLater.diagnostics]
    cases later with
    | none => exact h.diagnostics
    | some succeeded =>
      cases succeeded with
      | true => exact congrArg allOutOfRange h.formulas.symm
      | false => rfl

theorem reported_recalculate (sheet : Sheet) :
    sheet.Reported sheet.recalculate.sheet (some sheet.recalculate.result.isOk) := by
  have hFormulas : SameFormulas sheet.cells sheet.recalculate.sheet.cells :=
    (sheet.map_cells_recalculate Cell.formula?_refresh).symm
  refine ⟨hFormulas, ?_⟩
  rcases sheet.recalculate_cases with ⟨passes, hResult, hSettled⟩ | ⟨failure, hResult, hSilent⟩
  · rw [hResult, hSettled.diagnostics_eq, ← hFormulas]
    rfl
  · rw [hResult, hSilent]
    rfl

theorem reported_setInput (sheet : Sheet) (index : Nat) (value : Float) :
    sheet.Reported (sheet.setInput index value).sheet
      (Answer.succeeded? (sheet.setInput index value).result) := by
  cases hCell : sheet.cells[index]? with
  | none =>
    rw [setInput_of_none hCell]
    exact ⟨rfl, rfl⟩
  | some cell =>
    cases cell with
    | computed formula dependencies x =>
      rw [setInput_of_computed hCell]
      exact ⟨rfl, rfl⟩
    | input x =>
      have hPut : sheet.Reported (sheet.put index value) none :=
        ⟨(map_cells_put hCell fun _ _ => rfl).symm, rfl⟩
      rw [setInput_of_input hCell, Answer.succeeded?_mapError]
      exact hPut.trans (reported_recalculate _)

theorem reported_perform (sheet : Sheet) (operation : Operation) :
    sheet.Reported (operation.perform sheet).1
      ((operation.perform sheet).2.bind Answer.succeeded?) := by
  cases operation with
  | recalculate =>
    rw [Operation.perform, Option.bind_some, Answer.succeeded?_mapError]
    exact reported_recalculate sheet
  | setInput index value => exact reported_setInput sheet index value
  | withMaxPasses maxPasses => exact ⟨rfl, rfl⟩

theorem reported_foldl {start : Sheet} {journal : Journal}
    (h : start.Reported journal.sheet (succeeded? journal.calls)) (operations : List Operation) :
    start.Reported (operations.foldl Journal.perform journal).sheet
      (succeeded? (operations.foldl Journal.perform journal).calls) := by
  induction operations generalizing journal with
  | nil => exact h
  | cons operation operations ih =>
    apply ih
    rw [Journal.perform, succeeded?_cons]
    exact h.trans (reported_perform journal.sheet operation)

end Sheet

namespace Session

theorem sameFormulas_edited (sheet : Sheet) (lines : List String) :
    SameFormulas sheet.cells (edited sheet lines).cells := by
  rw [edited]
  induction lines.filterMap edit? generalizing sheet with
  | nil => rfl
  | cons edit edits ih =>
    exact (sheet.reported_setInput edit.1 edit.2).formulas.trans (ih _)

theorem change_of_ok {sheet : Sheet} {index passes : Nat} {value : Float}
    (h : (sheet.setInput index value).result = .ok passes) :
    (change sheet index value).output =
      "Cell " ++ toString index ++ " set to " ++ Listing.number value ++ " (" ++
        toString passes ++ " passes)\n" ++
        String.join ((allOutOfRange (sheet.cells.map Cell.formula?)).map warningLine) := by
  have hReported := (sheet.reported_setInput index value).diagnostics
  rw [h] at hReported
  rw [change, h, hReported]
  rfl

theorem edited_take_succ {lines : List String} {count index : Nat} {line : String} {value : Float}
    (hLine : lines[count]? = some line) (hParse : Command.parse line = .ok (.set index value))
    (sheet : Sheet) : edited sheet (lines.take (count + 1)) =
      ((edited sheet (lines.take count)).setInput index value).sheet := by
  have hEdit : edit? line = some (index, value) := by rw [edit?, hParse]
  rw [List.take_add_one, hLine, Option.toList_some, edited, List.filterMap_append,
    List.filterMap_cons_some hEdit, List.foldl_append]
  rfl

/-- What is reported are the references of the formulas that mean no cell and nothing else, of a
run that succeeds, by a sheet after anything that was done with it, and as warnings in a session
behind each edit that succeeds. Once a recalculation has failed there is nothing to report until
one succeeds; an edit that is refused recalculates nothing. -/
theorem reports_references_out_of_range :
    (∀ (cells : List Cell) (maxPasses : Nat) (settled : Settled),
      (Recalculation.run cells maxPasses).result = .ok settled →
        settled.diagnostics = allOutOfRange (cells.map Cell.formula?)) ∧
    (∀ (sheet : Sheet) (operations : List Operation),
      let journal := operations.foldl Journal.perform ⟨sheet, []⟩
      sheet.Reported journal.sheet (succeeded? journal.calls)) ∧
    ∀ (sheet : Sheet) (input : List UInt8),
      let lines := handled (Text.lines input)
      let reports := allOutOfRange (sheet.cells.map Cell.formula?)
      Follows sheet (Text.lines input) (opening sheet) (run sheet input) ∧
      ∀ (count : Nat) (line : String) (index : Nat) (value : Float),
        lines[count]? = some line → Command.parse line = .ok (.set index value) →
        let update := (edited sheet (lines.take count)).setInput index value
        edited sheet (lines.take (count + 1)) = update.sheet ∧
        (∀ passes, update.result = .ok passes → update.sheet.diagnostics = reports ∧
          (answers sheet lines)[count]? = some (prompt ++
            ("Cell " ++ toString index ++ " set to " ++ Listing.number value ++ " (" ++
              toString passes ++ " passes)\n" ++ String.join (reports.map warningLine)))) ∧
        ∀ failure, update.result = .error (.unsettled failure) →
          update.sheet.diagnostics = [] := by
  refine ⟨fun _ _ _ => Recalculation.diagnostics_of_ok, ?_, ?_⟩
  · intro sheet operations
    have hStart : sheet.Reported sheet none := ⟨rfl, rfl⟩
    exact Sheet.reported_foldl hStart operations
  intro sheet input lines reports
  refine ⟨follows_run sheet input, ?_⟩
  intro count line index value hLine hParse update
  have hFormulas := sameFormulas_edited sheet (lines.take count)
  have hReported := (edited sheet (lines.take count)).reported_setInput index value
  refine ⟨edited_take_succ hLine hParse sheet, ?_, ?_⟩
  · intro passes hOk
    constructor
    · rw [hReported.diagnostics, hOk]
      exact congrArg allOutOfRange hFormulas.symm
    · rw [answers, List.getElem?_mapIdx, hLine, Option.map_some, respond_of_ok hParse, execute,
        change_of_ok hOk, ← hFormulas]
  · intro failure hError
    rw [hReported.diagnostics, hError]
    rfl

/-- A cell that swings for one value of an input and is at rest for another. -/
theorem reports_references_out_of_range_of_swing :
    let cells := Definitions.cells "0, =1-\x7b1\x7d*\x7b0\x7d, =\x7b7\x7d"
    let sheet := (Sheet.ofCells cells).withMaxPasses 3
    let lines := handled (Text.lines "set 0 1\n2 0 0".toUTF8.data.toList)
    (Recalculation.run cells 1).result = .ok ⟨1, allOutOfRange (cells.map Cell.formula?)⟩ ∧
      ([Operation.setInput 0 1, .setInput 1 0].foldl Journal.perform
        ⟨sheet, []⟩).sheet.diagnostics = [] ∧
      (edited sheet (lines.take 1)).diagnostics = [] ∧
      (answers sheet lines)[1]? = some ("> Cell 0 set to 0 (2 passes)\n" ++
        "warning: cell reference \x7b7\x7d is out of range (3 cells), using 0\n") := by
  intro cells sheet lines
  obtain ⟨hRun, hJournal, hSession⟩ := reports_references_out_of_range
  obtain ⟨_, hSet⟩ := hSession sheet "set 0 1\n2 0 0".toUTF8.data.toList
  obtain ⟨hState, _, hFailed⟩ := hSet 0 "set 0 1" 0 1 (by decide +kernel) (by decide +kernel)
  obtain ⟨_, hOk, _⟩ := hSet 1 "2 0 0" 0 0 (by decide +kernel) (by decide +kernel)
  have hSettled : (Recalculation.run cells 1).result = .ok ⟨1, [.referenceOutOfRange 7 3]⟩ := by
    decide +kernel
  refine ⟨?_, ?_, ?_, ?_⟩
  · rw [← hRun cells 1 _ hSettled]
    exact hSettled
  · rw [(hJournal sheet [.setInput 0 1, .setInput 1 0]).diagnostics]
    decide +kernel
  · rw [hState]
    exact hFailed ⟨3⟩ (by decide +kernel)
  · rw [(hOk 2 (by decide +kernel)).2]
    decide +kernel

end Session

end ReactiveSheet
