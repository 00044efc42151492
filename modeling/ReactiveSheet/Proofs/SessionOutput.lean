import ReactiveSheet.Proofs.Conversation
import ReactiveSheet.Proofs.Showing

/-! # What a session shows

A session begins with the number of cells and the cells. Behind each prompt stands what the line is
answered with, which depends on the kind of line and on the sheet as the lines before it left it. So
the bytes that are typed determine every character that is shown.
-/

namespace ReactiveSheet

set_option autoImplicit false

namespace Text

/-- The lines of some bytes. A line feed ends a line, and a carriage return just before it belongs
to the end. What stands behind the last line feed is a line too, if there is anything. -/
inductive HasLines : List UInt8 → List (List UInt8) → Prop
  | none : HasLines [] []
  | rest {line : List UInt8} (hLine : line ≠ []) (hInside : 10 ∉ line) : HasLines line [line]
  | feed {line rest : List UInt8} {lines : List (List UInt8)} (hInside : 10 ∉ line)
      (hEnd : line.getLast? ≠ some 13) (hRest : HasLines rest lines) :
      HasLines (line ++ 10 :: rest) (line :: lines)
  | returnAndFeed {line rest : List UInt8} {lines : List (List UInt8)} (hInside : 10 ∉ line)
      (hRest : HasLines rest lines) : HasLines (line ++ 13 :: 10 :: rest) (line :: lines)

theorem lines_append_lineFeed (first rest : List UInt8) :
    lines (first ++ lineFeed :: rest) = lines (first ++ [lineFeed]) ++ lines rest := by
  have hRest : rest.splitOn lineFeed ≠ [] := List.splitOn_ne_nil _ _
  have hNil : ([] : List UInt8).splitOn lineFeed = [[]] := by simp
  simp only [lines, List.splitOn_append_cons_self, hNil, List.dropLast_append_of_ne_nil hRest,
    List.getLast?_append_of_ne_nil _ hRest]
  simp

theorem lines_of_not_mem {line : List UInt8} (h : lineFeed ∉ line) :
    lines line = if line = [] then [] else [line] := by
  rw [lines, List.splitOn_eq_singleton h]
  cases line <;> rfl

theorem lines_append_cons {line : List UInt8} (h : lineFeed ∉ line) (rest : List UInt8) :
    lines (line ++ lineFeed :: rest) = dropCarriageReturn line :: lines rest := by
  have hFirst : lines (line ++ [lineFeed]) = [dropCarriageReturn line] := by
    rw [lines, List.splitOn_append_cons_self, List.splitOn_eq_singleton h]
    simp
  rw [lines_append_lineFeed, hFirst]
  rfl

theorem HasLines.lines_eq {bytes : List UInt8} {ls : List (List UInt8)} (h : HasLines bytes ls) :
    lines bytes = ls := by
  induction h with
  | none => rw [lines_of_not_mem List.not_mem_nil, if_pos rfl]
  | rest hLine hInside => rw [lines_of_not_mem hInside, if_neg hLine]
  | @feed line rest ls hInside hEnd _ ih =>
    have hLines : lines (line ++ 10 :: rest) = dropCarriageReturn line :: lines rest :=
      lines_append_cons hInside rest
    have hDrop : dropCarriageReturn line = line := if_neg hEnd
    rw [hLines, hDrop, ih]
  | @returnAndFeed line rest ls hInside _ ih =>
    have hFront : lineFeed ∉ line ++ [13] := by simpa [lineFeed] using hInside
    have hLines : lines (line ++ [13] ++ 10 :: rest) =
        dropCarriageReturn (line ++ [13]) :: lines rest := lines_append_cons hFront rest
    have hDrop : dropCarriageReturn (line ++ [13]) = line := by
      simp [dropCarriageReturn, carriageReturn]
    rw [List.append_cons, hLines, hDrop, ih]

theorem hasLines_lines (bytes : List UInt8) : HasLines bytes (lines bytes) := by
  -- What stands behind the first line feed is shorter.
  induction hLength : bytes.length using Nat.strongRecOn generalizing bytes with
  | ind n ih =>
    subst hLength
    by_cases hFeed : lineFeed ∈ bytes
    · obtain ⟨line, rest, rfl, hInside⟩ := List.eq_append_cons_of_mem hFeed
      have hRest : HasLines rest (lines rest) := ih rest.length (by simp; omega) rest rfl
      rw [lines_append_cons hInside, dropCarriageReturn]
      split
      next hEnd =>
        obtain ⟨front, rfl⟩ := List.getLast?_eq_some_iff.mp hEnd
        rw [List.dropLast_concat, List.append_assoc]
        exact .returnAndFeed (fun hMem => hInside (List.mem_append_left _ hMem)) hRest
      next hEnd => exact .feed hInside hEnd hRest
    · rw [lines_of_not_mem hFeed]
      split
      next hEmpty =>
        rw [hEmpty]
        exact .none
      next hLine => exact .rest hLine hFeed

end Text

namespace Session

/-- What warns of something that an evaluation has passed over. -/
def warning : Diagnostic → String
  | .referenceOutOfRange index count =>
    "warning: " ++ ("cell reference \x7b" ++ toString index ++ "\x7d is out of range (" ++
      toString count ++ " cells), using 0") ++ "\n"
  | .unknownOperator symbol =>
    "warning: " ++ ("unknown operator '" ++ symbol.toString ++ "' skipped") ++ "\n"

/-- What each kind of line is answered with. There is no answer to a line that asks to quit. -/
inductive Answered (sheet : Sheet) (line : String) : String → Prop
  | blank (hBlank : line.toList.all Text.isBlank = true) : Answered sheet line ""
  | unknown {name : String} (hLine : Command.parse line = .error (.unknown name)) :
      Answered sheet line
        ("Error: " ++ ("Unknown command: " ++ name ++ " (type 'help')") ++ "\n")
  | usage {form : String} (hLine : Command.parse line = .error (.usage form)) :
      Answered sheet line ("Error: " ++ ("Usage: " ++ form) ++ "\n")
  | invalidIndex {word : String} (hLine : Command.parse line = .error (.invalidIndex word)) :
      Answered sheet line ("Error: " ++ ("Invalid cell index: " ++ word) ++ "\n")
  | invalidNumber {word : String} (hLine : Command.parse line = .error (.invalidNumber word)) :
      Answered sheet line ("Error: " ++ ("Invalid number: " ++ word) ++ "\n")
  | print (hLine : Command.parse line = .ok .print) :
      Answered sheet line (Program.cellLines sheet.cells)
  | help (hLine : Command.parse line = .ok .help) :
      Answered sheet line
        ("Commands:\n" ++
        "  print | p | 1                 Show every cell value\n" ++
        "  set <index> <value> | 2 ...   Change an input cell and recalculate\n" ++
        "  show <index>                  Show a cell's definition\n" ++
        "  help | h | ?                  Show this help\n" ++
        "  quit | q | exit | 3           Leave\n")
  | setOutOfRange {index : Nat} {value : Float}
      (hLine : Command.parse line = .ok (.set index value))
      (hIndex : sheet.cells.length ≤ index) :
      Answered sheet line
        ("Error: " ++ ("Cell index " ++ toString index ++ " is out of range (" ++
          toString sheet.cells.length ++ " cells)") ++ "\n")
  | setComputed {index : Nat} {value : Float} {cell : Cell}
      (hLine : Command.parse line = .ok (.set index value))
      (hCell : sheet.cells[index]? = some cell) (hComputed : cell.isInput = false) :
      Answered sheet line
        ("Error: " ++ ("Cell " ++ toString index ++
          " is a formula; only input cells can be changed") ++ "\n")
  | setUnsettled {index : Nat} {value : Float} {failure : Unsettled}
      (hLine : Command.parse line = .ok (.set index value))
      (hUpdate : (sheet.setInput index value).result = .error (.unsettled failure)) :
      Answered sheet line
        ("Error: " ++ ("cells did not converge after " ++ toString failure.passes ++ " passes") ++
          "\n")
  | set {index passes : Nat} {value : Float} (hLine : Command.parse line = .ok (.set index value))
      (hUpdate : (sheet.setInput index value).result = .ok passes) :
      Answered sheet line
        ("Cell " ++ toString index ++ " set to " ++ Listing.number value ++ " (" ++
          toString passes ++ " passes)\n" ++
          String.join ((sheet.setInput index value).sheet.diagnostics.map warning))
  | showOutOfRange {index : Nat} (hLine : Command.parse line = .ok (.inspect index))
      (hIndex : sheet.cells.length ≤ index) :
      Answered sheet line
        ("Error: " ++ ("Cell index " ++ toString index ++ " is out of range (" ++
          toString sheet.cells.length ++ " cells)") ++ "\n")
  | showInput {index : Nat} {value : Float} (hLine : Command.parse line = .ok (.inspect index))
      (hCell : sheet.cells[index]? = some (.input value)) :
      Answered sheet line
        ("[" ++ toString index ++ "] " ++ String.ofList (Number.plain value) ++ " (input)\n")
  | showComputed {index : Nat} {formula : String} {dependencies : List Nat} {value : Float}
      (hLine : Command.parse line = .ok (.inspect index))
      (hCell : sheet.cells[index]? = some (.computed formula dependencies value)) :
      Answered sheet line
        ("[" ++ toString index ++ "] " ++ ("=" ++ formula) ++
          (" = " ++ Listing.number value ++ " (refs: " ++
            (if Formula.references formula = [] then "none"
              else ", ".intercalate ((Formula.references formula).map toString)) ++ ")\n"))

variable {sheet : Sheet} {line output : String}

theorem warning_eq_warningLine : warning = warningLine := by
  funext diagnostic
  cases diagnostic <;> rfl

theorem respond_of_error {failure : CommandError} (h : Command.parse line = .error failure)
    (hFailure : failure ≠ .empty) (sheet : Sheet) :
    (respond sheet line).output = errorLine failure.message := by
  -- A blank line is read with an error too, but it is not reported.
  have hBlank : ¬ line.toList.all Text.isBlank = true := by
    intro hBlank
    rw [Command.parse_of_blank hBlank] at h
    exact hFailure (Except.error.inj h).symm
  rw [respond, if_neg hBlank, h]
  rfl

theorem change_of_error {index : Nat} {value : Float} {failure : EditError}
    (h : (sheet.setInput index value).result = .error failure) :
    (change sheet index value).output = errorLine failure.message := by
  rw [change, h]

theorem Answered.output_respond (h : Answered sheet line output) :
    (respond sheet line).output = output := by
  cases h with
  | blank hBlank => rw [respond, if_pos hBlank]; rfl
  | unknown hLine => exact respond_of_error hLine (by simp) sheet
  | usage hLine => exact respond_of_error hLine (by simp) sheet
  | invalidIndex hLine => exact respond_of_error hLine (by simp) sheet
  | invalidNumber hLine => exact respond_of_error hLine (by simp) sheet
  | print hLine =>
    rw [respond_of_ok hLine]
    exact Program.listing_eq_cellLines sheet
  | help hLine =>
    rw [respond_of_ok hLine]
    rfl
  | @setOutOfRange index value hLine hIndex =>
    have hUpdate : (sheet.setInput index value).result = .error (.indexOutOfRange index _) :=
      Sheet.setInput_eq_indexOutOfRange_iff.mpr ⟨hIndex, rfl, rfl⟩
    rw [respond_of_ok hLine, execute, change_of_error hUpdate]
    rfl
  | @setComputed index value cell hLine hCell hComputed =>
    have hUpdate : (sheet.setInput index value).result = .error (.notAnInput index) :=
      Sheet.setInput_eq_notAnInput_iff.mpr ⟨⟨cell, hCell, hComputed⟩, rfl⟩
    rw [respond_of_ok hLine, execute, change_of_error hUpdate]
    rfl
  | setUnsettled hLine hUpdate =>
    rw [respond_of_ok hLine, execute, change_of_error hUpdate]
    rfl
  | set hLine hUpdate =>
    rw [respond_of_ok hLine, execute, change, hUpdate, warning_eq_warningLine]
  | showOutOfRange hLine hIndex =>
    rw [respond_of_ok hLine, execute, inspection, List.getElem?_eq_none hIndex]
    rfl
  | showInput hLine hCell =>
    rw [respond_of_ok hLine, execute, inspection, hCell]
    rfl
  | @showComputed index formula dependencies value hLine hCell =>
    have hReferences : referenceList formula = if Formula.references formula = [] then "none"
        else ", ".intercalate ((Formula.references formula).map toString) := by
      rw [referenceList]
      cases Formula.references formula <;> rfl
    rw [respond_of_ok hLine, execute, inspection, hCell, ← hReferences]
    rfl

/-- Every line that does not ask to quit is of one of these kinds. -/
theorem exists_answered (h : asksToQuit line = false) (sheet : Sheet) :
    ∃ output, Answered sheet line output := by
  cases hLine : Command.parse line with
  | error failure =>
    cases failure with
    | empty =>
      cases Command.parse_eq_iff.mp hLine with
      | empty hBlank => exact ⟨_, .blank (List.all_eq_true.mpr hBlank)⟩
    | unknown name => exact ⟨_, .unknown hLine⟩
    | usage form => exact ⟨_, .usage hLine⟩
    | invalidIndex word => exact ⟨_, .invalidIndex hLine⟩
    | invalidNumber word => exact ⟨_, .invalidNumber hLine⟩
  | ok command =>
    cases command with
    | quit => exact absurd hLine (of_decide_eq_false h)
    | print => exact ⟨_, .print hLine⟩
    | help => exact ⟨_, .help hLine⟩
    | set index value =>
      cases hUpdate : (sheet.setInput index value).result with
      | ok passes => exact ⟨_, .set hLine hUpdate⟩
      | error failure =>
        cases failure with
        | indexOutOfRange position count =>
          obtain ⟨hIndex, _⟩ := Sheet.setInput_eq_indexOutOfRange_iff.mp hUpdate
          exact ⟨_, .setOutOfRange hLine hIndex⟩
        | notAnInput position =>
          obtain ⟨⟨cell, hCell, hComputed⟩, _⟩ := Sheet.setInput_eq_notAnInput_iff.mp hUpdate
          exact ⟨_, .setComputed hLine hCell hComputed⟩
        | unsettled failure => exact ⟨_, .setUnsettled hLine hUpdate⟩
    | inspect index =>
      cases hCell : sheet.cells[index]? with
      | none => exact ⟨_, .showOutOfRange hLine (List.getElem?_eq_none_iff.mp hCell)⟩
      | some cell =>
        cases cell with
        | input value => exact ⟨_, .showInput hLine hCell⟩
        | computed formula dependencies value => exact ⟨_, .showComputed hLine hCell⟩

/-- The answers to some lines, each given from the sheet as the lines before it left it. -/
inductive Replies : Sheet → List String → List String → Prop
  | nil {sheet : Sheet} : Replies sheet [] []
  | cons {sheet : Sheet} {line output : String} {lines outputs : List String}
      (hLine : Answered sheet line output) (hLines : Replies (edited sheet [line]) lines outputs) :
      Replies sheet (line :: lines) (output :: outputs)

theorem exists_replies {lines : List String} (h : ∀ line ∈ lines, asksToQuit line = false)
    (sheet : Sheet) : ∃ outputs, Replies sheet lines outputs := by
  induction lines generalizing sheet with
  | nil => exact ⟨[], .nil⟩
  | cons line lines ih =>
    obtain ⟨hLine, hLines⟩ := List.forall_mem_cons.mp h
    obtain ⟨output, hOutput⟩ := exists_answered hLine sheet
    obtain ⟨outputs, hOutputs⟩ := ih hLines (edited sheet [line])
    exact ⟨output :: outputs, .cons hOutput hOutputs⟩

theorem Replies.answers_eq {lines outputs : List String} (h : Replies sheet lines outputs) :
    answers sheet lines = outputs.map ("> " ++ ·) := by
  induction h with
  | nil => rfl
  | cons hLine _ ih => rw [answers_cons, hLine.output_respond, ih]; rfl

theorem asksToQuit_of_mem_handled {lines : List (List UInt8)} (h : line ∈ handled lines) :
    asksToQuit line = false := by
  simpa using List.mem_takeWhile_imp h

/-- What is left of a session on these lines. -/
structure Handles (sheet : Sheet) (lines : List (List UInt8)) (transcript : Transcript) :
    Prop where
  sheet_eq : transcript.sheet = edited sheet (handled lines)
  ended_eq : transcript.ended = if ending lines = .notText then .error .notText else .ok ()
  replies : ∃ outputs, Replies sheet (handled lines) outputs
  output_eq : ∀ outputs, Replies sheet (handled lines) outputs →
    transcript.output =
      "cellflow: " ++ toString sheet.cells.length ++ " cells loaded. Type 'help' for commands.\n" ++
        Program.cellLines sheet.cells ++ String.join (outputs.map ("> " ++ ·)) ++ "> " ++
        if ending lines = .endOfInput then "\n" else ""

theorem handles_run (sheet : Sheet) (input : List UInt8) :
    Handles sheet (Text.lines input) (run sheet input) := by
  obtain ⟨hSheet, hEnded, hOutput⟩ := follows_run sheet input
  refine ⟨hSheet, hEnded, exists_replies (fun _ => asksToQuit_of_mem_handled) sheet, ?_⟩
  intro outputs hReplies
  rw [hOutput, hReplies.answers_eq, Program.listing_eq_cellLines]
  rfl

/-- A session answers line by line until one asks to quit, cannot be read, or is missing. What
follows a line that asks to quit is not looked at. -/
theorem run_follows_lines (sheet : Sheet) (input : List UInt8) :
    (∃! lines, Text.HasLines input lines) ∧
    (∀ lines, Text.HasLines input lines → Handles sheet lines (run sheet input)) ∧
    ∀ lines rest, Text.HasLines (input ++ [10]) lines → ending lines = .quit →
      run sheet (input ++ 10 :: rest) = run sheet (input ++ [10]) := by
  refine ⟨⟨Text.lines input, Text.hasLines_lines input, ?_⟩, ?_, ?_⟩
  · intro lines hLines
    exact hLines.lines_eq.symm
  · intro lines hLines
    obtain rfl := hLines.lines_eq
    exact handles_run sheet input
  · intro lines rest hLines hQuit
    obtain rfl := hLines.lines_eq
    have hAppend : Text.lines (input ++ 10 :: rest) =
        Text.lines (input ++ [10]) ++ Text.lines rest := Text.lines_append_lineFeed input rest
    rw [run, run, hAppend, converse_append_of_quit hQuit]

/-- An edit, blanks, an edit that is refused, a question, a word that is no command, and the end
that comes before a further edit. -/
theorem run_follows_lines_of_visit :
    let sheet := Sheet.ofCells (Definitions.cells "1, ={0}*2+{9}")
    let typed := "set 0 5\n \nset 1 3\r\nshow 1\nhop\n Q".toUTF8.data.toList
    let session := run sheet (typed ++ 10 :: "set 0 7".toUTF8.data.toList)
    session.output =
        "cellflow: 2 cells loaded. Type 'help' for commands.\n" ++
        "[0] 1\n[1] 0\n" ++
        "> Cell 0 set to 5 (2 passes)\n" ++
        "warning: cell reference \x7b9\x7d is out of range (2 cells), using 0\n" ++
        "> " ++
        "> Error: Cell 1 is a formula; only input cells can be changed\n" ++
        "> [1] ={0}*2+{9} = 10 (refs: 0, 9)\n" ++
        "> Error: Unknown command: hop (type 'help')\n" ++
        "> " ∧
      session.sheet.cells = [.input 5, .computed "{0}*2+{9}" [] 10] := by
  intro sheet typed session
  let second := edited sheet ["set 0 5"]
  let third := edited second [" "]
  let fourth := edited third ["set 1 3"]
  let fifth := edited fourth ["show 1"]
  have hEdit : Answered sheet "set 0 5" _ :=
    .set (by decide +kernel : Command.parse "set 0 5" = .ok (.set 0 5))
      (by decide +kernel : (sheet.setInput 0 5).result = .ok 2)
  have hBlank : Answered second " " _ := .blank (by decide)
  have hRefused : Answered third "set 1 3" _ :=
    .setComputed (by decide +kernel : Command.parse "set 1 3" = .ok (.set 1 3))
      (by decide +kernel : third.cells[1]? = some (.computed "{0}*2+{9}" [] 10)) rfl
  have hQuestion : Answered fourth "show 1" _ :=
    .showComputed (by decide +kernel : Command.parse "show 1" = .ok (.inspect 1))
      (by decide +kernel : fourth.cells[1]? = some (.computed "{0}*2+{9}" [] 10))
  have hUnknown : Answered fifth "hop" _ :=
    .unknown (by decide +kernel : Command.parse "hop" = .error (.unknown "hop"))
  have hReplies := Replies.cons hEdit <| .cons hBlank <| .cons hRefused <| .cons hQuestion <|
    .cons hUnknown .nil
  have hHandled : handled (Text.lines (typed ++ [10])) =
      ["set 0 5", " ", "set 1 3", "show 1", "hop"] := by decide +kernel
  have hQuit : ending (Text.lines (typed ++ [10])) = .quit := by decide +kernel
  obtain ⟨_, _, hRest⟩ := run_follows_lines sheet typed
  obtain ⟨_, hHandles, _⟩ := run_follows_lines sheet (typed ++ [10])
  have hLines : Text.HasLines (typed ++ [10]) (Text.lines (typed ++ [10])) := Text.hasLines_lines _
  have hSession : session = run sheet (typed ++ [10]) := hRest _ _ hLines hQuit
  obtain ⟨hSheet, _, _, hOutput⟩ := hHandles _ hLines
  rw [hHandled] at hSheet hOutput
  rw [hSession, hSheet, hOutput _ hReplies, hQuit]
  exact ⟨by decide +kernel, by decide +kernel⟩

end Session

end ReactiveSheet
