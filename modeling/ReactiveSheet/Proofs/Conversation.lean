import ReactiveSheet.Proofs.TypedCommands
import ReactiveSheet.Shell.Session

/-! # What a session comes to

A session handles its lines up to the first that is not text or asks to quit. The sheet it leaves
is the one that the edits among these lines lead to, and what it shows is the opening and then the
prompts, each with the answer of its own line.
-/

namespace ReactiveSheet

set_option autoImplicit false

namespace Command

theorem parse_of_blank {line : String} (h : line.toList.all Text.isBlank = true) :
    parse line = .error .empty :=
  parse_of_isGap (List.all_eq_true.mp h)

end Command

namespace Session

inductive Ending where
  | quit
  | notText
  | endOfInput
  deriving DecidableEq

def asksToQuit (line : String) : Bool :=
  Command.parse line = .ok .quit

/-- The lines before the first that is not text. -/
def readable (lines : List (List UInt8)) : List String :=
  ((lines.map Text.decode?).takeWhile Option.isSome).reduceOption

/-- The readable lines before the first that asks to quit. -/
def handled (lines : List (List UInt8)) : List String :=
  (readable lines).takeWhile (!asksToQuit ·)

def ending (lines : List (List UInt8)) : Ending :=
  if (readable lines).any asksToQuit then .quit
  else if lines.all (Text.decode? · |>.isSome) then .endOfInput
  else .notText

/-- The edit that a line asks for, whatever will come of it. -/
def edit? (line : String) : Option (Nat × Float) :=
  match Command.parse line with
  | .ok (.set index value) => some (index, value)
  | _ => none

/-- The sheet after the edits that are among the lines. -/
def edited (sheet : Sheet) (lines : List String) : Sheet :=
  (lines.filterMap edit?).foldl (fun sheet edit => (sheet.setInput edit.1 edit.2).sheet) sheet

/-- Every line is answered behind a prompt, with the sheet as the lines before it left it. -/
def answers (sheet : Sheet) (lines : List String) : List String :=
  lines.mapIdx fun count line =>
    prompt ++ (respond (edited sheet (lines.take count)) line).output

theorem edited_cons (sheet : Sheet) (line : String) (lines : List String) :
    edited sheet (line :: lines) = edited (edited sheet [line]) lines := by
  rw [edited, edited, edited, ← List.foldl_append, ← List.filterMap_append]
  rfl

theorem answers_cons (sheet : Sheet) (line : String) (lines : List String) :
    answers sheet (line :: lines) =
      (prompt ++ (respond sheet line).output) :: answers (edited sheet [line]) lines := by
  rw [answers, List.mapIdx_cons]
  congr 1
  apply List.mapIdx_eq_mapIdx_iff.mpr
  intro count _
  rw [List.take_succ_cons, edited_cons]

/-! ## One line -/

theorem respond_of_ok {line : String} {command : Command} (h : Command.parse line = .ok command)
    (sheet : Sheet) : respond sheet line = execute sheet command := by
  have hBlank : ¬ line.toList.all Text.isBlank = true := by
    intro hBlank
    rw [Command.parse_of_blank hBlank] at h
    cases h
  rw [respond, if_neg hBlank, h]

theorem respond_of_quit {line : String} (h : asksToQuit line = true) (sheet : Sheet) :
    respond sheet line = ⟨sheet, "", [], some (.ok ())⟩ :=
  respond_of_ok (of_decide_eq_true h) sheet

theorem respond_of_not_quit {line : String} (h : asksToQuit line = false) (sheet : Sheet) :
    (respond sheet line).ended = none ∧ (respond sheet line).sheet = edited sheet [line] := by
  have hParse : Command.parse line ≠ .ok .quit := of_decide_eq_false h
  rw [respond, edited, List.filterMap_cons, edit?]
  split
  · rename_i hBlank
    rw [Command.parse_of_blank hBlank]
    exact ⟨rfl, rfl⟩
  · split
    · rename_i command hCommand
      rw [hCommand] at hParse ⊢
      cases command with
      | quit => exact absurd rfl hParse
      | print => exact ⟨rfl, rfl⟩
      | set index value => exact ⟨rfl, rfl⟩
      | inspect index => exact ⟨rfl, rfl⟩
      | help => exact ⟨rfl, rfl⟩
    · rename_i hError
      rw [hError]
      exact ⟨rfl, rfl⟩

/-! ## All lines -/

section

variable {bytes : List UInt8} {line : String}

theorem readable_of_none (h : Text.decode? bytes = none) (rest : List (List UInt8)) :
    readable (bytes :: rest) = [] := by
  simp [readable, h]

theorem readable_of_some (h : Text.decode? bytes = some line) (rest : List (List UInt8)) :
    readable (bytes :: rest) = line :: readable rest := by
  simp [readable, h]

theorem handled_of_none (h : Text.decode? bytes = none) (rest : List (List UInt8)) :
    handled (bytes :: rest) = [] ∧ ending (bytes :: rest) = .notText := by
  simp [handled, ending, readable_of_none h, h]

theorem handled_of_quit (h : Text.decode? bytes = some line) (hQuit : asksToQuit line = true)
    (rest : List (List UInt8)) : handled (bytes :: rest) = [] ∧ ending (bytes :: rest) = .quit := by
  simp [handled, ending, readable_of_some h, hQuit]

theorem handled_of_not_quit (h : Text.decode? bytes = some line) (hQuit : asksToQuit line = false)
    (rest : List (List UInt8)) :
    handled (bytes :: rest) = line :: handled rest ∧ ending (bytes :: rest) = ending rest := by
  simp [handled, ending, readable_of_some h, hQuit, h]

theorem converse_of_none (h : Text.decode? bytes = none) (sheet : Sheet)
    (rest : List (List UInt8)) :
    converse sheet (bytes :: rest) = ⟨sheet, prompt, [], .error .notText⟩ := by
  rw [converse, answer, h]
  rfl

theorem converse_of_quit (h : Text.decode? bytes = some line) (hQuit : asksToQuit line = true)
    (sheet : Sheet) (rest : List (List UInt8)) :
    converse sheet (bytes :: rest) = ⟨sheet, prompt, [], .ok ()⟩ := by
  have hTurn : answer sheet (some bytes) = ⟨sheet, "", [], some (.ok ())⟩ := by
    rw [answer, h]
    exact respond_of_quit hQuit sheet
  rw [converse, hTurn]
  rfl

theorem converse_of_not_quit (h : Text.decode? bytes = some line)
    (hQuit : asksToQuit line = false) (sheet : Sheet) (rest : List (List UInt8)) :
    converse sheet (bytes :: rest) =
      { converse (edited sheet [line]) rest with
        output := prompt ++ (respond sheet line).output ++
          (converse (edited sheet [line]) rest).output
        events := (respond sheet line).events ++
          (converse (edited sheet [line]) rest).events } := by
  have hTurn : answer sheet (some bytes) = respond sheet line := by rw [answer, h]
  obtain ⟨hEnded, hSheet⟩ := respond_of_not_quit hQuit sheet
  rw [converse, hTurn, ← hSheet]
  dsimp only
  rw [hEnded]

end

structure Follows (sheet : Sheet) (lines : List (List UInt8)) (shown : String)
    (transcript : Transcript) : Prop where
  sheet_eq : transcript.sheet = edited sheet (handled lines)
  ended_eq : transcript.ended = if ending lines = .notText then .error .notText else .ok ()
  output_eq : transcript.output = shown ++ String.join (answers sheet (handled lines)) ++ prompt ++
    if ending lines = .endOfInput then "\n" else ""

theorem follows_converse (sheet : Sheet) (lines : List (List UInt8)) :
    Follows sheet lines "" (converse sheet lines) := by
  induction lines generalizing sheet with
  | nil => exact ⟨rfl, rfl, rfl⟩
  | cons bytes rest ih =>
    cases hText : Text.decode? bytes with
    | none =>
      obtain ⟨hHandled, hEnding⟩ := handled_of_none hText rest
      rw [converse_of_none hText]
      constructor <;> simp [hHandled, hEnding, edited, answers]
    | some line =>
      cases hQuit : asksToQuit line with
      | true =>
        obtain ⟨hHandled, hEnding⟩ := handled_of_quit hText hQuit rest
        rw [converse_of_quit hText hQuit]
        constructor <;> simp [hHandled, hEnding, edited, answers]
      | false =>
        obtain ⟨hHandled, hEnding⟩ := handled_of_not_quit hText hQuit rest
        have hRest := ih (edited sheet [line])
        rw [converse_of_not_quit hText hQuit]
        constructor
        · rw [hHandled]
          exact hRest.sheet_eq.trans (edited_cons ..).symm
        · rw [hEnding]
          exact hRest.ended_eq
        · dsimp only
          rw [hRest.output_eq, hHandled, hEnding, answers_cons]
          simp [String.append_assoc]

theorem follows_run (sheet : Sheet) (input : List UInt8) :
    Follows sheet (Text.lines input) (banner sheet ++ sheet.listing) (run sheet input) := by
  have hConverse := follows_converse sheet (Text.lines input)
  refine ⟨hConverse.sheet_eq, hConverse.ended_eq, ?_⟩
  rw [run, opening]
  dsimp only
  rw [hConverse.output_eq]
  simp [String.append_assoc]

theorem converse_append_of_quit {lines : List (List UInt8)} (h : ending lines = .quit)
    (sheet : Sheet) (rest : List (List UInt8)) :
    converse sheet (lines ++ rest) = converse sheet lines := by
  induction lines generalizing sheet with
  | nil => cases h
  | cons bytes lines ih =>
    rw [List.cons_append]
    cases hText : Text.decode? bytes with
    | none => rw [converse_of_none hText, converse_of_none hText]
    | some line =>
      cases hQuit : asksToQuit line with
      | true => rw [converse_of_quit hText hQuit, converse_of_quit hText hQuit]
      | false =>
        rw [(handled_of_not_quit hText hQuit lines).2] at h
        rw [converse_of_not_quit hText hQuit, converse_of_not_quit hText hQuit, ih h]

end Session

end ReactiveSheet
