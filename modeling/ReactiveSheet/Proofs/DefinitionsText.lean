import ReactiveSheet.Proofs.Journal
import ReactiveSheet.Proofs.ReadBack

/-! # Definitions written and read

A formula comes from a piece of text without commas and without blanks at its ends, and a number
is written without either. So the definitions of a sheet can be told apart in the text that they
are joined to, and each of them is read as the cell it was written for, with no value computed yet.
-/

namespace ReactiveSheet

set_option autoImplicit false

namespace Text

/-! ## Trimmed text -/

def IsTrimmed (text : List Char) : Prop :=
  trim text = text

theorem dropWhile_rdropWhile_of_dropWhile {p : Char → Bool} {text : List Char}
    (h : text.dropWhile p = text) : (text.rdropWhile p).dropWhile p = text.rdropWhile p := by
  rw [List.dropWhile_eq_self_iff] at h ⊢
  intro hPositive
  have hPrefix := List.rdropWhile_prefix p text
  rw [hPrefix.getElem hPositive]
  exact h (Nat.lt_of_lt_of_le hPositive hPrefix.length_le)

theorem isTrimmed_trim (text : List Char) : IsTrimmed (trim text) := by
  change ((((text.dropWhile isBlank).rdropWhile isBlank).dropWhile isBlank).rdropWhile isBlank) =
    (text.dropWhile isBlank).rdropWhile isBlank
  rw [dropWhile_rdropWhile_of_dropWhile (List.dropWhile_idempotent _ _),
    List.rdropWhile_idempotent]

theorem isTrimmed_of_forall {text : List Char} (h : ∀ c ∈ text, isBlank c = false) :
    IsTrimmed text := by
  have hDrop : ∀ text : List Char, (∀ c ∈ text, isBlank c = false) →
      text.dropWhile isBlank = text := by
    rintro (_ | ⟨c, rest⟩) hText
    · rfl
    · exact List.dropWhile_cons_of_neg (by simp [hText c List.mem_cons_self])
  rw [IsTrimmed, trim, hDrop text h, hDrop text.reverse (by simpa using h), List.reverse_reverse]

theorem mem_of_mem_trim {text : List Char} {c : Char} (h : c ∈ trim text) : c ∈ text := by
  apply (text.dropWhile_suffix isBlank).subset
  have hPrefix := List.rdropWhile_prefix isBlank (text.dropWhile isBlank)
  exact hPrefix.subset h

end Text

theorem not_mem_of_mem_splitOn {α : Type} [BEq α] [LawfulBEq α] {a : α} {text piece : List α}
    (h : piece ∈ text.splitOn a) : a ∉ piece := by
  induction text generalizing piece with
  | nil =>
    obtain rfl : piece = [] := by simpa using h
    exact List.not_mem_nil
  | cons c text ih =>
    obtain ⟨first, others, hSplit⟩ := List.exists_cons_of_ne_nil (List.splitOn_ne_nil a text)
    rw [List.splitOn_cons_eq_if_modifyHead] at h
    split_ifs at h with hc
    · rcases List.mem_cons.mp h with rfl | h
      · exact List.not_mem_nil
      · exact ih h
    · rw [hSplit, List.modifyHead_cons] at h
      rcases List.mem_cons.mp h with rfl | h
      · rw [List.mem_cons, not_or]
        refine ⟨fun hEq => hc (by simp [hEq]), ih ?_⟩
        rw [hSplit]
        exact List.mem_cons_self
      · apply ih
        rw [hSplit]
        exact List.mem_cons_of_mem _ h

namespace Cell

/-- The cell without what was computed. -/
def fresh (cell : Cell) : Cell :=
  if cell.isInput then cell else cell.withValue 0

/-- The formula has the form that a definition gives it. -/
structure Defined (cell : Cell) : Prop where
  comma : ∀ formula, cell.formula? = some formula → ',' ∉ formula.toList
  trimmed : ∀ formula, cell.formula? = some formula → Text.IsTrimmed ('=' :: formula.toList)
  dependencies : ∀ dependencies, cell.dependencies? = some dependencies → dependencies = []

theorem defined_ofDefinition {text : List Char} (h : ',' ∉ text) : (ofDefinition text).Defined := by
  rw [ofDefinition]
  split
  · rename_i formula hTrim
    refine ⟨?_, ?_, ?_⟩
    · rintro _ ⟨⟩ hComma
      rw [String.toList_ofList] at hComma
      exact h (Text.mem_of_mem_trim (hTrim ▸ List.mem_cons_of_mem _ hComma))
    · rintro _ ⟨⟩
      rw [String.toList_ofList, ← hTrim]
      exact Text.isTrimmed_trim text
    · rintro _ ⟨⟩
      rfl
  · constructor <;> rintro _ ⟨⟩

theorem toList_definition_computed (formula : String) (dependencies : List Nat) (value : Float) :
    (computed formula dependencies value).definition.toList = '=' :: formula.toList := by
  rw [definition, String.toList_append]
  rfl

theorem toList_definition_input (value : Float) :
    (input value).definition.toList = Number.plain value :=
  String.toList_ofList

theorem ofDefinition_of_isTrimmed {formula : List Char} (h : Text.IsTrimmed ('=' :: formula)) :
    ofDefinition ('=' :: formula) = computed (String.ofList formula) [] 0 := by
  unfold ofDefinition
  rw [h]
  rfl

theorem ofDefinition_plain (value : Float) : ofDefinition (Number.plain value) = input value := by
  have hTrim : Text.trim (Number.plain value) = Number.plain value :=
    Text.isTrimmed_of_forall fun _ hc =>
      Number.isBlank_of_isWritten (Number.isWritten_of_mem_plain hc)
  rw [ofDefinition, hTrim]
  split
  · rename_i formula hEq
    exact absurd (hEq ▸ List.mem_cons_self) (Number.not_mem_plain (by decide) value)
  · rw [Number.read?_plain, Option.getD_some]

theorem ofDefinition_definition {cell : Cell} (h : cell.Defined) :
    ofDefinition cell.definition.toList = cell.fresh := by
  cases cell with
  | input value =>
    rw [toList_definition_input, ofDefinition_plain]
    rfl
  | computed formula dependencies value =>
    rw [toList_definition_computed, ofDefinition_of_isTrimmed (h.trimmed formula rfl),
      String.ofList_toList, h.dependencies dependencies rfl]
    rfl

theorem not_mem_definition {cell : Cell} (h : cell.Defined) : ',' ∉ cell.definition.toList := by
  cases cell with
  | input value =>
    rw [toList_definition_input]
    exact Number.not_mem_plain (by decide) value
  | computed formula dependencies value =>
    rw [toList_definition_computed, List.mem_cons, not_or]
    exact ⟨by decide, h.comma formula rfl⟩

theorem exists_mem_definition (cell : Cell) :
    ∃ c ∈ cell.definition.toList, Text.isBlank c = false := by
  cases cell with
  | input value =>
    rw [toList_definition_input]
    obtain ⟨c, hc⟩ := List.exists_mem_of_ne_nil _ (Number.plain_ne_nil value)
    exact ⟨c, hc, Number.isBlank_of_isWritten (Number.isWritten_of_mem_plain hc)⟩
  | computed formula dependencies value =>
    rw [toList_definition_computed]
    exact ⟨'=', List.mem_cons_self, by decide⟩

@[simp]
theorem formula?_fresh (cell : Cell) : cell.fresh.formula? = cell.formula? := by
  cases cell <;> rfl

@[simp]
theorem input?_fresh (cell : Cell) : cell.fresh.input? = cell.input? := by
  cases cell <;> rfl

@[simp]
theorem definition_fresh (cell : Cell) : cell.fresh.definition = cell.definition := by
  cases cell <;> rfl

theorem value_fresh {cell : Cell} (h : cell.fresh.isInput = false) : cell.fresh.value = 0 := by
  cases cell with
  | input value => cases h
  | computed => rfl

end Cell

namespace Definitions

variable {cells : List Cell}

theorem toList_write (cells : List Cell) :
    (write cells).toList = [','].intercalate (cells.map fun cell => cell.definition.toList) := by
  rw [write, String.toList_intercalate, List.map_map]
  rfl

theorem mem_toList_write_cons {cell : Cell} {c : Char} (h : c ∈ cell.definition.toList)
    (rest : List Cell) : c ∈ (write (cell :: rest)).toList := by
  rw [toList_write]
  cases rest with
  | nil => simpa using h
  | cons next rest =>
    rw [List.map_cons, List.map_cons, List.intercalate_cons_cons, List.append_assoc]
    exact List.mem_append_left _ h

theorem defined_of_mem_cells {text : String} {cell : Cell} (h : cell ∈ Definitions.cells text) :
    cell.Defined := by
  obtain ⟨piece, hPiece, rfl⟩ := List.mem_map.mp h
  exact Cell.defined_ofDefinition (not_mem_of_mem_splitOn hPiece)

theorem cells_write (hDefined : ∀ cell ∈ cells, cell.Defined) (hNonempty : cells ≠ []) :
    Definitions.cells (write cells) = cells.map Cell.fresh := by
  have hSplit : (write cells).toList.splitOn ',' =
      cells.map fun cell => cell.definition.toList := by
    rw [toList_write]
    apply List.splitOn_intercalate
    · intro piece hPiece
      obtain ⟨cell, hCell, rfl⟩ := List.mem_map.mp hPiece
      exact Cell.not_mem_definition (hDefined cell hCell)
    · simpa using hNonempty
  rw [Definitions.cells, hSplit, List.map_map]
  apply List.map_congr_left
  intro cell hCell
  exact Cell.ofDefinition_definition (hDefined cell hCell)

theorem read?_write (hDefined : ∀ cell ∈ cells, cell.Defined) (hNonempty : cells ≠ []) :
    read? (write cells) = some (cells.map Cell.fresh) := by
  have hBlank : ¬ (write cells).toList.all Text.isBlank = true := by
    obtain ⟨cell, rest, rfl⟩ := List.exists_cons_of_ne_nil hNonempty
    obtain ⟨c, hc, hVisible⟩ := cell.exists_mem_definition
    intro hAll
    rw [List.all_eq_true.mp hAll c (mem_toList_write_cons hc rest)] at hVisible
    cases hVisible
  rw [read?, if_neg hBlank, cells_write hDefined hNonempty]

/-- What a sheet's definitions tell of it when they are read again. -/
structure ReadAgain (cells parsed : List Cell) : Prop where
  length : parsed.length = cells.length
  formulas : SameFormulas cells parsed
  inputs : parsed.map Cell.input? = cells.map Cell.input?
  computed : ∀ cell ∈ parsed, cell.isInput = false → cell.value = 0
  text : write parsed = write cells

theorem readAgain_fresh (cells : List Cell) : ReadAgain cells (cells.map Cell.fresh) where
  length := List.length_map _
  formulas := by
    rw [SameFormulas, List.map_map]
    exact List.map_congr_left fun cell _ => cell.formula?_fresh.symm
  inputs := by
    rw [List.map_map]
    exact List.map_congr_left fun cell _ => cell.input?_fresh
  computed := by
    intro cell hCell hComputed
    obtain ⟨cell, _, rfl⟩ := List.mem_map.mp hCell
    exact Cell.value_fresh hComputed
  text := by
    rw [write, write, List.map_map]
    exact congrArg _ (List.map_congr_left fun cell _ => cell.definition_fresh)

end Definitions

namespace Journal

variable {text : String} {operations : List Operation}

theorem defined_of_mem_run {cell : Cell} (h : cell ∈ (run text operations).sheet.cells) :
    cell.Defined := by
  have hHolds := (kept_run text operations).holds
  have hFormula := List.mem_map_of_mem (f := Cell.formula?) h
  have hDependencies := List.mem_map_of_mem (f := Cell.dependencies?) h
  rw [← hHolds.formulas] at hFormula
  rw [← hHolds.dependencies] at hDependencies
  obtain ⟨first, hFirst, hFormula⟩ := List.mem_map.mp hFormula
  obtain ⟨second, hSecond, hDependencies⟩ := List.mem_map.mp hDependencies
  have hDefined := Definitions.defined_of_mem_cells hFirst
  refine ⟨?_, ?_, ?_⟩
  · exact fun formula hEq => hDefined.comma formula (hFormula.trans hEq)
  · exact fun formula hEq => hDefined.trimmed formula (hFormula.trans hEq)
  · exact fun dependencies hEq => dependencies_eq_nil hSecond (hDependencies.trans hEq)

theorem cells_run_ne_nil (text : String) (operations : List Operation) :
    (run text operations).sheet.cells ≠ [] := by
  have hLength := (kept_run text operations).holds.formulas.length_eq
  rw [← List.length_pos_iff_ne_nil, ← hLength, List.length_pos_iff_ne_nil, Definitions.cells]
  simp [List.splitOn_ne_nil]

/-- Whatever was done with the sheet of a text, the definitions of its cells are a text that can be
read, and nothing but the computed values is lost over it. -/
theorem definitions_are_read_again (text : String) (operations : List Operation) :
    ∃ parsed,
      Definitions.read? (Definitions.write (run text operations).sheet.cells) = some parsed ∧
      Definitions.ReadAgain (run text operations).sheet.cells parsed :=
  ⟨_, Definitions.read?_write (fun _ => defined_of_mem_run) (cells_run_ne_nil text operations),
    Definitions.readAgain_fresh _⟩

example : Definitions.cells (Definitions.write
    (run " 7, = ={0}*2 ,nought" [.setInput 0 (-0.0)]).sheet.cells) =
      [.input (-0.0), .computed " ={0}*2" [] 0, .input (0 / 0)] := by decide +kernel

end Journal

end ReactiveSheet
