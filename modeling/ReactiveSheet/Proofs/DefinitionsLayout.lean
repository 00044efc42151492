import ReactiveSheet.Loading
import ReactiveSheet.Proofs.DefinitionsText
import ReactiveSheet.Proofs.Words

/-! # The layout of a definitions text

Commas divide a definitions text and nothing else does. Blanks around a definition are no part of
it, so a text can be laid out freely at its ends and at its commas; inside a formula they stay.
-/

namespace ReactiveSheet

set_option autoImplicit false

open Text (IsGap)

namespace Text

variable {text core : List Char}

/-- The core is what is left of a text without the blanks at its ends. -/
structure Trims (text core : List Char) : Prop where
  padded : ∃ front back, IsGap front ∧ IsGap back ∧ text = front ++ core ++ back
  first : ∀ c ∈ core.head?, isBlank c = false
  last : ∀ c ∈ core.getLast?, isBlank c = false

theorem trim_gap_append {gap : List Char} (h : IsGap gap) (text : List Char) :
    trim (gap ++ text) = trim text := by
  rw [trim, trim, List.dropWhile_append_of_pos h]

theorem trim_append_gap {gap : List Char} (h : IsGap gap) (text : List Char) :
    trim (text ++ gap) = trim text := by
  have hReverse : IsGap gap.reverse := fun c hc => h c (List.mem_reverse.mp hc)
  rw [trim, trim, List.dropWhile_append]
  split_ifs with hText
  · rw [List.isEmpty_iff.mp hText, List.dropWhile_eq_nil_iff.mpr h]
  · rw [List.reverse_append, List.dropWhile_append_of_pos hReverse]

theorem trim_eq_rdropWhile (text : List Char) :
    trim text = (text.dropWhile isBlank).rdropWhile isBlank :=
  rfl

theorem isBlank_of_head?_trim {c : Char} (h : (trim text).head? = some c) :
    isBlank c = false := by
  obtain ⟨rest, hRest⟩ := List.rdropWhile_prefix isBlank (text.dropWhile isBlank)
  rw [← trim_eq_rdropWhile] at hRest
  have hFirst := List.head?_dropWhile_not isBlank text
  rw [← hRest, List.head?_append, h] at hFirst
  exact hFirst

theorem isBlank_of_getLast?_trim {c : Char} (h : (trim text).getLast? = some c) :
    isBlank c = false := by
  have hNonempty : trim text ≠ [] := by
    intro hNil
    rw [hNil] at h
    cases h
  rw [List.getLast?_eq_some_getLast hNonempty] at h
  obtain rfl := Option.some.inj h
  rw [← Bool.not_eq_true]
  exact List.rdropWhile_last_not isBlank (text.dropWhile isBlank) hNonempty

theorem trims_trim (text : List Char) : Trims text (trim text) where
  padded := by
    refine ⟨text.takeWhile isBlank, (text.dropWhile isBlank).rtakeWhile isBlank,
      fun _ => List.mem_takeWhile_imp, fun _ => List.mem_rtakeWhile_imp, ?_⟩
    rw [trim_eq_rdropWhile, List.append_assoc, List.rdropWhile_append_rtakeWhile,
      List.takeWhile_append_dropWhile]
  first _ := isBlank_of_head?_trim
  last _ := isBlank_of_getLast?_trim

theorem trim_eq_iff : trim text = core ↔ Trims text core := by
  constructor
  · rintro rfl
    exact trims_trim text
  · rintro ⟨⟨front, back, hFront, hBack, rfl⟩, hFirst, hLast⟩
    have hDrop : core.dropWhile isBlank = core := by
      rw [List.dropWhile_eq_self_iff]
      intro hPositive
      simpa using hFirst _ (List.head?_eq_getElem? ▸ List.getElem?_eq_getElem hPositive)
    have hDropLast : core.rdropWhile isBlank = core := by
      rw [List.rdropWhile_eq_self_iff]
      intro hNonempty
      simpa using hLast _ (List.getLast?_eq_some_getLast hNonempty)
    rw [trim_append_gap hBack, trim_gap_append hFront, trim_eq_rdropWhile, hDrop, hDropLast]

end Text

namespace Cell

/-- A piece of a definitions text and the cell it is read as. -/
inductive Defines (piece : List Char) : Cell → Prop
  | formula {formula : List Char} (hTrims : Text.Trims piece ('=' :: formula)) :
      Defines piece (.computed (String.ofList formula) [] 0)
  | literal {literal : List Char} (hTrims : Text.Trims piece literal)
      (hMark : literal.head? ≠ some '=') :
      Defines piece (.input ((Number.read? literal).getD Number.notANumber))

theorem defines_ofDefinition (piece : List Char) : Defines piece (ofDefinition piece) := by
  unfold ofDefinition
  split
  · exact .formula (Text.trim_eq_iff.mp ‹_›)
  · rename_i hMark
    refine .literal (Text.trims_trim piece) fun hHead => ?_
    obtain ⟨formula, hFormula⟩ := List.head?_eq_some_iff.mp hHead
    exact hMark formula hFormula

theorem ofDefinition_congr {first second : List Char} (h : Text.trim first = Text.trim second) :
    ofDefinition first = ofDefinition second := by
  rw [ofDefinition, ofDefinition, h]

end Cell

namespace Definitions

/-! ## Texts as characters -/

section

variable {text gap : List Char}

def divide (text : List Char) : List Cell :=
  (text.splitOn ',').map Cell.ofDefinition

theorem cells_eq_divide (text : String) : cells text = divide text.toList :=
  rfl

theorem divide_append_comma (first rest : List Char) :
    divide (first ++ ',' :: rest) = divide first ++ divide rest := by
  rw [divide, List.splitOn_append_cons_self, List.map_append]
  rfl

theorem divide_of_not_mem (h : ',' ∉ text) : divide text = [Cell.ofDefinition text] := by
  rw [divide, List.splitOn_eq_singleton h]
  rfl

theorem comma_not_mem_of_isGap (h : IsGap gap) : ',' ∉ gap := by
  intro hComma
  exact absurd (h ',' hComma) (by decide)

theorem divide_gap_append (h : IsGap gap) (text : List Char) :
    divide (gap ++ text) = divide text := by
  have hSingle : ∀ piece : List Char, ',' ∉ piece → divide (gap ++ piece) = divide piece := by
    intro piece hPiece
    have hBoth : ',' ∉ gap ++ piece := by
      simpa [hPiece] using comma_not_mem_of_isGap h
    rw [divide_of_not_mem hPiece, divide_of_not_mem hBoth,
      Cell.ofDefinition_congr (Text.trim_gap_append h piece)]
  by_cases hText : ',' ∈ text
  · obtain ⟨first, rest, rfl, hFirst⟩ := List.eq_append_cons_of_mem hText
    rw [← List.append_assoc, divide_append_comma, hSingle first hFirst, divide_append_comma]
  · exact hSingle text hText

theorem divide_append_gap (h : IsGap gap) (text : List Char) :
    divide (text ++ gap) = divide text := by
  have hSingle : ∀ piece : List Char, ',' ∉ piece → divide (piece ++ gap) = divide piece := by
    intro piece hPiece
    have hBoth : ',' ∉ piece ++ gap := by
      simpa [hPiece] using comma_not_mem_of_isGap h
    rw [divide_of_not_mem hPiece, divide_of_not_mem hBoth,
      Cell.ofDefinition_congr (Text.trim_append_gap h piece)]
  by_cases hText : ',' ∈ text
  · obtain ⟨last, front, hReverse, hLast⟩ :=
      List.eq_append_cons_of_mem (List.mem_reverse.mpr hText)
    obtain rfl : text = front.reverse ++ ',' :: last.reverse := by
      simpa using congrArg List.reverse hReverse
    rw [List.append_assoc, List.cons_append, divide_append_comma,
      hSingle last.reverse (by simpa using hLast), divide_append_comma]
  · exact hSingle text hText

end

/-! ## Layout -/

/-- The second text has more blanks than the first, at an end or at a comma. -/
inductive Padded : String → String → Prop
  | front {gap : String} (hGap : IsGap gap.toList) (text : String) : Padded text (gap ++ text)
  | back {gap : String} (hGap : IsGap gap.toList) (text : String) : Padded text (text ++ gap)
  | beforeComma {gap : String} (hGap : IsGap gap.toList) (first rest : String) :
      Padded (first ++ "," ++ rest) (first ++ gap ++ "," ++ rest)
  | afterComma {gap : String} (hGap : IsGap gap.toList) (first rest : String) :
      Padded (first ++ "," ++ rest) (first ++ "," ++ (gap ++ rest))

theorem cells_append_comma (first rest : String) :
    cells (first ++ "," ++ rest) = cells first ++ cells rest := by
  have hText : (first ++ "," ++ rest).toList = first.toList ++ ',' :: rest.toList := by simp
  rw [cells_eq_divide, hText, divide_append_comma, ← cells_eq_divide, ← cells_eq_divide]

theorem cells_gap_append {gap : String} (h : IsGap gap.toList) (text : String) :
    cells (gap ++ text) = cells text := by
  rw [cells_eq_divide, String.toList_append, divide_gap_append h, ← cells_eq_divide]

theorem cells_append_gap {gap : String} (h : IsGap gap.toList) (text : String) :
    cells (text ++ gap) = cells text := by
  rw [cells_eq_divide, String.toList_append, divide_append_gap h, ← cells_eq_divide]

theorem Padded.cells_eq {text other : String} (h : Padded text other) :
    cells text = cells other := by
  cases h with
  | front hGap => exact (cells_gap_append hGap text).symm
  | back hGap => exact (cells_append_gap hGap text).symm
  | beforeComma hGap first rest =>
    rw [cells_append_comma, cells_append_comma, cells_append_gap hGap]
  | afterComma hGap first rest =>
    rw [cells_append_comma, cells_append_comma, cells_gap_append hGap]

theorem isGap_append {first second : List Char} :
    IsGap (first ++ second) ↔ IsGap first ∧ IsGap second :=
  List.forall_mem_append

theorem read?_of_isGap {text : String} (h : IsGap text.toList) : read? text = none :=
  if_pos (List.all_eq_true.mpr h)

theorem read?_of_not_isGap {text : String} (h : ¬ IsGap text.toList) :
    read? text = some (cells text) :=
  if_neg (mt List.all_eq_true.mp h)

theorem read?_eq_none_iff {text : String} : read? text = none ↔ IsGap text.toList := by
  by_cases h : IsGap text.toList
  · simp [read?_of_isGap h, h]
  · simp [read?_of_not_isGap h, h]

theorem Padded.isGap_iff {text other : String} (h : Padded text other) :
    IsGap text.toList ↔ IsGap other.toList := by
  cases h with
  | front hGap => simp [isGap_append, hGap]
  | back hGap => simp [isGap_append, hGap]
  | beforeComma hGap first rest => simp [isGap_append, hGap]
  | afterComma hGap first rest => simp [isGap_append, Text.isGap_cons, hGap]

theorem Padded.read?_eq {text other : String} (h : Padded text other) :
    read? text = read? other := by
  by_cases hGap : IsGap text.toList
  · rw [read?_of_isGap hGap, read?_of_isGap (h.isGap_iff.mp hGap)]
  · rw [read?_of_not_isGap hGap, read?_of_not_isGap (mt h.isGap_iff.mpr hGap), h.cells_eq]

/-- Two texts differ only in blanks at their ends and at their commas. -/
def SameLayout (text other : String) : Prop :=
  Relation.EqvGen Padded text other

theorem eq_of_sameLayout {α : Type} {f : String → α}
    (hf : ∀ text other, Padded text other → f text = f other) {text other : String}
    (h : SameLayout text other) : f text = f other := by
  induction h with
  | rel text other hPadded => exact hf text other hPadded
  | refl => rfl
  | symm text other _ ih => exact ih.symm
  | trans text middle other _ _ ihFirst ihSecond => exact ihFirst.trans ihSecond

/-! ## Pieces -/

/-- What is read from a text, cell by cell. -/
structure Pieces (text : String) (pieces : List String) (cells : List Cell) : Prop where
  join : ",".intercalate pieces = text
  comma : ∀ piece ∈ pieces, ',' ∉ piece.toList
  length : pieces.length = text.toList.count ',' + 1
  cells : List.Forall₂ (fun piece cell => Cell.Defines piece.toList cell) pieces cells

theorem length_splitOn {α : Type} [BEq α] [LawfulBEq α] (a : α) (text : List α) :
    (text.splitOn a).length = text.count a + 1 := by
  induction text with
  | nil => simp
  | cons c text ih =>
    rw [List.splitOn_cons_eq_if_modifyHead, List.count_cons]
    split_ifs with hc
    · rw [List.length_cons, ih]
    · rw [List.length_modifyHead, ih, Nat.add_zero]

theorem exists_pieces (text : String) : ∃ pieces, Pieces text pieces (cells text) := by
  refine ⟨(text.toList.splitOn ',').map String.ofList, ?_, ?_, ?_, ?_⟩
  · rw [← String.toList_inj, String.toList_intercalate, List.map_map]
    have hPieces : String.toList ∘ String.ofList = id := funext fun _ => String.toList_ofList
    rw [hPieces, List.map_id]
    exact List.intercalate_splitOn ','
  · intro piece hPiece
    obtain ⟨piece, hMem, rfl⟩ := List.mem_map.mp hPiece
    rw [String.toList_ofList]
    exact not_mem_of_mem_splitOn hMem
  · rw [List.length_map, length_splitOn]
  · rw [cells, List.forall₂_map_left_iff, List.forall₂_map_right_iff]
    exact List.forall₂_same.mpr fun piece _ => by
      rw [String.toList_ofList]
      exact Cell.defines_ofDefinition piece

theorem ofText_eq_empty_iff (config : Config) (text : String) :
    (Loading.ofText config text).result = .error .empty ↔ IsGap text.toList := by
  rw [← read?_eq_none_iff, Loading.ofText, Sheet.ofDefinitions?]
  cases hRead : read? text with
  | none => simp
  | some cells =>
    dsimp only [Option.map_some]
    split <;> simp

/-- Commas divide a text and blanks around them are no matter. A text of blanks is refused; any
other has one cell more than it has commas, each of them read from its own piece. -/
theorem commas_alone_divide :
    (∀ first rest : String, cells (first ++ "," ++ rest) = cells first ++ cells rest) ∧
    (∀ text : String, ',' ∉ text.toList → ∃ cell, cells text = [cell]) ∧
    (∀ text other : String, SameLayout text other →
      cells text = cells other ∧ read? text = read? other) ∧
    (∀ text : String, read? text = none ↔ IsGap text.toList) ∧
    (∀ (config : Config) (text : String),
      (Loading.ofText config text).result = .error .empty ↔ IsGap text.toList) ∧
    ∀ text : String, ¬ IsGap text.toList →
      ∃ pieces cells, read? text = some cells ∧ Pieces text pieces cells := by
  refine ⟨cells_append_comma, ?_, ?_, ?_, ofText_eq_empty_iff, ?_⟩
  · intro text hText
    exact ⟨_, divide_of_not_mem hText⟩
  · intro text other h
    exact ⟨eq_of_sameLayout (fun _ _ => Padded.cells_eq) h,
      eq_of_sameLayout (fun _ _ => Padded.read?_eq) h⟩
  · intro text
    exact read?_eq_none_iff
  · intro text hText
    obtain ⟨pieces, hPieces⟩ := exists_pieces text
    exact ⟨pieces, cells text, read?_of_not_isGap hText, hPieces⟩

/-- A line break behind a comma and a wide blank at the end, but the blanks of a formula stay. -/
theorem commas_alone_divide_of_lines :
    let text := "1,\n= {0} *2\u3000"
    cells (text ++ "," ++ "") = [.input 1, .computed " {0} *2" [] 0, .input (0 / 0)] ∧
      (∃ cell, cells "= {0} *2" = [cell]) ∧
      SameLayout "1,= {0} *2" text ∧ read? text = read? "1,= {0} *2" ∧
      read? "\u3000\n" = none ∧
      (Loading.ofText (.ofSource (.inline "")) "\u3000\n").result = .error .empty ∧
      ∃ pieces cells, read? text = some cells ∧ Pieces text pieces cells := by
  intro text
  obtain ⟨hAppend, hSingle, hLayout, hNone, hEmpty, hPieces⟩ := commas_alone_divide
  have hBlank : IsGap "\u3000\n".toList := List.all_eq_true.mp (by decide)
  have hVisible : ¬ IsGap text.toList := fun h => absurd (h '1' (by decide)) (by decide)
  have hSame : SameLayout "1,= {0} *2" text :=
    .trans _ "1,\n= {0} *2" _
      (.rel _ _ (.afterComma (List.all_eq_true.mp (by decide) : IsGap "\n".toList) "1" "= {0} *2"))
      (.rel _ _ (.back (List.all_eq_true.mp (by decide) : IsGap "\u3000".toList) "1,\n= {0} *2"))
  refine ⟨?_, hSingle _ (by decide), hSame, (hLayout _ _ hSame).2.symm, (hNone _).mpr hBlank,
    (hEmpty _ _).mpr hBlank, hPieces text hVisible⟩
  rw [hAppend]
  decide +kernel

end Definitions

end ReactiveSheet
