import ReactiveSheet.Listing
import ReactiveSheet.Proofs.AcyclicRest
import ReactiveSheet.Proofs.Journal

/-! # Histories

Where there are no cycles, the listing of a sheet tells what its inputs are and not which edits led
to them. There is one exception: a computed cell keeps the zero it has, so the sign of a zero may
be left from an earlier edit.
-/

namespace ReactiveSheet

set_option autoImplicit false

theorem Sheet.eq_ofCells_of_ofDefinitions? {text : String} {sheet : Sheet}
    (h : Sheet.ofDefinitions? text = some sheet) :
    sheet = Sheet.ofCells (Definitions.cells text) := by
  rw [Sheet.ofDefinitions?, Definitions.read?] at h
  split at h
  · cases h
  · exact (Option.some.inj h).symm

theorem Loading.exists_of_ofText_ok {config : Config} {text : String} {sheet : Sheet}
    (h : (ofText config text).result = .ok sheet) :
    ∃ passes, ((Sheet.ofCells (Definitions.cells text)).withMaxPasses
        config.maxPasses).recalculate.result = .ok passes ∧
      ((Sheet.ofCells (Definitions.cells text)).withMaxPasses
        config.maxPasses).recalculate.sheet = sheet := by
  rw [ofText] at h
  split at h
  · cases h
  next start hStart =>
    rw [Sheet.eq_ofCells_of_ofDefinitions? hStart] at h
    dsimp only at h
    split at h
    · cases h
    next passes hResult => exact ⟨passes, hResult, Except.ok.inj h⟩

/-- The sheets that a text can be loaded as and edited into, with every edit accepted and brought
to rest. -/
inductive Edited (text : String) : Sheet → Prop where
  | loaded (read : FileReader) (config : Config) {sheet : Sheet}
      (hText : config.source.text read = .ok text)
      (hLoaded : (Loading.run read config).result = .ok sheet) : Edited text sheet
  | edited {sheet : Sheet} {index passes : Nat} {value : Float} (hSheet : Edited text sheet)
      (hEdit : (sheet.setInput index value).result = .ok passes) :
      Edited text (sheet.setInput index value).sheet

namespace Edited

variable {text : String} {sheet : Sheet}

theorem of_inline {text : String} {sheet : Sheet}
    (h : (Loading.ofText (Config.ofSource (.inline text)) text).result = .ok sheet) :
    Edited text sheet :=
  .loaded (fun _ => .error .notText) (Config.ofSource (.inline text)) rfl h

theorem of_setInput {next : Sheet} (hSheet : Edited text sheet) (index : Nat) (value : Float)
    (passes : Nat) (hEdit : (sheet.setInput index value).result = .ok passes)
    (hNext : (sheet.setInput index value).sheet = next) : Edited text next :=
  hNext ▸ hSheet.edited hEdit

theorem exists_journal (h : Edited text sheet) : ∃ operations,
    (Journal.run text operations).sheet = sheet ∧
      succeeded? (Journal.run text operations).calls = some true := by
  induction h with
  | @loaded read config sheet hText hLoaded =>
    rw [Loading.run, hText] at hLoaded
    obtain ⟨passes, hResult, hSheet⟩ := Loading.exists_of_ofText_ok hLoaded
    refine ⟨[.withMaxPasses config.maxPasses, .recalculate], hSheet, ?_⟩
    refine Journal.succeeded?_perform .recalculate passes ?_
    rw [Operation.perform]
    exact congrArg some (Sheet.mapError_eq_ok_iff.mpr hResult)
  | @edited sheet index passes value hSheet hEdit ih =>
    obtain ⟨operations, rfl, _⟩ := ih
    refine ⟨operations ++ [.setInput index value], ?_, ?_⟩
    · rw [Journal.run_concat]
      rfl
    · rw [Journal.run_concat]
      exact Journal.succeeded?_perform (.setInput index value) passes (congrArg some hEdit)

theorem sameFormulas (h : Edited text sheet) :
    SameFormulas (Definitions.cells text) sheet.cells := by
  obtain ⟨operations, rfl, _⟩ := h.exists_journal
  exact (Journal.kept_run text operations).holds.formulas

theorem atRest (h : Edited text sheet) : AtRest sheet.cells := by
  obtain ⟨operations, rfl, hSucceeded⟩ := h.exists_journal
  exact ((Journal.kept_run text operations).settled hSucceeded).atRest

end Edited

theorem input?_eq_of_map_eq {first second : List Cell}
    (h : first.map Cell.input? = second.map Cell.input?) {index : Nat} {a b : Cell}
    (hFirst : first[index]? = some a) (hSecond : second[index]? = some b) :
    a.input? = b.input? := by
  have hAt : first[index]?.map Cell.input? = second[index]?.map Cell.input? := by
    rw [← List.getElem?_map, ← List.getElem?_map, h]
  rw [hFirst, hSecond] at hAt
  exact Option.some.inj hAt

theorem sameInputs_of_map_eq {first second : List Cell}
    (h : first.map Cell.input? = second.map Cell.input?) : SameInputs first second := by
  intro pair hPair x hx y hy
  obtain ⟨index, hIndex⟩ := List.mem_iff_getElem?.mp hPair
  obtain ⟨hFirst, hSecond⟩ := List.getElem?_zip_eq_some.mp hIndex
  have hInput := input?_eq_of_map_eq h hFirst hSecond
  obtain rfl := Option.some.inj (hx.symm.trans (hInput.trans hy))
  exact sameValue_refl x

namespace Listing

theorem getElem?_lines (cells : List Cell) (index : Nat) :
    (lines cells)[index]? = cells[index]?.map fun cell => line ⟨index, cell.value⟩ := by
  rw [lines, Entry.ofCells, List.getElem?_map, List.getElem?_map, List.getElem?_zipIdx]
  cases cells[index]? with
  | none => rfl
  | some cell => simp

theorem length_lines (cells : List Cell) : (lines cells).length = cells.length := by
  simp [lines, Entry.ofCells]

def zeroLines (index : Nat) : List String :=
  ["0", "-0"].map ("[" ++ toString index ++ "] " ++ ·)

theorem number_of_isZero {x : Float} (h : IsZero x) : number x ∈ ["0", "-0"] := by
  rcases h with rfl | rfl <;> decide

theorem line_mem_zeroLines {x : Float} (h : IsZero x) (index : Nat) :
    line ⟨index, x⟩ ∈ zeroLines index :=
  List.mem_map_of_mem (number_of_isZero h)

/-- The cell is computed, has a zero and is listed with it. -/
def ListsZero (cells : List Cell) (index : Nat) : Prop :=
  (∃ cell, cells[index]? = some cell ∧ cell.isInput = false ∧ IsZero cell.value) ∧
    ∃ shown ∈ zeroLines index, (lines cells)[index]? = some shown

theorem listsZero_of_computed {cells : List Cell} {index : Nat} {formula : String}
    {dependencies : List Nat} {x : Float}
    (h : cells[index]? = some (.computed formula dependencies x)) (hZero : IsZero x) :
    ListsZero cells index := by
  refine ⟨⟨_, h, rfl, hZero⟩, _, line_mem_zeroLines hZero index, ?_⟩
  rw [getElem?_lines, h]
  rfl

/-- The line is the same in both listings, or it shows a zero of a computed cell in both. -/
def SameLine (first second : List Cell) (index : Nat) : Prop :=
  (lines first)[index]? = (lines second)[index]? ∨ ListsZero first index ∧ ListsZero second index

theorem sameLine_of_agreeAt {first second : List Cell} (hFormulas : SameFormulas first second)
    (hInputs : first.map Cell.input? = second.map Cell.input?) {index : Nat}
    (hAgree : AgreeAt first second index) : SameLine first second index := by
  rw [SameLine, getElem?_lines, getElem?_lines]
  rcases hFormulas.getElem?_cases index with ⟨ha, hb⟩ | ⟨x, y, ha, hb⟩ |
    ⟨formula, dependencies, others, x, y, ha, hb⟩
  · rw [ha, hb]
    exact .inl rfl
  · obtain rfl : x = y := Option.some.inj (input?_eq_of_map_eq hInputs ha hb)
    rw [ha, hb]
    exact .inl rfl
  · rw [AgreeAt, ha, hb] at hAgree
    cases hAgree with
    | some hSame =>
      rcases sameValue_iff.mp hSame with hEq | ⟨hx, hy⟩
      · obtain rfl : x = y := hEq
        rw [ha, hb]
        exact .inl rfl
      · exact .inr ⟨listsZero_of_computed ha hx, listsZero_of_computed hb hy⟩

end Listing

/-- What is listed depends on the inputs alone, but for the signs of computed zeros. -/
theorem listing_tells_inputs {firstText secondText : String} {first second : Sheet}
    (hFormulas : SameFormulas (Definitions.cells firstText) (Definitions.cells secondText))
    (hAcyclic : Acyclic (Definitions.cells firstText)) (hFirst : Edited firstText first)
    (hSecond : Edited secondText second)
    (hInputs : first.cells.map Cell.input? = second.cells.map Cell.input?) :
    (Listing.lines first.cells).length = (Listing.lines second.cells).length ∧
    (∀ index, Listing.SameLine first.cells second.cells index) ∧
    ((∀ cell ∈ first.cells, cell.isInput = false → ¬ IsZero cell.value) →
      Listing.lines first.cells = Listing.lines second.cells) := by
  have hSame : SameFormulas first.cells second.cells :=
    (hFirst.sameFormulas.symm.trans hFormulas).trans hSecond.sameFormulas
  have hAcyclicFirst : Acyclic first.cells := hFirst.sameFormulas.acyclic hAcyclic
  have hAgree := agreeAt_of_atRest hSame hAcyclicFirst hFirst.atRest hSecond.atRest
    (sameInputs_of_map_eq hInputs)
  have hLines : ∀ index, Listing.SameLine first.cells second.cells index := fun index =>
    Listing.sameLine_of_agreeAt hSame hInputs (hAgree index)
  refine ⟨?_, hLines, fun hNoZero => List.ext_getElem? fun index => ?_⟩
  · rw [Listing.length_lines, Listing.length_lines, hSame.length_eq]
  · rcases hLines index with hEq | ⟨⟨⟨cell, hCell, hComputed, hZero⟩, _⟩, _⟩
    · exact hEq
    · exact absurd hZero (hNoZero cell (List.mem_of_getElem? hCell) hComputed)

/-- One sheet is as it was loaded, the other has been given its input instead of what is not a
number. -/
theorem listing_tells_inputs_of_signs :
    let first : Sheet :=
      ⟨[.input 0, .computed "1-2*{0}" [] 0, .computed "4/{1}" [] (1 / 0)], 1000, []⟩
    let second : Sheet :=
      ⟨[.input 0, .computed "1-2*{0}" [] (-0), .computed "4/{1}" [] (1 / 0)], 1000, []⟩
    Listing.lines first.cells = ["[0] 0", "[1] 0", "[2] #INF!"] ∧
      Listing.lines second.cells = ["[0] 0", "[1] -0", "[2] #INF!"] ∧
      ∀ index, Listing.SameLine first.cells second.cells index := by
  intro first second
  have hFirst : Edited "0, =1-2*{0}, =4/{1}" first := .of_inline (by decide +kernel)
  have hStart : Edited "x, =1-2*{0}, =4/{1}"
      ⟨[.input (0 / 0), .computed "1-2*{0}" [] (0 / 0), .computed "4/{1}" [] (0 / 0)], 1000, []⟩ :=
    .of_inline (by decide +kernel)
  have hSecond : Edited "x, =1-2*{0}, =4/{1}" second :=
    hStart.of_setInput 0 0 2 (by decide +kernel) (by decide +kernel)
  have hAcyclic : Acyclic (Definitions.cells "0, =1-2*{0}, =4/{1}") :=
    acyclic_of_rank id (by decide +kernel)
  exact ⟨by decide +kernel, by decide +kernel,
    (listing_tells_inputs (by decide +kernel) hAcyclic hFirst hSecond rfl).2.1⟩

/-- An edit and its reverse leave the same inputs and the other zero. -/
theorem listing_tells_edits :
    ¬ ∀ (firstText secondText : String) (first second : Sheet),
      SameFormulas (Definitions.cells firstText) (Definitions.cells secondText) →
      Acyclic (Definitions.cells firstText) → Edited firstText first → Edited secondText second →
      first.cells.map Cell.input? = second.cells.map Cell.input? →
      Listing.lines first.cells = Listing.lines second.cells := by
  intro h
  have hFirst : Edited "0, =1-2*{0}" ⟨[.input 0, .computed "1-2*{0}" [] 0], 1000, []⟩ :=
    .of_inline (by decide +kernel)
  have hChanged : Edited "0, =1-2*{0}" ⟨[.input 1, .computed "1-2*{0}" [] (-1)], 1000, []⟩ :=
    hFirst.of_setInput 0 1 2 (by decide +kernel) (by decide +kernel)
  have hSecond : Edited "0, =1-2*{0}" ⟨[.input 0, .computed "1-2*{0}" [] (-0)], 1000, []⟩ :=
    hChanged.of_setInput 0 0 2 (by decide +kernel) (by decide +kernel)
  have hAcyclic : Acyclic (Definitions.cells "0, =1-2*{0}") :=
    acyclic_of_rank id (by decide +kernel)
  have hLines := h _ _ _ _ rfl hAcyclic hFirst hSecond rfl
  exact absurd hLines (by decide +kernel)

end ReactiveSheet
