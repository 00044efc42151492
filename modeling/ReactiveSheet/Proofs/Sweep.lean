import ReactiveSheet.Proofs.Evaluation

/-! # One sweep

A sweep works in place, so the formula of a cell sees the new values of the cells before it and
the old values from its own position on. Each cell is given its new value once, when its position
is reached, and the number of changes counts the positions at which the outcome differs.
-/

namespace ReactiveSheet

set_option autoImplicit false

namespace Cell

/-- The cell after a visit at which its formula saw `seen`. -/
def refresh (seen : List Cell) : Cell → Cell
  | input value => input value
  | computed formula dependencies value =>
    if sameValue value (Formula.value formula seen) then computed formula dependencies value
    else computed formula dependencies (Formula.value formula seen)

/-- The formula of the cell has the value of the cell. -/
def Current (cell : Cell) (seen : List Cell) : Prop :=
  ∀ formula ∈ cell.formula?, sameValue cell.value (Formula.evaluate formula seen).value = true

theorem current_computed {formula : String} {dependencies : List Nat} {value : Float}
    {seen : List Cell} : (computed formula dependencies value).Current seen ↔
      sameValue value (Formula.value formula seen) = true := by
  simp [Current, formula?, Cell.value, Formula.evaluate_eq]

theorem refresh_eq_withValue (seen : List Cell) (cell : Cell) :
    refresh seen cell = cell.withValue (refresh seen cell).value := by
  cases cell with
  | input value => rfl
  | computed formula dependencies value =>
    rw [refresh]
    split <;> rfl

@[simp]
theorem formula?_refresh (seen : List Cell) (cell : Cell) :
    (refresh seen cell).formula? = cell.formula? := by
  rw [refresh_eq_withValue, formula?_withValue]

@[simp]
theorem dependencies?_refresh (seen : List Cell) (cell : Cell) :
    (refresh seen cell).dependencies? = cell.dependencies? := by
  rw [refresh_eq_withValue, dependencies?_withValue]

def input? : Cell → Option Float
  | input value => some value
  | computed .. => none

@[simp]
theorem input?_refresh (seen : List Cell) (cell : Cell) :
    (refresh seen cell).input? = cell.input? := by
  cases cell with
  | input value => rfl
  | computed formula dependencies value =>
    rw [refresh]
    split <;> rfl

theorem current_refresh (seen : List Cell) (cell : Cell) : (refresh seen cell).Current seen := by
  cases cell with
  | input value => simp [Current, refresh, formula?]
  | computed formula dependencies value =>
    rw [refresh]
    split
    · exact current_computed.mpr ‹_›
    · exact current_computed.mpr (sameValue_refl _)

theorem refresh_of_no_formula {cell : Cell} (h : cell.formula? = none) (seen : List Cell) :
    cell.refresh seen = cell := by
  cases cell with
  | input value => rfl
  | computed => cases h

theorem sameValue_refresh {cell : Cell} {formula : String} (h : cell.formula? = some formula)
    (seen : List Cell) :
    sameValue (cell.refresh seen).value (Formula.value formula seen) = true := by
  have hCurrent := current_refresh seen cell formula (by simp [h])
  rwa [Formula.evaluate_eq] at hCurrent

theorem refresh_congr {cell : Cell} {seen others : List Cell}
    (h : ∀ formula ∈ cell.formula?, Formula.value formula seen = Formula.value formula others) :
    cell.refresh seen = cell.refresh others := by
  cases cell with
  | input value => rfl
  | computed formula dependencies value => rw [refresh, refresh, h formula rfl]

theorem refresh_eq_self_iff {seen : List Cell} {cell : Cell} :
    refresh seen cell = cell ↔ cell.Current seen := by
  refine ⟨fun h => h ▸ current_refresh seen cell, fun h => ?_⟩
  cases cell with
  | input value => rfl
  | computed formula dependencies value => rw [refresh, if_pos (current_computed.mp h)]

/-- A visit leaves the cell alone exactly if it finds the same value. -/
theorem sameValue_refresh_iff {seen : List Cell} {cell : Cell} :
    sameValue cell.value (refresh seen cell).value = true ↔ refresh seen cell = cell := by
  constructor
  · intro h
    cases cell with
    | input value => rfl
    | computed formula dependencies value =>
      rw [refresh] at h ⊢
      split_ifs at h ⊢ with hSame
      · rfl
      · exact absurd h hSame
  · intro h
    rw [h, sameValue_refl]

theorem refresh_computed (seen : List Cell) (formula : String) (dependencies : List Nat)
    (value : Float) : refresh seen (computed formula dependencies value) =
      computed formula dependencies (if sameValue value (Formula.evaluate formula seen).value
        then value else (Formula.evaluate formula seen).value) := by
  rw [refresh, Formula.evaluate_eq]
  split_ifs <;> rfl

def reports (count : Nat) (cell : Cell) : List Diagnostic :=
  cell.formula?.elim [] (Formula.outOfRange · count)

end Cell

theorem getElem?_eq_input_iff {cells : List Cell} {index : Nat} {value : Float} :
    cells[index]? = some (.input value) ↔ (cells.map Cell.input?)[index]? = some (some value) := by
  rw [List.getElem?_map]
  rcases cells[index]? with _ | (_ | _) <;> simp [Cell.input?]

/-- What is reported of the formulas when all of them are evaluated on the cells as they are. -/
def reports (cells : List Cell) : List Diagnostic :=
  cells.flatMap fun cell =>
    cell.formula?.elim [] fun formula => (Formula.evaluate formula cells).diagnostics

theorem reports_eq (cells : List Cell) :
    reports cells = cells.flatMap (Cell.reports cells.length) := by
  simp only [reports, Formula.evaluate_eq]
  rfl

/-- One diagnostic for each reference that means no cell, formula after formula. -/
def allOutOfRange (formulas : List (Option String)) : List Diagnostic :=
  formulas.flatMap (Option.elim · [] (Formula.outOfRange · formulas.length))

theorem reports_eq_allOutOfRange (cells : List Cell) :
    reports cells = allOutOfRange (cells.map Cell.formula?) := by
  rw [reports_eq, allOutOfRange, List.flatMap_map, List.length_map]
  rfl

namespace Sweep

theorem recompute_of_none {done : Sweep} {index : Nat} (h : done.cells[index]? = none) :
    done.recompute index = done := by
  rw [recompute, h]

/-- All that a visit does. -/
theorem recompute_of_some {done : Sweep} {index : Nat} {cell : Cell}
    (h : done.cells[index]? = some cell) :
    done.recompute index =
      { cells := done.cells.set index (Cell.refresh done.cells cell)
        changed := done.changed + if Cell.refresh done.cells cell = cell then 0 else 1
        diagnostics := done.diagnostics ++ cell.reports done.cells.length } := by
  obtain ⟨hIndex, hCell⟩ := List.getElem?_eq_some_iff.mp h
  have hKept : done.cells.set index cell = done.cells := by rw [← hCell, List.set_getElem_self]
  rw [recompute, h]
  cases cell with
  | input value => simp [Cell.refresh, Cell.reports, Cell.formula?, hKept]
  | computed formula dependencies value =>
    dsimp only
    rw [Formula.evaluate_eq]
    dsimp only
    by_cases hSame : sameValue value (Formula.value formula done.cells) = true
    · simp [Cell.refresh, Cell.reports, Cell.formula?, hSame, hKept]
    · have hValue : Formula.value formula done.cells ≠ value :=
        fun hEq => hSame (hEq ▸ sameValue_refl _)
      simp [Cell.refresh, Cell.reports, Cell.formula?, hSame, hValue]

theorem getElem?_recompute_self (done : Sweep) (index : Nat) :
    (done.recompute index).cells[index]? = done.cells[index]?.map (Cell.refresh done.cells) := by
  cases h : done.cells[index]? with
  | none => rw [recompute_of_none h, h, Option.map_none]
  | some cell =>
    rw [recompute_of_some h]
    exact List.getElem?_set_self (List.getElem?_eq_some_iff.mp h).1

theorem changed_recompute (done : Sweep) (index : Nat) :
    (done.recompute index).changed =
      done.changed +
        if (done.recompute index).cells[index]? = done.cells[index]? then 0 else 1 := by
  rw [getElem?_recompute_self]
  cases h : done.cells[index]? with
  | none => simp [recompute_of_none h]
  | some cell => simp [recompute_of_some h]

/-- The state of a sweep that has reached the position `count`. -/
def upTo (cells : List Cell) (count : Nat) : Sweep :=
  (List.range count).foldl recompute ⟨cells, 0, []⟩

/-- The cells that the formula at a position sees. -/
def seenAt (cells : List Cell) (index : Nat) : List Cell :=
  (run cells).cells.take index ++ cells.drop index

theorem upTo_succ (cells : List Cell) (count : Nat) :
    upTo cells (count + 1) = (upTo cells count).recompute count := by
  rw [upTo, List.range_succ, List.foldl_append]
  rfl

theorem length_upTo (cells : List Cell) (count : Nat) :
    (upTo cells count).cells.length = cells.length :=
  length_foldl_recompute ..

theorem getElem?_upTo_of_le (cells : List Cell) {count index : Nat} (h : count ≤ index) :
    (upTo cells count).cells[index]? = cells[index]? := by
  induction count with
  | zero => rfl
  | succ count ih =>
    rw [upTo_succ, getElem?_recompute_of_ne _ (by omega)]
    exact ih (by omega)

theorem getElem?_upTo_of_lt (cells : List Cell) {count index : Nat} (h : index < count) :
    (upTo cells count).cells[index]? = (upTo cells (index + 1)).cells[index]? := by
  induction count with
  | zero => omega
  | succ count ih =>
    rcases Nat.lt_succ_iff_lt_or_eq.mp h with hBefore | rfl
    · rw [upTo_succ, getElem?_recompute_of_ne _ (by omega)]
      exact ih hBefore
    · rfl

theorem getElem?_run_of_lt (cells : List Cell) {count index : Nat} (h : index < count) :
    (run cells).cells[index]? = (upTo cells count).cells[index]? := by
  by_cases hIndex : index < cells.length
  · rw [getElem?_upTo_of_lt cells h]
    exact getElem?_upTo_of_lt cells hIndex
  · rw [List.getElem?_eq_none (by rw [length_run]; omega),
      List.getElem?_eq_none (by rw [length_upTo]; omega)]

theorem getElem?_seenAt_of_lt (cells : List Cell) {index other : Nat} (h : other < index) :
    (seenAt cells index)[other]? = (run cells).cells[other]? := by
  by_cases hOther : other < cells.length
  · rw [seenAt, List.getElem?_append_left (by simp [length_run]; omega),
      List.getElem?_take_of_lt h]
  · rw [List.getElem?_eq_none (by simp [seenAt, length_run]; omega),
      List.getElem?_eq_none (by rw [length_run]; omega)]

theorem getElem?_seenAt_of_le (cells : List Cell) {index other : Nat} (h : index ≤ other) :
    (seenAt cells index)[other]? = cells[other]? := by
  by_cases hOther : other < cells.length
  · have hTake : ((run cells).cells.take index).length = index := by simp [length_run]; omega
    rw [seenAt, List.getElem?_append_right (by omega), List.getElem?_drop, hTake,
      Nat.add_sub_cancel' h]
  · rw [List.getElem?_eq_none (by simp [seenAt, length_run]; omega),
      List.getElem?_eq_none (by omega)]

theorem cells_upTo (cells : List Cell) (count : Nat) :
    (upTo cells count).cells = seenAt cells count := by
  apply List.ext_getElem?
  intro index
  rcases Nat.lt_or_ge index count with h | h
  · rw [getElem?_seenAt_of_lt cells h, getElem?_run_of_lt cells h]
  · rw [getElem?_seenAt_of_le cells h, getElem?_upTo_of_le cells h]

theorem length_seenAt (cells : List Cell) (index : Nat) :
    (seenAt cells index).length = cells.length := by
  rw [← cells_upTo, length_upTo]

/-- Every cell is visited once, on the new cells before it and the old ones from it on. -/
theorem getElem?_run (cells : List Cell) (index : Nat) :
    (run cells).cells[index]? = cells[index]?.map (Cell.refresh (seenAt cells index)) := by
  rw [getElem?_run_of_lt cells (Nat.lt_succ_self index), upTo_succ, getElem?_recompute_self,
    cells_upTo, getElem?_seenAt_of_le cells (Nat.le_refl index)]

/-- What no visit changes of a cell, no sweep changes. -/
theorem map_run {α : Type} {view : Cell → α}
    (h : ∀ seen cell, view (Cell.refresh seen cell) = view cell) (cells : List Cell) :
    (run cells).cells.map view = cells.map view := by
  apply List.ext_getElem?
  intro index
  rw [List.getElem?_map, List.getElem?_map, getElem?_run]
  cases cells[index]? with
  | none => rfl
  | some cell => exact congrArg some (h _ cell)

theorem changed_upTo (cells : List Cell) (count : Nat) :
    (upTo cells count).changed =
      (List.range count).countP fun index => (run cells).cells[index]? ≠ cells[index]? := by
  induction count with
  | zero => rfl
  | succ count ih =>
    have hNew := getElem?_run_of_lt cells (Nat.lt_succ_self count)
    rw [upTo_succ] at hNew
    rw [upTo_succ, changed_recompute, ih, List.range_succ, List.countP_append, ← hNew,
      getElem?_upTo_of_le cells (Nat.le_refl count)]
    by_cases h : (run cells).cells[count]? = cells[count]? <;> simp [h]

theorem changed_run (cells : List Cell) :
    (run cells).changed = (List.range cells.length).countP
      fun index => (run cells).cells[index]? ≠ cells[index]? :=
  changed_upTo cells cells.length

theorem changed_eq_zero_iff {cells : List Cell} :
    (run cells).changed = 0 ↔ (run cells).cells = cells := by
  rw [changed_run, List.countP_eq_zero]
  constructor
  · intro h
    apply List.ext_getElem?
    intro index
    by_cases hIndex : index < cells.length
    · simpa using h index (List.mem_range.mpr hIndex)
    · rw [List.getElem?_eq_none (by rw [length_run]; omega), List.getElem?_eq_none (by omega)]
  · intro h index _
    simp [h]

theorem diagnostics_upTo (cells : List Cell) (count : Nat) :
    (upTo cells count).diagnostics =
      (cells.take count).flatMap (Cell.reports cells.length) := by
  induction count with
  | zero => rfl
  | succ count ih =>
    have hOld := getElem?_upTo_of_le cells (Nat.le_refl count)
    rw [upTo_succ, List.take_add_one, List.flatMap_append, ← ih]
    cases h : cells[count]? with
    | none => rw [recompute_of_none (hOld.trans h)]; simp
    | some cell => rw [recompute_of_some (hOld.trans h), length_upTo]; simp

theorem diagnostics_run (cells : List Cell) : (run cells).diagnostics = reports cells := by
  rw [reports_eq]
  have h := diagnostics_upTo cells cells.length
  rwa [List.take_length] at h

/-! ## What a sweep comes to -/

/-- The cells before a sweep and behind it, with the number of changes. Each formula sees the new
values before its cell and the old ones from it on. -/
structure InOrder (before after : List Cell) (count : Nat) : Prop where
  length : after.length = before.length
  formulas : after.map Cell.formula? = before.map Cell.formula?
  dependencies : after.map Cell.dependencies? = before.map Cell.dependencies?
  inputs : after.map Cell.input? = before.map Cell.input?
  computed : ∀ (index : Nat) (formula : String) (dependencies : List Nat) (value next : Float),
    before[index]? = some (.computed formula dependencies value) →
      next = (Formula.evaluate formula (after.take index ++ before.drop index)).value →
        after[index]? =
          some (.computed formula dependencies (if sameValue value next then value else next))
  counted : count =
    (before.zip after).countP fun (old, new) => !sameValue old.value new.value
  unchanged : count = 0 ↔ after = before

theorem countP_eq_countP_range {α : Type} (p : α → Bool) (items : List α) :
    items.countP p = (List.range items.length).countP fun index => items[index]?.any p := by
  induction items with
  | nil => rfl
  | cons item items ih =>
    rw [List.length_cons, List.range_succ_eq_map, List.countP_cons, List.countP_cons,
      List.countP_map, ih]
    rfl

theorem changed_run_eq_countP_zip (cells : List Cell) : (run cells).changed =
    (cells.zip (run cells).cells).countP fun (old, new) => !sameValue old.value new.value := by
  rw [changed_run, countP_eq_countP_range _ (cells.zip _), List.length_zip, length_run,
    Nat.min_self]
  apply List.countP_congr
  intro index hIndex
  rw [List.mem_range] at hIndex
  obtain ⟨old, hOld⟩ : ∃ old, cells[index]? = some old := ⟨_, List.getElem?_eq_getElem hIndex⟩
  have hNew := getElem?_run cells index
  rw [hOld, Option.map_some] at hNew
  have hPair : (cells.zip (run cells).cells)[index]? =
      some (old, Cell.refresh (seenAt cells index) old) :=
    List.getElem?_zip_eq_some.mpr ⟨hOld, hNew⟩
  rw [hPair, hNew, hOld]
  simp [← Cell.sameValue_refresh_iff]

theorem inOrder_run (cells : List Cell) : InOrder cells (run cells).cells (run cells).changed where
  length := length_run cells
  formulas := map_run Cell.formula?_refresh cells
  dependencies := map_run Cell.dependencies?_refresh cells
  inputs := map_run Cell.input?_refresh cells
  computed index formula dependencies value next hOld hNext := by
    rw [getElem?_run, hOld, Option.map_some, Cell.refresh_computed, hNext]
    rfl
  counted := changed_run_eq_countP_zip cells
  unchanged := changed_eq_zero_iff

theorem InOrder.getElem?_eq {before after : List Cell} {count : Nat}
    (h : InOrder before after count) (index : Nat) :
    after[index]? = (run before).cells[index]? := by
  induction index using Nat.strongRecOn with
  | ind index ih =>
    -- Both have put the same cells before this position, so its formula sees the same.
    have hSeen : after.take index = (run before).cells.take index := by
      apply List.ext_getElem?
      intro other
      rw [List.getElem?_take, List.getElem?_take]
      split_ifs with hOther
      · exact ih other hOther
      · rfl
    have hRun := inOrder_run before
    cases hOld : before[index]? with
    | none =>
      rw [List.getElem?_eq_none_iff] at hOld
      rw [List.getElem?_eq_none (h.length ▸ hOld), List.getElem?_eq_none (hRun.length ▸ hOld)]
    | some cell =>
      cases cell with
      | input value =>
        rw [getElem?_eq_input_iff] at hOld
        rw [getElem?_eq_input_iff.mpr (h.inputs ▸ hOld),
          getElem?_eq_input_iff.mpr (hRun.inputs ▸ hOld)]
      | computed formula dependencies value =>
        rw [h.computed index _ _ _ _ hOld rfl, hRun.computed index _ _ _ _ hOld rfl, hSeen]

/-- A sweep goes through the cells in order, and nothing else does what it does. -/
theorem goes_in_order (before after : List Cell) (count : Nat) :
    (after = (run before).cells ∧ count = (run before).changed) ↔
      InOrder before after count := by
  constructor
  · rintro ⟨rfl, rfl⟩
    exact inOrder_run before
  · intro h
    obtain rfl : after = (run before).cells := List.ext_getElem? h.getElem?_eq
    exact ⟨rfl, h.counted.trans (changed_run_eq_countP_zip before).symm⟩

end Sweep

end ReactiveSheet
