import ReactiveSheet.Proofs.Coupling
import ReactiveSheet.Proofs.Resumption

/-! # Independent parts

The cells of a sheet are divided in two, and no formula refers to a computed cell on the other
side. Each side can then be run alone, with inputs in the place of the formulas of the other. The
whole goes through the same sweeps: it is at rest when both sides are, and a side that has come to
rest is not disturbed again.
-/

namespace ReactiveSheet

set_option autoImplicit false

def Separate (cells : List Cell) (part : Nat → Bool) : Prop :=
  ∀ index other, Edge cells index other → part index = part other

instance (cells : List Cell) (part : Nat → Bool) : Decidable (Separate cells part) :=
  decidable_of_iff (∀ index < cells.length, ∀ other ∈ successors cells index,
      part index = part other)
    ⟨fun h index other hEdge => h index hEdge.lt_length other hEdge,
      fun h index _ other hEdge => h index other hEdge⟩

theorem Separate.not {cells : List Cell} {part : Nat → Bool} (h : Separate cells part) :
    Separate cells (!part ·) :=
  fun index other hEdge => congrArg (!·) (h index other hEdge)

/-- Every formula outside of the part is replaced by an input. -/
def alone (part : Nat → Bool) (values : Nat → Float) (cells : List Cell) : List Cell :=
  cells.mapIdx fun index cell => if part index || cell.isInput then cell else .input (values index)

/-- What is the same when the part is run alone: the part itself and all inputs. -/
def Retained (cells : List Cell) (part : Nat → Bool) (index : Nat) : Prop :=
  part index = true ∨ formulaAt? cells index = none

section

variable {cells : List Cell} {part : Nat → Bool} (values : Nat → Float)

theorem closed_retained (h : Separate cells part) : Closed cells (Retained cells part) := by
  intro index hIndex other hReads
  obtain ⟨formula, hFormula, hOther⟩ := mem_referencesAt.mp hReads.1
  by_cases hComputed : formulaAt? cells other = none
  · exact .inr hComputed
  · have hEdge : Edge cells index other := mem_successors.mpr
      ⟨formula, hFormula, hOther, Option.isSome_iff_ne_none.mpr hComputed⟩
    rcases hIndex with hPart | hNone
    · exact .inl (h index other hEdge ▸ hPart)
    · rw [hFormula] at hNone
      cases hNone

theorem length_alone : (alone part values cells).length = cells.length := by
  simp [alone]

theorem getElem?_alone_of_retained {index : Nat} (h : Retained cells part index) :
    (alone part values cells)[index]? = cells[index]? := by
  rw [alone, List.getElem?_mapIdx]
  cases hCell : cells[index]? with
  | none => rfl
  | some cell =>
    have hRetained : (part index || cell.isInput) = true := by
      rcases h with hPart | hNone
      · rw [hPart, Bool.true_or]
      · rw [formulaAt?, hCell, Option.bind_some] at hNone
        cases cell with
        | input value => simp [Cell.isInput]
        | computed => cases hNone
    rw [Option.map_some, if_pos hRetained]

theorem formulaAt?_alone_of_not_retained {index : Nat} (h : ¬ Retained cells part index) :
    formulaAt? (alone part values cells) index = none := by
  simp only [Retained, not_or, Bool.not_eq_true] at h
  rw [formulaAt?, alone, List.getElem?_mapIdx]
  cases hCell : cells[index]? with
  | none => rfl
  | some cell =>
    cases cell with
    | input value => simp [formulaAt?, hCell, Cell.formula?] at h
    | computed => simp [h.1, Cell.isInput, Cell.formula?]

theorem relatedAt_alone {index : Nat} (h : Retained cells part index) :
    RelatedAt Eq cells (alone part values cells) index := by
  rw [RelatedAt, getElem?_alone_of_retained values h]
  cases cells[index]? with
  | none => exact .none
  | some cell => exact .some rfl

theorem relatedAt_swept_alone (hParts : Separate cells part) (count : Nat) {index : Nat}
    (h : Retained cells part index) :
    RelatedAt Eq (swept cells count) (swept (alone part values cells) count) index :=
  coupling_eq.swept (closed_retained hParts) (length_alone values)
    (fun _ hRetained => relatedAt_alone values hRetained) count index h

theorem getElem?_swept_alone (hParts : Separate cells part) (count : Nat) {index : Nat}
    (h : Retained cells part index) :
    (swept (alone part values cells) count)[index]? = (swept cells count)[index]? := by
  rcases (relatedAt_swept_alone values hParts count h).cases with
    ⟨hFirst, hSecond⟩ | ⟨a, b, hFirst, hSecond, rfl⟩
  · rw [hFirst, hSecond]
  · rw [hFirst, hSecond]

/-- The inputs that stand for the other formulas are always at rest, so only the part counts. -/
theorem atRest_swept_alone_iff (hParts : Separate cells part) (count : Nat) :
    AtRest (swept (alone part values cells) count) ↔
      AtRestOn (swept cells count) (Retained cells part) := by
  have hClosed := (sameFormulas_swept cells count).closed (closed_retained hParts)
  have hLength : (swept (alone part values cells) count).length = (swept cells count).length := by
    rw [length_swept, length_swept, length_alone]
  rw [coupling_eq.atRestOn_iff hClosed hLength
    fun _ hRetained => relatedAt_swept_alone values hParts count hRetained, atRest_iff]
  constructor
  · intro h index _ cell hCell
    exact h index cell hCell
  · intro h index cell hCell
    by_cases hRetained : Retained cells part index
    · exact h index hRetained cell hCell
    · have hNone := formulaAt?_alone_of_not_retained values hRetained
      rw [(sameFormulas_swept _ count).formulaAt?_eq, formulaAt?, hCell, Option.bind_some] at hNone
      simp [Cell.Current, hNone]

theorem atRest_swept_iff (hParts : Separate cells part) (others : Nat → Float) (count : Nat) :
    AtRest (swept cells count) ↔ AtRest (swept (alone part values cells) count) ∧
      AtRest (swept (alone (!part ·) others cells) count) := by
  rw [atRest_swept_alone_iff values hParts, atRest_swept_alone_iff others hParts.not, atRest_iff]
  constructor
  · intro h
    exact ⟨fun index _ => h index, fun index _ => h index⟩
  · rintro ⟨hPart, hOther⟩ index cell hCell
    cases hSide : part index with
    | true => exact hPart index (.inl hSide) cell hCell
    | false => exact hOther index (.inl (by simp [hSide])) cell hCell

end

theorem swept_of_atRest_swept {cells : List Cell} {earlier count : Nat}
    (h : AtRest (swept cells earlier)) (hLater : earlier ≤ count) :
    swept cells count = swept cells earlier := by
  obtain ⟨more, rfl⟩ := Nat.exists_eq_add_of_le hLater
  rw [← swept_swept, swept_of_atRest h]

theorem exists_restsAfter {cells : List Cell} {count : Nat} (h : AtRest (swept cells count)) :
    ∃ first ≤ count, RestsAfter cells first := by
  have hExists : ∃ first, AtRest (swept cells first) := ⟨count, h⟩
  exact ⟨Nat.find hExists, Nat.find_min' hExists h, Nat.find_spec hExists,
    fun _ hEarlier => Nat.find_min hExists hEarlier⟩

theorem RestsAfter.le_of_atRest {cells : List Cell} {count other : Nat} (h : RestsAfter cells count)
    (hOther : AtRest (swept cells other)) : count ≤ other := by
  by_contra hEarlier
  exact h.notBefore other (by omega) hOther

theorem restsAfter_max_iff {cells first second : List Cell}
    (h : ∀ count, AtRest (swept cells count) ↔
      AtRest (swept first count) ∧ AtRest (swept second count)) (count : Nat) :
    RestsAfter cells count ↔ ∃ a b, RestsAfter first a ∧ RestsAfter second b ∧ count = max a b := by
  have hMax : ∀ a b, RestsAfter first a → RestsAfter second b → RestsAfter cells (max a b) := by
    intro a b ha hb
    refine ⟨(h _).mpr ⟨?_, ?_⟩, fun earlier hEarlier hRest => ?_⟩
    · rw [swept_of_atRest_swept ha.atRest (Nat.le_max_left a b)]
      exact ha.atRest
    · rw [swept_of_atRest_swept hb.atRest (Nat.le_max_right a b)]
      exact hb.atRest
    · have hFirst := ha.le_of_atRest ((h earlier).mp hRest).1
      have hSecond := hb.le_of_atRest ((h earlier).mp hRest).2
      omega
  constructor
  · intro hCells
    obtain ⟨hFirst, hSecond⟩ := (h count).mp hCells.atRest
    obtain ⟨a, _, ha⟩ := exists_restsAfter hFirst
    obtain ⟨b, _, hb⟩ := exists_restsAfter hSecond
    exact ⟨a, b, ha, hb, hCells.unique (hMax a b ha hb)⟩
  · rintro ⟨a, b, ha, hb, rfl⟩
    exact hMax a b ha hb

namespace Recalculation

/-- The sweeps of a run that succeeds. -/
def passes? (run : Recalculation) : Option Nat :=
  run.result.toOption.map Settled.passes

theorem passes?_run_eq_some_iff {cells : List Cell} {maxPasses passes : Nat} :
    (run cells maxPasses).passes? = some passes ↔
      ∃ count < maxPasses, RestsAfter cells count ∧ passes = count + 1 := by
  rw [passes?]
  constructor
  · intro h
    rcases run_cases cells maxPasses with ⟨count, hRoom, hRests, _, hResult⟩ | ⟨_, _, hResult⟩
    · rw [hResult] at h
      exact ⟨count, hRoom, hRests, (Option.some.inj h).symm⟩
    · rw [hResult] at h
      cases h
  · rintro ⟨count, hRoom, hRests, rfl⟩
    rw [(run_of_restsAfter hRests hRoom).2]
    rfl

variable {cells : List Cell} {part : Nat → Bool} {maxPasses : Nat}

theorem getElem?_run_alone (hParts : Separate cells part) (values : Nat → Float) {passes : Nat}
    (h : (run (alone part values cells) maxPasses).passes? = some passes) {index : Nat}
    (hIndex : part index = true) : (run cells maxPasses).cells[index]? =
      (run (alone part values cells) maxPasses).cells[index]? := by
  obtain ⟨count, hRoom, hRests, _⟩ := passes?_run_eq_some_iff.mp h
  -- The whole makes at least the sweeps that the part needs, and it repeats what the part does.
  have hWhole : ∃ more, count ≤ more ∧ (run cells maxPasses).cells = swept cells more := by
    rcases run_cases cells maxPasses with ⟨more, _, hWhole, hCells, _⟩ | ⟨_, hCells, _⟩
    · have hPart := (atRest_swept_iff values hParts values more).mp hWhole.atRest
      exact ⟨more, hRests.le_of_atRest hPart.1, hCells⟩
    · exact ⟨maxPasses, by omega, hCells⟩
  obtain ⟨more, hMore, hCells⟩ := hWhole
  rw [hCells, (run_of_restsAfter hRests hRoom).1, ← swept_of_atRest_swept hRests.atRest hMore,
    getElem?_swept_alone values hParts more (.inl hIndex)]

/-- The whole comes to rest exactly if both parts do, with the sweeps of the part that needs more.
A part that comes to rest alone has the same cells in the whole, also if the whole fails. -/
theorem parts_run_alone (hParts : Separate cells part) (values others : Nat → Float)
    (maxPasses : Nat) :
    let whole := run cells maxPasses
    let first := run (alone part values cells) maxPasses
    let second := run (alone (!part ·) others cells) maxPasses
    (∀ passes, whole.passes? = some passes ↔
      ∃ a b, first.passes? = some a ∧ second.passes? = some b ∧ passes = max a b) ∧
    (∀ a, first.passes? = some a → ∀ index, part index = true →
      whole.cells[index]? = first.cells[index]?) ∧
    ∀ b, second.passes? = some b → ∀ index, part index = false →
      whole.cells[index]? = second.cells[index]? := by
  intro whole first second
  refine ⟨fun passes => ?_, fun a ha index hIndex => ?_, fun b hb index hIndex => ?_⟩
  · simp only [whole, first, second, passes?_run_eq_some_iff,
      restsAfter_max_iff (atRest_swept_iff values hParts others)]
    constructor
    · rintro ⟨_, hRoom, ⟨a, b, ha, hb, rfl⟩, rfl⟩
      exact ⟨a + 1, b + 1, ⟨a, by omega, ha, rfl⟩, ⟨b, by omega, hb, rfl⟩, by omega⟩
    · rintro ⟨_, _, ⟨a, _, ha, rfl⟩, ⟨b, _, hb, rfl⟩, rfl⟩
      exact ⟨max a b, by omega, ⟨a, b, ha, hb, rfl⟩, by omega⟩
  · exact getElem?_run_alone hParts values ha hIndex
  · exact getElem?_run_alone hParts.not others hb (by simp [hIndex])

/-- Two parts with an input in common, one a circle and the other a chain, in turn with each other.
In the second sheet the other part swings for ever. -/
theorem parts_run_alone_of_zipper :
    let cells := Definitions.cells "={2}*0+{4}, ={3}+{4}, ={0}*0+1, ={5}*2, 5, ={4}"
    let swing := Definitions.cells "={2}*0+{4}, =1-{1}, ={0}*0+1, 7, 5, ={4}-{1}"
    let even := fun index : Nat => index % 2 == 0
    let first := run (alone even (fun _ => 8) swing) 6
    Separate cells even ∧ Separate swing even ∧ (run cells 4).passes? = some 4 ∧
      (run cells 4).cells[1]? = some (.computed "{3}+{4}" [] 15) ∧
      (run swing 6).result = .error ⟨6⟩ ∧ first.passes? = some 2 ∧
      (run swing 6).cells[0]? = first.cells[0]? := by
  intro cells swing even first
  have hCells : Separate cells even := by decide +kernel
  have hSwing : Separate swing even := by decide +kernel
  have hFirst : first.passes? = some 2 := by decide +kernel
  obtain ⟨hPasses, _, hSecond⟩ := parts_run_alone hCells (fun _ => 8) (fun _ => -0) 4
  obtain ⟨_, hSame, _⟩ := parts_run_alone hSwing (fun _ => 8) (fun _ => -0) 6
  have hOther : (run (alone (!even ·) (fun _ => -0) cells) 4).passes? = some 4 := by
    decide +kernel
  refine ⟨hCells, hSwing, (hPasses 4).mpr ⟨2, 4, by decide +kernel, hOther, rfl⟩, ?_,
    by decide +kernel, hFirst, hSame 2 hFirst 0 rfl⟩
  rw [hSecond 4 hOther 1 rfl]
  decide +kernel

end Recalculation

end ReactiveSheet
