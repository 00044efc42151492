import Mathlib.Data.List.Chain
import Mathlib.Data.List.Perm.Subperm
import Mathlib.Logic.Relation
import Mathlib.Order.Bounds.Basic
import ReactiveSheet.Formula

/-! # The graph of references

The computed cells are the nodes of a graph, with an edge from a cell to every computed cell that
its formula refers to. Where the graph has no cycle its paths are short, and the greatest number
of forward steps on a path, to a cell with a larger index each, can be computed. With the inputs
added to it the graph shows everything that a cell can depend on.
-/

namespace ReactiveSheet

set_option autoImplicit false

def formulaAt? (cells : List Cell) (index : Nat) : Option String :=
  cells[index]?.bind Cell.formula?

def referencesAt (cells : List Cell) (index : Nat) : List Nat :=
  (formulaAt? cells index).elim [] Formula.references

def successors (cells : List Cell) (index : Nat) : List Nat :=
  (referencesAt cells index).filter fun other => (formulaAt? cells other).isSome

def Edge (cells : List Cell) (index other : Nat) : Prop :=
  other ∈ successors cells index

def Acyclic (cells : List Cell) : Prop :=
  ∀ index, ¬ Relation.TransGen (Edge cells) index index

def IsPath (cells : List Cell) (path : List Nat) : Prop :=
  path.IsChain (Edge cells)

/-- Both have the same inputs and the same formulas, position by position. -/
def SameFormulas (first second : List Cell) : Prop :=
  first.map Cell.formula? = second.map Cell.formula?

instance (first second : List Cell) : Decidable (SameFormulas first second) :=
  inferInstanceAs (Decidable (_ = _))

theorem formulaAt?_eq_join (cells : List Cell) (index : Nat) :
    formulaAt? cells index = ((cells.map Cell.formula?)[index]?).join := by
  rw [formulaAt?, List.getElem?_map]
  cases cells[index]? <;> rfl

theorem SameFormulas.formulaAt?_eq {first second : List Cell} (h : SameFormulas first second) :
    formulaAt? first = formulaAt? second := by
  funext index
  rw [formulaAt?_eq_join, formulaAt?_eq_join, h]

theorem SameFormulas.length_eq {first second : List Cell} (h : SameFormulas first second) :
    first.length = second.length := by
  simpa using congrArg List.length h

/-- The three things that can be found at one position of both. -/
theorem SameFormulas.getElem?_cases {first second : List Cell} (h : SameFormulas first second)
    (index : Nat) :
    (first[index]? = none ∧ second[index]? = none) ∨
    (∃ x y, first[index]? = some (.input x) ∧ second[index]? = some (.input y)) ∨
    ∃ formula dependencies others x y,
      first[index]? = some (.computed formula dependencies x) ∧
      second[index]? = some (.computed formula others y) := by
  have hAt : first[index]?.map Cell.formula? = second[index]?.map Cell.formula? := by
    rw [← List.getElem?_map, ← List.getElem?_map, h]
  cases hFirst : first[index]? with
  | none =>
    rw [hFirst] at hAt
    exact .inl ⟨rfl, Option.map_eq_none_iff.mp hAt.symm⟩
  | some a =>
    rw [hFirst] at hAt
    obtain ⟨b, hSecond, hFormula⟩ := Option.map_eq_some_iff.mp hAt.symm
    rw [hSecond]
    cases a with
    | input x =>
      cases b with
      | input y => exact .inr (.inl ⟨x, y, rfl, rfl⟩)
      | computed => cases hFormula
    | computed formula dependencies x =>
      cases b with
      | input => cases hFormula
      | computed other others y =>
        obtain rfl := Option.some.inj hFormula
        exact .inr (.inr ⟨other, dependencies, others, x, y, rfl, rfl⟩)

theorem SameFormulas.edge_eq {first second : List Cell} (h : SameFormulas first second) :
    Edge first = Edge second := by
  funext index other
  rw [Edge, successors, referencesAt, h.formulaAt?_eq]
  rfl

theorem SameFormulas.acyclic {first second : List Cell} (h : SameFormulas first second)
    (hAcyclic : Acyclic first) : Acyclic second := by
  rwa [Acyclic, ← h.edge_eq]

theorem mem_successors {cells : List Cell} {index other : Nat} :
    other ∈ successors cells index ↔ ∃ formula, formulaAt? cells index = some formula ∧
      other ∈ Formula.references formula ∧ (formulaAt? cells other).isSome = true := by
  rw [successors, List.mem_filter, referencesAt]
  cases formulaAt? cells index <;> simp

theorem lt_length_of_formulaAt? {cells : List Cell} {index : Nat}
    (h : (formulaAt? cells index).isSome = true) : index < cells.length := by
  by_contra hOutside
  rw [formulaAt?, List.getElem?_eq_none (by omega)] at h
  cases h

theorem Edge.lt_length {cells : List Cell} {index other : Nat} (h : Edge cells index other) :
    index < cells.length := by
  obtain ⟨formula, hFormula, _⟩ := mem_successors.mp h
  exact lt_length_of_formulaAt? (by rw [hFormula]; rfl)

theorem Edge.target_lt_length {cells : List Cell} {index other : Nat}
    (h : Edge cells index other) : other < cells.length := by
  obtain ⟨_, _, _, hOther⟩ := mem_successors.mp h
  exact lt_length_of_formulaAt? hOther

theorem acyclic_of_rank {cells : List Cell} (rank : Nat → Nat)
    (h : ∀ index < cells.length, ∀ other ∈ successors cells index, rank other < rank index) :
    Acyclic cells := by
  have hFalls : ∀ index other, Relation.TransGen (Edge cells) index other →
      rank other < rank index := by
    intro index other hPath
    induction hPath with
    | single hEdge => exact h _ hEdge.lt_length _ hEdge
    | tail _ hEdge ih => exact (h _ hEdge.lt_length _ hEdge).trans ih
  intro index hCycle
  exact Nat.lt_irrefl _ (hFalls index index hCycle)

theorem isPath_cons_cons {cells : List Cell} {index other : Nat} {rest : List Nat} :
    IsPath cells (index :: other :: rest) ↔
      Edge cells index other ∧ IsPath cells (other :: rest) :=
  List.isChain_cons_cons

theorem nodup_of_isPath {cells : List Cell} (hAcyclic : Acyclic cells) {path : List Nat}
    (h : IsPath cells path) : path.Nodup := by
  have hChain : path.IsChain (Relation.TransGen (Edge cells)) :=
    h.imp fun _ _ hEdge => .single hEdge
  refine (List.isChain_iff_pairwise.mp hChain).imp ?_
  rintro index other hPath rfl
  exact hAcyclic index hPath

theorem lt_length_of_mem_tail {cells : List Cell} {index other : Nat} {rest : List Nat}
    (h : IsPath cells (index :: rest)) (hOther : other ∈ rest) : other < cells.length := by
  induction rest generalizing index with
  | nil => cases hOther
  | cons next rest ih =>
    obtain ⟨hEdge, hRest⟩ := isPath_cons_cons.mp h
    rcases List.mem_cons.mp hOther with rfl | hOther
    · exact hEdge.target_lt_length
    · exact ih hRest hOther

theorem length_le_of_isPath {cells : List Cell} (hAcyclic : Acyclic cells) {index : Nat}
    {rest : List Nat} (h : IsPath cells (index :: rest)) : rest.length ≤ cells.length := by
  have hNodup : rest.Nodup := (List.nodup_cons.mp (nodup_of_isPath hAcyclic h)).2
  have hSubset : rest ⊆ List.range cells.length := fun other hOther =>
    List.mem_range.mpr (lt_length_of_mem_tail h hOther)
  simpa using (hNodup.subperm hSubset).length_le

theorem acc_edge {cells : List Cell} (steps index : Nat)
    (h : ∀ rest, IsPath cells (index :: rest) → rest.length ≤ steps) :
    Acc (fun other index => Edge cells index other) index := by
  induction steps generalizing index with
  | zero =>
    refine ⟨index, fun other hEdge => ?_⟩
    have hLength := h [other] (isPath_cons_cons.mpr ⟨hEdge, .singleton _⟩)
    simp at hLength
  | succ steps ih =>
    refine ⟨index, fun other hEdge => ih other fun rest hRest => ?_⟩
    have hLength := h (other :: rest) (isPath_cons_cons.mpr ⟨hEdge, hRest⟩)
    simpa using hLength

theorem wellFounded_edge {cells : List Cell} (hAcyclic : Acyclic cells) :
    WellFounded (fun other index => Edge cells index other) :=
  ⟨fun index => acc_edge cells.length index fun _ hPath => length_le_of_isPath hAcyclic hPath⟩

def greatest (numbers : List Nat) : Nat :=
  numbers.max?.getD 0

def Reads (cells : List Cell) (index other : Nat) : Prop :=
  other ∈ referencesAt cells index ∧ other < cells.length

def Reaches (cells : List Cell) : Nat → Nat → Prop :=
  Relation.TransGen (Reads cells)

/-- A part of the positions that reads nothing outside of itself. -/
def Closed (cells : List Cell) (part : Nat → Prop) : Prop :=
  ∀ index, part index → ∀ other, Reads cells index other → part other

theorem mem_referencesAt {cells : List Cell} {index other : Nat} :
    other ∈ referencesAt cells index ↔
      ∃ formula, formulaAt? cells index = some formula ∧ other ∈ Formula.references formula := by
  rw [referencesAt]
  cases formulaAt? cells index <;> simp

theorem SameFormulas.reads_eq {first second : List Cell} (h : SameFormulas first second) :
    Reads first = Reads second := by
  funext index other
  rw [Reads, Reads, referencesAt, referencesAt, h.formulaAt?_eq, h.length_eq]

theorem SameFormulas.closed {first second : List Cell} (h : SameFormulas first second)
    {part : Nat → Prop} (hClosed : Closed first part) : Closed second part := by
  rwa [Closed, ← h.reads_eq]

theorem Closed.of_reaches {cells : List Cell} {part : Nat → Prop} (h : Closed cells part)
    {index other : Nat} (hIndex : part index) (hReaches : Reaches cells index other) :
    part other := by
  induction hReaches with
  | single hReads => exact h _ hIndex _ hReads
  | tail _ hReads ih => exact h _ ih _ hReads

theorem closed_true (cells : List Cell) : Closed cells fun _ => True :=
  fun _ _ _ _ => trivial

theorem closed_not_reaches (cells : List Cell) (target : Nat) :
    Closed cells fun index => index ≠ target ∧ ¬ Reaches cells index target := by
  rintro index ⟨_, hUnreached⟩ other hReads
  constructor
  · rintro rfl
    exact hUnreached (.single hReads)
  · intro hReaches
    exact hUnreached (hReaches.head hReads)

end ReactiveSheet
