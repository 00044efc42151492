import ReactiveSheet.Proofs.Coupling

/-! # Rest without cycles

Where no formula refers back to its own cell, directly or through others, the cells come to rest.
A reference to an earlier cell is followed within a sweep and one to a later cell only in the next
sweep, so it is the forward steps of a path that cost sweeps. The values at rest depend on nothing
but the inputs.
-/

namespace ReactiveSheet

set_option autoImplicit false

def SameInputs (first second : List Cell) : Prop :=
  ∀ pair ∈ first.zip second, ∀ x ∈ pair.1.input?, ∀ y ∈ pair.2.input?, sameValue x y = true

instance (first second : List Cell) : Decidable (SameInputs first second) :=
  inferInstanceAs (Decidable (∀ pair ∈ first.zip second, _))

theorem SameInputs.sameValue_of_getElem? {first second : List Cell} (h : SameInputs first second)
    {index : Nat} {x y : Float} (hFirst : first[index]? = some (.input x))
    (hSecond : second[index]? = some (.input y)) : sameValue x y = true := by
  have hPair : (first.zip second)[index]? = some (.input x, .input y) :=
    List.getElem?_zip_eq_some.mpr ⟨hFirst, hSecond⟩
  exact h _ (List.mem_of_getElem? hPair) x rfl y rfl

theorem agreeAt_of_atRest {first second : List Cell} (hFormulas : SameFormulas first second)
    (hAcyclic : Acyclic first) (hFirst : AtRest first) (hSecond : AtRest second)
    (hInputs : SameInputs first second) (index : Nat) : AgreeAt first second index := by
  induction index using (wellFounded_edge hAcyclic).induction with
  | h index ih =>
    rcases hFormulas.getElem?_cases index with ⟨ha, hb⟩ | ⟨x, y, ha, hb⟩ |
      ⟨formula, dependencies, others, x, y, ha, hb⟩
    · exact agreeAt_of_eq (ha.trans hb.symm)
    · exact agreeAt_of_some ha hb (hInputs.sameValue_of_getElem? ha hb)
    · have hReads : ∀ other ∈ Formula.references formula, AgreeAt first second other := by
        intro other hOther
        rcases hFormulas.getElem?_cases other with ⟨hc, hd⟩ | ⟨z, w, hc, hd⟩ |
          ⟨_, _, _, _, _, hc, _⟩
        · exact agreeAt_of_eq (hc.trans hd.symm)
        · exact agreeAt_of_some hc hd (hInputs.sameValue_of_getElem? hc hd)
        · apply ih
          refine mem_successors.mpr ⟨formula, ?_, hOther, ?_⟩
          · rw [formulaAt?, ha]; rfl
          · rw [formulaAt?, hc]; rfl
      have hx := Cell.current_computed.mp (atRest_iff.mp hFirst index _ ha)
      have hy := Cell.current_computed.mp (atRest_iff.mp hSecond index _ hb)
      rw [← Formula.value_congr hReads] at hy
      exact agreeAt_of_some ha hb (sameValue_trans hx (sameValue_symm hy))

end ReactiveSheet
