import Mathlib.Data.Fintype.Order
import Mathlib.Logic.Relation
import Mathlib.Order.RelClasses

/-! Finitely many edges without a cycle. -/
namespace Transition

/-- Every walk against the edges ends. -/
theorem wellFounded_of_acyclic {ι κ : Type*} [Finite ι] (source target : ι → κ)
    (h : ∀ k, ¬ Relation.TransGen (fun a b => ∃ i, source i = a ∧ target i = b) k k) :
    WellFounded fun a b => ∃ i, source i = a ∧ target i = b := by
  let before (i j : ι) : Prop := target i = source j
  have hwalk {i j : ι} (hij : Relation.TransGen before i j) :
      Relation.TransGen (fun a b => ∃ i, source i = a ∧ target i = b) (source i) (source j) :=
    Relation.TransGen.lift source (fun i _ hij => ⟨i, rfl, hij⟩) i j hij
  have hirrefl : Std.Irrefl (Relation.TransGen before) := ⟨fun i hi => h _ (hwalk hi)⟩
  have hwf : WellFounded before :=
    Subrelation.wf Relation.TransGen.single
      (Finite.wellFounded_of_trans_of_irrefl (Relation.TransGen before))
  have hacc (i : ι) : Acc (fun a b => ∃ i, source i = a ∧ target i = b) (source i) := by
    induction i using hwf.induction with
    | _ i ih =>
      refine ⟨_, fun a => ?_⟩
      rintro ⟨j, rfl, hj⟩
      exact ih j hj
  refine ⟨fun k => ⟨k, fun a => ?_⟩⟩
  rintro ⟨i, rfl, -⟩
  exact hacc i

end Transition
