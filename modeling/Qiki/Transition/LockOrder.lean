import Qiki.Transition.Threads
import Mathlib.Data.Set.Finite.Lemmas

/-! Locks that every thread takes in one order are never waited for in a circle. -/
namespace Transition.Locks

variable {ι κ α : Type*} {l : Locks κ ι}

/-- Threads that each wait for a lock of one of them, ranked above all locks they hold:
there is none. -/
theorem not_circular [Finite ι] [LinearOrder α] {waiting : Set ι} (rank : κ → α) (wants : ι → κ)
    (hheld : ∀ i ∈ waiting, ∃ j ∈ waiting, l (wants i) = some j)
    (hrank : ∀ i ∈ waiting, ∀ k, l k = some i → rank k < rank (wants i)) : waiting = ∅ := by
  by_contra hne
  have hsome : waiting.Nonempty := Set.nonempty_iff_ne_empty.mpr hne
  -- the thread that waits for the highest lock
  obtain ⟨i, hi, hmax⟩ := Set.exists_max_image waiting (fun i => rank (wants i))
    (Set.toFinite waiting) hsome
  obtain ⟨j, hj, hij⟩ := hheld i hi
  have hlt : rank (wants i) < rank (wants j) := hrank j hj (wants i) hij
  exact absurd (hmax j hj) (not_le.mpr hlt)

end Transition.Locks
