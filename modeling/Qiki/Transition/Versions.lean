import Mathlib.Algebra.Order.Group.Nat

/-! Rows with version numbers: what a snapshot still knows about the committed rows. -/
namespace Transition

/-- Rows, each with the number of commits that have changed it. -/
structure Versions (κ ρ : Type*) where
  version : κ → ℕ
  row : κ → ρ

namespace Versions
variable {κ ρ : Type*} {a b c : Versions κ ρ} {k : κ}

/-- Later versions of the same rows: a row with an unchanged version is unchanged. -/
structure Before (a b : Versions κ ρ) : Prop where
  le : ∀ k, a.version k ≤ b.version k
  same : ∀ k, a.version k = b.version k → a.row k = b.row k

theorem Before.refl (a : Versions κ ρ) : a.Before a := ⟨fun _ => le_rfl, fun _ _ => rfl⟩

theorem Before.trans (hab : a.Before b) (hbc : b.Before c) : a.Before c where
  le k := (hab.le k).trans (hbc.le k)
  same k h := by
    have hb : a.version k = b.version k := le_antisymm (hab.le k) (h ▸ hbc.le k)
    exact (hab.same k hb).trans (hbc.same k (hb ▸ h))

/-- A commit that counts the rows it writes. -/
theorem before_of_written {written : κ → Prop} [DecidablePred written]
    (hversion : ∀ k, b.version k = a.version k + if written k then 1 else 0)
    (hrow : ∀ k, ¬ written k → b.row k = a.row k) : a.Before b where
  le k := by
    rw [hversion]
    exact Nat.le_add_right _ _
  same k h := by
    refine (hrow k fun hk => ?_).symm
    rw [hversion, if_pos hk] at h
    exact absurd h (Nat.ne_of_lt (Nat.lt_succ_self _))

end Versions

end Transition
