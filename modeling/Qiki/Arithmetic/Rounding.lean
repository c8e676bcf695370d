import Mathlib.Algebra.Order.Floor.Ring
import Mathlib.Algebra.Order.Group.MinMax
import Mathlib.Data.Int.ConditionallyCompleteOrder
import Mathlib.Order.Lattice
import Mathlib.Tactic.Linarith

/-! Rounding to integers with ties to even, and functions that grow at most as fast as their
argument. -/
namespace Rounding

section HalfEven
variable {α : Type*} [Field α] [LinearOrder α] [IsStrictOrderedRing α] [FloorRing α]

/-- The nearest integer; of two equally near ones the even one. -/
def halfEven (x : α) : ℤ :=
  let k := ⌊x⌋
  let rest := x - k
  if rest < 1 / 2 ∨ (rest = 1 / 2 ∧ k % 2 = 0) then k else k + 1

variable {x y : α} {n : ℤ}

theorem halfEven_le_of_lt (h : x < n + 1 / 2) : halfEven x ≤ n := by
  have hfloor : ⌊x⌋ ≤ n := by
    apply Int.lt_add_one_iff.mp
    apply Int.floor_lt.mpr
    push_cast
    linarith
  unfold halfEven
  dsimp only
  split_ifs with hrest
  · exact hfloor
  · -- a floor of `n` would leave a rest below one half
    by_contra hn
    have hk : ⌊x⌋ = n := by omega
    apply hrest
    left
    rw [hk]
    linarith

theorem le_halfEven_of_lt (h : n - 1 / 2 < x) : n ≤ halfEven x := by
  have hfloor : n - 1 ≤ ⌊x⌋ := by
    apply Int.le_floor.mpr
    push_cast
    linarith
  unfold halfEven
  dsimp only
  split_ifs with hrest
  · by_contra hn
    have hk : ⌊x⌋ = n - 1 := by omega
    rw [hk] at hrest
    push_cast at hrest
    rcases hrest with hrest | ⟨hrest, -⟩ <;> linarith
  · omega

theorem le_halfEven_add_half : x ≤ halfEven x + 1 / 2 := by
  by_contra h
  have hgt : halfEven x + 1 ≤ halfEven x := by
    apply le_halfEven_of_lt
    push_cast
    linarith
  omega

theorem halfEven_sub_half_le : (halfEven x : α) - 1 / 2 ≤ x := by
  by_contra h
  have hlt : halfEven x ≤ halfEven x - 1 := by
    apply halfEven_le_of_lt
    push_cast
    linarith
  omega

/-- At a midpoint both arguments are the same number, so parity plays no part. -/
theorem halfEven_mono : Monotone (halfEven : α → ℤ) := by
  intro x y h
  by_contra hlt
  have hstep : (halfEven y : α) + 1 ≤ halfEven x := by
    exact_mod_cast (show halfEven y + 1 ≤ halfEven x by omega)
  have hx : (halfEven x : α) - 1 / 2 ≤ x := halfEven_sub_half_le
  have hy : y ≤ halfEven y + 1 / 2 := le_halfEven_add_half
  have hxy : x = y := by linarith
  rw [hxy] at hlt
  exact hlt (le_refl _)

@[simp] theorem halfEven_intCast (k : ℤ) : halfEven (k : α) = k := by
  apply le_antisymm
  · exact halfEven_le_of_lt (by linarith)
  · exact le_halfEven_of_lt (by linarith)

/-- Below the argument plus `n`, a tie of the argument cannot be followed by a tie. -/
theorem halfEven_le_add (h : y < x + n) : halfEven y ≤ halfEven x + n := by
  apply halfEven_le_of_lt
  have hx : x ≤ halfEven x + 1 / 2 := le_halfEven_add_half
  push_cast
  linarith

/-- A rounded share of an integer grows at most as fast as the integer. -/
theorem halfEven_share_le {r : α} (hr : r ≤ 1) {m : ℤ} (h : m ≤ n) :
    halfEven (n * r) ≤ halfEven (m * r) + (n - m) := by
  rcases lt_or_eq_of_le hr with hr | rfl
  · rcases lt_or_eq_of_le h with h | rfl
    · have hcast : (m : α) < n := by exact_mod_cast h
      apply halfEven_le_add
      push_cast
      nlinarith
    · simp
  · simp

end HalfEven

section GrowsSlowly
variable {α : Type*} [AddCommGroup α] [LinearOrder α] [IsOrderedAddMonoid α]

/-- On `s`, neither `f` nor what it leaves of its argument ever shrinks. -/
structure GrowsSlowly (s : Set α) (f : α → α) : Prop where
  mono : MonotoneOn f s
  rest : MonotoneOn (fun x => x - f x) s

namespace GrowsSlowly
variable {s : Set α} {f g : α → α}

theorem const (a : α) : GrowsSlowly s fun _ => a where
  mono _ _ _ _ _ := le_refl a
  rest _ _ _ _ h := sub_le_sub_right h a

omit [IsOrderedAddMonoid α] in
theorem id : GrowsSlowly s fun x => x where
  mono _ _ _ _ h := h
  rest _ _ _ _ _ := by simp only [sub_self, le_refl]

theorem min (hf : GrowsSlowly s f) (hg : GrowsSlowly s g) :
    GrowsSlowly s fun x => Min.min (f x) (g x) where
  mono := hf.mono.min hg.mono
  rest := by
    have h := hf.rest.max hg.rest
    simpa only [max_sub_sub_left] using h

theorem max (hf : GrowsSlowly s f) (hg : GrowsSlowly s g) :
    GrowsSlowly s fun x => Max.max (f x) (g x) where
  mono := hf.mono.max hg.mono
  rest := by
    have h := hf.rest.min hg.rest
    simpa only [min_sub_sub_left] using h

end GrowsSlowly

end GrowsSlowly

end Rounding
