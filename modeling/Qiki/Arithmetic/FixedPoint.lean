import Mathlib.Algebra.Order.Floor.Ring
import Mathlib.Tactic.Linarith
import Mathlib.Tactic.Positivity
import Mathlib.Data.Rat.Floor

/-! Columns of a fixed precision and scale: a value is rounded to the scale, ties away from zero,
and refused when it has too many digits. -/
namespace Rounding

/-- The nearest integer; of two equally near ones the one further from zero. -/
def halfAway (x : ℚ) : ℤ := if 0 ≤ x then ⌊x + 1 / 2⌋ else -⌊-x + 1 / 2⌋

theorem halfAway_nonneg {x : ℚ} (h : 0 ≤ x) : 0 ≤ halfAway x := by
  unfold halfAway
  rw [if_pos h]
  exact Int.floor_nonneg.mpr (by linarith)

theorem halfAway_nonpos {x : ℚ} (h : x < 0) : halfAway x ≤ 0 := by
  have hfloor : 0 ≤ ⌊-x + 1 / 2⌋ := Int.floor_nonneg.mpr (by linarith)
  unfold halfAway
  rw [if_neg (not_le.mpr h)]
  omega

theorem halfAway_mono {x y : ℚ} (h : x ≤ y) : halfAway x ≤ halfAway y := by
  rcases lt_or_ge x 0 with hx | hx
  · rcases lt_or_ge y 0 with hy | hy
    · have hfloor : ⌊-y + 1 / 2⌋ ≤ ⌊-x + 1 / 2⌋ := Int.floor_le_floor (by linarith)
      unfold halfAway
      rw [if_neg (not_le.mpr hx), if_neg (not_le.mpr hy)]
      omega
    · exact (halfAway_nonpos hx).trans (halfAway_nonneg hy)
  · have hy : 0 ≤ y := hx.trans h
    unfold halfAway
    rw [if_pos hx, if_pos hy]
    exact Int.floor_le_floor (by linarith)

theorem halfAway_intCast (n : ℤ) : halfAway n = n := by
  have hhalf (k : ℤ) : ⌊(k : ℚ) + 1 / 2⌋ = k := by
    rw [Int.floor_eq_iff]
    constructor <;> linarith
  unfold halfAway
  split_ifs
  · exact hhalf n
  · have hneg := hhalf (-n)
    push_cast at hneg
    rw [hneg, neg_neg]

/-- A column `NUMERIC(precision, scale)`. -/
structure FixedPoint where
  precision : ℕ
  scale : ℕ
  deriving DecidableEq, Repr

namespace FixedPoint
variable (c : FixedPoint)

def round (x : ℚ) : ℚ := halfAway (x * 10 ^ c.scale) / 10 ^ c.scale

/-- The values below this one in size have few enough digits. -/
def bound : ℚ := 10 ^ (c.precision - c.scale)

/-- What the column makes of a value; `none` when it is too large. -/
def store (x : ℚ) : Option ℚ := if |c.round x| < c.bound then some (c.round x) else none

/-- The values that a column holds. -/
def Holds (x : ℚ) : Prop := ∃ n : ℤ, x = n / 10 ^ c.scale

variable {c} {x y : ℚ}

theorem round_mono (h : x ≤ y) : c.round x ≤ c.round y := by
  have hscale : x * 10 ^ c.scale ≤ y * 10 ^ c.scale := by
    apply mul_le_mul_of_nonneg_right h
    positivity
  have hround : (halfAway (x * 10 ^ c.scale) : ℚ) ≤ halfAway (y * 10 ^ c.scale) := by
    exact_mod_cast halfAway_mono hscale
  unfold round
  gcongr

/-- A value of the column stays as it is. -/
theorem Holds.round_eq (h : c.Holds x) : c.round x = x := by
  obtain ⟨n, rfl⟩ := h
  have hpos : (10 : ℚ) ^ c.scale ≠ 0 := by positivity
  unfold round
  rw [div_mul_cancel₀ _ hpos, halfAway_intCast]

theorem holds_intCast (n : ℤ) : c.Holds n := by
  refine ⟨n * 10 ^ c.scale, ?_⟩
  have hpos : (10 : ℚ) ^ c.scale ≠ 0 := by positivity
  push_cast
  rw [mul_div_cancel_right₀ _ hpos]

/-- Rounding does not get a value past an integer. -/
theorem round_le_intCast {n : ℤ} (h : x ≤ n) : c.round x ≤ n := by
  rw [← (holds_intCast (c := c) n).round_eq]
  exact round_mono h

theorem intCast_le_round {n : ℤ} (h : (n : ℚ) ≤ x) : (n : ℚ) ≤ c.round x := by
  rw [← (holds_intCast (c := c) n).round_eq]
  exact round_mono h

/-- A strict order that is left after rounding was there before. -/
theorem lt_of_round_lt (h : c.round x < c.round y) : x < y := by
  by_contra hle
  exact absurd (round_mono (c := c) (not_lt.mp hle)) (not_le.mpr h)

end FixedPoint

end Rounding
