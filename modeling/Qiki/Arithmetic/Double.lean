import Mathlib.Algebra.Order.Floor.Semiring
import Mathlib.Data.Rat.Floor
import Mathlib.Tactic.FieldSimp
import Mathlib.Tactic.Ring
import Qiki.Arithmetic.FixedPoint
import Qiki.Arithmetic.Rounding

/-! Rationals rounded to binary64, nearest and ties to even. Values are counted in units of
`2 ^ -1074`, the least positive number; the exponent has no upper end. -/
namespace Rounding

/-- The grid on which a value in least units is rounded: 53 bits are kept. -/
def gridShift (units : ℚ) : ℕ := Nat.log2 ⌊|units|⌋₊ - 52

def roundUnits (units : ℚ) : ℚ :=
  halfEven (units / 2 ^ gridShift units) * 2 ^ gridShift units

/-- The binary64 number nearest to a rational. -/
def double (x : ℚ) : ℚ := roundUnits (x * 2 ^ 1074) / 2 ^ 1074

section Grid
variable {u v : ℚ}

theorem abs_lt_grid (u : ℚ) : |u| < 2 ^ (53 + gridShift u) := by
  have hlog : Nat.log2 ⌊|u|⌋₊ + 1 ≤ 53 + gridShift u := by
    unfold gridShift
    omega
  have hfloor : ⌊|u|⌋₊ + 1 ≤ 2 ^ (53 + gridShift u) :=
    Nat.lt_log2_self.trans_le (Nat.pow_le_pow_right two_pos hlog)
  calc |u| < ⌊|u|⌋₊ + 1 := Nat.lt_floor_add_one _
    _ ≤ 2 ^ (53 + gridShift u) := by exact_mod_cast hfloor

theorem gridShift_le {s : ℕ} (h : |u| < 2 ^ (53 + s)) : gridShift u ≤ s := by
  have hfloor : ⌊|u|⌋₊ < 2 ^ (53 + s) := by
    rw [Nat.floor_lt (abs_nonneg u)]
    exact_mod_cast h
  unfold gridShift
  by_cases hzero : ⌊|u|⌋₊ = 0
  · rw [hzero, Nat.log2_zero]
    omega
  · have hlog := (Nat.log2_lt hzero).mpr hfloor
    omega

theorem grid_le_abs (h : 0 < gridShift u) : 2 ^ (52 + gridShift u) ≤ |u| := by
  have hlog : 52 + gridShift u = Nat.log2 ⌊|u|⌋₊ := by
    unfold gridShift at h ⊢
    omega
  have hzero : ⌊|u|⌋₊ ≠ 0 := by
    intro hzero
    unfold gridShift at h
    rw [hzero, Nat.log2_zero] at h
    exact absurd h (lt_irrefl 0)
  have hpow : (2 : ℕ) ^ Nat.log2 ⌊|u|⌋₊ ≤ ⌊|u|⌋₊ := Nat.log2_self_le hzero
  rw [hlog]
  calc (2 : ℚ) ^ Nat.log2 ⌊|u|⌋₊ ≤ ⌊|u|⌋₊ := by exact_mod_cast hpow
    _ ≤ |u| := Nat.floor_le (abs_nonneg u)

theorem gridShift_mono (hu : 0 ≤ u) (h : u ≤ v) : gridShift u ≤ gridShift v := by
  apply gridShift_le
  rw [abs_of_nonneg hu]
  have hv := abs_lt_grid v
  rw [abs_of_nonneg (hu.trans h)] at hv
  exact h.trans_lt hv

theorem pow_pos_two (s : ℕ) : (0 : ℚ) < 2 ^ s := pow_pos two_pos s

/-- The kept part has at most 53 bits. -/
theorem abs_halfEven_le (u : ℚ) : |halfEven (u / 2 ^ gridShift u)| ≤ 2 ^ 53 := by
  have hpos := pow_pos_two (gridShift u)
  have hsmall : |u / 2 ^ gridShift u| ≤ 2 ^ 53 := by
    rw [abs_div, abs_of_pos hpos, div_le_iff₀ hpos, ← pow_add]
    exact (abs_lt_grid u).le
  obtain ⟨hlow, hhigh⟩ := abs_le.mp hsmall
  have hup : halfEven (u / 2 ^ gridShift u) ≤ halfEven ((2 ^ 53 : ℤ) : ℚ) :=
    halfEven_mono (by push_cast; exact hhigh)
  have hdown : halfEven ((-2 ^ 53 : ℤ) : ℚ) ≤ halfEven (u / 2 ^ gridShift u) :=
    halfEven_mono (by push_cast; exact hlow)
  rw [halfEven_intCast] at hup hdown
  exact abs_le.mpr ⟨hdown, hup⟩

/-- A value on a coarse enough grid stays as it is. -/
theorem roundUnits_of_grid {k : ℤ} {s : ℕ} (hk : |k| < 2 ^ 53) :
    roundUnits (k * 2 ^ s) = k * 2 ^ s := by
  have hcast : |(k : ℚ)| < 2 ^ 53 := by exact_mod_cast hk
  have hshift : gridShift (k * 2 ^ s) ≤ s := by
    apply gridShift_le
    rw [abs_mul, abs_of_pos (pow_pos_two s), pow_add]
    exact mul_lt_mul_of_pos_right hcast (pow_pos_two s)
  have hquotient : (k : ℚ) * 2 ^ s / 2 ^ gridShift (k * 2 ^ s) =
      ((k * 2 ^ (s - gridShift (k * 2 ^ s)) : ℤ) : ℚ) := by
    push_cast
    rw [div_eq_iff (pow_pos_two _).ne', mul_assoc, ← pow_add, Nat.sub_add_cancel hshift]
  unfold roundUnits
  rw [hquotient, halfEven_intCast, ← hquotient, div_mul_cancel₀ _ (pow_pos_two _).ne']

theorem roundUnits_roundUnits (u : ℚ) : roundUnits (roundUnits u) = roundUnits u := by
  have hle := abs_halfEven_le u
  rw [show roundUnits u = halfEven (u / 2 ^ gridShift u) * 2 ^ gridShift u from rfl]
  generalize halfEven (u / 2 ^ gridShift u) = k at hle ⊢
  rcases hle.lt_or_eq with hlt | heq
  · exact roundUnits_of_grid hlt
  · -- a full significand is a power of two on the next grid
    obtain ⟨j, hj⟩ : ∃ j : ℤ, k = j * 2 ∧ |j| < 2 ^ 53 := by
      refine ⟨k / 2, ?_, ?_⟩
      · rcases abs_eq (by norm_num) |>.mp heq with rfl | rfl <;> norm_num
      · rcases abs_eq (by norm_num) |>.mp heq with rfl | rfl <;> norm_num
    have hnext : (k : ℚ) * 2 ^ gridShift u = j * 2 ^ (gridShift u + 1) := by
      rw [hj.1]
      push_cast
      ring
    rw [hnext]
    exact roundUnits_of_grid hj.2

theorem roundUnits_mono (hu : 0 ≤ u) (h : u ≤ v) : roundUnits u ≤ roundUnits v := by
  unfold roundUnits
  rcases (gridShift_mono hu h).lt_or_eq with hlt | heq
  · -- between the two grids lies a power of two
    have hpower : (2 : ℚ) ^ (53 + gridShift u) ≤ 2 ^ (52 + gridShift v) :=
      pow_le_pow_right₀ one_le_two (by omega)
    have hbelow : (halfEven (u / 2 ^ gridShift u) : ℚ) * 2 ^ gridShift u ≤
        2 ^ (53 + gridShift u) := by
      have hle : (halfEven (u / 2 ^ gridShift u) : ℚ) ≤ 2 ^ 53 := by
        exact_mod_cast (abs_le.mp (abs_halfEven_le u)).2
      rw [pow_add]
      exact mul_le_mul_of_nonneg_right hle (pow_pos_two _).le
    have habove : (2 : ℚ) ^ (52 + gridShift v) ≤
        halfEven (v / 2 ^ gridShift v) * 2 ^ gridShift v := by
      have hv := grid_le_abs (by omega : 0 < gridShift v)
      rw [abs_of_nonneg (hu.trans h)] at hv
      have hquotient : ((2 ^ 52 : ℤ) : ℚ) ≤ v / 2 ^ gridShift v := by
        rw [Int.cast_pow, Int.cast_ofNat, le_div_iff₀ (pow_pos_two _), ← pow_add]
        exact hv
      have hle := halfEven_mono hquotient
      rw [halfEven_intCast] at hle
      have hle : ((2 : ℚ) ^ 52) ≤ halfEven (v / 2 ^ gridShift v) := by exact_mod_cast hle
      rw [pow_add]
      exact mul_le_mul_of_nonneg_right hle (pow_pos_two _).le
    exact hbelow.trans (hpower.trans habove)
  · rw [heq]
    have hpos := pow_pos_two (gridShift v)
    have hle : u / 2 ^ gridShift v ≤ v / 2 ^ gridShift v := by
      rw [div_le_div_iff_of_pos_right hpos]
      exact h
    have hround : (halfEven (u / 2 ^ gridShift v) : ℚ) ≤ halfEven (v / 2 ^ gridShift v) := by
      exact_mod_cast halfEven_mono hle
    exact mul_le_mul_of_nonneg_right hround hpos.le

end Grid

section Double
variable {x y : ℚ}

theorem double_mono (hx : 0 ≤ x) (h : x ≤ y) : double x ≤ double y := by
  have hpos := pow_pos_two 1074
  have hunits : x * 2 ^ 1074 ≤ y * 2 ^ 1074 := mul_le_mul_of_nonneg_right h hpos.le
  unfold double
  rw [div_le_div_iff_of_pos_right hpos]
  exact roundUnits_mono (mul_nonneg hx hpos.le) hunits

theorem double_double (x : ℚ) : double (double x) = double x := by
  unfold double
  rw [div_mul_cancel₀ _ (pow_pos_two 1074).ne', roundUnits_roundUnits]

/-- Dyadic fractions with few enough bits are binary64 numbers. -/
theorem double_dyadic {k : ℤ} (hk : |k| < 2 ^ 53) {e : ℕ} (he : e ≤ 1074) :
    double (k / 2 ^ e) = k / 2 ^ e := by
  have hunits : (k : ℚ) / 2 ^ e * 2 ^ 1074 = k * 2 ^ (1074 - e) := by
    rw [div_mul_eq_mul_div, div_eq_iff (pow_pos_two e).ne', mul_assoc, ← pow_add,
      Nat.sub_add_cancel he]
  unfold double
  rw [hunits, roundUnits_of_grid hk, ← hunits, mul_div_cancel_right₀ _ (pow_pos_two 1074).ne']

theorem double_intCast {k : ℤ} (hk : |k| < 2 ^ 53) : double k = k := by
  simpa using double_dyadic hk (Nat.zero_le 1074)

theorem double_natCast {n : ℕ} (hn : n < 2 ^ 53) : double n = n := by
  have hbits : |(n : ℤ)| < 2 ^ 53 := by
    rw [abs_of_nonneg (Int.natCast_nonneg n)]
    exact_mod_cast hn
  exact_mod_cast double_intCast hbits

theorem double_nonneg (hx : 0 ≤ x) : 0 ≤ double x := by
  have hzero : double ((0 : ℤ) : ℚ) = (0 : ℤ) := double_intCast (by norm_num)
  have hle := double_mono (le_of_eq Int.cast_zero.symm) (Int.cast_zero.trans_le hx)
  rw [hzero, Int.cast_zero] at hle
  exact hle

theorem double_nonpos (hx : x ≤ 0) : double x ≤ 0 := by
  have hunits : x * 2 ^ 1074 ≤ 0 := mul_nonpos_of_nonpos_of_nonneg hx (pow_pos_two 1074).le
  have hround : halfEven (x * 2 ^ 1074 / 2 ^ gridShift (x * 2 ^ 1074)) ≤ halfEven ((0 : ℤ) : ℚ) :=
    halfEven_mono (by
      rw [Int.cast_zero]
      exact div_nonpos_of_nonpos_of_nonneg hunits (pow_pos_two _).le)
  rw [halfEven_intCast] at hround
  have hround : ((halfEven (x * 2 ^ 1074 / 2 ^ gridShift (x * 2 ^ 1074)) : ℤ) : ℚ) ≤ 0 := by
    exact_mod_cast hround
  unfold double roundUnits
  exact div_nonpos_of_nonpos_of_nonneg
    (mul_nonpos_of_nonpos_of_nonneg hround (pow_pos_two _).le) (pow_pos_two 1074).le

/-- Rounding commutes with a bound that is a number of the format. -/
theorem min_double_natCast (hx : 0 ≤ x) {n : ℕ} (hn : n < 2 ^ 53) :
    min (double x) n = double (min x n) := by
  rcases le_total x n with hle | hle
  · have hround := (double_mono hx hle).trans_eq (double_natCast hn)
    rw [min_eq_left hle, min_eq_left hround]
  · have hround := (double_natCast hn).symm.trans_le (double_mono (Nat.cast_nonneg n) hle)
    rw [min_eq_right hle, min_eq_right hround, double_natCast hn]

/-- A running sum of natural numbers is exact while it is small enough. -/
theorem foldl_double_add {α : Type*} {v : α → ℚ} {g : α → ℕ} {l : List α}
    (hv : ∀ a ∈ l, v a = g a) (s : ℕ) (hsum : s + (l.map g).sum < 2 ^ 53) :
    l.foldl (fun sum a => double (sum + v a)) (s : ℚ) = ((s + (l.map g).sum : ℕ) : ℚ) := by
  induction l generalizing s with
  | nil => simp
  | cons a l ih =>
    rw [List.map_cons, List.sum_cons] at hsum
    have hstep : double ((s : ℚ) + v a) = ((s + g a : ℕ) : ℚ) := by
      rw [hv a List.mem_cons_self, ← Nat.cast_add, double_natCast (by omega)]
    rw [List.foldl_cons, hstep, ih (fun b hb => hv b (List.mem_cons_of_mem a hb)) (s + g a)
      (by omega), List.map_cons, List.sum_cons, add_assoc]

/-- Integers of any size are rounded to integers. -/
theorem double_integer (k : ℤ) : ∃ n : ℤ, double k = n := by
  unfold double roundUnits
  generalize hshift : gridShift ((k : ℚ) * 2 ^ 1074) = s
  rcases le_or_gt s 1074 with hs | hs
  · have hquotient : (k : ℚ) * 2 ^ 1074 / 2 ^ s = ((k * 2 ^ (1074 - s) : ℤ) : ℚ) := by
      push_cast
      rw [div_eq_iff (pow_pos_two s).ne', mul_assoc, ← pow_add, Nat.sub_add_cancel hs]
    refine ⟨k, ?_⟩
    rw [hquotient, halfEven_intCast, ← hquotient, div_mul_cancel₀ _ (pow_pos_two s).ne',
      mul_div_cancel_right₀ _ (pow_pos_two 1074).ne']
  · refine ⟨halfEven ((k : ℚ) * 2 ^ 1074 / 2 ^ s) * 2 ^ (s - 1074), ?_⟩
    push_cast
    rw [div_eq_iff (pow_pos_two 1074).ne', mul_assoc, ← pow_add, Nat.sub_add_cancel hs.le]

/-- What is at most a number of the format is rounded to at most that number. -/
theorem double_le_dyadic {k : ℤ} (hk : |k| < 2 ^ 53) {e : ℕ} (he : e ≤ 1074) (hx : 0 ≤ x)
    (h : x ≤ (k : ℚ) / 2 ^ e) : double x ≤ (k : ℚ) / 2 ^ e :=
  (double_mono hx h).trans_eq (double_dyadic hk he)

theorem dyadic_le_double {k : ℤ} (hk : |k| < 2 ^ 53) {e : ℕ} (he : e ≤ 1074) (hx : 0 ≤ x)
    (h : (k : ℚ) / 2 ^ e ≤ x) : (k : ℚ) / 2 ^ e ≤ double x := by
  rcases le_or_gt 0 ((k : ℚ) / 2 ^ e) with hpos | hneg
  · exact (double_dyadic hk he).symm.trans_le (double_mono hpos h)
  · exact hneg.le.trans (double_nonneg hx)

end Double

/-! The decimals in which binary64 numbers are written. -/

/-- The nearest decimal with `j` digits from the first one of a number of so many digits. -/
def decimalAt (x : ℚ) (digits j : ℕ) : ℚ :=
  halfAway (x * 10 ^ j / 10 ^ digits) * 10 ^ digits / 10 ^ j

/-- The shortest decimal that is rounded to the number, of several the nearest to it. -/
def shortest (x : ℚ) : ℚ :=
  let digits := (Nat.toDigits 10 ⌊|x|⌋₊).length
  match (List.range (digits + 350)).find? fun j => double (decimalAt x digits j) = x with
  | some j => decimalAt x digits j
  | none => x

/-- An integer is written without decimal places. -/
theorem shortest_integer {x : ℚ} (hx : ∃ k : ℤ, x = k) (hdouble : double x = x) :
    ∃ n : ℤ, shortest x = n := by
  obtain ⟨k, rfl⟩ := hx
  have hten (m : ℕ) : (10 : ℚ) ^ m ≠ 0 := pow_ne_zero m (by norm_num)
  unfold shortest
  dsimp only
  split
  · rename_i j hj
    generalize (Nat.toDigits 10 ⌊|(k : ℚ)|⌋₊).length = digits at hj ⊢
    obtain ⟨-, -, hfirst⟩ := List.find?_range_eq_some.mp hj
    -- all the digits before the point are enough
    have hle : j ≤ digits := by
      by_contra hgt
      have hself : decimalAt k digits digits = k := by
        unfold decimalAt
        rw [mul_div_cancel_right₀ _ (hten digits), mul_div_cancel_right₀ _ (hten digits),
          halfAway_intCast]
      have hfails := hfirst digits (not_le.mp hgt)
      rw [hself, hdouble, decide_eq_true rfl] at hfails
      cases hfails
    refine ⟨halfAway ((k : ℚ) * 10 ^ j / 10 ^ digits) * 10 ^ (digits - j), ?_⟩
    unfold decimalAt
    push_cast
    rw [div_eq_iff (hten j), mul_assoc, ← pow_add, Nat.sub_add_cancel hle]
  · exact ⟨k, rfl⟩

/-! Amounts in hundredths. -/

theorem halfAway_eq_iff {x : ℚ} (hx : 0 ≤ x) {n : ℤ} :
    halfAway x = n ↔ (n : ℚ) - 1 / 2 ≤ x ∧ x < n + 1 / 2 := by
  unfold halfAway
  rw [if_pos hx, Int.floor_eq_iff]
  constructor
  · rintro ⟨hlow, hhigh⟩
    constructor <;> linarith
  · rintro ⟨hlow, hhigh⟩
    constructor <;> linarith

/-- An amount in hundredths that is taken from an integer, with both rounded to binary64, still
comes to the same integer. -/
theorem halfAway_double_sub {total : ℤ} (hsmall : total < 2 ^ 44) {amount : ℚ}
    (hcents : ∃ k : ℤ, amount = k / 100) (hnonneg : 0 ≤ amount) (hle : amount ≤ total) :
    halfAway (double (total - double amount)) = halfAway (total - amount) := by
  have hrest : 0 ≤ (total : ℚ) - amount := by linarith
  obtain ⟨hlow, hhigh⟩ := (halfAway_eq_iff hrest).mp rfl
  generalize halfAway ((total : ℚ) - amount) = k at hlow hhigh ⊢
  obtain ⟨a, rfl⟩ := hcents
  -- hundredths below one half stay clear of it by more than a 256th
  have hclear : (total : ℚ) - a / 100 ≤ k + 127 / 256 := by
    have hint : 100 * total - a < 100 * k + 50 := by
      have hscaled : (100 : ℚ) * total - a < 100 * k + 50 := by linarith
      exact_mod_cast hscaled
    have hint : (100 : ℚ) * total - a ≤ 100 * k + 49 := by
      exact_mod_cast (show 100 * total - a ≤ 100 * k + 49 by omega)
    linarith
  have hk : 0 ≤ k ∧ k ≤ total := by
    have hpos : (-1 : ℚ) < k := by linarith
    have htotal : (k : ℚ) < total + 1 := by linarith
    have hpos : -1 < k := by exact_mod_cast hpos
    have htotal : k < total + 1 := by exact_mod_cast htotal
    omega
  have htaken : double ((a : ℚ) / 100) ≤ total - k + 1 / 2 := by
    have hbits : |2 * (total - k) + 1| < 2 ^ 53 := by rw [abs_lt]; omega
    have hdyadic := double_le_dyadic hbits (by norm_num : 1 ≤ 1074) hnonneg
      (by push_cast; linarith)
    push_cast at hdyadic
    linarith
  have hleft : (total : ℚ) - k - 127 / 256 ≤ double (a / 100) := by
    have hbits : |256 * (total - k) - 127| < 2 ^ 53 := by rw [abs_lt]; omega
    have hdyadic := dyadic_le_double hbits (by norm_num : 8 ≤ 1074) hnonneg
      (by push_cast; linarith)
    push_cast at hdyadic
    linarith
  have hfits : double ((a : ℚ) / 100) ≤ total := by
    have hbits : |total| < 2 ^ 53 := by rw [abs_lt]; omega
    have hdyadic := double_le_dyadic hbits (by norm_num : 0 ≤ 1074) hnonneg
      (by linarith)
    linarith
  have hdifference : 0 ≤ (total : ℚ) - double (a / 100) := by linarith
  have habove : (k : ℚ) - 1 / 2 ≤ double (total - double (a / 100)) := by
    have hbits : |2 * k - 1| < 2 ^ 53 := by rw [abs_lt]; omega
    have hdyadic := dyadic_le_double hbits (by norm_num : 1 ≤ 1074) hdifference
      (by push_cast; linarith)
    push_cast at hdyadic
    linarith
  have hbelow : double ((total : ℚ) - double (a / 100)) ≤ k + 127 / 256 := by
    have hbits : |256 * k + 127| < 2 ^ 53 := by rw [abs_lt]; omega
    have hdyadic := double_le_dyadic hbits (by norm_num : 8 ≤ 1074) hdifference
      (by push_cast; linarith)
    push_cast at hdyadic
    linarith
  refine (halfAway_eq_iff (double_nonneg hdifference)).mpr ⟨habove, ?_⟩
  linarith

end Rounding
