import Qiki.Catalog.ShownAmounts
import Qiki.Client.Cart

/-! The amounts of a cart: whole prices are added without an error, and what the page shows of an
amount is the nearest whole number of đồng. -/
namespace Qiki.Client

open Orders Rounding Catalog

/-- The amount that a reader takes from a formatted price. -/
def readPrice (text : Text) : ℤ := readAmount '₫' text

theorem readPrice_formatPrice {amount : ℚ} (h : 0 ≤ amount) :
    readPrice (formatPrice amount) = halfAway amount := by
  have hsign : '₫'.isDigit = false ∧ '₫' ≠ '.' ∧ '₫' ≠ '-' := by simp
  have hgap : ∀ c ∈ ['\u00a0'], c.isDigit = false ∧ c ≠ '₫' := by simp
  have hround : ((halfAway amount).toNat : ℤ) = halfAway amount :=
    Int.toNat_of_nonneg (halfAway_nonneg h)
  unfold readPrice formatPrice
  rw [if_neg (not_lt.mpr h), abs_of_nonneg h, List.nil_append]
  exact ((readAmount_shows (shows_groupThousands (halfAway amount).toNat) hsign hgap []).1).trans
    hround

/-- A half of a đồng is shown, the server charges it. -/
example : formatPrice (411402 + 1 / 2) = "411.403\u00a0₫" := by decide +kernel

/-- The numbers of the page read the prices without an error where the charged one is whole. -/
theorem effectivePriceValue_double {price : ℚ} {salePrice : Option ℚ} {n : ℕ}
    (h : effectivePriceValue price salePrice = n) (hn : n < 2 ^ 53) :
    effectivePriceValue (double price) (salePrice.map double) = n := by
  unfold effectivePriceValue at h ⊢
  cases salePrice with
  | none =>
    dsimp only [Option.map_none] at h ⊢
    rw [h, double_natCast hn]
  | some sale =>
    dsimp only [Option.map_some] at h ⊢
    by_cases hsale : 0 < sale ∧ sale < price
    · rw [if_pos hsale] at h
      subst h
      have hle := (double_natCast hn).symm.trans_le (double_mono hsale.1.le hsale.2.le)
      rw [double_natCast hn]
      split_ifs with hless
      · rfl
      · -- a list price that is rounded to the sale price
        exact le_antisymm (not_lt.mp fun hlt => hless ⟨hsale.1, hlt⟩) hle
    · rw [if_neg hsale] at h
      subst h
      rw [double_natCast hn, if_neg]
      rintro ⟨hpos, hless⟩
      rcases le_or_gt sale 0 with hsign | hsign
      · exact absurd (double_nonpos hsign) (not_le.mpr hpos)
      · have hle : (n : ℚ) ≤ sale := not_lt.mp fun hlt => hsale ⟨hsign, hlt⟩
        have hround := (double_natCast hn).symm.trans_le (double_mono (Nat.cast_nonneg n) hle)
        exact absurd hless (not_lt.mpr hround)

/-- Lines with whole prices add up exactly. -/
theorem getTotal_exact {items : List CartItem} {amount : CartItem → ℕ}
    (hamount : ∀ item ∈ items, item.price * item.quantity = amount item)
    (hsum : (items.map amount).sum < 2 ^ 53) : getTotal items = ((items.map amount).sum : ℕ) := by
  have hline : ∀ item ∈ items, double (item.price * item.quantity) = amount item := by
    intro item hitem
    have hle : amount item ≤ (items.map amount).sum :=
      List.single_le_sum (fun _ _ => Nat.zero_le _) _ (List.mem_map_of_mem hitem)
    rw [hamount item hitem, double_natCast (hle.trans_lt hsum)]
  have hrun := foldl_double_add hline 0 (by rwa [zero_add])
  rw [zero_add, Nat.cast_zero] at hrun
  exact hrun

/-- The subtotal of whole prices is whole, however large, and is sent without decimal places. -/
theorem shortest_getTotal {items : List CartItem} (h : ∀ item ∈ items, ∃ k : ℤ, item.price = k) :
    ∃ n : ℤ, shortest (getTotal items) = n := by
  have hrun (sum : ℚ) (hsum : (∃ k : ℤ, sum = k) ∧ double sum = sum) :
      (∃ k : ℤ, items.foldl (fun sum item => double (sum + double (item.price * item.quantity)))
        sum = k) ∧
      double (items.foldl (fun sum item => double (sum + double (item.price * item.quantity)))
        sum) =
        items.foldl (fun sum item => double (sum + double (item.price * item.quantity))) sum := by
    induction items generalizing sum with
    | nil => exact hsum
    | cons item items ih =>
      refine ih (fun i hi => h i (List.mem_cons_of_mem item hi)) _ ⟨?_, double_double _⟩
      obtain ⟨k, hk⟩ := h item List.mem_cons_self
      obtain ⟨⟨s, rfl⟩, -⟩ := hsum
      obtain ⟨line, hline⟩ := double_integer (k * item.quantity)
      push_cast at hline
      show ∃ n : ℤ, double (s + double (item.price * item.quantity)) = n
      rw [hk, hline, ← Int.cast_add]
      exact double_integer (s + line)
  have hzero : double ((0 : ℕ) : ℚ) = (0 : ℕ) := double_natCast (by norm_num)
  obtain ⟨hinteger, hdouble⟩ := hrun 0 ⟨⟨0, Int.cast_zero.symm⟩, by rwa [Nat.cast_zero] at hzero⟩
  exact shortest_integer hinteger hdouble

/-- Water by the unit. -/
theorem calculateCartShipping_exact {items : List CartItem} {units : CartItem → ℕ}
    (hunits : ∀ item ∈ items, (item.quantity : ℚ) = units item)
    (hsum : 5000 * ((items.filter fun item => item.category = some .nuocUong).map units).sum <
      2 ^ 53) :
    calculateCartShipping items =
      5000 * (((items.filter fun item => item.category = some .nuocUong).map units).sum : ℕ) := by
  have hwater : ∀ item ∈ items.filter fun item => item.category = some .nuocUong,
      (item.quantity : ℚ) = units item :=
    fun item hitem => hunits item (List.mem_of_mem_filter hitem)
  have hrun := foldl_double_add hwater 0 (by omega)
  rw [zero_add, Nat.cast_zero] at hrun
  unfold calculateCartShipping waterDeliveryFeePerUnit
  dsimp only
  rw [hrun]
  exact_mod_cast double_natCast hsum

end Qiki.Client
