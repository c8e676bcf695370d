import Qiki.Arithmetic.Rounding
import Qiki.Orders.Amounts

/-! The discount of a coupon as a function of the subtotal, and the total it leaves. -/
namespace Qiki.Orders

/-- A multiple of `Decimal("0.01")`. -/
def IsCents (d : Decimal) : Prop := ∃ n : ℤ, d = n / 100

/-- `validate_coupon_rules` -/
def validateCouponRules (c : Coupon) : Except String Coupon :=
  if c.discountType = .percent ∧ 100 < c.value then .error "percent value cannot exceed 100"
  else if c.startsAt.any fun starts => c.endsAt.any (· ≤ starts) then
    .error "ends_at must be after starts_at"
  else .ok c

/-- The field bounds of `CouponBase`, then its rules. -/
def couponBase (c : Coupon) : Bool :=
  0 < c.value && 0 ≤ c.minOrder && c.maxDiscount.all (0 < ·) && c.usageLimit.all (1 ≤ ·) &&
    c.perUserLimit.all (1 ≤ ·) && (validateCouponRules c).isOk

theorem couponBase_bounds {c : Coupon} (h : couponBase c = true) :
    0 < c.value ∧ (∀ cap ∈ c.maxDiscount, 0 < cap) ∧
      (c.discountType = .percent → c.value ≤ 100) := by
  simp only [couponBase, Bool.and_eq_true, decide_eq_true_eq, Option.all_eq_true] at h
  obtain ⟨⟨⟨⟨⟨hvalue, -⟩, hcap⟩, -⟩, -⟩, hrules⟩ := h
  refine ⟨hvalue, hcap, fun hpercent => ?_⟩
  by_contra hlarge
  rw [validateCouponRules, if_pos ⟨hpercent, not_le.mp hlarge⟩] at hrules
  cases hrules

theorem quantizeCents_eq (d : Decimal) :
    quantizeCents d = (Rounding.halfEven (d * 100) : Decimal) / 100 := by
  have hfloor : (d * 100).floor = ⌊d * 100⌋ := rfl
  unfold quantizeCents Rounding.halfEven
  simp only [hfloor]
  split_ifs
  · rfl
  · push_cast
    rfl

/-- The caps of `compute_discount` are a minimum and a maximum. -/
theorem computeDiscount_eq (c : Coupon) (subtotal : Decimal) :
    computeDiscount c subtotal = max 0 (min subtotal (rawDiscount c subtotal)) := by
  unfold computeDiscount
  dsimp only
  rw [← min_def_lt, ← max_def_lt, max_comm]

/-- The subtotals that a cart can have. -/
def subtotals : Set Decimal := fun s => IsCents s ∧ 0 ≤ s

section
variable {c : Coupon} (hc : couponBase c = true)
include hc

theorem percent_growsSlowly (hpercent : c.discountType = .percent) :
    Rounding.GrowsSlowly subtotals fun s => quantizeCents (s * c.value / 100) := by
  obtain ⟨hpos, -, hle⟩ := couponBase_bounds hc
  have hrate : c.value / 100 ≤ 1 := by linarith [hle hpercent]
  -- in cents the discount is a rounded share of an integer
  have hshare (n : ℤ) : quantizeCents ((n : Decimal) / 100 * c.value / 100) =
      (Rounding.halfEven ((n : Decimal) * (c.value / 100)) : Decimal) / 100 := by
    rw [quantizeCents_eq]
    congr 3
    ring
  constructor
  · rintro _ ⟨⟨m, rfl⟩, -⟩ _ ⟨⟨n, rfl⟩, -⟩ h
    dsimp only
    rw [hshare, hshare]
    have hmn : (m : Decimal) ≤ n := by linarith
    have hmono : (Rounding.halfEven ((m : Decimal) * (c.value / 100)) : Decimal) ≤
        Rounding.halfEven ((n : Decimal) * (c.value / 100)) := by
      exact_mod_cast Rounding.halfEven_mono (mul_le_mul_of_nonneg_right hmn (by linarith))
    linarith
  · rintro _ ⟨⟨m, rfl⟩, -⟩ _ ⟨⟨n, rfl⟩, -⟩ h
    dsimp only
    rw [hshare, hshare]
    have hmn : m ≤ n := by
      have hcast : (m : Decimal) ≤ n := by linarith
      exact_mod_cast hcast
    have hstep : (Rounding.halfEven ((n : Decimal) * (c.value / 100)) : Decimal) ≤
        Rounding.halfEven ((m : Decimal) * (c.value / 100)) + (n - m) := by
      exact_mod_cast Rounding.halfEven_share_le hrate hmn
    linarith

theorem rawDiscount_growsSlowly : Rounding.GrowsSlowly subtotals (rawDiscount c) := by
  unfold rawDiscount
  cases htype : c.discountType with
  | percent =>
    have hpercent := percent_growsSlowly hc htype
    cases c.maxDiscount with
    | none => exact hpercent
    | some cap =>
      simp only [← min_def_lt]
      exact (Rounding.GrowsSlowly.const cap).min hpercent
  | fixed =>
    have hfixed : Rounding.GrowsSlowly subtotals fun _ => c.value := .const c.value
    cases c.maxDiscount with
    | none => exact hfixed
    | some cap =>
      simp only [← min_def_lt]
      exact (Rounding.GrowsSlowly.const cap).min hfixed

/-- Buying more never lowers the discount, and never costs less. -/
theorem computeDiscount_growsSlowly :
    Rounding.GrowsSlowly subtotals (computeDiscount c) := by
  have h := (Rounding.GrowsSlowly.const 0).max (Rounding.GrowsSlowly.id.min
    (rawDiscount_growsSlowly hc))
  simpa only [← computeDiscount_eq] using h

theorem computeDiscount_le_max {cap : Decimal} (hcap : c.maxDiscount = some cap) (s : Decimal) :
    computeDiscount c s ≤ cap := by
  obtain ⟨-, hpos, -⟩ := couponBase_bounds hc
  have hraw : rawDiscount c s ≤ cap := by
    unfold rawDiscount
    rw [hcap]
    dsimp only
    split_ifs with h
    · exact le_refl cap
    · exact not_lt.mp h
  rw [computeDiscount_eq]
  exact max_le (hpos cap hcap).le ((min_le_right _ _).trans hraw)

end

/-- The subtotal of a checkout is a sum of prices that the table holds at zero or more. -/
theorem Charged.subtotal_nonneg {checkoutData : CheckoutRequest} {products : List Product}
    {o : Order} (h : Charged checkoutData products o) (hprices : ∀ p ∈ products, 0 ≤ p.price) :
    0 ≤ o.subtotal := by
  rw [h.subtotal]
  apply List.sum_nonneg
  intro x hx
  obtain ⟨i, -, rfl⟩ := List.mem_map.mp hx
  exact chargeBy_nonneg (fun p hp => effectivePrice_nonneg (hprices p hp)) i.productId i.quantity

/-- The total is never clamped: it is at least the shipping fee. -/
theorem shippingFee_le_totalAmount {coupons : Bool} {checkoutData : CheckoutRequest}
    {currentUser : Option User} {key : Uuid} {clock : Clock} {s t : Session} {o : Order}
    (hprices : ∀ p ∈ s.store.products, 0 ≤ p.price)
    (h : placeOrder coupons checkoutData currentUser key clock s = .ok (o, t)) :
    o.totalAmount = o.subtotal + o.shippingFee - o.discountAmount ∧
      o.shippingFee ≤ o.totalAmount := by
  have hcharged := placeOrder_charged h
  have hsubtotal := hcharged.subtotal_nonneg hprices
  have hshipping : 0 ≤ o.shippingFee := by
    rw [hcharged.shippingFee]
    apply List.sum_nonneg
    intro x hx
    obtain ⟨i, -, rfl⟩ := List.mem_map.mp hx
    exact chargeBy_nonneg (fun p _ => feeRate_nonneg p) i.productId i.quantity
  obtain ⟨htotal, hdiscount⟩ := placeOrder_total h
  have hle : o.discountAmount ≤ o.subtotal := by
    rcases hdiscount with ⟨-, hzero⟩ | ⟨_, c, -, -, hcoupon⟩
    · rw [hzero]
      exact hsubtotal
    · rw [hcoupon]
      exact (computeDiscount_bounds c hsubtotal).2
  have hunclamped : o.totalAmount = o.subtotal + o.shippingFee - o.discountAmount := by
    rw [htotal, max_eq_right]
    linarith
  exact ⟨hunclamped, by linarith⟩

/-- Discount arithmetic: the bounds of a discount, its growth with the subtotal, and the total of
a created order. -/
theorem discount_arithmetic :
    (∀ c, couponBase c = true → ∀ s ∈ subtotals, ∀ s' ∈ subtotals, s ≤ s' →
      0 ≤ computeDiscount c s ∧ computeDiscount c s ≤ s ∧
      (∀ cap, c.maxDiscount = some cap → computeDiscount c s ≤ cap) ∧
      computeDiscount c s ≤ computeDiscount c s' ∧
      s - computeDiscount c s ≤ s' - computeDiscount c s') ∧
    ∀ (coupons : Bool) (checkoutData : CheckoutRequest) (currentUser : Option User) (key : Uuid)
      (clock : Clock) (s t : Session) (o : Order), (∀ p ∈ s.store.products, 0 ≤ p.price) →
      Table.find Order.idempotencyKey key s.store.orders = none →
      createOrder coupons checkoutData currentUser key clock s = .ok (o, t) →
      o.totalAmount = o.subtotal + o.shippingFee - o.discountAmount ∧
        o.shippingFee ≤ o.totalAmount := by
  constructor
  · intro c hc s hs s' hs' hle
    have hgrows := computeDiscount_growsSlowly hc
    have hbounds := computeDiscount_bounds c hs.2
    exact ⟨hbounds.1, hbounds.2, fun cap hcap => computeDiscount_le_max hc hcap s,
      hgrows.mono hs hs' hle, hgrows.rest hs hs' hle⟩
  · intro coupons checkoutData currentUser key clock s t o hprices hkey h
    obtain ⟨s₁, hs₁, hplace⟩ := placeOrder_of_createOrder hkey h
    rw [← hs₁] at hprices
    exact shippingFee_le_totalAmount hprices hplace

/-- Seven and a half percent, at most 20 000. -/
def sevenAndAHalf : Coupon where
  id := 31
  code := "GAS7"
  discountType := .percent
  value := 15 / 2
  minOrder := 0
  maxDiscount := some 20000
  usageLimit := none
  usedCount := 0
  perUserLimit := none
  active := true
  startsAt := none
  endsAt := none

/-- A shop that sells one kind of cylinder and has this coupon. -/
def couponShop : Store where
  products := [{
    id := 1, sku := "GAS12", name := "Gas 12kg", brand := "Petro", sizeKg := 12,
    category := .gas, unit := "kg", price := 250000, salePrice := none, stockQuantity := 10,
    isActive := true }]
  orders := []
  deliveries := []
  coupons := [sevenAndAHalf]
  redemptions := []
  users := []
  nextId := 100

/-- A guest buys cylinders with the coupon. -/
def cylindersWithCoupon (quantity : ℕ) : CheckoutRequest where
  items := [⟨1, quantity, false⟩]
  customerName := "Lan"
  customerPhone := some "+84901234567"
  deliveryAddress := "12 Lê Lợi"
  couponCode := some "GAS7"

/-- One more cent of subtotal earns one more cent of discount, and one cylinder costs 231 250. -/
theorem discount_arithmetic_cylinder :
    60 / 100 - computeDiscount sevenAndAHalf (60 / 100) ≤
        61 / 100 - computeDiscount sevenAndAHalf (61 / 100) ∧
      ∃ o t, createOrder true (cylindersWithCoupon 1) none 55 ⟨0, 20260101⟩
        { store := couponShop } = .ok (o, t) ∧ o.shippingFee ≤ o.totalAmount := by
  obtain ⟨hdiscounts, htotals⟩ := discount_arithmetic
  constructor
  · exact (hdiscounts sevenAndAHalf (by decide +kernel) (60 / 100) ⟨⟨60, by norm_num⟩, by norm_num⟩
      (61 / 100) ⟨⟨61, by norm_num⟩, by norm_num⟩ (by norm_num)).2.2.2.2
  · have htotal : (createOrder true (cylindersWithCoupon 1) none 55 ⟨0, 20260101⟩
        { store := couponShop }).map (fun r => r.1.totalAmount) = .ok 231250 := by decide +kernel
    cases h : createOrder true (cylindersWithCoupon 1) none 55 ⟨0, 20260101⟩
        { store := couponShop } with
    | error e =>
      rw [h] at htotal
      cases htotal
    | ok r =>
      exact ⟨r.1, r.2, rfl, (htotals true (cylindersWithCoupon 1) none 55 ⟨0, 20260101⟩
        { store := couponShop } r.2 r.1 (by decide +kernel) rfl h).2⟩

end Qiki.Orders
