import Qiki.Orders.Session

/-! Coupons inside the order transaction: eligibility, discount, limits and redemption. -/
namespace Qiki.Orders

/-- `quantize(Decimal("0.01"))`: two places, ties to even. -/
def quantizeCents (d : Decimal) : Decimal :=
  let cents := (d * 100).floor
  let rest := d * 100 - cents
  if rest < 1 / 2 ∨ (rest = 1 / 2 ∧ cents % 2 = 0) then cents / 100 else (cents + 1) / 100

/-- The discount before it is held between zero and the subtotal. -/
def rawDiscount (coupon : Coupon) (subtotal : Decimal) : Decimal :=
  let discount := match coupon.discountType with
    | .percent => quantizeCents (subtotal * coupon.value / 100)
    | .fixed => coupon.value
  match coupon.maxDiscount with
  | some cap => if cap < discount then cap else discount
  | none => discount

def computeDiscount (coupon : Coupon) (subtotal : Decimal) : Decimal :=
  let discount := rawDiscount coupon subtotal
  let discount := if subtotal < discount then subtotal else discount
  if discount < 0 then 0 else discount

/-- A discount is never negative and never more than the subtotal it is taken from. -/
theorem computeDiscount_bounds (coupon : Coupon) {subtotal : Decimal} (h : 0 ≤ subtotal) :
    0 ≤ computeDiscount coupon subtotal ∧ computeDiscount coupon subtotal ≤ subtotal := by
  unfold computeDiscount
  generalize rawDiscount coupon subtotal = d
  dsimp only
  by_cases hd : subtotal < d
  · rw [if_pos hd, if_neg (not_lt.mpr h)]
    exact ⟨h, le_refl subtotal⟩
  · rw [if_neg hd]
    by_cases hn : d < 0
    · rw [if_pos hn]
      exact ⟨le_refl 0, h⟩
    · rw [if_neg hn]
      exact ⟨not_lt.mp hn, not_lt.mp hd⟩

def checkEligibility (coupon : Option Coupon) (subtotal : Decimal) (now : Timestamp) :
    Except Exn Coupon :=
  match coupon with
  | none => .error (.couponError "Coupon not found" "coupon_not_found")
  | some coupon =>
    if !coupon.active then .error (.couponError "Coupon is not active" "coupon_inactive")
    else if coupon.startsAt.any (now < ·) then
      .error (.couponError "Coupon is not yet valid" "coupon_not_started")
    else if coupon.endsAt.any (· ≤ now) then
      .error (.couponError "Coupon has expired" "coupon_expired")
    else if coupon.usageLimit.any (· ≤ coupon.usedCount) then
      .error (.couponError "Coupon usage limit reached" "coupon_usage_exhausted")
    else if subtotal < coupon.minOrder then
      .error (.couponError "Order does not meet the minimum for this coupon" "coupon_min_order")
    else .ok coupon

theorem checkEligibility_eq_ok {coupon : Option Coupon} {subtotal : Decimal} {now : Timestamp}
    {c : Coupon} (h : checkEligibility coupon subtotal now = .ok c) :
    coupon = some c ∧ ∀ limit, c.usageLimit = some limit → c.usedCount < limit := by
  cases coupon with
  | none => cases h
  | some d =>
    simp only [checkEligibility] at h
    split_ifs at h with h₁ h₂ h₃ h₄ h₅
    cases h
    refine ⟨rfl, fun limit hl => ?_⟩
    simpa [hl] using h₄

/-- The per-user half of `apply_coupon`, on the number of earlier redemptions. -/
def checkPerUser (coupon : Coupon) (userId : Option Uuid) (used : Uuid → ℕ) : Except Exn Unit :=
  match coupon.perUserLimit with
  | none => .ok ()
  | some limit =>
    match userId with
    | none =>
      .error (.couponError "This coupon requires a signed-in account" "coupon_requires_account")
    | some u =>
      if limit ≤ used u then
        .error (.couponError "You have already used this coupon" "coupon_per_user_exhausted")
      else .ok ()

theorem checkPerUser_eq_ok {coupon : Coupon} {userId : Option Uuid} {used : Uuid → ℕ} {limit : ℕ}
    (h : checkPerUser coupon userId used = .ok ()) (hl : coupon.perUserLimit = some limit) :
    ∃ u, userId = some u ∧ used u < limit := by
  simp only [checkPerUser, hl] at h
  cases userId with
  | none => cases h
  | some u =>
    dsimp only at h
    split_ifs at h with hu
    exact ⟨u, rfl, Nat.lt_of_not_le hu⟩

/-- `count_user_redemptions` on the redemption rows. -/
def userRedemptions (redemptions : List CouponRedemption) (couponId userId : Uuid) : ℕ :=
  (redemptions.filter fun r => r.couponId = couponId ∧ r.userId = some userId).length

/-- `get_by_code_for_update`; stored codes and requested codes are both normalised by
`upper().strip()` when they are validated. -/
def getByCodeForUpdate (code : String) : Db (Option Coupon) := do
  execute
  let s ← getStore
  return Table.find Coupon.code code s.coupons

/-- The per-user limit of `apply_coupon`: only a signed-in user has redemptions to count. -/
def enforcePerUserLimit (coupon : Coupon) (user : Option User) : Db Unit :=
  match coupon.perUserLimit, user with
  | none, _ => pure ()
  | some _, none => liftCheck (checkPerUser coupon none fun _ => 0)
  | some _, some _ => do
    let userId ← readUserId user
    execute
    let s ← getStore
    liftCheck (checkPerUser coupon userId (userRedemptions s.redemptions coupon.id))

def applyCoupon (code : String) (subtotal : Decimal) (user : Option User) (now : Timestamp) :
    Db (Coupon × Decimal) := do
  let found ← getByCodeForUpdate code
  let coupon ← liftCheck (checkEligibility found subtotal now)
  enforcePerUserLimit coupon user
  return (coupon, computeDiscount coupon subtotal)

/-- `record_redemption`: the counter that was read under the row lock goes up by one. -/
def recordRedemption (coupon : Coupon) (user : Option User) (orderId : Uuid) : Db Unit := do
  let userId ← readUserId user
  execute
  execute
  let s ← getStore
  setStore { s with
    coupons := Table.modify Coupon.id coupon.id
      (fun c => { c with usedCount := coupon.usedCount + 1 }) s.coupons
    redemptions := s.redemptions ++ [⟨coupon.id, userId, orderId⟩] }

theorem enforcePerUserLimit_store {coupon : Coupon} {user : Option User} {s t : Session} {u : Unit}
    (h : enforcePerUserLimit coupon user s = .ok (u, t)) : t.store = s.store := by
  unfold enforcePerUserLimit at h
  cases hl : coupon.perUserLimit with
  | none =>
    simp only [hl] at h
    rw [(pure_eq_ok.mp h).2]
  | some limit =>
    simp only [hl] at h
    cases user with
    | none => rw [(liftCheck_eq_ok.mp h).2]
    | some user =>
      obtain ⟨_, s₁, h₁, h⟩ := bind_eq_ok.mp h
      obtain ⟨_, s₂, h₂, h⟩ := bind_eq_ok.mp h
      obtain ⟨_, s₃, h₃, h⟩ := bind_eq_ok.mp h
      rw [(liftCheck_eq_ok.mp h).2, (getStore_eq_ok.mp h₃).2, execute_store h₂,
        (readUserId_eq_ok h₁).1]

theorem getByCodeForUpdate_eq_ok {code : String} {s t : Session} {found : Option Coupon}
    (h : getByCodeForUpdate code s = .ok (found, t)) :
    found = Table.find Coupon.code code s.store.coupons ∧ t.store = s.store := by
  obtain ⟨_, s₁, h₁, h⟩ := bind_eq_ok.mp h
  obtain ⟨_, s₂, h₂, h⟩ := bind_eq_ok.mp h
  obtain ⟨rfl, rfl⟩ := getStore_eq_ok.mp h₂
  obtain ⟨rfl, rfl⟩ := pure_eq_ok.mp h
  rw [execute_store h₁]
  exact ⟨rfl, rfl⟩

/-- Applying a coupon only reads; the accepted coupon is the eligible one with this code. -/
theorem applyCoupon_eq_ok {code : String} {subtotal : Decimal} {user : Option User}
    {now : Timestamp} {s t : Session} {r : Coupon × Decimal}
    (h : applyCoupon code subtotal user now s = .ok (r, t)) :
    t.store = s.store ∧
      checkEligibility (Table.find Coupon.code code s.store.coupons) subtotal now = .ok r.1 ∧
      r.2 = computeDiscount r.1 subtotal := by
  obtain ⟨found, s₁, hfind, h⟩ := bind_eq_ok.mp h
  obtain ⟨coupon, s₂, hcheck, h⟩ := bind_eq_ok.mp h
  obtain ⟨_, s₃, hlimit, h⟩ := bind_eq_ok.mp h
  obtain ⟨hfound, hs₁⟩ := getByCodeForUpdate_eq_ok hfind
  obtain ⟨heligible, hs₂⟩ := liftCheck_eq_ok.mp hcheck
  obtain ⟨hr, ht⟩ := pure_eq_ok.mp h
  rw [hfound] at heligible
  refine ⟨?_, ?_, ?_⟩
  · rw [← ht, enforcePerUserLimit_store hlimit, hs₂, hs₁]
  · rw [← hr]
    exact heligible
  · rw [← hr]

/-- A redemption writes the coupon's row and adds its own, nothing else. -/
theorem recordRedemption_eq_ok {coupon : Coupon} {user : Option User} {orderId : Uuid}
    {s t : Session} {u : Unit} (h : recordRedemption coupon user orderId s = .ok (u, t)) :
    t.store = { s.store with
      coupons := Table.modify Coupon.id coupon.id
        (fun c => { c with usedCount := coupon.usedCount + 1 }) s.store.coupons
      redemptions := s.store.redemptions ++ [⟨coupon.id, user.map (·.id), orderId⟩] } := by
  obtain ⟨userId, s₁, h₁, h⟩ := bind_eq_ok.mp h
  obtain ⟨_, s₂, h₂, h⟩ := bind_eq_ok.mp h
  obtain ⟨_, s₃, h₃, h⟩ := bind_eq_ok.mp h
  obtain ⟨_, s₄, h₄, h⟩ := bind_eq_ok.mp h
  obtain ⟨rfl, hid, -⟩ := readUserId_eq_ok h₁
  obtain ⟨rfl, rfl⟩ := getStore_eq_ok.mp h₄
  rw [setStore_eq_ok.mp h, hid, execute_store h₃, execute_store h₂]

end Qiki.Orders
