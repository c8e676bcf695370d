import Qiki.Orders.Books

/-! The coupon ledger: counters and redemptions are what the placed orders used up. -/
namespace Qiki.Orders

/-- The orders that carry a coupon; a cancelled order keeps its coupon. -/
def uses (orders : List Order) (couponId : Uuid) : ℕ :=
  (orders.map Order.couponId).count (some couponId)

/-- The redemption row that belongs to an order. -/
def Order.redemption (o : Order) : Option CouponRedemption :=
  o.couponId.map fun couponId => ⟨couponId, o.userId, o.id⟩

/-- The coupons and redemptions of a run that started from the catalog `c`. -/
structure CouponLedger (c : Catalog) (s : Store) : Prop where
  counters : s.coupons = c.coupons.map fun k =>
    { k with usedCount := k.usedCount + uses s.orders k.id }
  redemptions : s.redemptions = c.redemptions ++ (s.orders.map Order.redemption).reduceOption
  usageLimit : ∀ k ∈ c.coupons, ∀ limit, k.usageLimit = some limit →
    k.usedCount + uses s.orders k.id ≤ max limit k.usedCount
  perUserLimit : ∀ k ∈ c.coupons, ∀ limit, k.perUserLimit = some limit → ∀ u,
    userRedemptions s.redemptions k.id u ≤ max limit (userRedemptions c.redemptions k.id u)
  signedIn : ∀ k ∈ c.coupons, k.perUserLimit.isSome → ∀ o ∈ s.orders, o.couponId = some k.id →
    o.userId.isSome
  discounts : ∀ o ∈ s.orders, ∀ id, o.couponId = some id →
    ∃ k ∈ c.coupons, k.id = id ∧ o.discountAmount = computeDiscount k o.subtotal

theorem uses_append (orders : List Order) (o : Order) (couponId : Uuid) :
    uses (orders ++ [o]) couponId =
      uses orders couponId + if o.couponId = some couponId then 1 else 0 := by
  rw [uses, List.map_append, List.count_append, List.map_singleton, List.count_singleton]
  simp only [uses, beq_iff_eq]

theorem userRedemptions_append (redemptions : List CouponRedemption) (r : CouponRedemption)
    (couponId userId : Uuid) :
    userRedemptions (redemptions ++ [r]) couponId userId = userRedemptions redemptions couponId userId
      + if r.couponId = couponId ∧ r.userId = some userId then 1 else 0 := by
  unfold userRedemptions
  rw [List.filter_append, List.length_append]
  by_cases h : r.couponId = couponId ∧ r.userId = some userId
  · rw [if_pos h, List.filter_cons_of_pos (by simpa using h)]
    rfl
  · rw [if_neg h, List.filter_cons_of_neg (by simpa using h)]
    rfl

theorem couponLedger_catalog (c : Catalog) : CouponLedger c c.store where
  counters := by simp [Catalog.store, uses]
  redemptions := by simp [Catalog.store]
  usageLimit k _ limit _ := le_max_right limit k.usedCount
  perUserLimit k _ limit _ u := le_max_right limit _
  signedIn _ _ _ o ho := by cases ho
  discounts o ho := by cases ho

/-- An update of an order's row leaves the ledger alone. -/
theorem couponLedger_updated {c : Catalog} {s t : Store} {orderId : Uuid} {f : Order → Order}
    (hs : CouponLedger c s) (money : ∀ o, SameMoney o (f o))
    (orders : t.orders = Table.modify Order.id orderId f s.orders)
    (coupons : t.coupons = s.coupons) (redemptions : t.redemptions = s.redemptions) :
    CouponLedger c t := by
  have huses : uses t.orders = uses s.orders := by
    funext couponId
    rw [uses, orders, Table.map_modify fun o _ => (money o).couponId]
    rfl
  have hrows : t.orders.map Order.redemption = s.orders.map Order.redemption := by
    rw [orders]
    refine Table.map_modify fun o _ => ?_
    rw [Order.redemption, (money o).couponId, (money o).userId, (money o).id]
    rfl
  have hold : ∀ o ∈ t.orders, ∃ old ∈ s.orders, SameMoney old o := by
    intro o ho
    rw [orders, Table.mem_modify] at ho
    obtain ⟨old, hold, rfl⟩ := ho
    refine ⟨old, hold, ?_⟩
    split_ifs
    · exact money old
    · exact sameMoney_refl old
  refine ⟨?_, ?_, ?_, ?_, fun k hk hlimit o ho hid => ?_, fun o ho id hid => ?_⟩
  · rw [coupons, huses]
    exact hs.counters
  · rw [redemptions, hrows]
    exact hs.redemptions
  · rw [huses]
    exact hs.usageLimit
  · rw [redemptions]
    exact hs.perUserLimit
  · obtain ⟨old, hold, hmoney⟩ := hold o ho
    rw [hmoney.userId]
    exact hs.signedIn k hk hlimit old hold (hmoney.couponId ▸ hid)
  · obtain ⟨old, hold, hmoney⟩ := hold o ho
    rw [hmoney.discountAmount, hmoney.subtotal]
    exact hs.discounts old hold id (hmoney.couponId ▸ hid)

/-- A new order without a coupon leaves the ledger alone. -/
theorem couponLedger_without {c : Catalog} {s t : Store} {o : Order} (hs : CouponLedger c s)
    (orders : t.orders = s.orders ++ [o]) (coupon : o.couponId = none)
    (coupons : t.coupons = s.coupons) (redemptions : t.redemptions = s.redemptions) :
    CouponLedger c t := by
  have huses : uses t.orders = uses s.orders := by
    funext couponId
    rw [orders, uses_append, coupon]
    simp
  have hrow : o.redemption = none := by rw [Order.redemption, coupon, Option.map_none]
  refine ⟨?_, ?_, ?_, ?_, fun k hk hlimit o' ho' hid => ?_, fun o' ho' id hid => ?_⟩
  · rw [coupons, huses]
    exact hs.counters
  · rw [redemptions, orders, List.map_append, List.map_singleton, hrow,
      List.reduceOption_append, List.reduceOption_singleton, Option.toList_none, List.append_nil]
    exact hs.redemptions
  · rw [huses]
    exact hs.usageLimit
  · rw [redemptions]
    exact hs.perUserLimit
  · rw [orders] at ho'
    rcases List.mem_append.mp ho' with ho' | ho'
    · exact hs.signedIn k hk hlimit o' ho' hid
    · obtain rfl := List.mem_singleton.mp ho'
      rw [coupon] at hid
      cases hid
  · rw [orders] at ho'
    rcases List.mem_append.mp ho' with ho' | ho'
    · exact hs.discounts o' ho' id hid
    · obtain rfl := List.mem_singleton.mp ho'
      rw [coupon] at hid
      cases hid

/-- A redeemed coupon is a catalog coupon with its counter. -/
theorem CouponLedger.stored {c : Catalog} {s : Store} (hs : CouponLedger c s) {k : Coupon}
    (hk : k ∈ s.coupons) :
    ∃ k₀ ∈ c.coupons, k = { k₀ with usedCount := k₀.usedCount + uses s.orders k₀.id } := by
  rw [hs.counters] at hk
  obtain ⟨k₀, hk₀, rfl⟩ := List.mem_map.mp hk
  exact ⟨k₀, hk₀, rfl⟩

/-- A new order with a coupon counts one more use of that coupon and of no other. -/
theorem couponLedger_redeemed {c : Catalog} (hc : (c.coupons.map Coupon.id).Nodup) {s t : Store}
    {o : Order} {k : Coupon} (hs : CouponLedger c s) (orders : t.orders = s.orders ++ [o])
    (stored : k ∈ s.coupons) (coupon : o.couponId = some k.id)
    (discount : o.discountAmount = computeDiscount k o.subtotal)
    (left : ∀ limit, k.usageLimit = some limit → k.usedCount < limit)
    (perUser : ∀ limit, k.perUserLimit = some limit →
      ∃ u, o.userId = some u ∧ userRedemptions s.redemptions k.id u < limit)
    (coupons : t.coupons = Table.modify Coupon.id k.id
      (fun d => { d with usedCount := k.usedCount + 1 }) s.coupons)
    (redemptions : t.redemptions = s.redemptions ++ [⟨k.id, o.userId, o.id⟩]) :
    CouponLedger c t := by
  obtain ⟨k₀, hk₀, rfl⟩ := hs.stored stored
  dsimp only at coupon discount left perUser coupons redemptions
  have hsame : ∀ k ∈ c.coupons, k₀.id = k.id → k = k₀ := fun k hk hid =>
    List.inj_on_of_nodup_map hc hk hk₀ hid.symm
  have huses : ∀ couponId, uses t.orders couponId =
      uses s.orders couponId + if k₀.id = couponId then 1 else 0 := by
    intro couponId
    rw [orders, uses_append, coupon]
    simp only [Option.some.injEq]
  have hrow : o.redemption = some ⟨k₀.id, o.userId, o.id⟩ := by
    rw [Order.redemption, coupon, Option.map_some]
  refine ⟨?_, ?_, fun k hk limit hlimit => ?_, fun k hk limit hlimit u => ?_,
    fun k hk hlimit o' ho' hid => ?_, fun o' ho' id hid => ?_⟩
  · rw [coupons, hs.counters, Table.modify, List.map_map]
    refine List.map_congr_left fun k hk => ?_
    simp only [Function.comp_apply, huses]
    by_cases hid : k.id = k₀.id
    · obtain rfl := hsame k hk hid.symm
      simp [Nat.add_assoc]
    · rw [if_neg hid, if_neg (Ne.symm hid), Nat.add_zero]
  · rw [redemptions, hs.redemptions, orders, List.map_append, List.map_singleton, hrow,
      List.reduceOption_append, List.reduceOption_singleton, Option.toList_some, List.append_assoc]
  · rw [huses]
    split_ifs with hid
    · obtain rfl := hsame k hk hid
      exact le_max_of_le_left (left limit hlimit)
    · exact hs.usageLimit k hk limit hlimit
  · rw [redemptions, userRedemptions_append]
    split_ifs with hnew
    · obtain rfl := hsame k hk hnew.1
      obtain ⟨u', hu', hleft⟩ := perUser limit hlimit
      obtain rfl : u' = u := Option.some.inj (hu'.symm.trans hnew.2)
      exact le_max_of_le_left hleft
    · exact hs.perUserLimit k hk limit hlimit u
  · rw [orders] at ho'
    rcases List.mem_append.mp ho' with ho' | ho'
    · exact hs.signedIn k hk hlimit o' ho' hid
    · obtain rfl := List.mem_singleton.mp ho'
      obtain rfl := hsame k hk (Option.some.inj (coupon.symm.trans hid))
      obtain ⟨limit, hlimit⟩ := Option.isSome_iff_exists.mp hlimit
      obtain ⟨u, hu, -⟩ := perUser limit hlimit
      rw [hu, Option.isSome_some]
  · rw [orders] at ho'
    rcases List.mem_append.mp ho' with ho' | ho'
    · exact hs.discounts o' ho' id hid
    · obtain rfl := List.mem_singleton.mp ho'
      exact ⟨k₀, hk₀, Option.some.inj (coupon.symm.trans hid), discount⟩

/-- The step lemma of the ledger. -/
theorem couponLedger_booked {c : Catalog} (hc : (c.coupons.map Coupon.id).Nodup) {s t : Store}
    (h : Booked s t) (hs : CouponLedger c s) : CouponLedger c t := by
  cases h with
  | updated orderId f money rows orders coupons redemptions =>
    exact couponLedger_updated hs money orders coupons redemptions
  | placed o placed =>
    cases placed.discounted with
    | without coupon discount coupons redemptions =>
      exact couponLedger_without hs placed.orders coupon coupons redemptions
    | redeemed k stored coupon discount left perUser coupons redemptions =>
      exact couponLedger_redeemed hc hs placed.orders stored coupon discount left perUser coupons
        redemptions

/-- In every store that requests reach from a catalog with distinct coupons, each counter has
grown by the orders that carry the coupon, each such order has its redemption row and its
discount, and no limit of a coupon is passed. -/
theorem coupon_ledger (c : Catalog) (hc : (c.coupons.map Coupon.id).Nodup) (rs : List Request) :
    CouponLedger c (serveAll c.store rs) :=
  serveAll_booked c (fun _ _ _ ht => couponLedger_booked hc ht) rs (couponLedger_catalog c)

/-- The shop of ten cylinders with a tenth off, once for each signed-in user. -/
def tenthOff : Catalog where
  products := tenCylinders.products
  coupons := [{
    id := 7, code := "GAS10", discountType := .percent, value := 10, minOrder := 0,
    maxDiscount := none, usageLimit := some 5, usedCount := 2, perUserLimit := some 1,
    active := true, startsAt := none, endsAt := none }]
  redemptions := []
  users := []
  nextId := 100
  ids := tenCylinders.ids
  nonneg := tenCylinders.nonneg

/-- One cylinder with that coupon, for the signed-in user 3. -/
def tenthOffCheckout (key : Uuid) : Request where
  op := .createOrder true { cylinderCheckout 1 with couponCode := some "GAS10" }
    (some ⟨3, .customer, none, none, none, none⟩) key
  clock := ⟨0, 20260101⟩

theorem coupon_ledger_tenthOff :
    (serveAll tenthOff.store [tenthOffCheckout 55, tenthOffCheckout 56]).coupons.map
        (·.usedCount) = [3] ∧
      CouponLedger tenthOff (serveAll tenthOff.store [tenthOffCheckout 55, tenthOffCheckout 56]) :=
  ⟨by decide +kernel, coupon_ledger tenthOff (by decide) _⟩

end Qiki.Orders
