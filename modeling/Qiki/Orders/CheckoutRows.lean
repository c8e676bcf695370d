import Qiki.Orders.Amounts
import Qiki.Orders.Availability

/-! The rows that `create_order` hands to the repository: when it gets to them, and what they
hold. -/
namespace Qiki.Orders

/-- `create_order` up to the rows that it hands to the repository. -/
def checkoutRows (coupons : Bool) (checkoutData : CheckoutRequest) (currentUser : Option User)
    (idempotencyKey : Uuid) (clock : Clock) : Db (OrderData × List ItemData) := do
  let productIds := (checkoutData.items.map (·.productId)).dedup
  let products ← getManyForUpdate productIds
  liftCheck (checkProducts products productIds)
  let requested := requestedByProduct checkoutData.items
  let itemsData ← liftCheck
    (priceLines products (exchangeByProduct checkoutData.items) requested)
  let subtotal := (itemsData.map (·.subtotal)).sum
  let shippingFee := calculateShipping products requested
  let (coupon, discountAmount) ←
    applyCheckoutCoupon coupons checkoutData.couponCode subtotal currentUser clock.now
  let totalAmount := max 0 (subtotal + shippingFee - discountAmount)
  decrementAll requested
  let userId ← readUserId currentUser
  return (⟨userId, checkoutData, subtotal, shippingFee, discountAmount, coupon, totalAmount,
    idempotencyKey⟩, itemsData)

theorem placeOrder_eq (coupons : Bool) (checkoutData : CheckoutRequest)
    (currentUser : Option User) (key : Uuid) (clock : Clock) :
    placeOrder coupons checkoutData currentUser key clock = do
      let rows ← checkoutRows coupons checkoutData currentUser key clock
      let order ← createWithItems rows.1 rows.2 clock
      recordCheckoutRedemption rows.1.coupon currentUser order.id
      return order := by
  simp only [placeOrder, checkoutRows, bind_assoc, pure_bind]

/-! When `create_order` gets to its rows. -/

/-- What a payload asks for, at the effective prices of the catalog. -/
def priceSum (products : List Product) (items : List OrderItemCreate) : Decimal :=
  (items.map fun i => chargeBy Product.effectivePrice products i.productId i.quantity).sum

def feeSum (products : List Product) (items : List OrderItemCreate) : Decimal :=
  (items.map fun i => chargeBy Product.feeRate products i.productId i.quantity).sum

theorem priceSum_nonneg {products : List Product} (h : ∀ p ∈ products, 0 ≤ p.price)
    (items : List OrderItemCreate) : 0 ≤ priceSum products items := by
  apply List.sum_nonneg
  intro x hx
  obtain ⟨i, -, rfl⟩ := List.mem_map.mp hx
  exact chargeBy_nonneg (fun p hp => effectivePrice_nonneg (h p hp)) i.productId i.quantity

theorem feeSum_nonneg (products : List Product) (items : List OrderItemCreate) :
    0 ≤ feeSum products items := by
  apply List.sum_nonneg
  intro x hx
  obtain ⟨i, -, rfl⟩ := List.mem_map.mp hx
  exact chargeBy_nonneg (fun p _ => feeRate_nonneg p) i.productId i.quantity

/-- The discount of the coupon with this code. -/
def couponDiscount (store : Store) (code : Option String) (subtotal : Decimal) : Decimal :=
  (code.bind fun text => Table.find Coupon.code text store.coupons).elim 0
    fun c => computeDiscount c subtotal

/-- The code, if there is one, is that of a coupon that the user may use on this subtotal. -/
def CouponAccepted (coupons : Bool) (store : Store) (code : Option String) (subtotal : Decimal)
    (user : Option User) (now : Timestamp) : Prop :=
  ∀ text ∈ code, coupons = true ∧ ∃ c,
    checkEligibility (Table.find Coupon.code text store.coupons) subtotal now = .ok c ∧
      checkPerUser c (user.map (·.id)) (userRedemptions store.redemptions c.id) = .ok ()

/-- No statement fails, and the session's objects are there. -/
structure Session.Undisturbed (s : Session) : Prop where
  noFault : s.failAt = none
  unexpired : s.expired = false

/-- The call ends with this result and these tables. -/
def Succeeds {α : Type} (m : Db α) (s : Session) (a : α) (store : Store) : Prop :=
  ∃ t, m s = .ok (a, t) ∧ t.Undisturbed ∧ t.store = store

section
variable {α β : Type} {s : Session} {store store' : Store}

theorem Succeeds.bind {x : Db α} {f : α → Db β} {a : α} {b : β} (hx : Succeeds x s a store)
    (hf : ∀ t : Session, t.Undisturbed → t.store = store → Succeeds (f a) t b store') :
    Succeeds (x >>= f) s b store' := by
  obtain ⟨t, ht, hundisturbed, hstore⟩ := hx
  obtain ⟨u, hu, h⟩ := hf t hundisturbed hstore
  exact ⟨u, bind_eq_ok.mpr ⟨a, t, ht, hu⟩, h⟩

variable (hs : s.Undisturbed)
include hs

theorem succeeds_pure (a : α) : Succeeds (pure a) s a s.store := ⟨s, rfl, hs, rfl⟩

theorem succeeds_execute : Succeeds execute s () s.store := by
  refine ⟨{ s with statements := s.statements + 1, queried := true }, ?_, ⟨hs.noFault, hs.unexpired⟩,
    rfl⟩
  rw [execute, hs.noFault, if_neg (by simp)]

theorem succeeds_getStore : Succeeds getStore s s.store s.store := ⟨s, rfl, hs, rfl⟩

theorem succeeds_setStore (t : Store) : Succeeds (setStore t) s () t :=
  ⟨{ s with store := t }, rfl, ⟨hs.noFault, hs.unexpired⟩, rfl⟩

theorem succeeds_liftCheck {r : Except Exn α} {a : α} (hr : r = .ok a) :
    Succeeds (liftCheck r) s a s.store := ⟨s, liftCheck_eq_ok.mpr ⟨hr, rfl⟩, hs, rfl⟩

theorem succeeds_readUserId (user : Option User) :
    Succeeds (readUserId user) s (user.map (·.id)) s.store := by
  refine ⟨s, ?_, hs, rfl⟩
  cases user with
  | none => rfl
  | some u => rw [readUserId, hs.unexpired]; rfl

end

section
variable {s : Session}

theorem succeeds_getManyForUpdate (hs : s.Undisturbed) (ids : List Uuid) :
    Succeeds (getManyForUpdate ids) s (s.store.products.filter fun p => p.id ∈ ids) s.store := by
  refine (succeeds_execute hs).bind fun t ht hstore => ?_
  rw [← hstore]
  exact (succeeds_getStore ht).bind fun u hu hustore => hustore ▸ succeeds_pure hu _

theorem succeeds_decrementAll (hs : s.Undisturbed) {lines : List (Uuid × ℕ)}
    (hn : (lines.map Prod.fst).Nodup)
    (hstock : ∀ l ∈ lines, ∃ p, Table.find Product.id l.1 s.store.products = some p ∧
      (l.2 : ℤ) ≤ p.stockQuantity) :
    ∃ store, Succeeds (decrementAll lines) s () store := by
  induction lines generalizing s with
  | nil => exact ⟨s.store, succeeds_pure hs ()⟩
  | cons l lines ih =>
    obtain ⟨hnot, hn⟩ := List.nodup_cons.mp hn
    obtain ⟨p, hp, hle⟩ := hstock l List.mem_cons_self
    have hline : Succeeds (decrementStock l.1 l.2) s () { s.store with
        products := adjustStock l.1 (-l.2) s.store.products } := by
      refine (succeeds_execute hs).bind fun t ht hstore => ?_
      refine (succeeds_getStore ht).bind fun u hu hustore => ?_
      rw [hstore] at hustore ⊢
      dsimp only
      rw [hp]
      dsimp only
      rw [if_neg (not_lt.mpr hle)]
      exact (succeeds_execute hu).bind fun v hv _ => succeeds_setStore hv _
    obtain ⟨t, ht, hundisturbed, hstore⟩ := hline
    have hrest : ∀ l' ∈ lines, ∃ p, Table.find Product.id l'.1 t.store.products = some p ∧
        (l'.2 : ℤ) ≤ p.stockQuantity := by
      intro l' hl'
      have hne : l'.1 ≠ l.1 := by
        intro heq
        exact hnot (heq ▸ List.mem_map_of_mem hl')
      have hkept : Table.find Product.id l'.1 t.store.products =
          Table.find Product.id l'.1 s.store.products := by
        rw [hstore]
        exact Table.find_modify_ne (fun _ => rfl) hne
      rw [hkept]
      exact hstock l' (List.mem_cons_of_mem l hl')
    obtain ⟨store, u, hu, h⟩ := ih hundisturbed hn hrest
    exact ⟨store, u, bind_eq_ok.mpr ⟨(), t, ht, hu⟩, h⟩

theorem checkPerUser_of_enforce {c : Coupon} {user : Option User} {t : Session} {u : Unit}
    (h : enforcePerUserLimit c user s = .ok (u, t)) :
    checkPerUser c (user.map (·.id)) (userRedemptions s.store.redemptions c.id) = .ok () := by
  unfold enforcePerUserLimit at h
  cases hlimit : c.perUserLimit with
  | none => rw [checkPerUser, hlimit]
  | some limit =>
    simp only [hlimit] at h
    cases user with
    | none =>
      have hraised := (liftCheck_eq_ok.mp h).1
      rw [checkPerUser, hlimit] at hraised
      cases hraised
    | some user =>
      obtain ⟨userId, s₁, h₁, h⟩ := bind_eq_ok.mp h
      obtain ⟨_, s₂, h₂, h⟩ := bind_eq_ok.mp h
      obtain ⟨store, s₃, h₃, h⟩ := bind_eq_ok.mp h
      obtain ⟨rfl, rfl, -⟩ := readUserId_eq_ok h₁
      obtain ⟨rfl, rfl⟩ := getStore_eq_ok.mp h₃
      rw [execute_store h₂] at h
      exact (liftCheck_eq_ok.mp h).1

theorem succeeds_enforce (hs : s.Undisturbed) {c : Coupon} {user : Option User}
    (h : checkPerUser c (user.map (·.id)) (userRedemptions s.store.redemptions c.id) = .ok ()) :
    Succeeds (enforcePerUserLimit c user) s () s.store := by
  unfold enforcePerUserLimit
  cases hlimit : c.perUserLimit with
  | none => exact succeeds_pure hs ()
  | some limit =>
    cases user with
    | none =>
      rw [checkPerUser, hlimit] at h
      cases h
    | some user =>
      refine (succeeds_readUserId hs _).bind fun t ht hstore => ?_
      refine (succeeds_execute ht).bind fun u hu hustore => ?_
      refine (succeeds_getStore hu).bind fun v hv hvstore => ?_
      have hus : u.store = s.store := hustore.trans hstore
      have hchecked := succeeds_liftCheck hv h
      rw [hvstore, hus] at hchecked
      rw [hus]
      exact hchecked

theorem succeeds_applyCheckoutCoupon (hs : s.Undisturbed) {coupons : Bool} {code : Option String}
    {subtotal : Decimal} {user : Option User} {now : Timestamp}
    (h : CouponAccepted coupons s.store code subtotal user now) :
    ∃ r, Succeeds (applyCheckoutCoupon coupons code subtotal user now) s r s.store := by
  unfold applyCheckoutCoupon
  cases code with
  | none => exact ⟨(none, 0), succeeds_pure hs _⟩
  | some text =>
    obtain ⟨rfl, c, heligible, hlimit⟩ := h text rfl
    refine ⟨(some c, computeDiscount c subtotal), ?_⟩
    have hfind : Succeeds (getByCodeForUpdate text) s (Table.find Coupon.code text s.store.coupons)
        s.store := by
      refine (succeeds_execute hs).bind fun t ht hstore => ?_
      rw [← hstore]
      exact (succeeds_getStore ht).bind fun u hu hustore => hustore ▸ succeeds_pure hu _
    have happly : Succeeds (applyCoupon text subtotal user now) s (c, computeDiscount c subtotal)
        s.store := by
      refine hfind.bind fun t ht hstore => ?_
      rw [← hstore] at heligible hlimit ⊢
      refine (succeeds_liftCheck ht heligible).bind fun u hu hustore => ?_
      rw [← hustore] at hlimit ⊢
      exact (succeeds_enforce hu hlimit).bind fun v hv hvstore => hvstore ▸ succeeds_pure hv _
    exact happly.bind fun t ht hstore => hstore ▸ succeeds_pure ht _

theorem couponAccepted_of_apply {coupons : Bool} {code : Option String} {subtotal : Decimal}
    {user : Option User} {now : Timestamp} {t : Session} {r : Option Coupon × Decimal}
    (h : applyCheckoutCoupon coupons code subtotal user now s = .ok (r, t)) :
    CouponAccepted coupons s.store code subtotal user now ∧
      r.2 = couponDiscount s.store code subtotal := by
  obtain ⟨coupon, discount⟩ := r
  have hdiscount := (applyCheckoutCoupon_eq_ok h).2
  constructor
  · rintro text rfl
    unfold applyCheckoutCoupon at h
    cases coupons with
    | false =>
      have hraised : (raise (.validation "Coupons are not available" "coupon_unavailable") :
        Db (Option Coupon × Decimal)) s = .ok ((coupon, discount), t) := h
      exact absurd hraised raise_ne_ok
    | true =>
      refine ⟨rfl, ?_⟩
      obtain ⟨_, s₁, h₁, -⟩ := bind_eq_ok.mp h
      obtain ⟨found, s₂, hfind, h⟩ := bind_eq_ok.mp h₁
      obtain ⟨c, s₃, hcheck, h⟩ := bind_eq_ok.mp h
      obtain ⟨_, s₄, hlimit, -⟩ := bind_eq_ok.mp h
      obtain ⟨rfl, hs₂⟩ := getByCodeForUpdate_eq_ok hfind
      obtain ⟨heligible, rfl⟩ := liftCheck_eq_ok.mp hcheck
      have hused := checkPerUser_of_enforce hlimit
      rw [hs₂] at hused
      exact ⟨c, heligible, hused⟩
  · rcases hdiscount with ⟨rfl, -, hzero⟩ | ⟨text, c, rfl, -, heligible, hcoupon⟩
    · exact hzero
    · rw [hcoupon, couponDiscount, Option.bind_some, (checkEligibility_eq_ok heligible).1]
      rfl

end

theorem priceSum_of_priceLines {products : List Product} {items : List OrderItemCreate}
    {exchange : List (Uuid × Bool)} {rows : List ItemData}
    (h : priceLines (products.filter fun p => p.id ∈ (items.map (·.productId)).dedup) exchange
      (requestedByProduct items) = .ok rows) :
    (rows.map (·.subtotal)).sum = priceSum products items := by
  rw [(priceLines_charge h).2.2]
  exact requested_charge Product.effectivePrice products items

/-- The rows of a checkout, from the tables it finds. -/
structure Handed (store : Store) (checkoutData : CheckoutRequest) (rows : OrderData × List ItemData) :
    Prop where
  checkout : rows.1.checkout = checkoutData
  subtotal : rows.1.subtotal = priceSum store.products checkoutData.items
  shippingFee : rows.1.shippingFee = feeSum store.products checkoutData.items
  totalAmount : rows.1.totalAmount = max 0 (priceSum store.products checkoutData.items +
    feeSum store.products checkoutData.items - couponDiscount store checkoutData.couponCode
      (priceSum store.products checkoutData.items))
  items : (rows.2.map (·.subtotal)).sum = rows.1.subtotal
  itemsNonneg : (∀ p ∈ store.products, 0 ≤ p.price) → ∀ i ∈ rows.2, 0 ≤ i.subtotal

section
variable {coupons : Bool} {checkoutData : CheckoutRequest} {currentUser : Option User} {key : Uuid}
  {clock : Clock}

theorem checkoutRows_eq_ok {s t : Session} {rows : OrderData × List ItemData}
    (h : checkoutRows coupons checkoutData currentUser key clock s = .ok (rows, t)) :
    FindsStock s.store.products checkoutData ∧
      CouponAccepted coupons s.store checkoutData.couponCode
        (priceSum s.store.products checkoutData.items) currentUser clock.now ∧
      Handed s.store checkoutData rows := by
  obtain ⟨products, s₁, h₁, h⟩ := bind_eq_ok.mp h
  obtain ⟨_, s₂, h₂, h⟩ := bind_eq_ok.mp h
  obtain ⟨items, s₃, h₃, h⟩ := bind_eq_ok.mp h
  obtain ⟨⟨coupon, discount⟩, s₄, h₄, h⟩ := bind_eq_ok.mp h
  obtain ⟨_, s₅, -, h⟩ := bind_eq_ok.mp h
  obtain ⟨userId, s₆, -, h⟩ := bind_eq_ok.mp h
  obtain ⟨rfl, rfl⟩ := pure_eq_ok.mp h
  obtain ⟨hs₁, rfl⟩ := getManyForUpdate_eq_ok h₁
  obtain ⟨hchecked, rfl⟩ := liftCheck_eq_ok.mp h₂
  obtain ⟨hpriced, rfl⟩ := liftCheck_eq_ok.mp h₃
  obtain ⟨-, -, hsubtotals⟩ := priceLines_charge hpriced
  have hprice := priceSum_of_priceLines hpriced
  have hfee : calculateShipping (s.store.products.filter
      fun p => p.id ∈ (checkoutData.items.map (·.productId)).dedup)
      (requestedByProduct checkoutData.items) = feeSum s.store.products checkoutData.items :=
    (calculateShipping_eq _ _).trans (requested_charge Product.feeRate _ _)
  obtain ⟨haccepted, hdiscount⟩ := couponAccepted_of_apply h₄
  rw [hs₁, hprice] at haccepted hdiscount
  refine ⟨⟨hchecked, items, hpriced⟩, haccepted, rfl, hprice, hfee, ?_, rfl, fun hprices i hi => ?_⟩
  · dsimp only at hdiscount ⊢
    rw [hprice, hfee, hdiscount]
  · have hmem : i.subtotal ∈ items.map (·.subtotal) := List.mem_map_of_mem hi
    rw [hsubtotals] at hmem
    obtain ⟨l, -, hl⟩ := List.mem_map.mp hmem
    rw [← hl]
    exact chargeBy_nonneg (fun p hp => effectivePrice_nonneg
      (hprices p (List.mem_of_mem_filter hp))) l.1 l.2

variable (coupons checkoutData currentUser key clock) in
/-- The rows are handed over when the products are in stock and the coupon is accepted. -/
theorem checkoutRows_isOk (store : Store) :
    (∃ s t rows, s.store = store ∧
      checkoutRows coupons checkoutData currentUser key clock s = .ok (rows, t)) ↔
    FindsStock store.products checkoutData ∧
      CouponAccepted coupons store checkoutData.couponCode
        (priceSum store.products checkoutData.items) currentUser clock.now := by
  constructor
  · rintro ⟨s, t, rows, rfl, h⟩
    exact ⟨(checkoutRows_eq_ok h).1, (checkoutRows_eq_ok h).2.1⟩
  · rintro ⟨⟨hchecked, items, hpriced⟩, haccepted⟩
    have hsubtotal : (items.map (·.subtotal)).sum = priceSum store.products checkoutData.items :=
      priceSum_of_priceLines hpriced
    have hstart : ({ store := store } : Session).Undisturbed := ⟨rfl, rfl⟩
    obtain ⟨s₁, h₁, hs₁, hstore₁⟩ := succeeds_getManyForUpdate hstart
      (checkoutData.items.map (·.productId)).dedup
    have hstore₁ : s₁.store = store := hstore₁
    rw [← hsubtotal, ← hstore₁] at haccepted
    obtain ⟨r, s₂, h₂, hs₂, hstore₂⟩ := succeeds_applyCheckoutCoupon hs₁ haccepted
    have hstock := priceLines_isOk.mp ⟨items, hpriced⟩
    have hstock : ∀ l ∈ requestedByProduct checkoutData.items, ∃ p,
        Table.find Product.id l.1 s₂.store.products = some p ∧ (l.2 : ℤ) ≤ p.stockQuantity := by
      intro l hl
      have hkey := List.mem_dedup.mpr ((mem_requestedByProduct _ _).mp (List.mem_map_of_mem hl))
      obtain ⟨p, hp, hle⟩ := hstock l hl
      rw [Table.find_filter_key hkey] at hp
      exact ⟨p, by rw [hstore₂, hstore₁]; exact hp, hle⟩
    obtain ⟨store', s₃, h₃, hs₃, -⟩ := succeeds_decrementAll hs₂ (requestedByProduct_nodup _) hstock
    obtain ⟨s₄, h₄, -, -⟩ := succeeds_readUserId hs₃ currentUser
    exact ⟨{ store := store }, s₄, _, rfl, bind_eq_ok.mpr ⟨_, s₁, h₁,
      bind_eq_ok.mpr ⟨(), s₁, liftCheck_eq_ok.mpr ⟨hchecked, rfl⟩,
      bind_eq_ok.mpr ⟨items, s₁, liftCheck_eq_ok.mpr ⟨hpriced, rfl⟩, bind_eq_ok.mpr ⟨r, s₂, h₂,
        bind_eq_ok.mpr ⟨(), s₃, h₃, bind_eq_ok.mpr ⟨_, s₄, h₄, rfl⟩⟩⟩⟩⟩⟩⟩

end

end Qiki.Orders
