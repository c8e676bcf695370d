import Qiki.Orders.Amounts
import Qiki.Orders.StockLedger

/-! The books over whole runs: the amounts of every order, what its coupon took off, when it was
closed, and the invoices issued for it. -/
namespace Qiki.Orders

open Transition

/-- The columns that no update of an order writes, as the books read them. -/
structure SameMoney (o o' : Order) : Prop where
  id : o'.id = o.id
  orderNumber : o'.orderNumber = o.orderNumber
  userId : o'.userId = o.userId
  items : o'.items = o.items
  subtotal : o'.subtotal = o.subtotal
  shippingFee : o'.shippingFee = o.shippingFee
  discountAmount : o'.discountAmount = o.discountAmount
  couponId : o'.couponId = o.couponId
  totalAmount : o'.totalAmount = o.totalAmount

/-- The closing times belong to the status. -/
structure Timed (o : Order) : Prop where
  cancelled : o.status = .cancelled ↔ o.cancelledAt.isSome
  delivered : o.status = .delivered ↔ o.deliveredAt.isSome

/-- How an update moves the closing of an order. -/
structure NextRow (o o' : Order) : Prop where
  timed : Timed o → Timed o'
  delivered : o.status = .delivered → o'.status = .delivered

theorem sameMoney_refl (o : Order) : SameMoney o o := ⟨rfl, rfl, rfl, rfl, rfl, rfl, rfl, rfl, rfl⟩

theorem sameMoney_withStatus (newStatus : OrderStatus) (notes : Option String) (now : Timestamp)
    (o : Order) : SameMoney o (o.withStatus newStatus notes now) :=
  ⟨rfl, rfl, rfl, rfl, rfl, rfl, rfl, rfl, rfl⟩

theorem sameMoney_rollUp (deliveries : List Delivery) (now : Timestamp) (o : Order) :
    SameMoney o (o.rollUp deliveries now) := by
  unfold Order.rollUp
  split_ifs <;> exact ⟨rfl, rfl, rfl, rfl, rfl, rfl, rfl, rfl, rfl⟩

theorem nextRow_withStatus {o : Order} {newStatus : OrderStatus} (notes : Option String)
    (now : Timestamp) (h : newStatus ∈ allowedStatusTransitions o.status) :
    NextRow o (o.withStatus newStatus notes now) := by
  have hopen : o.status ≠ .cancelled ∧ o.status ≠ .delivered := by
    constructor <;> intro hs <;> rw [hs] at h <;> cases h
  refine ⟨fun ht => ⟨?_, ?_⟩, fun hd => absurd hd hopen.2⟩
  · have hc : o.cancelledAt.isSome = false :=
      Bool.eq_false_iff.mpr fun hs => hopen.1 (ht.cancelled.mpr hs)
    show newStatus = .cancelled ↔ (if newStatus = .cancelled then some now else o.cancelledAt).isSome
    split_ifs with hn <;> simp [hn, hc]
  · have hd : o.deliveredAt.isSome = false :=
      Bool.eq_false_iff.mpr fun hs => hopen.2 (ht.delivered.mpr hs)
    show newStatus = .delivered ↔ (if newStatus = .delivered then some now else o.deliveredAt).isSome
    split_ifs with hn <;> simp [hn, hd]

theorem nextRow_rollUp (deliveries : List Delivery) (now : Timestamp) (o : Order) :
    NextRow o (o.rollUp deliveries now) := by
  unfold Order.rollUp
  split_ifs with hnone hfull hshipping
  · exact ⟨id, id⟩
  · have hc : o.status ≠ .cancelled := fun h => hnone (Or.inr h)
    refine ⟨fun ht => ⟨?_, ?_⟩, fun _ => rfl⟩
    · exact iff_of_false (fun h => by cases h) fun h => hc (ht.cancelled.mpr h)
    · exact iff_of_true rfl rfl
  · have hopen : o.status ≠ .cancelled ∧ o.status ≠ .delivered := by
      constructor <;> intro hs <;> rw [hs] at hshipping <;> exact absurd hshipping.2 (by decide)
    refine ⟨fun ht => ⟨?_, ?_⟩, fun hd => absurd hd hopen.2⟩
    · exact iff_of_false (fun h => by cases h) fun h => hopen.1 (ht.cancelled.mpr h)
    · exact iff_of_false (fun h => by cases h) fun h => hopen.2 (ht.delivered.mpr h)
  · exact ⟨id, id⟩

/-! A new order. -/

/-- A per-user limit only lets in a signed-in user with redemptions left. -/
theorem enforcePerUserLimit_eq_ok {coupon : Coupon} {user : Option User} {s t : Session} {u : Unit}
    (h : enforcePerUserLimit coupon user s = .ok (u, t)) {limit : ℕ}
    (hl : coupon.perUserLimit = some limit) :
    ∃ id, user.map (·.id) = some id ∧
      userRedemptions s.store.redemptions coupon.id id < limit := by
  unfold enforcePerUserLimit at h
  simp only [hl] at h
  cases user with
  | none => exact absurd (liftCheck_eq_ok.mp h).1 (by simp [checkPerUser, hl])
  | some user =>
    obtain ⟨userId, s₁, h₁, h⟩ := bind_eq_ok.mp h
    obtain ⟨_, s₂, h₂, h⟩ := bind_eq_ok.mp h
    obtain ⟨_, s₃, h₃, h⟩ := bind_eq_ok.mp h
    obtain ⟨rfl, hid, -⟩ := readUserId_eq_ok h₁
    obtain ⟨rfl, rfl⟩ := getStore_eq_ok.mp h₃
    rw [execute_store h₂] at h
    obtain ⟨id, huser, hused⟩ := checkPerUser_eq_ok (liftCheck_eq_ok.mp h).1 hl
    exact ⟨id, hid ▸ huser, hused⟩

theorem applyCheckoutCoupon_perUser {coupons : Bool} {code : Option String} {subtotal : Decimal}
    {user : Option User} {now : Timestamp} {s t : Session} {c : Coupon} {discount : Decimal}
    (h : applyCheckoutCoupon coupons code subtotal user now s = .ok ((some c, discount), t))
    {limit : ℕ} (hl : c.perUserLimit = some limit) :
    ∃ id, user.map (·.id) = some id ∧ userRedemptions s.store.redemptions c.id id < limit := by
  unfold applyCheckoutCoupon at h
  cases code with
  | none => exact absurd (Prod.mk.inj (pure_eq_ok.mp h).1).1 (by simp)
  | some text =>
    cases coupons with
    | false =>
      have herr : (raise (.validation "Coupons are not available" "coupon_unavailable") :
        Db (Option Coupon × Decimal)) s = .ok ((some c, discount), t) := h
      exact absurd herr raise_ne_ok
    | true =>
      obtain ⟨⟨c', d⟩, s₁, h₁, h⟩ := bind_eq_ok.mp h
      obtain ⟨hr, -⟩ := pure_eq_ok.mp h
      obtain ⟨hc, -⟩ := Prod.mk.inj hr
      obtain rfl := Option.some.inj hc
      obtain ⟨found, s₂, h₂, h₁⟩ := bind_eq_ok.mp h₁
      obtain ⟨coupon, s₃, h₃, h₁⟩ := bind_eq_ok.mp h₁
      obtain ⟨_, s₄, h₄, h₁⟩ := bind_eq_ok.mp h₁
      obtain rfl := (Prod.mk.inj (pure_eq_ok.mp h₁).1).1
      have hlimit := enforcePerUserLimit_eq_ok h₄ hl
      rwa [(liftCheck_eq_ok.mp h₃).2, (getByCodeForUpdate_eq_ok h₂).2] at hlimit

/-- What the coupon of a checkout takes off, and what is written for it. -/
inductive Discounted (s t : Store) (o : Order) : Prop
  | without (coupon : o.couponId = none) (discount : o.discountAmount = 0)
      (coupons : t.coupons = s.coupons) (redemptions : t.redemptions = s.redemptions)
  | redeemed (c : Coupon) (stored : c ∈ s.coupons) (coupon : o.couponId = some c.id)
      (discount : o.discountAmount = computeDiscount c o.subtotal)
      (left : ∀ limit, c.usageLimit = some limit → c.usedCount < limit)
      (perUser : ∀ limit, c.perUserLimit = some limit →
        ∃ u, o.userId = some u ∧ userRedemptions s.redemptions c.id u < limit)
      (coupons : t.coupons = Table.modify Coupon.id c.id
        (fun d => { d with usedCount := c.usedCount + 1 }) s.coupons)
      (redemptions : t.redemptions = s.redemptions ++ [⟨c.id, o.userId, o.id⟩])

/-- The order that a checkout places. -/
structure Placed (s t : Store) (o : Order) : Prop where
  orders : t.orders = s.orders ++ [o]
  id : o.id = s.nextId
  number : ∃ day, o.orderNumber = ⟨day, nextCounter s.orders day⟩
  numberLength : o.orderNumber.render.length ≤ 20
  products : ∃ lines, t.products = adjustAll lines s.products
  subtotal : o.subtotal = (o.items.map (·.subtotal)).sum
  lines : ∀ i ∈ o.items, i.subtotal = i.unitPrice * i.quantity ∧
    ∃ p ∈ s.products, i.unitPrice = p.effectivePrice
  shippingFee : 0 ≤ o.shippingFee
  total : o.totalAmount = max 0 (o.subtotal + o.shippingFee - o.discountAmount)
  open_ : o.status = .pending ∧ o.cancelledAt = none ∧ o.deliveredAt = none
  discounted : Discounted s t o

/-- The column of the order number holds twenty characters. -/
theorem insertOrderCheck_length {orders : List Order} {d : OrderData} {n : OrderNumber}
    {phone : String} (h : insertOrderCheck orders d n = .ok phone) : n.render.length ≤ 20 := by
  unfold insertOrderCheck at h
  by_contra hlong
  rw [if_pos (Nat.lt_of_not_le hlong)] at h
  cases h

theorem priceLines_item {products : List Product} {exchange : List (Uuid × Bool)}
    {lines : List (Uuid × ℕ)} {items : List ItemData}
    (h : priceLines products exchange lines = .ok items) :
    ∀ d ∈ items, d.subtotal = d.unitPrice * d.quantity ∧
      ∃ p ∈ products, d.unitPrice = p.effectivePrice := by
  induction lines generalizing items with
  | nil =>
    cases h
    intro d hd
    cases hd
  | cons line lines ih =>
    unfold priceLines at h
    cases hd : priceLine products exchange line with
    | error e => simp [hd, bind, Except.bind] at h
    | ok d =>
      cases hds : priceLines products exchange lines with
      | error e => simp [hd, hds, bind, Except.bind] at h
      | ok ds =>
        obtain rfl : d :: ds = items := by
          simpa [hd, hds, bind, Except.bind, pure, Except.pure] using h
        intro d' hd'
        rcases List.mem_cons.mp hd' with rfl | hd'
        · unfold priceLine at hd
          cases hp : Table.find Product.id line.1 products with
          | none => simp [hp] at hd
          | some p =>
            simp only [hp] at hd
            split_ifs at hd
            cases hd
            exact ⟨rfl, p, Table.mem_of_find hp, rfl⟩
        · exact ih hds d' hd'

theorem itemRows_item (first : Uuid) (ds : List ItemData) :
    (itemRows first ds).map (·.subtotal) = ds.map (·.subtotal) ∧
      ∀ i ∈ itemRows first ds, ∃ d ∈ ds, i.subtotal = d.subtotal ∧ i.unitPrice = d.unitPrice ∧
        i.quantity = d.quantity := by
  induction ds generalizing first with
  | nil => exact ⟨rfl, fun i hi => by cases hi⟩
  | cons d ds ih =>
    obtain ⟨hsum, hrows⟩ := ih (first + 1)
    refine ⟨?_, fun i hi => ?_⟩
    · rw [itemRows, List.map_cons, List.map_cons, hsum]
      rfl
    · rcases List.mem_cons.mp hi with rfl | hi
      · exact ⟨d, List.mem_cons_self .., rfl, rfl, rfl⟩
      · obtain ⟨d', hd', heq⟩ := hrows i hi
        exact ⟨d', List.mem_cons_of_mem _ hd', heq⟩

theorem calculateShipping_nonneg (products : List Product) (requested : List (Uuid × ℕ)) :
    0 ≤ calculateShipping products requested := by
  refine List.sum_nonneg fun fee hfee => ?_
  obtain ⟨line, -, rfl⟩ := List.mem_map.mp hfee
  cases Table.find Product.id line.1 products with
  | none => exact le_rfl
  | some p =>
    dsimp only
    cases p.category with
    | gas => exact le_rfl
    | nuocUong => exact mul_nonneg (by norm_num [waterDeliveryFeePerUnit]) (Nat.cast_nonneg _)

theorem placed_of_placeOrder {coupons : Bool} {checkoutData : CheckoutRequest}
    {currentUser : Option User} {key : Uuid} {clock : Clock} {s t : Session} {o : Order}
    (h : placeOrder coupons checkoutData currentUser key clock s = .ok (o, t)) :
    Placed s.store t.store o := by
  obtain ⟨products, items, coupon, discount, s₁, s₂, s₃, s₄, rfl, -, hprice, hs₁, hcoupon,
    hdecrement, hcreate, hredeem⟩ := placeOrder_stages h
  obtain ⟨hs₂, hdiscount⟩ := applyCheckoutCoupon_eq_ok hcoupon
  have hs₃ : s₃.store = { s.store with
      products := adjustAll ((requestedByProduct checkoutData.items).map fun l => (l.1, -(l.2 : ℤ)))
        s.store.products } := by
    rw [decrementAll_eq_ok hdecrement, hs₂, hs₁]
  obtain ⟨phone, hinsert, rfl, hs₄⟩ := createWithItems_eq_ok hcreate
  have hlength := insertOrderCheck_length hinsert
  rw [hs₃] at hlength
  have hitems := itemRows_item (s₃.store.nextId + 1) items
  have ht := recordCheckoutRedemption_store hredeem
  have horders : t.store.orders = s₄.store.orders := by rw [ht]
  have hproducts : t.store.products = s₄.store.products := by rw [ht]
  refine ⟨?_, ?_, ⟨clock.day, ?_⟩, ?_, ?_, ?_, fun i hi => ?_, calculateShipping_nonneg _ _, rfl,
    ⟨rfl, rfl, rfl⟩, ?_⟩
  · rw [horders, hs₄, hs₃]
  · rw [hs₃]
    rfl
  · rw [hs₃]
    rfl
  · rw [hs₃]
    exact hlength
  · exact ⟨_, by rw [hproducts, hs₄, hs₃]⟩
  · exact (congrArg List.sum hitems.1).symm
  · obtain ⟨d, hd, hsub, hunit, hq⟩ := hitems.2 i hi
    obtain ⟨hline, p, hp, hpriced⟩ := priceLines_item hprice d hd
    exact ⟨by rw [hsub, hunit, hq, hline], p, List.mem_of_mem_filter hp, hunit.trans hpriced⟩
  · rcases hdiscount with ⟨-, rfl, rfl⟩ | ⟨text, c, -, rfl, heligible, rfl⟩
    · have hu : s₄ = t := (pure_eq_ok.mp hredeem).2
      exact .without rfl rfl (by rw [← hu, hs₄, hs₃]) (by rw [← hu, hs₄, hs₃])
    · have hr := recordRedemption_eq_ok hredeem
      obtain ⟨hfound, hleft⟩ := checkEligibility_eq_ok heligible
      rw [hs₁] at hfound
      have hperUser : ∀ limit, c.perUserLimit = some limit →
          ∃ u, currentUser.map (·.id) = some u ∧
            userRedemptions s.store.redemptions c.id u < limit := by
        intro limit hl
        have huser := applyCheckoutCoupon_perUser hcoupon hl
        rwa [hs₁] at huser
      refine .redeemed c (Table.mem_of_find hfound) rfl rfl hleft hperUser ?_ ?_
      · rw [hr, hs₄, hs₃]
      · rw [hr, hs₄, hs₃]
        rfl

theorem serve_createOrder {s : Store} {r : Request} {coupons : Bool} {data : CheckoutRequest}
    {user : Option User} {key : Uuid} (hop : r.op = .createOrder coupons data user key) :
    (serve s r).1 = s ∨ ∃ o, Placed s (serve s r).1 o := by
  cases hres : (serve s r).2 with
  | error e => exact Or.inl (getDb_error hres)
  | ok resp =>
    have hok : getDb r.handle s = ((serve s r).1, .ok resp) := Prod.ext rfl hres
    obtain ⟨t, ht, hst⟩ := getDb_ok hok
    unfold Request.handle at ht
    simp only [hop] at ht
    obtain ⟨o, ho, -⟩ := map_eq_ok ht
    rcases createOrder_stages ho with ⟨-, hsame⟩ | ⟨-, s₁, hs₁, hplace⟩
    · exact Or.inl (hst.symm.trans hsame)
    · have hplaced := placed_of_placeOrder hplace
      rw [hs₁, hst] at hplaced
      exact Or.inr ⟨o, hplaced⟩

/-! One request. -/

/-- What one request does to the books. -/
inductive Booked (s t : Store) : Prop
  | placed (o : Order) (placed : Placed s t o)
  | updated (orderId : Uuid) (f : Order → Order) (money : ∀ o, SameMoney o (f o))
      (rows : ∀ o ∈ s.orders, o.id = orderId → NextRow o (f o))
      (orders : t.orders = Table.modify Order.id orderId f s.orders)
      (coupons : t.coupons = s.coupons) (redemptions : t.redemptions = s.redemptions)

theorem booked_refl (s : Store) : Booked s s :=
  .updated 0 id sameMoney_refl (fun _ _ _ => ⟨id, id⟩) (by simp [Table.modify]) rfl rfl

theorem booked_statusChanged {orderId : Uuid} {newStatus : OrderStatus} {s t : Store} {old : Order}
    (hs : OrderKeys s) (h : StatusChanged orderId newStatus s t old) : Booked s t := by
  obtain ⟨notes, now, ht⟩ := h.written
  refine .updated orderId (·.withStatus newStatus notes now) (sameMoney_withStatus newStatus notes now)
    (fun o ho hid => ?_) (by rw [ht]) (by rw [ht]) (by rw [ht])
  have hfound : Table.find Order.id o.id s.orders = some o := Table.find_of_mem hs.ids ho
  rw [hid, h.found] at hfound
  cases hfound
  exact nextRow_withStatus notes now h.allowed

theorem booked_rollUp {orderId : Uuid} {deliveries : List Delivery} {now : Timestamp}
    {s t u : Store} (ht : t = u.rollUp orderId deliveries now) (horders : u.orders = s.orders)
    (hcoupons : u.coupons = s.coupons) (hredemptions : u.redemptions = s.redemptions) :
    Booked s t := by
  subst ht
  refine .updated orderId (Order.rollUp deliveries now) (sameMoney_rollUp deliveries now)
    (fun o _ _ => nextRow_rollUp _ _ o) ?_ hcoupons hredemptions
  rw [← horders]
  rfl

/-- The step lemma of the books. -/
theorem serve_booked {s : Store} (hs : OrderKeys s) (r : Request) : Booked s (serve s r).1 := by
  cases serve_effect s r with
  | unchanged same => exact same.symm ▸ booked_refl s
  | created coupons data user key o op absent created nonneg =>
    rcases serve_createOrder op with hsame | ⟨o, ho⟩
    · exact hsame.symm ▸ booked_refl s
    · exact .placed o ho
  | cancelled orderId user reason phone old op canView cancellable changed =>
    exact booked_statusChanged hs changed
  | statusUpdated orderId newStatus admin notes old op staff changed =>
    exact booked_statusChanged hs changed
  | deliveryCreated orderId payload d order op created =>
    obtain ⟨now, ht⟩ := created.written
    exact booked_rollUp ht rfl rfl rfl
  | deliveryUpdated orderId deliveryId newStatus notes old op ofOrder changed =>
    obtain ⟨notes, location, now, ht⟩ := changed.written
    exact booked_rollUp ht rfl rfl rfl
  | driverUpdated deliveryId actorId isAdmin outcome notes lat lng old op mayTouch changed =>
    obtain ⟨notes, location, now, ht⟩ := changed.written
    exact booked_rollUp ht rfl rfl rfl
  | driverAssigned deliveryId driverId op written =>
    rw [written]
    exact .updated 0 id sameMoney_refl (fun _ _ _ => ⟨id, id⟩) (by simp [Table.modify]) rfl rfl

/-! The amounts of the stored orders. -/

/-- The amounts of an order add up, from its lines to its total. -/
structure Balanced (o : Order) : Prop where
  lines : ∀ i ∈ o.items, i.subtotal = i.unitPrice * i.quantity
  subtotal : o.subtotal = (o.items.map (·.subtotal)).sum
  shippingFee : 0 ≤ o.shippingFee
  discount : 0 ≤ o.discountAmount ∧ o.discountAmount ≤ o.subtotal
  withoutCoupon : o.couponId = none → o.discountAmount = 0
  total : o.totalAmount = o.subtotal + o.shippingFee - o.discountAmount

theorem SameMoney.balanced {o o' : Order} (h : SameMoney o o') (ho : Balanced o) :
    Balanced o' := by
  constructor
  · rw [h.items]
    exact ho.lines
  · rw [h.subtotal, h.items]
    exact ho.subtotal
  · rw [h.shippingFee]
    exact ho.shippingFee
  · rw [h.discountAmount, h.subtotal]
    exact ho.discount
  · rw [h.couponId, h.discountAmount]
    exact ho.withoutCoupon
  · rw [h.totalAmount, h.subtotal, h.shippingFee, h.discountAmount]
    exact ho.total

/-- With prices that are not negative, the `max` of the total never bites. -/
theorem Placed.balanced {s t : Store} {o : Order} (h : Placed s t o)
    (hprices : ∀ p ∈ s.products, 0 ≤ p.effectivePrice) : Balanced o := by
  have hsubtotal : 0 ≤ o.subtotal := by
    rw [h.subtotal]
    refine List.sum_nonneg fun x hx => ?_
    obtain ⟨i, hi, rfl⟩ := List.mem_map.mp hx
    obtain ⟨hline, p, hp, hunit⟩ := h.lines i hi
    rw [hline, hunit]
    exact mul_nonneg (hprices p hp) (Nat.cast_nonneg _)
  have hdiscount : 0 ≤ o.discountAmount ∧ o.discountAmount ≤ o.subtotal := by
    cases h.discounted with
    | without coupon discount coupons redemptions =>
      rw [discount]
      exact ⟨le_rfl, hsubtotal⟩
    | redeemed c stored coupon discount left perUser coupons redemptions =>
      rw [discount]
      exact computeDiscount_bounds c hsubtotal
  have hnonneg : 0 ≤ o.subtotal + o.shippingFee - o.discountAmount :=
    sub_nonneg.mpr (hdiscount.2.trans (le_add_of_nonneg_right h.shippingFee))
  refine ⟨fun i hi => (h.lines i hi).1, h.subtotal, h.shippingFee, hdiscount, fun hnone => ?_,
    h.total.trans (max_eq_right hnonneg)⟩
  cases h.discounted with
  | without coupon discount coupons redemptions => exact discount
  | redeemed c stored coupon discount left perUser coupons redemptions =>
    rw [coupon] at hnone
    cases hnone

/-- A property of single orders that a new order has and that updates keep. -/
theorem Booked.orders {P : Order → Prop} {s t : Store} (h : Booked s t)
    (hplaced : ∀ o, Placed s t o → P o)
    (hnext : ∀ o o', SameMoney o o' → NextRow o o' → P o → P o')
    (hs : ∀ o ∈ s.orders, P o) : ∀ o ∈ t.orders, P o := by
  intro o ho
  cases h with
  | placed new placed =>
    rw [placed.orders] at ho
    rcases List.mem_append.mp ho with ho | ho
    · exact hs o ho
    · obtain rfl := List.mem_singleton.mp ho
      exact hplaced o placed
  | updated orderId f money rows orders coupons redemptions =>
    rw [orders, Table.mem_modify] at ho
    obtain ⟨old, hold, rfl⟩ := ho
    split_ifs with hid
    · exact hnext old _ (money old) (rows old hold hid) (hs old hold)
    · exact hs old hold

/-- No request writes a price. -/
theorem LedgerInv.prices {initial : List Product} {s : Store} (h : LedgerInv initial s)
    (hprices : ∀ p ∈ initial, 0 ≤ p.price) : ∀ p ∈ s.products, 0 ≤ p.effectivePrice := by
  intro p hp
  rw [h.balance] at hp
  obtain ⟨q, hq, rfl⟩ := List.mem_map.mp hp
  exact effectivePrice_nonneg (p := q) (hprices q hq)

/-- The run lemma of the books. -/
theorem serveAll_booked (c : Catalog) {inv : Store → Prop}
    (hstep : ∀ s t, LedgerInv c.products s → Booked s t → inv s → inv t) (rs : List Request)
    (hc : inv c.store) : inv (serveAll c.store rs) := by
  have hboth : LedgerInv c.products (serveAll c.store rs) ∧ inv (serveAll c.store rs) := by
    refine @serveAll_invariant (fun s => LedgerInv c.products s ∧ inv s)
      (fun s r hs => ⟨?_, ?_⟩) _ rs ⟨ledgerInv_catalog c, hc⟩
    · exact ledgerInv_effect c.ids hs.1 (serve_effect s r)
    · exact hstep s _ hs.1 (serve_booked hs.1.keys r) hs.2
  exact hboth.2

theorem Booked.balanced_timed {s t : Store} (h : Booked s t)
    (hprices : ∀ p ∈ s.products, 0 ≤ p.effectivePrice)
    (hs : ∀ o ∈ s.orders, Balanced o ∧ Timed o) : ∀ o ∈ t.orders, Balanced o ∧ Timed o := by
  refine h.orders (fun o ho => ⟨ho.balanced hprices, ?_⟩)
    (fun o o' hmoney hnext ho => ⟨hmoney.balanced ho.1, hnext.timed ho.2⟩) hs
  obtain ⟨hstatus, hcancelled, hdelivered⟩ := ho.open_
  constructor
  · rw [hstatus, hcancelled]
    decide
  · rw [hstatus, hdelivered]
    decide

/-- In every store that requests reach, each order's lines, subtotal, discount and total add up,
and its closing times are set exactly when its status says so. -/
theorem books_balance (c : Catalog) (hprices : ∀ p ∈ c.products, 0 ≤ p.price)
    (rs : List Request) : ∀ o ∈ (serveAll c.store rs).orders, Balanced o ∧ Timed o := by
  refine @serveAll_booked c (fun s => ∀ o ∈ s.orders, Balanced o ∧ Timed o)
    (fun s t hs ht => ht.balanced_timed (hs.prices hprices)) rs fun o ho => ?_
  cases ho

theorem books_balance_cancelled :
    (serveAll tenCylinders.store [⟨.createOrder true (cylinderCheckout 3) none 55, ⟨0, 20260101⟩⟩,
      ⟨.cancelOrder 100 none none (some "0901234567"), ⟨7, 20260101⟩⟩]).orders.map
        (fun o => (o.totalAmount, o.cancelledAt)) = [(1200000, some 7)] ∧
    ∀ o ∈ (serveAll tenCylinders.store
      [⟨.createOrder true (cylinderCheckout 3) none 55, ⟨0, 20260101⟩⟩,
      ⟨.cancelOrder 100 none none (some "0901234567"), ⟨7, 20260101⟩⟩]).orders,
      Balanced o ∧ Timed o :=
  ⟨by decide +kernel, books_balance tenCylinders (by decide +kernel) _⟩

end Qiki.Orders
