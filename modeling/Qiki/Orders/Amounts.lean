import Qiki.Orders.CreateOrder

/-! The amounts of a created order, from the lines of its checkout and the catalog. -/
namespace Qiki.Orders

/-- What a product costs, linear in the quantity; `rate` is zero for an unknown product. -/
def chargeBy (rate : Product → Decimal) (products : List Product) (productId : Uuid) :
    ℕ →+ Decimal :=
  (AddMonoidHom.mulLeft ((Table.find Product.id productId products).elim 0 rate)).comp
    (Nat.castAddMonoidHom Decimal)

theorem chargeBy_apply (rate : Product → Decimal) (products : List Product) (productId : Uuid)
    (quantity : ℕ) : chargeBy rate products productId quantity =
      (Table.find Product.id productId products).elim 0 rate * quantity := rfl

theorem effectivePrice_nonneg {p : Product} (h : 0 ≤ p.price) : 0 ≤ p.effectivePrice := by
  unfold Product.effectivePrice effectivePrice
  split
  · split_ifs with hs
    · exact hs.1.le
    · exact h
  · exact h

/-- The fee of one unit. -/
def Product.feeRate (p : Product) : Decimal := calculateDeliveryFee p.category 1

theorem feeRate_nonneg (p : Product) : 0 ≤ p.feeRate := by
  unfold Product.feeRate
  cases p.category <;> norm_num [calculateDeliveryFee, waterDeliveryFeePerUnit]

theorem chargeBy_nonneg {rate : Product → Decimal} {products : List Product}
    (h : ∀ p ∈ products, 0 ≤ rate p) (productId : Uuid) (quantity : ℕ) :
    0 ≤ chargeBy rate products productId quantity := by
  rw [chargeBy_apply]
  cases hp : Table.find Product.id productId products with
  | none => simp
  | some p => exact mul_nonneg (h p (Table.mem_of_find hp)) (Nat.cast_nonneg quantity)

/-- A charge depends on the rows of the charged products only. -/
theorem chargeBy_filter {rate : Product → Decimal} {products : List Product} {productId : Uuid}
    {ids : List Uuid} (h : productId ∈ ids) :
    chargeBy rate (products.filter fun p => p.id ∈ ids) productId =
      chargeBy rate products productId := by
  unfold chargeBy
  rw [Table.find_filter_key h]

/-- Repeated lines of a product are charged like one line with their total quantity. -/
theorem requestedByProduct_charge (rate : Product → Decimal) (products : List Product)
    (items : List OrderItemCreate) :
    ((requestedByProduct items).map fun l => chargeBy rate products l.1 l.2).sum =
      (items.map fun i => chargeBy rate products i.productId i.quantity).sum := by
  unfold requestedByProduct
  rw [Dict.sum_foldl_alter (chargeBy rate products), List.map_nil, List.sum_nil, zero_add]

theorem calculateShipping_eq (products : List Product) (requested : List (Uuid × ℕ)) :
    calculateShipping products requested =
      (requested.map fun l => chargeBy Product.feeRate products l.1 l.2).sum := by
  unfold calculateShipping
  congr 1
  refine List.map_congr_left fun l _ => ?_
  rw [chargeBy_apply]
  cases Table.find Product.id l.1 products with
  | none => exact (zero_mul _).symm
  | some p =>
    simp only [Option.elim_some, Product.feeRate]
    cases p.category <;> simp [calculateDeliveryFee]

/-- A priced line carries the effective price of its product. -/
theorem priceLine_charge {products : List Product} {exchange : List (Uuid × Bool)}
    {line : Uuid × ℕ} {d : ItemData} (h : priceLine products exchange line = .ok d) :
    ∃ p, Table.find Product.id line.1 products = some p ∧
      d.productId = p.id ∧ d.unitPrice = p.effectivePrice ∧
      d.subtotal = chargeBy Product.effectivePrice products line.1 line.2 := by
  unfold priceLine at h
  rw [chargeBy_apply]
  cases hp : Table.find Product.id line.1 products with
  | none => simp [hp] at h
  | some p =>
    simp only [hp] at h
    split_ifs at h
    cases h
    exact ⟨p, rfl, rfl, rfl, rfl⟩

theorem priceLines_charge {products : List Product} {exchange : List (Uuid × Bool)}
    {lines : List (Uuid × ℕ)} {items : List ItemData}
    (h : priceLines products exchange lines = .ok items) :
    (∀ l ∈ lines, (Table.find Product.id l.1 products).isSome) ∧
      (∀ d ∈ items, ∃ p ∈ products, d.productId = p.id ∧ d.unitPrice = p.effectivePrice) ∧
      items.map (·.subtotal) =
        lines.map fun l => chargeBy Product.effectivePrice products l.1 l.2 := by
  induction lines generalizing items with
  | nil =>
    cases h
    exact ⟨fun _ hl => (nomatch hl), fun _ hd => (nomatch hd), rfl⟩
  | cons line lines ih =>
    unfold priceLines at h
    cases hd : priceLine products exchange line with
    | error e => simp [hd, bind, Except.bind] at h
    | ok d =>
      cases hds : priceLines products exchange lines with
      | error e => simp [hd, hds, bind, Except.bind] at h
      | ok ds =>
        obtain rfl : d :: ds = items := by
          simpa [hd, hds, bind, Except.bind, pure, Except.pure] using h
        obtain ⟨p, hp, hid, hunit, hsubtotal⟩ := priceLine_charge hd
        obtain ⟨hfound, hprices, hsubtotals⟩ := ih hds
        refine ⟨fun l hl => ?_, fun d' hd' => ?_,
          by rw [List.map_cons, hsubtotal, hsubtotals, List.map_cons]⟩
        · rcases List.mem_cons.mp hl with rfl | hl
          · rw [hp, Option.isSome_some]
          · exact hfound l hl
        · rcases List.mem_cons.mp hd' with rfl | hd'
          · exact ⟨p, Table.mem_of_find hp, hid, hunit⟩
          · exact hprices d' hd'

/-- Charging the aggregated lines on the locked rows charges the payload on the catalog. -/
theorem requested_charge (rate : Product → Decimal) (products : List Product)
    (items : List OrderItemCreate) :
    ((requestedByProduct items).map fun l => chargeBy rate (products.filter
      fun p => p.id ∈ (items.map (·.productId)).dedup) l.1 l.2).sum =
      (items.map fun i => chargeBy rate products i.productId i.quantity).sum := by
  rw [requestedByProduct_charge]
  congr 1
  apply List.map_congr_left
  intro i hi
  rw [chargeBy_filter (List.mem_dedup.mpr (List.mem_map_of_mem hi))]

/-- What a checkout without a coupon charges, from the catalog it finds. -/
structure Charged (checkoutData : CheckoutRequest) (products : List Product) (o : Order) :
    Prop where
  found : ∀ i ∈ checkoutData.items, (Table.find Product.id i.productId products).isSome
  unitPrices : ∀ i ∈ o.items, ∃ p ∈ products,
    i.productId = some p.id ∧ i.unitPrice = p.effectivePrice
  subtotal : o.subtotal = (checkoutData.items.map fun i =>
    chargeBy Product.effectivePrice products i.productId i.quantity).sum
  shippingFee : o.shippingFee = (checkoutData.items.map fun i =>
    chargeBy Product.feeRate products i.productId i.quantity).sum
  totalAmount : checkoutData.couponCode = none → o.totalAmount = max 0 (o.subtotal + o.shippingFee)

theorem mem_itemRows {first : Uuid} {ds : List ItemData} {i : OrderItem}
    (h : i ∈ itemRows first ds) :
    ∃ d ∈ ds, i.productId = some d.productId ∧ i.unitPrice = d.unitPrice := by
  induction ds generalizing first with
  | nil => cases h
  | cons d ds ih =>
    rcases List.mem_cons.mp h with rfl | h
    · exact ⟨d, List.mem_cons_self .., rfl, rfl⟩
    · obtain ⟨d', hd', heq⟩ := ih h
      exact ⟨d', List.mem_cons_of_mem _ hd', heq⟩

/-- The total of a placed order, and the coupon that its discount comes from. -/
theorem placeOrder_total {coupons : Bool} {checkoutData : CheckoutRequest}
    {currentUser : Option User} {key : Uuid} {clock : Clock} {s t : Session} {o : Order}
    (h : placeOrder coupons checkoutData currentUser key clock s = .ok (o, t)) :
    o.totalAmount = max 0 (o.subtotal + o.shippingFee - o.discountAmount) ∧
      ((checkoutData.couponCode = none ∧ o.discountAmount = 0) ∨
        ∃ text c, checkoutData.couponCode = some text ∧
          checkEligibility (Table.find Coupon.code text s.store.coupons) o.subtotal clock.now =
            .ok c ∧ o.discountAmount = computeDiscount c o.subtotal) := by
  obtain ⟨products, items, coupon, discount, s₁, s₂, s₃, s₄, rfl, -, hprice, hs₁, hcoupon, -,
    hcreate, -⟩ := placeOrder_stages h
  obtain ⟨phone, -, rfl, -⟩ := createWithItems_eq_ok hcreate
  refine ⟨rfl, ?_⟩
  rcases (applyCheckoutCoupon_eq_ok hcoupon).2 with
    ⟨hcode, -, hzero⟩ | ⟨text, c, hcode, -, heligible, hdiscount⟩
  · exact Or.inl ⟨hcode, hzero⟩
  · rw [hs₁] at heligible
    exact Or.inr ⟨text, c, hcode, heligible, hdiscount⟩

theorem placeOrder_charged {coupons : Bool} {checkoutData : CheckoutRequest}
    {currentUser : Option User} {key : Uuid} {clock : Clock} {s t : Session} {o : Order}
    (h : placeOrder coupons checkoutData currentUser key clock s = .ok (o, t)) :
    Charged checkoutData s.store.products o := by
  obtain ⟨products, items, coupon, discount, s₁, s₂, s₃, s₄, rfl, -, hprice, hs₁, hcoupon, -,
    hcreate, -⟩ := placeOrder_stages h
  obtain ⟨phone, -, rfl, -⟩ := createWithItems_eq_ok hcreate
  obtain ⟨hfound, hprices, hsubtotals⟩ := priceLines_charge hprice
  refine ⟨fun i hi => ?_, fun i hi => ?_, ?_, ?_, fun hcode => ?_⟩
  · obtain ⟨l, hl, hid⟩ := List.mem_map.mp
      ((mem_requestedByProduct _ _).mpr (List.mem_map_of_mem (f := (·.productId)) hi))
    have hsome := hfound l hl
    rwa [hid, Table.find_filter_key (List.mem_dedup.mpr (List.mem_map_of_mem hi))] at hsome
  · obtain ⟨d, hd, hid, hunit⟩ := mem_itemRows hi
    obtain ⟨p, hp, hpid, hpprice⟩ := hprices d hd
    exact ⟨p, List.mem_of_mem_filter hp, by rw [hid, hpid], hunit.trans hpprice⟩
  · exact (congrArg List.sum hsubtotals).trans (requested_charge _ _ _)
  · exact (calculateShipping_eq _ _).trans (requested_charge _ _ _)
  · obtain ⟨htotal, ⟨-, hzero⟩ | ⟨text, c, hsome, -⟩⟩ := placeOrder_total h
    · rw [htotal, hzero, sub_zero]
    · rw [hcode] at hsome
      cases hsome

/-- A checkout whose key is new charges what the catalog asks. -/
theorem createOrder_charged {coupons : Bool} {checkoutData : CheckoutRequest}
    {currentUser : Option User} {key : Uuid} {clock : Clock} {s t : Session} {o : Order}
    (hkey : Table.find Order.idempotencyKey key s.store.orders = none)
    (h : createOrder coupons checkoutData currentUser key clock s = .ok (o, t)) :
    Charged checkoutData s.store.products o := by
  obtain ⟨s₁, hs₁, hplace⟩ := placeOrder_of_createOrder hkey h
  have hcharged := placeOrder_charged hplace
  rwa [hs₁] at hcharged

end Qiki.Orders
