import Qiki.Orders.Coupons
import Qiki.Orders.Stock

/-! `OrderService.create_order`: one checkout inside one transaction. -/
namespace Qiki.Orders

/-- `datetime.now(UTC)` of the request, with its `%Y%m%d` number. -/
structure Clock where
  now : Timestamp
  day : ℕ
  deriving DecidableEq, Repr

def waterDeliveryFeePerUnit : Decimal := 5000

def calculateDeliveryFee (category : Category) (quantity : ℕ) : Decimal :=
  match category with
  | .nuocUong => waterDeliveryFeePerUnit * quantity
  | .gas => 0

/-- `requested_by_product`: quantities of repeated lines are added up. -/
def requestedByProduct (items : List OrderItemCreate) : List (Uuid × ℕ) :=
  items.foldl (fun d i => Dict.alter i.productId (fun q => q.getD 0 + i.quantity) d) []

theorem requestedByProduct_nodup (items : List OrderItemCreate) :
    ((requestedByProduct items).map Prod.fst).Nodup :=
  Dict.nodup_foldl _ _ items List.nodup_nil

theorem mem_requestedByProduct (items : List OrderItemCreate) (p : Uuid) :
    p ∈ (requestedByProduct items).map Prod.fst ↔ p ∈ items.map (·.productId) := by
  rw [requestedByProduct, Dict.mem_keys_foldl]
  simp

theorem requestedByProduct_pos {items : List OrderItemCreate} (h : ∀ i ∈ items, 1 ≤ i.quantity) :
    ∀ l ∈ requestedByProduct items, 1 ≤ l.2 := by
  refine Dict.forall_values_foldl _ _ items (fun i hi v _ => ?_) (fun _ he => nomatch he)
  exact (h i hi).trans (Nat.le_add_left _ _)

/-- `exchange_by_product`: one exchanged line makes the product's line an exchange. -/
def exchangeByProduct (items : List OrderItemCreate) : List (Uuid × Bool) :=
  items.foldl (fun d i => Dict.alter i.productId (fun e => e.getD false || i.isExchange) d) []

/-- Every requested product exists and is active. The source walks a set, whose order is
not specified; it only decides which of several errors is raised. -/
def checkProducts (products : List Product) : List Uuid → Except Exn Unit
  | [] => .ok ()
  | productId :: productIds =>
    match Table.find Product.id productId products with
    | none => .error (.notFound s!"Product not found: {productId}" "product_not_found")
    | some product =>
      if product.isActive then checkProducts products productIds
      else .error (.validation s!"Product not available: {product.name}" "product_inactive")

/-- One entry of `items_data`. -/
structure ItemData where
  productId : Uuid
  productName : String
  productBrand : String
  productSizeKg : Decimal
  quantity : ℕ
  unitPrice : Decimal
  subtotal : Decimal
  isExchange : Bool
  deriving DecidableEq, Repr

/-- The stock check and the price of one aggregated line; `products[product_id]` is
present because `checkProducts` passed. -/
def priceLine (products : List Product) (exchange : List (Uuid × Bool)) (line : Uuid × ℕ) :
    Except Exn ItemData :=
  match Table.find Product.id line.1 products with
  | none => .error (.notFound s!"Product not found: {line.1}" "product_not_found")
  | some product =>
    if product.stockQuantity < line.2 then
      .error (.insufficientStock (s!"Insufficient stock for {product.name}: " ++
        s!"requested {line.2}, available {product.stockQuantity}"))
    else .ok {
      productId := product.id
      productName := product.name
      productBrand := product.brand
      productSizeKg := product.sizeKg
      quantity := line.2
      unitPrice := product.effectivePrice
      subtotal := product.effectivePrice * line.2
      isExchange := (Dict.get line.1 exchange).getD false }

/-- `items_data`, in the order of `requested_by_product`. -/
def priceLines (products : List Product) (exchange : List (Uuid × Bool)) :
    List (Uuid × ℕ) → Except Exn (List ItemData)
  | [] => .ok []
  | line :: lines => do
    let item ← priceLine products exchange line
    let items ← priceLines products exchange lines
    return item :: items

def calculateShipping (products : List Product) (requested : List (Uuid × ℕ)) : Decimal :=
  (requested.map fun line =>
    match Table.find Product.id line.1 products with
    | none => 0
    | some product => calculateDeliveryFee product.category line.2).sum

/-- `order_data` -/
structure OrderData where
  userId : Option Uuid
  checkout : CheckoutRequest
  subtotal : Decimal
  shippingFee : Decimal
  discountAmount : Decimal
  coupon : Option Coupon
  totalAmount : Decimal
  idempotencyKey : Uuid

/-- `Order(**order_data)` with its items, as it is stored. -/
def OrderData.row (d : OrderData) (phone : String) (id : Uuid) (number : OrderNumber)
    (items : List OrderItem) : Order where
  id := id
  orderNumber := number
  userId := d.userId
  customerName := d.checkout.customerName
  customerPhone := phone
  customerEmail := d.checkout.customerEmail
  deliveryAddress := d.checkout.deliveryAddress
  deliveryWard := d.checkout.deliveryWard
  deliveryDistrict := d.checkout.deliveryDistrict
  deliveryCity := d.checkout.deliveryCity
  deliveryNotes := d.checkout.deliveryNotes
  differentRecipientName := d.checkout.differentRecipientName
  differentRecipientPhone := d.checkout.differentRecipientPhone
  subtotal := d.subtotal
  shippingFee := d.shippingFee
  discountAmount := d.discountAmount
  couponId := d.coupon.map (·.id)
  couponCode := d.coupon.map (·.code)
  totalAmount := d.totalAmount
  vatInvoiceRequested := d.checkout.vatInvoiceRequested
  vatInfo := d.checkout.vatInfo
  paymentMethod := d.checkout.paymentMethod
  status := .pending
  source := d.checkout.source
  referralConversationId := d.checkout.referralConversationId
  idempotencyKey := d.idempotencyKey
  customerNotes := d.checkout.customerNotes
  internalNotes := none
  cancelledAt := none
  cancelledReason := none
  deliveredAt := none
  items := items

/-- The counter of `_next_order_number`: `COALESCE(MAX(...), 0) + 1` over the day. -/
def nextCounter (orders : List Order) (day : ℕ) : ℕ :=
  ((orders.filter fun o => o.orderNumber.day = day).map (·.orderNumber.counter)).foldr max 0 + 1

theorem counter_lt_nextCounter {orders : List Order} {o : Order} (ho : o ∈ orders) :
    o.orderNumber.counter < nextCounter orders o.orderNumber.day := by
  induction orders with
  | nil => cases ho
  | cons a orders ih =>
    simp only [nextCounter] at ih ⊢
    rcases List.mem_cons.mp ho with rfl | ho
    · simp
    · have hlt := ih ho
      by_cases ha : a.orderNumber.day = o.orderNumber.day
      · simp only [ha, decide_true, List.filter_cons_of_pos, List.map_cons, List.foldr_cons]
        omega
      · simpa [ha] using hlt

/-- `_next_order_number`: the advisory lock, then the query. -/
def nextOrderNumber (day : ℕ) : Db OrderNumber := do
  execute
  execute
  let s ← getStore
  return ⟨day, nextCounter s.orders day⟩

/-- What PostgreSQL checks of `INSERT INTO orders`: `varchar(20)` for the number (22001),
`numeric(10,2)` for the amounts (22003), `NOT NULL` for the phone (23502) and the two
unique columns (23505). -/
def insertOrderCheck (orders : List Order) (d : OrderData) (number : OrderNumber) :
    Except Exn String :=
  if 20 < number.render.length then .error (.dbapi "22001")
  else if 10 ^ 8 ≤ d.subtotal ∨ 10 ^ 8 ≤ d.shippingFee ∨ 10 ^ 8 ≤ d.totalAmount then
    .error (.dbapi "22003")
  else match d.checkout.customerPhone with
    | none => .error (.dbapi "23502")
    | some phone =>
      if ∃ o ∈ orders, o.orderNumber = number ∨ o.idempotencyKey = d.idempotencyKey then
        .error (.dbapi "23505")
      else .ok phone

/-- `OrderItem(order_id=..., **item_data)` -/
def ItemData.row (d : ItemData) (id : Uuid) : OrderItem where
  id := id
  productId := some d.productId
  productName := d.productName
  productBrand := some d.productBrand
  productSizeKg := some d.productSizeKg
  quantity := d.quantity
  unitPrice := d.unitPrice
  subtotal := d.subtotal
  isExchange := d.isExchange

/-- The item rows, with consecutive fresh ids. -/
def itemRows (first : Uuid) : List ItemData → List OrderItem
  | [] => []
  | d :: ds => d.row first :: itemRows (first + 1) ds

/-- `create_with_items`: number, `INSERT` of the order, `INSERT` of the items, refresh. -/
def createWithItems (orderData : OrderData) (items : List ItemData) (clock : Clock) :
    Db Order := do
  let number ← nextOrderNumber clock.day
  execute
  let s ← getStore
  let phone ← liftCheck (insertOrderCheck s.orders orderData number)
  let order := orderData.row phone s.nextId number (itemRows (s.nextId + 1) items)
  execute
  setStore { s with
    orders := s.orders ++ [order]
    nextId := s.nextId + 1 + items.length }
  execute
  return order

/-- The coupon step of `create_order`; `coupons` tells whether the service was built with
a `CouponService`. -/
def applyCheckoutCoupon (coupons : Bool) (code : Option String) (subtotal : Decimal)
    (user : Option User) (now : Timestamp) : Db (Option Coupon × Decimal) :=
  match code with
  | none => return (none, 0)
  | some code =>
    if !coupons then
      raise (.validation "Coupons are not available" "coupon_unavailable")
    else do
      let (coupon, discount) ← applyCoupon code subtotal user now
      return (some coupon, discount)

def getByIdempotencyKey (key : Uuid) : Db (Option Order) := do
  execute
  let s ← getStore
  return Table.find Order.idempotencyKey key s.orders

/-- The redemption step of `create_order`. -/
def recordCheckoutRedemption (coupon : Option Coupon) (user : Option User) (orderId : Uuid) :
    Db Unit :=
  match coupon with
  | none => pure ()
  | some coupon => recordRedemption coupon user orderId

/-- `create_order` after the idempotency lookup found nothing. -/
def placeOrder (coupons : Bool) (checkoutData : CheckoutRequest) (currentUser : Option User)
    (idempotencyKey : Uuid) (clock : Clock) : Db Order := do
  let productIds := (checkoutData.items.map (·.productId)).dedup
  let products ← getManyForUpdate productIds
  liftCheck (checkProducts products productIds)
  let requested := requestedByProduct checkoutData.items
  let itemsData ← liftCheck
    (priceLines products (exchangeByProduct checkoutData.items) requested)
  let subtotal := (itemsData.map (·.subtotal)).sum
  let shippingFee := calculateShipping products requested
  let (coupon, discountAmount) ←
    applyCheckoutCoupon coupons checkoutData.couponCode subtotal currentUser clock.now
  let totalAmount := max 0 (subtotal + shippingFee - discountAmount)
  decrementAll requested
  let userId ← readUserId currentUser
  let orderData : OrderData :=
    ⟨userId, checkoutData, subtotal, shippingFee, discountAmount, coupon, totalAmount,
      idempotencyKey⟩
  let order ← createWithItems orderData itemsData clock
  recordCheckoutRedemption coupon currentUser order.id
  return order

def createOrder (coupons : Bool) (checkoutData : CheckoutRequest) (currentUser : Option User)
    (idempotencyKey : Uuid) (clock : Clock) : Db Order := do
  setTransactionSerializable
  match ← getByIdempotencyKey idempotencyKey with
  | some existing => return existing
  | none => placeOrder coupons checkoutData currentUser idempotencyKey clock

/-! What a successful `create_order` has done. -/

/-- The products and quantities that an order took from stock. -/
def Order.lines (o : Order) : List (Uuid × ℤ) :=
  o.items.filterMap fun i => i.productId.map fun p => (p, (i.quantity : ℤ))

theorem priceLine_eq_ok {products : List Product} {exchange : List (Uuid × Bool)}
    {line : Uuid × ℕ} {d : ItemData} (h : priceLine products exchange line = .ok d) :
    (d.productId, d.quantity) = line := by
  unfold priceLine at h
  cases hp : Table.find Product.id line.1 products with
  | none => simp [hp] at h
  | some product =>
    simp only [hp] at h
    split_ifs at h
    cases h
    have hid : product.id = line.1 := Table.key_of_find hp
    exact Prod.ext hid rfl

/-- One entry of `items_data` for each aggregated line, in order. -/
theorem priceLines_eq_ok {products : List Product} {exchange : List (Uuid × Bool)}
    {lines : List (Uuid × ℕ)} {items : List ItemData}
    (h : priceLines products exchange lines = .ok items) :
    items.map (fun d => (d.productId, d.quantity)) = lines := by
  induction lines generalizing items with
  | nil => cases h; rfl
  | cons line lines ih =>
    unfold priceLines at h
    cases hd : priceLine products exchange line with
    | error e => simp [hd, bind, Except.bind] at h
    | ok d =>
      cases hds : priceLines products exchange lines with
      | error e => simp [hd, hds, bind, Except.bind] at h
      | ok ds =>
        have hitems : d :: ds = items := by
          simpa [hd, hds, bind, Except.bind, pure, Except.pure] using h
        rw [← hitems, List.map_cons, priceLine_eq_ok hd, ih hds]

theorem itemRows_ids (first : ℕ) (ds : List ItemData) :
    ∀ i ∈ itemRows first ds, first ≤ i.id ∧ i.id < first + ds.length := by
  induction ds generalizing first with
  | nil => intro i hi; cases hi
  | cons d ds ih =>
    intro i hi
    rcases List.mem_cons.mp hi with rfl | hi
    · simp [ItemData.row]
    · obtain ⟨h₁, h₂⟩ := ih (first + 1) i hi
      rw [List.length_cons]
      grind

theorem itemRows_nodup (first : ℕ) (ds : List ItemData) :
    ((itemRows first ds).map OrderItem.id).Nodup := by
  induction ds generalizing first with
  | nil => exact List.nodup_nil
  | cons d ds ih =>
    refine List.nodup_cons.mpr ⟨fun hmem => ?_, ih (first + 1)⟩
    obtain ⟨i, hi, hid⟩ := List.mem_map.mp hmem
    have hlo := (itemRows_ids (first + 1) ds i hi).1
    have hid : i.id = first := hid
    rw [hid] at hlo
    grind

theorem length_itemRows (first : Uuid) (ds : List ItemData) :
    (itemRows first ds).length = ds.length := by
  induction ds generalizing first with
  | nil => rfl
  | cons d ds ih => rw [itemRows, List.length_cons, ih, List.length_cons]

/-- The stored lines are the lines that were priced. -/
theorem itemRows_lines (first : Uuid) (ds : List ItemData) :
    (itemRows first ds).filterMap (fun i => i.productId.map fun p => (p, (i.quantity : ℤ))) =
      ds.map fun d => (d.productId, (d.quantity : ℤ)) := by
  induction ds generalizing first with
  | nil => rfl
  | cons d ds ih => simp [itemRows, ItemData.row, ih]

theorem getByIdempotencyKey_eq_ok {key : Uuid} {s t : Session} {o : Option Order}
    (h : getByIdempotencyKey key s = .ok (o, t)) :
    t.store = s.store ∧ o = Table.find Order.idempotencyKey key s.store.orders := by
  obtain ⟨_, s₁, h₁, h⟩ := bind_eq_ok.mp h
  obtain ⟨_, s₂, h₂, h⟩ := bind_eq_ok.mp h
  obtain ⟨rfl, rfl⟩ := getStore_eq_ok.mp h₂
  obtain ⟨rfl, rfl⟩ := pure_eq_ok.mp h
  rw [execute_store h₁]
  exact ⟨rfl, rfl⟩

theorem getManyForUpdate_eq_ok {ids : List Uuid} {s t : Session} {ps : List Product}
    (h : getManyForUpdate ids s = .ok (ps, t)) :
    t.store = s.store ∧ ps = s.store.products.filter fun p => p.id ∈ ids := by
  obtain ⟨_, s₁, h₁, h⟩ := bind_eq_ok.mp h
  obtain ⟨_, s₂, h₂, h⟩ := bind_eq_ok.mp h
  obtain ⟨rfl, rfl⟩ := getStore_eq_ok.mp h₂
  obtain ⟨rfl, rfl⟩ := pure_eq_ok.mp h
  rw [execute_store h₁]
  exact ⟨rfl, rfl⟩

theorem nextOrderNumber_eq_ok {day : ℕ} {s t : Session} {n : OrderNumber}
    (h : nextOrderNumber day s = .ok (n, t)) :
    t.store = s.store ∧ n = ⟨day, nextCounter s.store.orders day⟩ := by
  obtain ⟨_, s₁, h₁, h⟩ := bind_eq_ok.mp h
  obtain ⟨_, s₂, h₂, h⟩ := bind_eq_ok.mp h
  obtain ⟨_, s₃, h₃, h⟩ := bind_eq_ok.mp h
  obtain ⟨rfl, rfl⟩ := getStore_eq_ok.mp h₃
  obtain ⟨rfl, rfl⟩ := pure_eq_ok.mp h
  rw [execute_store h₂, execute_store h₁]
  exact ⟨rfl, rfl⟩

theorem createWithItems_eq_ok {d : OrderData} {items : List ItemData} {clock : Clock}
    {s t : Session} {o : Order} (h : createWithItems d items clock s = .ok (o, t)) :
    ∃ phone, insertOrderCheck s.store.orders d
        ⟨clock.day, nextCounter s.store.orders clock.day⟩ = .ok phone ∧
      o = d.row phone s.store.nextId ⟨clock.day, nextCounter s.store.orders clock.day⟩
        (itemRows (s.store.nextId + 1) items) ∧
      t.store = { s.store with
        orders := s.store.orders ++ [o]
        nextId := s.store.nextId + 1 + items.length } := by
  obtain ⟨number, s₁, h₁, h⟩ := bind_eq_ok.mp h
  obtain ⟨_, s₂, h₂, h⟩ := bind_eq_ok.mp h
  obtain ⟨_, s₃, h₃, h⟩ := bind_eq_ok.mp h
  obtain ⟨phone, s₄, h₄, h⟩ := bind_eq_ok.mp h
  obtain ⟨_, s₅, h₅, h⟩ := bind_eq_ok.mp h
  obtain ⟨_, s₆, h₆, h⟩ := bind_eq_ok.mp h
  obtain ⟨_, s₇, h₇, h⟩ := bind_eq_ok.mp h
  obtain ⟨hs₁, rfl⟩ := nextOrderNumber_eq_ok h₁
  obtain ⟨rfl, rfl⟩ := getStore_eq_ok.mp h₃
  obtain ⟨hcheck, rfl⟩ := liftCheck_eq_ok.mp h₄
  obtain ⟨rfl, rfl⟩ := pure_eq_ok.mp h
  have hs₂ : s₄.store = s.store := by rw [execute_store h₂, hs₁]
  rw [hs₂] at hcheck h₆ ⊢
  refine ⟨phone, hcheck, rfl, ?_⟩
  rw [execute_store h₇, setStore_eq_ok.mp h₆]

/-- Without a code there is no coupon; with one it is the eligible coupon of that code. -/
theorem applyCheckoutCoupon_eq_ok {coupons : Bool} {code : Option String} {subtotal : Decimal}
    {user : Option User} {now : Timestamp} {s t : Session} {coupon : Option Coupon}
    {discount : Decimal}
    (h : applyCheckoutCoupon coupons code subtotal user now s = .ok ((coupon, discount), t)) :
    t.store = s.store ∧ ((code = none ∧ coupon = none ∧ discount = 0) ∨
      ∃ text c, code = some text ∧ coupon = some c ∧
        checkEligibility (Table.find Coupon.code text s.store.coupons) subtotal now = .ok c ∧
        discount = computeDiscount c subtotal) := by
  unfold applyCheckoutCoupon at h
  cases code with
  | none =>
    obtain ⟨hr, rfl⟩ := pure_eq_ok.mp h
    obtain ⟨rfl, rfl⟩ := Prod.mk.inj hr
    exact ⟨rfl, Or.inl ⟨rfl, rfl, rfl⟩⟩
  | some text =>
    cases coupons with
    | false =>
      have herr : (raise (.validation "Coupons are not available" "coupon_unavailable") :
        Db (Option Coupon × Decimal)) s = .ok ((coupon, discount), t) := h
      exact absurd herr raise_ne_ok
    | true =>
      obtain ⟨⟨c, d⟩, s₁, h₁, h⟩ := bind_eq_ok.mp h
      obtain ⟨hr, rfl⟩ := pure_eq_ok.mp h
      obtain ⟨rfl, rfl⟩ := Prod.mk.inj hr
      obtain ⟨hstore, heligible, hdiscount⟩ := applyCoupon_eq_ok h₁
      exact ⟨hstore, Or.inr ⟨text, c, rfl, rfl, heligible, hdiscount⟩⟩

theorem recordCheckoutRedemption_store {coupon : Option Coupon} {user : Option User}
    {orderId : Uuid} {s t : Session} {u : Unit}
    (h : recordCheckoutRedemption coupon user orderId s = .ok (u, t)) :
    t.store = { s.store with coupons := t.store.coupons, redemptions := t.store.redemptions } := by
  cases coupon with
  | none => rw [← (pure_eq_ok.mp h).2]
  | some coupon => rw [recordRedemption_eq_ok h]

/-- What a checkout that created `o` did to the tables. -/
structure Created (checkoutData : CheckoutRequest) (idempotencyKey : Uuid) (day : ℕ)
    (s t : Store) (o : Order) : Prop where
  orders : t.orders = s.orders ++ [o]
  products : t.products = adjustAll (o.lines.map fun l => (l.1, -l.2)) s.products
  deliveries : t.deliveries = s.deliveries
  users : t.users = s.users
  id : o.id = s.nextId
  nextId : t.nextId = s.nextId + 1 + o.items.length
  itemIds : ∀ i ∈ o.items, s.nextId < i.id ∧ i.id < t.nextId
  itemsNodup : (o.items.map OrderItem.id).Nodup
  lines : o.lines = (requestedByProduct checkoutData.items).map fun l => (l.1, (l.2 : ℤ))
  status : o.status = .pending
  idempotencyKey : o.idempotencyKey = idempotencyKey
  orderNumber : o.orderNumber = ⟨day, nextCounter s.orders day⟩

/-- The order number and the key of a stored order were unused. -/
theorem insertOrderCheck_eq_ok {orders : List Order} {d : OrderData} {n : OrderNumber}
    {phone : String} (h : insertOrderCheck orders d n = .ok phone) :
    d.checkout.customerPhone = some phone ∧
      ∀ o ∈ orders, o.orderNumber ≠ n ∧ o.idempotencyKey ≠ d.idempotencyKey := by
  unfold insertOrderCheck at h
  cases hp : d.checkout.customerPhone with
  | none => simp only [hp] at h; split_ifs at h
  | some p =>
    simp only [hp] at h
    split_ifs at h with h₁ h₂ h₃
    cases h
    refine ⟨rfl, fun o ho => ⟨fun hn => h₃ ⟨o, ho, Or.inl hn⟩, fun hk => h₃ ⟨o, ho, Or.inr hk⟩⟩⟩

/-- The stages of a `placeOrder` that succeeds, and what each of them found. -/
theorem placeOrder_stages {coupons : Bool} {checkoutData : CheckoutRequest}
    {currentUser : Option User} {key : Uuid} {clock : Clock} {s t : Session} {o : Order}
    (h : placeOrder coupons checkoutData currentUser key clock s = .ok (o, t)) :
    ∃ (products : List Product) (items : List ItemData) (coupon : Option Coupon)
        (discount : Decimal) (s₁ s₂ s₃ s₄ : Session),
      products = s.store.products.filter
        (fun p => p.id ∈ (checkoutData.items.map (·.productId)).dedup) ∧
      checkProducts products (checkoutData.items.map (·.productId)).dedup = .ok () ∧
      priceLines products (exchangeByProduct checkoutData.items)
        (requestedByProduct checkoutData.items) = .ok items ∧
      s₁.store = s.store ∧
      applyCheckoutCoupon coupons checkoutData.couponCode (items.map (·.subtotal)).sum
        currentUser clock.now s₁ = .ok ((coupon, discount), s₂) ∧
      decrementAll (requestedByProduct checkoutData.items) s₂ = .ok ((), s₃) ∧
      createWithItems ⟨currentUser.map (·.id), checkoutData, (items.map (·.subtotal)).sum,
        calculateShipping products (requestedByProduct checkoutData.items), discount, coupon,
        max 0 ((items.map (·.subtotal)).sum +
          calculateShipping products (requestedByProduct checkoutData.items) - discount),
        key⟩ items clock s₃ = .ok (o, s₄) ∧
      recordCheckoutRedemption coupon currentUser o.id s₄ = .ok ((), t) := by
  obtain ⟨products, s₁, h₁, h⟩ := bind_eq_ok.mp h
  obtain ⟨_, s₂, h₂, h⟩ := bind_eq_ok.mp h
  obtain ⟨items, s₃, h₃, h⟩ := bind_eq_ok.mp h
  obtain ⟨⟨coupon, discount⟩, s₄, h₄, h⟩ := bind_eq_ok.mp h
  obtain ⟨_, s₅, h₅, h⟩ := bind_eq_ok.mp h
  obtain ⟨userId, s₆, h₆, h⟩ := bind_eq_ok.mp h
  obtain ⟨order, s₇, h₇, h⟩ := bind_eq_ok.mp h
  obtain ⟨_, s₈, h₈, h⟩ := bind_eq_ok.mp h
  obtain ⟨rfl, rfl⟩ := pure_eq_ok.mp h
  obtain ⟨hs₁, hproducts⟩ := getManyForUpdate_eq_ok h₁
  obtain ⟨hchecked, rfl⟩ := liftCheck_eq_ok.mp h₂
  obtain ⟨hpriced, rfl⟩ := liftCheck_eq_ok.mp h₃
  obtain ⟨rfl, rfl, -⟩ := readUserId_eq_ok h₆
  exact ⟨products, items, coupon, discount, s₃, s₄, s₆, s₇, hproducts, hchecked, hpriced, hs₁, h₄,
    h₅, h₇, h₈⟩

theorem placeOrder_eq_ok {coupons : Bool} {checkoutData : CheckoutRequest}
    {currentUser : Option User} {key : Uuid} {clock : Clock} {s t : Session} {o : Order}
    (h : placeOrder coupons checkoutData currentUser key clock s = .ok (o, t)) :
    Created checkoutData key clock.day s.store t.store o ∧
      ((s.store.products.map Product.id).Nodup →
        (∀ p ∈ s.store.products, 0 ≤ p.stockQuantity) →
        ∀ p ∈ t.store.products, 0 ≤ p.stockQuantity) := by
  obtain ⟨products, items, coupon, discount, s₁, s₂, s₃, s₄, -, -, hprice, hs₁, hcoupon, hdecrement,
    hcreate, hredeem⟩ := placeOrder_stages h
  have hs₂ : s₂.store = s.store := by rw [(applyCheckoutCoupon_eq_ok hcoupon).1, hs₁]
  have hs₃ := decrementAll_eq_ok hdecrement
  rw [hs₂] at hs₃
  obtain ⟨phone, -, ho, hs₄⟩ := createWithItems_eq_ok hcreate
  rw [hs₃] at ho hs₄
  -- a redemption touches the coupon tables only
  have ht := recordCheckoutRedemption_store hredeem
  have hlen : o.items.length = items.length := by rw [ho]; exact length_itemRows _ _
  have hlines : o.lines = items.map fun d => (d.productId, (d.quantity : ℤ)) := by
    rw [ho]; exact itemRows_lines _ _
  have hreq : o.lines = (requestedByProduct checkoutData.items).map fun l => (l.1, (l.2 : ℤ)) := by
    rw [hlines, ← priceLines_eq_ok hprice, List.map_map]
    rfl
  have hmem : ∀ i ∈ o.items, s.store.nextId < i.id ∧ i.id < s.store.nextId + 1 + items.length := by
    intro i hi
    rw [ho] at hi
    exact itemRows_ids _ _ i hi
  refine ⟨⟨?_, ?_, ?_, ?_, ?_, ?_, ?_, ?_, hreq, ?_, ?_, ?_⟩, fun hn hpos => ?_⟩
  · rw [ht, hs₄]
  · rw [ht, hs₄, hreq, List.map_map]; rfl
  · rw [ht, hs₄]
  · rw [ht, hs₄]
  · rw [ho]; rfl
  · rw [ht, hs₄, hlen]
  · rw [ht, hs₄]; exact hmem
  · rw [ho]; exact itemRows_nodup _ _
  · rw [ho]; rfl
  · rw [ho]; rfl
  · rw [ho]; rfl
  · rw [ht, hs₄]
    have hd := decrementAll_nonneg hdecrement (by rw [hs₂]; exact hn) (by rw [hs₂]; exact hpos)
    rwa [hs₃] at hd

/-- A checkout returns the order that holds its key, or the key is new and an order is placed. -/
theorem createOrder_stages {coupons : Bool} {checkoutData : CheckoutRequest}
    {currentUser : Option User} {key : Uuid} {clock : Clock} {s t : Session} {o : Order}
    (h : createOrder coupons checkoutData currentUser key clock s = .ok (o, t)) :
    (Table.find Order.idempotencyKey key s.store.orders = some o ∧ t.store = s.store) ∨
    (Table.find Order.idempotencyKey key s.store.orders = none ∧ ∃ s₁ : Session,
      s₁.store = s.store ∧
        placeOrder coupons checkoutData currentUser key clock s₁ = .ok (o, t)) := by
  obtain ⟨_, s₁, h₁, h⟩ := bind_eq_ok.mp h
  obtain ⟨found, s₂, h₂, h⟩ := bind_eq_ok.mp h
  obtain ⟨hs₂, hfound⟩ := getByIdempotencyKey_eq_ok h₂
  rw [setTransactionSerializable_store h₁] at hs₂ hfound
  cases found with
  | some existing =>
    obtain ⟨rfl, rfl⟩ := pure_eq_ok.mp h
    exact Or.inl ⟨hfound.symm, hs₂⟩
  | none => exact Or.inr ⟨hfound.symm, s₂, hs₂, h⟩

/-- With a new key the order was placed by this checkout. -/
theorem placeOrder_of_createOrder {coupons : Bool} {checkoutData : CheckoutRequest}
    {currentUser : Option User} {key : Uuid} {clock : Clock} {s t : Session} {o : Order}
    (hkey : Table.find Order.idempotencyKey key s.store.orders = none)
    (h : createOrder coupons checkoutData currentUser key clock s = .ok (o, t)) :
    ∃ s₁ : Session, s₁.store = s.store ∧
      placeOrder coupons checkoutData currentUser key clock s₁ = .ok (o, t) := by
  rcases createOrder_stages h with ⟨hsome, -⟩ | ⟨-, hplace⟩
  · rw [hkey] at hsome
    cases hsome
  · exact hplace

/-- A checkout returns the order that holds its key and changes nothing, or the key is
new and the checkout creates an order. -/
theorem createOrder_eq_ok {coupons : Bool} {checkoutData : CheckoutRequest}
    {currentUser : Option User} {key : Uuid} {clock : Clock} {s t : Session} {o : Order}
    (h : createOrder coupons checkoutData currentUser key clock s = .ok (o, t)) :
    (Table.find Order.idempotencyKey key s.store.orders = some o ∧ t.store = s.store) ∨
    (Table.find Order.idempotencyKey key s.store.orders = none ∧
      Created checkoutData key clock.day s.store t.store o ∧
      ((s.store.products.map Product.id).Nodup →
        (∀ p ∈ s.store.products, 0 ≤ p.stockQuantity) →
        ∀ p ∈ t.store.products, 0 ≤ p.stockQuantity)) := by
  rcases createOrder_stages h with hstored | ⟨hkey, s₁, hs₁, hplace⟩
  · exact Or.inl hstored
  · have hcreated := placeOrder_eq_ok hplace
    rw [hs₁] at hcreated
    exact Or.inr ⟨hkey, hcreated.1, hcreated.2⟩

end Qiki.Orders
