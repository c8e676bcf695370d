import Qiki.Orders.Runs

/-! The stock ledger: what is on the shelf and what open orders hold is what the catalog
started with. -/
namespace Qiki.Orders

/-- The units of one product that an order holds. -/
def Order.held (o : Order) (productId : Uuid) : ℤ :=
  if o.status = .cancelled then 0 else quantityOf o.lines productId

/-- The units of one product over all orders that are not cancelled. -/
def outstanding (orders : List Order) (productId : Uuid) : ℤ :=
  (orders.map fun o => o.held productId).sum

/-- The ledger of a run that started from the products `initial`. -/
structure Ledger (initial : List Product) (s : Store) : Prop where
  nonneg : ∀ p ∈ s.products, 0 ≤ p.stockQuantity
  balance : s.products = initial.map fun p =>
    { p with stockQuantity := p.stockQuantity - outstanding s.orders p.id }
  keys : (s.orders.map Order.idempotencyKey).Nodup

/-- A catalog with its primary key and the `ge=0` of its stock field, before any order. -/
structure Catalog where
  products : List Product
  coupons : List Coupon
  redemptions : List CouponRedemption
  users : List User
  nextId : Uuid
  ids : (products.map Product.id).Nodup
  nonneg : ∀ p ∈ products, 0 ≤ p.stockQuantity

def Catalog.store (c : Catalog) : Store where
  products := c.products
  orders := []
  deliveries := []
  coupons := c.coupons
  redemptions := c.redemptions
  users := c.users
  nextId := c.nextId

theorem outstanding_append (orders : List Order) (o : Order) (p : Uuid) :
    outstanding (orders ++ [o]) p = outstanding orders p + o.held p := by
  rw [outstanding, List.map_append, List.sum_append, List.map_singleton, List.sum_singleton]
  rfl

/-- A row update moves the outstanding units by what it changes in its order. -/
theorem outstanding_modify {orders : List Order} {orderId : Uuid} {old : Order} {f : Order → Order}
    (hn : (orders.map Order.id).Nodup) (h : Table.find Order.id orderId orders = some old)
    (p : Uuid) :
    outstanding (Table.modify Order.id orderId f orders) p =
      outstanding orders p + ((f old).held p - old.held p) :=
  Table.sum_modify (fun o : Order => o.held p) hn h

/-- A roll-up neither opens nor cancels an order. -/
theorem rollUp_held (deliveries : List Delivery) (now : Timestamp) (o : Order) (p : Uuid) :
    (o.rollUp deliveries now).held p = o.held p := by
  unfold Order.rollUp
  by_cases hc : deliveries = [] ∨ o.status = .cancelled
  · rw [if_pos hc]
  · rw [if_neg hc]
    have hopen : o.status ≠ .cancelled := fun h => hc (Or.inr h)
    split_ifs
    · simp [Order.held, hopen, Order.lines]
    · simp [Order.held, hopen, Order.lines]
    · rfl

theorem outstanding_rollUp (orders : List Order) (orderId : Uuid) (deliveries : List Delivery)
    (now : Timestamp) (p : Uuid) :
    outstanding (Table.modify Order.id orderId (Order.rollUp deliveries now) orders) p =
      outstanding orders p := by
  unfold outstanding
  rw [Table.map_modify fun o _ => rollUp_held deliveries now o p]

theorem lines_nonneg (o : Order) (p : Uuid) : 0 ≤ quantityOf o.lines p := by
  refine quantityOf_nonneg (fun l hl => ?_) p
  obtain ⟨i, -, hi⟩ := List.mem_filterMap.mp hl
  obtain ⟨q, -, rfl⟩ := Option.map_eq_some_iff.mp hi
  exact Int.natCast_nonneg _

/-- The ledger together with the keys of the order rows, which every step needs. -/
structure LedgerInv (initial : List Product) (s : Store) : Prop where
  keys : OrderKeys s
  nonneg : ∀ p ∈ s.products, 0 ≤ p.stockQuantity
  balance : s.products = initial.map fun p =>
    { p with stockQuantity := p.stockQuantity - outstanding s.orders p.id }

/-- Changing the stock by what the outstanding units lose keeps the balance. -/
theorem balance_adjustAll {initial products : List Product} {before after : Uuid → ℤ}
    {lines : List (Uuid × ℤ)}
    (h : products = initial.map fun p => { p with stockQuantity := p.stockQuantity - before p.id })
    (hl : ∀ p, before p = after p + quantityOf lines p) :
    adjustAll lines products =
      initial.map fun p => { p with stockQuantity := p.stockQuantity - after p.id } := by
  rw [adjustAll_eq, h, List.map_map]
  refine List.map_congr_left fun p _ => ?_
  simp only [Function.comp_apply, Product.mk.injEq, true_and, and_true]
  have := hl p.id
  omega

theorem nonneg_adjustAll {lines : List (Uuid × ℤ)} {products : List Product}
    (hl : ∀ p, 0 ≤ quantityOf lines p) (h : ∀ p ∈ products, 0 ≤ p.stockQuantity) :
    ∀ p ∈ adjustAll lines products, 0 ≤ p.stockQuantity := by
  intro p hp
  rw [adjustAll_eq] at hp
  obtain ⟨q, hq, rfl⟩ := List.mem_map.mp hp
  exact add_nonneg (h q hq) (hl q.id)

/-- One status change: a cancellation returns exactly what the order held. -/
theorem ledgerInv_statusChanged {initial : List Product} {s t : Store} {orderId : Uuid}
    {newStatus : OrderStatus} {old : Order} (hs : LedgerInv initial s) (ht : OrderKeys t)
    (h : StatusChanged orderId newStatus s t old) : LedgerInv initial t := by
  obtain ⟨notes, now, hw⟩ := h.written
  have hopen : old.status ≠ .cancelled := by
    intro hc
    have hallowed := h.allowed
    rw [hc] at hallowed
    cases hallowed
  have hout : ∀ p, outstanding t.orders p = outstanding s.orders p +
      ((old.withStatus newStatus notes now).held p - old.held p) := by
    intro p
    rw [hw]
    exact outstanding_modify hs.keys.ids h.found p
  by_cases hc : newStatus = .cancelled
  · have hproducts : t.products = adjustAll old.lines s.products := by rw [hw, if_pos hc]
    have hdiff : ∀ p, outstanding s.orders p = outstanding t.orders p + quantityOf old.lines p := by
      intro p
      rw [hout p]
      simp only [Order.held, Order.withStatus, hc, hopen, if_true, if_false]
      omega
    refine ⟨ht, ?_, ?_⟩
    · rw [hproducts]
      exact nonneg_adjustAll (lines_nonneg old) hs.nonneg
    · rw [hproducts]
      exact balance_adjustAll hs.balance hdiff
  · have hproducts : t.products = s.products := by rw [hw, if_neg hc]
    have hsame : ∀ p, outstanding t.orders p = outstanding s.orders p := by
      intro p
      rw [hout p]
      simp only [Order.held, Order.withStatus, Order.lines, hc, hopen, if_false]
      omega
    refine ⟨ht, ?_, ?_⟩
    · rw [hproducts]
      exact hs.nonneg
    · rw [hproducts, hs.balance]
      simp only [hsame]

/-- A step that leaves the products alone and rolls one order up keeps the ledger. -/
theorem ledgerInv_rollUp {initial : List Product} {s t : Store} {orderId : Uuid}
    {deliveries : List Delivery} {now : Timestamp} (hs : LedgerInv initial s) (ht : OrderKeys t)
    (hp : t.products = s.products)
    (ho : t.orders = Table.modify Order.id orderId (Order.rollUp deliveries now) s.orders) :
    LedgerInv initial t := by
  refine ⟨ht, by rw [hp]; exact hs.nonneg, ?_⟩
  rw [hp, hs.balance, ho]
  simp only [outstanding_rollUp]

theorem ledgerInv_created {initial : List Product} {data : CheckoutRequest} {key : Uuid}
    {day : ℕ} {s t : Store} {o : Order} (hs : LedgerInv initial s) (ht : OrderKeys t)
    (h : Created data key day s t o) (hn : ∀ p ∈ t.products, 0 ≤ p.stockQuantity) :
    LedgerInv initial t := by
  refine ⟨ht, hn, ?_⟩
  rw [h.products]
  refine balance_adjustAll hs.balance fun p => ?_
  rw [h.orders, outstanding_append, quantityOf_neg, Order.held, h.status, if_neg (by decide)]
  omega

theorem ledgerInv_effect {initial : List Product} (hi : (initial.map Product.id).Nodup)
    {r : Request} {s t : Store} (hs : LedgerInv initial s) (h : Effect r s t) :
    LedgerInv initial t := by
  have ht := orderKeys_effect hs.keys h
  have hids : (s.products.map Product.id).Nodup := by
    rw [hs.balance, List.map_map]
    exact hi
  cases h with
  | unchanged same => rw [same]; exact hs
  | created coupons data user key o op absent created nonneg =>
    exact ledgerInv_created hs ht created (nonneg hids hs.nonneg)
  | cancelled orderId user reason phone old op canView cancellable changed =>
    exact ledgerInv_statusChanged hs ht changed
  | statusUpdated orderId newStatus admin notes old op staff changed =>
    exact ledgerInv_statusChanged hs ht changed
  | deliveryCreated orderId payload d order op created =>
    obtain ⟨now, hw⟩ := created.written
    exact ledgerInv_rollUp hs ht (by rw [hw]; rfl) (by rw [hw]; rfl)
  | deliveryUpdated orderId deliveryId newStatus notes old op ofOrder changed =>
    obtain ⟨notes, location, now, hw⟩ := changed.written
    exact ledgerInv_rollUp hs ht (by rw [hw]; rfl) (by rw [hw]; rfl)
  | driverUpdated deliveryId actorId isAdmin outcome notes lat lng old op mayTouch changed =>
    obtain ⟨notes, location, now, hw⟩ := changed.written
    exact ledgerInv_rollUp hs ht (by rw [hw]; rfl) (by rw [hw]; rfl)
  | driverAssigned deliveryId driverId op written =>
    rw [written] at ht ⊢
    exact ⟨ht, hs.nonneg, hs.balance⟩

theorem ledgerInv_catalog (c : Catalog) : LedgerInv c.products c.store where
  keys := ⟨List.nodup_nil, (fun _ h => nomatch h), List.nodup_nil⟩
  nonneg := c.nonneg
  balance := by simp [Catalog.store, outstanding]

/-- The run lemma: the ledger holds after any requests. -/
theorem ledgerInv_serveAll (c : Catalog) (rs : List Request) :
    LedgerInv c.products (serveAll c.store rs) :=
  serveAll_invariant (fun s r hs => ledgerInv_effect c.ids hs (serve_effect s r)) rs
    (ledgerInv_catalog c)

/-- A checkout whose key is stored returns that order before it reads anything else. -/
theorem serve_repeated_key {s : Store} {r : Request} {coupons : Bool} {data : CheckoutRequest}
    {user : Option User} {key : Uuid} {existing : Order}
    (hop : r.op = .createOrder coupons data user key)
    (h : Table.find Order.idempotencyKey key s.orders = some existing) :
    serve s r = (s, .ok (.order existing)) := by
  have hrun : createOrder coupons data user key r.clock { store := s } =
      .ok (existing, { store := s, statements := 2, queried := true }) := by
    simp [createOrder, setTransactionSerializable, getByIdempotencyKey, execute, getStore, h,
      bind, StateT.bind, Except.bind, pure, StateT.pure, Except.pure]
  have hmap : (Response.order <$> createOrder coupons data user key r.clock) { store := s } =
      .ok (.order existing, { store := s, statements := 2, queried := true }) := by
    rw [← bind_pure_comp]
    exact bind_eq_ok.mpr ⟨existing, _, hrun, rfl⟩
  simp only [serve, Request.handle, hop, getDb, hmap]

/-- Over every serial run from a catalog without orders: no stock value is negative, the
shelf and the open orders add up to the initial stock, no idempotency key has two orders,
a repeated key returns its order and changes nothing, and a request that raises changes
nothing. -/
theorem stock_ledger (c : Catalog) (rs : List Request) :
    Ledger c.products (serveAll c.store rs) ∧
    (∀ r coupons data user key, ∀ existing ∈ (serveAll c.store rs).orders,
      r.op = .createOrder coupons data user key → existing.idempotencyKey = key →
      serve (serveAll c.store rs) r = (serveAll c.store rs, .ok (.order existing))) ∧
    (∀ r e, (serve (serveAll c.store rs) r).2 = .error e →
      (serve (serveAll c.store rs) r).1 = serveAll c.store rs) := by
  have hinv := ledgerInv_serveAll c rs
  refine ⟨⟨hinv.nonneg, hinv.balance, hinv.keys.keys⟩, ?_, fun r e he => getDb_error he⟩
  intro r coupons data user key existing hmem hop hkey
  refine serve_repeated_key hop ?_
  rw [← hkey]
  exact Table.find_of_mem hinv.keys.keys hmem

/-- A shop with ten cylinders of one product. -/
def tenCylinders : Catalog where
  products := [{
    id := 1, sku := "GAS12", name := "Gas 12kg", brand := "Petro", sizeKg := 12,
    category := .gas, unit := "bình", price := 400000, salePrice := none, stockQuantity := 10,
    isActive := true }]
  coupons := []
  redemptions := []
  users := []
  nextId := 100
  ids := by decide
  nonneg := by decide

/-- A checkout of that product with cash on delivery. -/
def cylinderCheckout (quantity : ℕ) : CheckoutRequest where
  items := [⟨1, quantity, false⟩]
  customerName := "Lan"
  customerPhone := some "0901234567"
  deliveryAddress := "12 Lê Lợi"

example : (serveAll tenCylinders.store [⟨.createOrder true (cylinderCheckout 3) none 55,
    ⟨0, 20260101⟩⟩]).products.map (·.stockQuantity) = [7] := by decide +kernel

end Qiki.Orders
