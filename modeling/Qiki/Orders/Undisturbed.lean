import Qiki.Orders.Deliveries

/-! Sessions that nothing disturbs: what the code returns and leaves there. -/
namespace Qiki.Orders

/-- A session on these tables that has not been rolled back and meets no fault. -/
structure Undisturbed (σ : Session) (s : Store) : Prop where
  store : σ.store = s
  failAt : σ.failAt = none
  expired : σ.expired = false

/-- In an undisturbed session on `s` the code returns `a` and leaves `t`. -/
def Runs {α : Type} (m : Db α) (s : Store) (a : α) (t : Store) : Prop :=
  ∀ σ, Undisturbed σ s → ∃ τ, m σ = .ok (a, τ) ∧ Undisturbed τ t

section Rules
variable {α β : Type} {s t u : Store}

theorem Runs.bind {x : Db α} {f : α → Db β} {a : α} {b : β} (hx : Runs x s a t)
    (hf : Runs (f a) t b u) : Runs (x >>= f) s b u := by
  intro σ hσ
  obtain ⟨τ, hτ, hundisturbed⟩ := hx σ hσ
  obtain ⟨υ, hυ, hend⟩ := hf τ hundisturbed
  exact ⟨υ, bind_eq_ok.mpr ⟨a, τ, hτ, hυ⟩, hend⟩

/-- Code that answers after an undisturbed start answers as a whole. -/
theorem Runs.bind_exists {x : Db α} {f : α → Db β} {a : α}
    (hx : Runs x s a t) (hf : ∃ b u, Runs (f a) t b u) : ∃ b u, Runs (x >>= f) s b u :=
  hf.imp fun _ => Exists.imp fun _ => hx.bind

theorem runs_pure (a : α) : Runs (pure a : Db α) s a s := fun σ hσ => ⟨σ, rfl, hσ⟩

theorem runs_execute : Runs execute s () s := by
  intro σ hσ
  refine ⟨{ σ with statements := σ.statements + 1, queried := true }, ?_, ⟨hσ.store, hσ.failAt,
    hσ.expired⟩⟩
  rw [execute, if_neg (by rw [hσ.failAt]; exact fun h => by cases h)]

theorem runs_getStore : Runs getStore s s s := fun σ hσ => ⟨σ, by rw [getStore, hσ.store], hσ⟩

theorem runs_setStore : Runs (setStore t) s () t :=
  fun σ hσ => ⟨{ σ with store := t }, rfl, ⟨rfl, hσ.failAt, hσ.expired⟩⟩

theorem runs_liftCheck {r : Except Exn α} {a : α} (h : r = .ok a) : Runs (liftCheck r) s a s :=
  fun σ hσ => ⟨σ, liftCheck_eq_ok.mpr ⟨h, rfl⟩, hσ⟩

theorem runs_readUserId (user : Option User) : Runs (readUserId user) s (user.map (·.id)) s := by
  intro σ hσ
  cases user with
  | none => exact ⟨σ, rfl, hσ⟩
  | some u =>
    refine ⟨σ, ?_, hσ⟩
    rw [readUserId, hσ.expired]
    rfl

end Rules

section Stock
variable {s : Store}

theorem runs_getManyForUpdate (ids : List Uuid) :
    Runs (getManyForUpdate ids) s (s.products.filter fun p => p.id ∈ ids) s :=
  runs_execute.bind (runs_getStore.bind (runs_pure _))

theorem runs_getByIdempotencyKey (key : Uuid) :
    Runs (getByIdempotencyKey key) s (Table.find Order.idempotencyKey key s.orders) s :=
  runs_execute.bind (runs_getStore.bind (runs_pure _))

/-- The tables with these lines taken from stock. -/
def takeLines (lines : List (Uuid × ℕ)) (s : Store) : Store :=
  { s with products := adjustAll (lines.map fun l => (l.1, -(l.2 : ℤ))) s.products }

/-- A product with this much in stock. -/
def HasStock (products : List Product) (line : Uuid × ℕ) : Prop :=
  ∃ row, Table.find Product.id line.1 products = some row ∧ (line.2 : ℤ) ≤ row.stockQuantity

theorem runs_decrementStock {line : Uuid × ℕ} (h : HasStock s.products line) :
    Runs (decrementStock line.1 line.2) s ()
      { s with products := adjustStock line.1 (-line.2) s.products } := by
  obtain ⟨row, hrow, hstock⟩ := h
  refine runs_execute.bind (runs_getStore.bind ?_)
  simp only [hrow]
  rw [if_neg (not_lt.mpr hstock)]
  exact runs_execute.bind runs_setStore

theorem find_adjustStock_ne {p q : Uuid} (h : q ≠ p) (change : ℤ) (products : List Product) :
    Table.find Product.id q (adjustStock p change products) =
      Table.find Product.id q products :=
  Table.find_modify_ne (fun _ => rfl) h

/-- Lines of distinct products are taken from stock one after the other. -/
theorem runs_decrementAll {lines : List (Uuid × ℕ)} (hkeys : (lines.map Prod.fst).Nodup)
    (h : ∀ line ∈ lines, HasStock s.products line) :
    Runs (decrementAll lines) s () (takeLines lines s) := by
  induction lines generalizing s with
  | nil => exact runs_pure ()
  | cons line lines ih =>
    obtain ⟨hnew, hkeys⟩ := List.nodup_cons.mp hkeys
    refine (runs_decrementStock (h line List.mem_cons_self)).bind (ih hkeys fun l hl => ?_)
    obtain ⟨row, hrow, hstock⟩ := h l (List.mem_cons_of_mem _ hl)
    have hne : l.1 ≠ line.1 := fun heq => hnew (heq ▸ List.mem_map_of_mem hl)
    exact ⟨row, (find_adjustStock_ne hne _ _).trans hrow, hstock⟩

/-- Prices are found for lines that are in stock. -/
theorem hasStock_of_priceLines {products : List Product} {exchange : List (Uuid × Bool)}
    {lines : List (Uuid × ℕ)} {items : List ItemData}
    (h : priceLines products exchange lines = .ok items) :
    ∀ line ∈ lines, HasStock products line := by
  induction lines generalizing items with
  | nil => intro line hl; cases hl
  | cons a lines ih =>
    unfold priceLines at h
    cases hd : priceLine products exchange a with
    | error e => simp [hd, Bind.bind, Except.bind] at h
    | ok d =>
      cases hds : priceLines products exchange lines with
      | error e => simp [hd, hds, Bind.bind, Except.bind] at h
      | ok ds =>
        intro line hl
        rcases List.mem_cons.mp hl with rfl | hl
        · unfold priceLine at hd
          cases hrow : Table.find Product.id line.1 products with
          | none => simp [hrow] at hd
          | some row =>
            simp only [hrow] at hd
            split_ifs at hd with hstock
            exact ⟨row, hrow, not_lt.mp hstock⟩
        · exact ih hds line hl

end Stock

/-! The coupon of a checkout. -/

/-- The coupon that a checkout uses, with its discount; `none` without a code. -/
inductive CouponChoice (coupons : Bool) (code : Option String) (user : Option User)
    (subtotal : Decimal) (now : Timestamp) (rows : List Coupon)
    (redemptions : List CouponRedemption) : Option (Coupon × Decimal) → Prop
  | none (absent : code = none) :
      CouponChoice coupons code user subtotal now rows redemptions none
  | some (text : String) (coupon : Coupon) (service : coupons = true)
      (given : code = some text)
      (eligible : checkEligibility (Table.find Coupon.code text rows) subtotal now = .ok coupon)
      (perUser : checkPerUser coupon (user.map (·.id)) (userRedemptions redemptions coupon.id) =
        .ok ()) :
      CouponChoice coupons code user subtotal now rows redemptions
        (some (coupon, computeDiscount coupon subtotal))

/-- The tables after the redemption of the chosen coupon. -/
def redeem (choice : Option (Coupon × Decimal)) (user : Option User) (orderId : Uuid) (s : Store) :
    Store :=
  match choice with
  | none => s
  | some (coupon, _) => { s with
      coupons := Table.modify Coupon.id coupon.id
        (fun c => { c with usedCount := coupon.usedCount + 1 }) s.coupons
      redemptions := s.redemptions ++ [⟨coupon.id, user.map (·.id), orderId⟩] }

section Coupon
variable {s : Store} {coupons : Bool} {code : Option String} {user : Option User}
  {subtotal : Decimal} {now : Timestamp} {choice : Option (Coupon × Decimal)}

theorem runs_enforcePerUserLimit {coupon : Coupon}
    (h : checkPerUser coupon (user.map (·.id)) (userRedemptions s.redemptions coupon.id) =
      .ok ()) : Runs (enforcePerUserLimit coupon user) s () s := by
  unfold enforcePerUserLimit
  cases hl : coupon.perUserLimit with
  | none => exact runs_pure ()
  | some limit =>
    cases user with
    | none =>
      have hguest : checkPerUser coupon none (fun _ => 0) = .ok () := by
        rw [checkPerUser, hl] at h ⊢
        exact h
      exact runs_liftCheck hguest
    | some u =>
      exact (runs_readUserId (some u)).bind
        (runs_execute.bind (runs_getStore.bind (runs_liftCheck h)))

theorem runs_applyCheckoutCoupon
    (h : CouponChoice coupons code user subtotal now s.coupons s.redemptions choice) :
    Runs (applyCheckoutCoupon coupons code subtotal user now) s
      (choice.map Prod.fst, (choice.map Prod.snd).getD 0) s := by
  cases h with
  | none hcode =>
    rw [hcode]
    exact runs_pure _
  | some text coupon service hcode eligible perUser =>
    rw [hcode, service]
    have hfind : Runs (getByCodeForUpdate text) s (Table.find Coupon.code text s.coupons) s :=
      runs_execute.bind (runs_getStore.bind (runs_pure _))
    have happly : Runs (applyCoupon text subtotal user now) s
        (coupon, computeDiscount coupon subtotal) s :=
      hfind.bind ((runs_liftCheck eligible).bind
        ((runs_enforcePerUserLimit perUser).bind (runs_pure _)))
    exact happly.bind (runs_pure _)

theorem runs_recordCheckoutRedemption (choice : Option (Coupon × Decimal)) (user : Option User)
    (orderId : Uuid) :
    Runs (recordCheckoutRedemption (choice.map Prod.fst) user orderId) s ()
      (redeem choice user orderId s) := by
  cases choice with
  | none => exact runs_pure ()
  | some c =>
    exact (runs_readUserId user).bind (runs_execute.bind (runs_execute.bind
      (runs_getStore.bind runs_setStore)))

end Coupon

section Order
variable {s : Store} {coupons : Bool} {data : CheckoutRequest} {user : Option User} {key : Uuid}
  {clock : Clock}

theorem runs_createWithItems {d : OrderData} {items : List ItemData} {phone : String}
    (h : insertOrderCheck s.orders d ⟨clock.day, nextCounter s.orders clock.day⟩ = .ok phone) :
    Runs (createWithItems d items clock) s
      (d.row phone s.nextId ⟨clock.day, nextCounter s.orders clock.day⟩
        (itemRows (s.nextId + 1) items))
      { s with
        orders := s.orders ++ [d.row phone s.nextId ⟨clock.day, nextCounter s.orders clock.day⟩
          (itemRows (s.nextId + 1) items)]
        nextId := s.nextId + 1 + items.length } := by
  have hnumber : Runs (nextOrderNumber clock.day) s
      ⟨clock.day, nextCounter s.orders clock.day⟩ s :=
    runs_execute.bind (runs_execute.bind (runs_getStore.bind (runs_pure _)))
  exact hnumber.bind (runs_execute.bind (runs_getStore.bind ((runs_liftCheck h).bind
    (runs_execute.bind (runs_setStore.bind (runs_execute.bind (runs_pure _)))))))

/-- `SET TRANSACTION` comes first in a new session. -/
theorem getDb_createOrder {o : Order} {t : Store}
    (h : Runs (do
      match ← getByIdempotencyKey key with
      | some existing => return existing
      | none => placeOrder coupons data user key clock) s o t) :
    getDb (createOrder coupons data user key clock) s = (t, .ok o) := by
  obtain ⟨τ, hτ, hend⟩ := h { store := s, statements := 1 } ⟨rfl, rfl, rfl⟩
  have hcreate : createOrder coupons data user key clock { store := s } = .ok (o, τ) :=
    bind_eq_ok.mpr ⟨(), { store := s, statements := 1 }, rfl, hτ⟩
  simp only [getDb, hcreate]
  rw [hend.store]

/-- A checkout with a new key that passes every check places its order. -/
theorem runs_createOrder {items : List ItemData} {choice : Option (Coupon × Decimal)}
    {phone : String} {products : List Product} {d : OrderData} {o : Order}
    (hkey : Table.find Order.idempotencyKey key s.orders = none)
    (hproducts : products =
      s.products.filter fun p => p.id ∈ (data.items.map (·.productId)).dedup)
    (hcheck : checkProducts products (data.items.map (·.productId)).dedup = .ok ())
    (hprice : priceLines products (exchangeByProduct data.items) (requestedByProduct data.items) =
      .ok items)
    (hchoice : CouponChoice coupons data.couponCode user (items.map (·.subtotal)).sum clock.now
      s.coupons s.redemptions choice)
    (hd : d = ⟨user.map (·.id), data, (items.map (·.subtotal)).sum,
      calculateShipping products (requestedByProduct data.items), (choice.map Prod.snd).getD 0,
      choice.map Prod.fst, max 0 ((items.map (·.subtotal)).sum +
        calculateShipping products (requestedByProduct data.items) -
          (choice.map Prod.snd).getD 0), key⟩)
    (hinsert : insertOrderCheck s.orders d ⟨clock.day, nextCounter s.orders clock.day⟩ = .ok phone)
    (ho : o = d.row phone s.nextId ⟨clock.day, nextCounter s.orders clock.day⟩
      (itemRows (s.nextId + 1) items)) :
    getDb (createOrder coupons data user key clock) s =
      (redeem choice user o.id { takeLines (requestedByProduct data.items) s with
        orders := s.orders ++ [o]
        nextId := s.nextId + 1 + items.length }, .ok o) := by
  have hstock : ∀ line ∈ requestedByProduct data.items, HasStock s.products line := by
    intro line hl
    obtain ⟨row, hrow, hq⟩ := hasStock_of_priceLines hprice line hl
    refine ⟨row, ?_, hq⟩
    have hmem : line.1 ∈ (data.items.map (·.productId)).dedup := by
      rw [List.mem_dedup, ← mem_requestedByProduct]
      exact List.mem_map_of_mem hl
    rw [hproducts, Table.find_filter_key hmem] at hrow
    exact hrow
  have hplace : Runs (placeOrder coupons data user key clock) s o
      (redeem choice user o.id { takeLines (requestedByProduct data.items) s with
        orders := s.orders ++ [o]
        nextId := s.nextId + 1 + items.length }) := by
    have hcreated : Runs (createWithItems d items clock)
        (takeLines (requestedByProduct data.items) s) o
        { takeLines (requestedByProduct data.items) s with
          orders := s.orders ++ [o]
          nextId := s.nextId + 1 + items.length } := by
      subst ho
      exact runs_createWithItems hinsert
    subst hproducts hd
    exact (runs_getManyForUpdate _).bind ((runs_liftCheck hcheck).bind ((runs_liftCheck hprice).bind
      ((runs_applyCheckoutCoupon hchoice).bind
        ((runs_decrementAll (requestedByProduct_nodup _) hstock).bind ((runs_readUserId user).bind
          (hcreated.bind
            ((runs_recordCheckoutRedemption choice user o.id).bind (runs_pure o))))))))
  exact getDb_createOrder ((runs_getByIdempotencyKey key).bind (by rw [hkey]; exact hplace))

/-- A checkout whose key is known returns its order. -/
theorem getDb_createOrder_existing {o : Order}
    (hkey : Table.find Order.idempotencyKey key s.orders = some o) :
    getDb (createOrder coupons data user key clock) s = (s, .ok o) :=
  getDb_createOrder ((runs_getByIdempotencyKey key).bind (by rw [hkey]; exact runs_pure o))

end Order

section Deliveries
variable {s : Store} {orderId : Uuid} {order : Order} {payload : DeliveryCreate} {now : Timestamp}

theorem runs_requireOrder (hfound : Table.find Order.id orderId s.orders = some order) :
    Runs (requireOrder orderId) s order s := by
  refine runs_execute.bind (runs_getStore.bind ?_)
  simp only [hfound]
  exact runs_pure order

theorem runs_rollUpOrderStatus (deliveries : List Delivery) :
    Runs (rollUpOrderStatus orderId deliveries now) s () (s.rollUp orderId deliveries now) :=
  runs_execute.bind (runs_getStore.bind runs_setStore)

theorem runs_createDelivery (hfound : Table.find Order.id orderId s.orders = some order)
    (hopen : order.status ≠ .cancelled)
    (hlines : checkDeliveryLines order.items (allocatedQuantities (s.deliveriesOf orderId)) []
      payload.items = .ok ()) :
    ∃ d : Delivery, ∃ t : Store, Runs (createDelivery orderId payload now) s d t := by
  refine (runs_requireOrder hfound).bind_exists ?_
  rw [if_neg hopen]
  refine runs_getStore.bind_exists ((runs_liftCheck hlines).bind_exists ?_)
  refine runs_execute.bind_exists (runs_setStore.bind_exists ?_)
  exact (runs_rollUpOrderStatus _).bind_exists ⟨_, _, runs_pure _⟩

/-- `create_delivery` answers for an order that is not cancelled and lines that are left. -/
theorem createDelivery_answers_iff
    (hfound : Table.find Order.id orderId s.orders = some order) :
    (∃ d, (getDb (createDelivery orderId payload now) s).2 = .ok d) ↔
      order.status ≠ .cancelled ∧ checkDeliveryLines order.items
        (allocatedQuantities (s.deliveriesOf orderId)) [] payload.items = .ok () := by
  constructor
  · rintro ⟨d, hd⟩
    obtain ⟨t, ht, -⟩ := getDb_ok (Prod.ext rfl hd)
    obtain ⟨found, hcreated, hitems⟩ := createDelivery_eq_ok ht
    cases hcreated.found.symm.trans hfound
    exact ⟨hcreated.open_, hitems ▸ hcreated.lines⟩
  · rintro ⟨hopen, hlines⟩
    obtain ⟨d, t, hruns⟩ : ∃ d t, Runs (createDelivery orderId payload now) s d t :=
      runs_createDelivery hfound hopen hlines
    obtain ⟨τ, hτ, -⟩ := hruns { store := s } ⟨rfl, rfl, rfl⟩
    exact ⟨d, by simp only [getDb, hτ]⟩

end Deliveries
end Qiki.Orders
