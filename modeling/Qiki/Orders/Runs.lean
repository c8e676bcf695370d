import Qiki.Orders.Deliveries
import Qiki.Transition.Run

/-! Requests served one after another, each in its own transaction. -/
namespace Qiki.Orders

/-- The operations of the order and delivery services that write orders, deliveries or
stock. -/
inductive Op
  | createOrder (coupons : Bool) (checkoutData : CheckoutRequest) (currentUser : Option User)
      (idempotencyKey : Uuid)
  | cancelOrder (orderId : Uuid) (currentUser : Option User) (reason phone : Option String)
  | updateOrderStatus (orderId : Uuid) (newStatus : OrderStatus) (admin : User)
      (notes : Option String)
  | createDelivery (orderId : Uuid) (payload : DeliveryCreate)
  | updateDeliveryStatus (orderId deliveryId : Uuid) (newStatus : DeliveryStatus)
      (notes : Option String)
  | driverUpdateStatus (deliveryId actorId : Uuid) (isAdmin : Bool) (outcome : DriverOutcome)
      (notes : Option String) (lat lng : Option Decimal)
  | assignDriver (deliveryId : Uuid) (driverId : Option Uuid)
  deriving DecidableEq

/-- An operation and the time at which it is served. -/
structure Request where
  op : Op
  clock : Clock
  deriving DecidableEq

inductive Response
  | order (o : Order)
  | delivery (d : Delivery)
  deriving DecidableEq, Repr

/-- The service call behind a request. -/
def Request.handle (r : Request) : Db Response :=
  match r.op with
  | .createOrder coupons data user key =>
    .order <$> createOrder coupons data user key r.clock
  | .cancelOrder orderId user reason phone =>
    .order <$> cancelOrder orderId user reason phone r.clock.now
  | .updateOrderStatus orderId newStatus admin notes =>
    .order <$> updateOrderStatus orderId newStatus admin notes r.clock.now
  | .createDelivery orderId payload => .delivery <$> createDelivery orderId payload r.clock.now
  | .updateDeliveryStatus orderId deliveryId newStatus notes =>
    .delivery <$> updateDeliveryStatus orderId deliveryId newStatus notes r.clock.now
  | .driverUpdateStatus deliveryId actorId isAdmin outcome notes lat lng =>
    .delivery <$>
      driverUpdateStatus deliveryId actorId isAdmin outcome notes lat lng r.clock.now
  | .assignDriver deliveryId driverId => .delivery <$> assignDriver deliveryId driverId

/-- Serve one request: the committed tables afterwards and what the caller gets. -/
def serve (s : Store) (r : Request) : Store × Except Exn Response := getDb r.handle s

/-- The tables after serving the requests in order. -/
def serveAll (s : Store) (rs : List Request) : Store := rs.foldl (fun s r => (serve s r).1) s

/-- The transition system of serial runs; every request can be served. -/
def serialStep (s : Store) (r : Request) : Option Store := some (serve s r).1

theorem exec_serialStep (s : Store) (rs : List Request) :
    Transition.exec serialStep s rs = some (serveAll s rs) :=
  Transition.exec_some (fun s r => (serve s r).1) s rs

/-- Every request of the run meets `guard` in the tables it is served on. -/
def GuardedRun (guard : Store → Request → Prop) (s : Store) (rs : List Request) : Prop :=
  Transition.Guarded serialStep guard s rs

instance {guard : Store → Request → Prop} [∀ s r, Decidable (guard s r)] (s : Store)
    (rs : List Request) : Decidable (GuardedRun guard s rs) :=
  Transition.Guarded.decidable s rs

theorem GuardedRun.invariant {guard : Store → Request → Prop} {inv : Store → Prop}
    (hstep : ∀ s r, inv s → guard s r → inv (serve s r).1) {s : Store} {rs : List Request}
    (hs : inv s) (hg : GuardedRun guard s rs) : inv (serveAll s rs) :=
  Transition.Guarded.invariant (fun s r _ hs hr ht => Option.some.inj ht ▸ hstep s r hs hr) hs hg
    (exec_serialStep s rs)

theorem serveAll_invariant {inv : Store → Prop} (hstep : ∀ s r, inv s → inv (serve s r).1)
    {s : Store} (rs : List Request) (hs : inv s) : inv (serveAll s rs) :=
  Transition.invariant_exec (fun s r _ hs ht => Option.some.inj ht ▸ hstep s r hs) hs
    (exec_serialStep s rs)

/-- Everything that serving a request can do to the tables. -/
inductive Effect (r : Request) (s t : Store) : Prop
  | unchanged (same : t = s)
  | created (coupons : Bool) (data : CheckoutRequest) (user : Option User) (key : Uuid)
      (o : Order) (op : r.op = .createOrder coupons data user key)
      (absent : Table.find Order.idempotencyKey key s.orders = none)
      (created : Created data key r.clock.day s t o)
      (nonneg : (s.products.map Product.id).Nodup → (∀ p ∈ s.products, 0 ≤ p.stockQuantity) →
        ∀ p ∈ t.products, 0 ≤ p.stockQuantity)
  | cancelled (orderId : Uuid) (user : Option User) (reason phone : Option String) (old : Order)
      (op : r.op = .cancelOrder orderId user reason phone)
      (canView : ensureCanView old user phone = .ok ())
      (cancellable : old.status.canBeCancelled)
      (changed : StatusChanged orderId .cancelled s t old)
  | statusUpdated (orderId : Uuid) (newStatus : OrderStatus) (admin : User)
      (notes : Option String) (old : Order)
      (op : r.op = .updateOrderStatus orderId newStatus admin notes)
      (staff : ensureStaff admin = .ok ())
      (changed : StatusChanged orderId newStatus s t old)
  | deliveryCreated (orderId : Uuid) (payload : DeliveryCreate) (d : Delivery) (order : Order)
      (op : r.op = .createDelivery orderId payload)
      (created : DeliveryCreated orderId s t d order)
  | deliveryUpdated (orderId deliveryId : Uuid) (newStatus : DeliveryStatus)
      (notes : Option String) (old : Delivery)
      (op : r.op = .updateDeliveryStatus orderId deliveryId newStatus notes)
      (ofOrder : old.orderId = orderId)
      (changed : DeliveryChanged deliveryId newStatus s t old)
  | driverUpdated (deliveryId actorId : Uuid) (isAdmin : Bool) (outcome : DriverOutcome)
      (notes : Option String) (lat lng : Option Decimal) (old : Delivery)
      (op : r.op = .driverUpdateStatus deliveryId actorId isAdmin outcome notes lat lng)
      (mayTouch : isAdmin ∨ old.driverId = some actorId)
      (changed : DeliveryChanged deliveryId outcome.status s t old)
  | driverAssigned (deliveryId : Uuid) (driverId : Option Uuid)
      (op : r.op = .assignDriver deliveryId driverId)
      (written : t = { s with
        deliveries := Table.modify Delivery.id deliveryId
          (fun d => { d with driverId := driverId }) s.deliveries })

theorem map_eq_ok {α β : Type} {f : α → β} {x : Db α} {s t : Session} {b : β}
    (h : (f <$> x) s = .ok (b, t)) : ∃ a, x s = .ok (a, t) ∧ f a = b := by
  rw [← bind_pure_comp] at h
  obtain ⟨a, u, ha, h⟩ := bind_eq_ok.mp h
  obtain ⟨hb, rfl⟩ := pure_eq_ok.mp h
  exact ⟨a, ha, hb⟩

/-- A served request has one of these effects; one that raises has none. -/
theorem serve_effect (s : Store) (r : Request) : Effect r s (serve s r).1 := by
  cases hres : (serve s r).2 with
  | error e => exact .unchanged (getDb_error hres)
  | ok resp =>
    have hok : getDb r.handle s = ((serve s r).1, .ok resp) := Prod.ext rfl hres
    obtain ⟨t, ht, hst⟩ := getDb_ok hok
    rw [← hst]
    unfold Request.handle at ht
    cases hop : r.op with
    | createOrder coupons data user key =>
      simp only [hop] at ht
      obtain ⟨o, ho, -⟩ := map_eq_ok ht
      rcases createOrder_eq_ok ho with ⟨-, hsame⟩ | ⟨habsent, hcreated, hnonneg⟩
      · exact .unchanged hsame
      · exact .created coupons data user key o hop habsent hcreated hnonneg
    | cancelOrder orderId user reason phone =>
      simp only [hop] at ht
      obtain ⟨o, ho, -⟩ := map_eq_ok ht
      obtain ⟨old, hview, hcan, hchanged⟩ := cancelOrder_eq_ok ho
      exact .cancelled orderId user reason phone old hop hview hcan hchanged
    | updateOrderStatus orderId newStatus admin notes =>
      simp only [hop] at ht
      obtain ⟨o, ho, -⟩ := map_eq_ok ht
      obtain ⟨old, hstaff, hchanged⟩ := updateOrderStatus_eq_ok ho
      exact .statusUpdated orderId newStatus admin notes old hop hstaff hchanged
    | createDelivery orderId payload =>
      simp only [hop] at ht
      obtain ⟨d, hd, -⟩ := map_eq_ok ht
      obtain ⟨order, hcreated, -⟩ := createDelivery_eq_ok hd
      exact .deliveryCreated orderId payload d order hop hcreated
    | updateDeliveryStatus orderId deliveryId newStatus notes =>
      simp only [hop] at ht
      obtain ⟨d, hd, -⟩ := map_eq_ok ht
      obtain ⟨old, hof, hchanged⟩ := updateDeliveryStatus_eq_ok hd
      exact .deliveryUpdated orderId deliveryId newStatus notes old hop hof hchanged
    | driverUpdateStatus deliveryId actorId isAdmin outcome notes lat lng =>
      simp only [hop] at ht
      obtain ⟨d, hd, -⟩ := map_eq_ok ht
      obtain ⟨old, hmay, hchanged⟩ := driverUpdateStatus_eq_ok hd
      exact .driverUpdated deliveryId actorId isAdmin outcome notes lat lng old hop hmay hchanged
    | assignDriver deliveryId driverId =>
      simp only [hop] at ht
      obtain ⟨d, hd, -⟩ := map_eq_ok ht
      exact .driverAssigned deliveryId driverId hop (assignDriver_eq_ok hd)

/-! Order rows over a run. -/

/-- What an update of an order's row never writes. -/
structure SameOrder (o o' : Order) : Prop where
  id : o'.id = o.id
  orderNumber : o'.orderNumber = o.orderNumber
  idempotencyKey : o'.idempotencyKey = o.idempotencyKey
  items : o'.items = o.items

theorem sameOrder_withStatus (o : Order) (newStatus : OrderStatus) (notes : Option String)
    (now : Timestamp) : SameOrder o (o.withStatus newStatus notes now) := ⟨rfl, rfl, rfl, rfl⟩

theorem sameOrder_rollUp (deliveries : List Delivery) (now : Timestamp) (o : Order) :
    SameOrder o (o.rollUp deliveries now) := by
  unfold Order.rollUp
  split_ifs <;> exact ⟨rfl, rfl, rfl, rfl⟩

/-- A request appends one new order or updates one order's row. -/
theorem Effect.orders {r : Request} {s t : Store} (h : Effect r s t) :
    (∃ coupons data user key o, r.op = .createOrder coupons data user key ∧
      Table.find Order.idempotencyKey key s.orders = none ∧ Created data key r.clock.day s t o) ∨
    (∃ orderId f, (∀ o, SameOrder o (f o)) ∧
      t.orders = Table.modify Order.id orderId f s.orders ∧ s.nextId ≤ t.nextId) := by
  cases h with
  | unchanged same =>
    refine Or.inr ⟨0, id, fun _ => ⟨rfl, rfl, rfl, rfl⟩, ?_, by rw [same]⟩
    rw [same]
    simp [Table.modify]
  | created coupons data user key o op absent created nonneg =>
    exact Or.inl ⟨coupons, data, user, key, o, op, absent, created⟩
  | cancelled orderId user reason phone old op canView cancellable changed =>
    obtain ⟨notes, now, ht⟩ := changed.written
    exact Or.inr ⟨orderId, _, fun o => sameOrder_withStatus o _ notes now, by rw [ht], by rw [ht]⟩
  | statusUpdated orderId newStatus admin notes old op staff changed =>
    obtain ⟨notes, now, ht⟩ := changed.written
    exact Or.inr ⟨orderId, _, fun o => sameOrder_withStatus o _ notes now, by rw [ht], by rw [ht]⟩
  | deliveryCreated orderId payload d order op created =>
    obtain ⟨now, ht⟩ := created.written
    exact Or.inr ⟨orderId, _, fun o => sameOrder_rollUp _ now o, by rw [ht]; rfl,
      by rw [ht]; exact Nat.le_succ _⟩
  | deliveryUpdated orderId deliveryId newStatus notes old op ofOrder changed =>
    obtain ⟨notes, location, now, ht⟩ := changed.written
    exact Or.inr ⟨old.orderId, _, fun o => sameOrder_rollUp _ now o, by rw [ht]; rfl,
      by rw [ht]; exact le_refl _⟩
  | driverUpdated deliveryId actorId isAdmin outcome notes lat lng old op mayTouch changed =>
    obtain ⟨notes, location, now, ht⟩ := changed.written
    exact Or.inr ⟨old.orderId, _, fun o => sameOrder_rollUp _ now o, by rw [ht]; rfl,
      by rw [ht]; exact le_refl _⟩
  | driverAssigned deliveryId driverId op written =>
    refine Or.inr ⟨0, id, fun _ => ⟨rfl, rfl, rfl, rfl⟩, ?_, by rw [written]⟩
    rw [written]
    simp [Table.modify]

/-- Order rows have distinct, used ids and distinct idempotency keys. -/
structure OrderKeys (s : Store) : Prop where
  ids : (s.orders.map Order.id).Nodup
  used : ∀ o ∈ s.orders, o.id < s.nextId
  keys : (s.orders.map Order.idempotencyKey).Nodup

theorem nodup_map_append {α β : Type} {f : α → β} {as : List α} {a : α}
    (h : (as.map f).Nodup) (ha : ∀ b ∈ as, f b ≠ f a) : ((as ++ [a]).map f).Nodup := by
  rw [List.map_append, List.nodup_append]
  refine ⟨h, List.nodup_singleton _, fun x hx y hy => ?_⟩
  obtain ⟨b, hb, rfl⟩ := List.mem_map.mp hx
  obtain rfl : y = f a := by simpa using hy
  exact ha b hb

theorem orderKeys_effect {r : Request} {s t : Store} (hs : OrderKeys s) (h : Effect r s t) :
    OrderKeys t := by
  rcases h.orders with ⟨-, data, -, key, o, -, habsent, hc⟩ | ⟨orderId, f, hf, ht, hnext⟩
  · have hlt : s.nextId < t.nextId := by rw [hc.nextId]; grind
    refine ⟨?_, fun o' ho' => ?_, ?_⟩
    · rw [hc.orders]
      refine nodup_map_append hs.ids fun o' ho' he => ?_
      have hused := hs.used o' ho'
      rw [he, hc.id] at hused
      exact lt_irrefl _ hused
    · rw [hc.orders] at ho'
      rcases List.mem_append.mp ho' with ho' | ho'
      · exact (hs.used o' ho').trans hlt
      · obtain rfl : o' = o := by simpa using ho'
        rw [hc.id]; exact hlt
    · rw [hc.orders]
      refine nodup_map_append hs.keys fun o' ho' he => ?_
      rw [hc.idempotencyKey] at he
      exact Table.find_eq_none.mp habsent o' ho' he
  · refine ⟨?_, fun o' ho' => ?_, ?_⟩
    · rw [ht, Table.map_modify fun o _ => (hf o).id]
      exact hs.ids
    · rw [ht, Table.mem_modify] at ho'
      obtain ⟨o, ho, rfl⟩ := ho'
      have hid : (if o.id = orderId then f o else o).id = o.id := by
        split_ifs
        · exact (hf o).id
        · rfl
      rw [hid]
      exact (hs.used o ho).trans_le hnext
    · rw [ht, Table.map_modify fun o _ => (hf o).idempotencyKey]
      exact hs.keys

end Qiki.Orders
