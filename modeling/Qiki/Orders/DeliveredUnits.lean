import Qiki.Orders.Allocation
import Qiki.Orders.StockLedger

/-! Units that were delivered against units that a cancellation put back on the shelf. -/
namespace Qiki.Orders

theorem same_deliveries (s : Store) : ∃ deliveryId f, (∀ d, SameDelivery d (f d)) ∧
    s.deliveries = Table.modify Delivery.id deliveryId f s.deliveries :=
  ⟨0, id, fun _ => ⟨rfl, rfl, rfl, rfl⟩, by simp [Table.modify]⟩

theorem same_orders (s : Store) : ∃ orderId f, (∀ o, SameOrder o (f o)) ∧
    s.orders = Table.modify Order.id orderId f s.orders :=
  ⟨0, id, fun _ => ⟨rfl, rfl, rfl, rfl⟩, by simp [Table.modify]⟩

theorem updatedInPlace_statusChanged {orderId : Uuid} {newStatus : OrderStatus} {s t : Store}
    {old : Order} (h : StatusChanged orderId newStatus s t old) : UpdatedInPlace s t := by
  obtain ⟨notes, now, ht⟩ := h.written
  refine ⟨⟨orderId, _, fun o => sameOrder_withStatus o newStatus notes now, by rw [ht]⟩, ?_,
    by rw [ht], fun itemId => by rw [ht]⟩
  rw [ht]
  exact same_deliveries s

/-- A delivery that may still change status was allocating its units before. -/
theorem allocates_of_transition {old new : DeliveryStatus}
    (h : new ∈ deliveryStatusTransitions old) : old.allocates = true := by
  cases old <;> simp_all [deliveryStatusTransitions, DeliveryStatus.allocates]

theorem updatedInPlace_deliveryChanged {deliveryId : Uuid} {newStatus : DeliveryStatus}
    {s t : Store} {old : Delivery} (hs : (s.deliveries.map Delivery.id).Nodup)
    (h : DeliveryChanged deliveryId newStatus s t old) : UpdatedInPlace s t := by
  obtain ⟨notes, location, now, ht⟩ := h.written
  refine ⟨⟨old.orderId, _, fun o => sameOrder_rollUp _ now o, by rw [ht]; rfl⟩,
    ⟨deliveryId, (·.withStatus newStatus notes location now), fun _ => ⟨rfl, rfl, rfl, rfl⟩,
      by rw [ht]; rfl⟩, by rw [ht]; rfl, fun itemId => ?_⟩
  rw [ht]
  refine Table.sum_modify_le (fun d : Delivery =>
    if d.status.allocates then lineQuantity d.items itemId else 0) hs h.found ?_
  show (if newStatus.allocates then lineQuantity old.items itemId else 0) ≤
    if old.status.allocates then lineQuantity old.items itemId else 0
  rw [if_pos (allocates_of_transition h.allowed)]
  by_cases hn : newStatus.allocates
  · rw [if_pos hn]
  · rw [if_neg hn]
    exact Nat.zero_le _

theorem updatedInPlace_driverAssigned {deliveryId : Uuid} {driverId : Option Uuid} {s : Store} :
    UpdatedInPlace s { s with
      deliveries := Table.modify Delivery.id deliveryId (fun d => { d with driverId := driverId })
        s.deliveries } := by
  refine ⟨same_orders s, ⟨deliveryId, fun d => { d with driverId := driverId },
    fun _ => ⟨rfl, rfl, rfl, rfl⟩, rfl⟩, rfl, fun itemId => le_of_eq ?_⟩
  exact congrArg List.sum (Table.map_modify fun d _ => rfl)

theorem deliveryTables_effect {r : Request} {s t : Store} (hs : DeliveryTables s)
    (h : Effect r s t) : DeliveryTables t := by
  have hk := orderKeys_effect hs.keys h
  cases h with
  | unchanged same => rw [same]; exact hs
  | created coupons data user key o op absent created nonneg =>
    exact deliveryTables_created hs hk created
  | cancelled orderId user reason phone old op canView cancellable changed =>
    exact deliveryTables_updatedInPlace hs hk (updatedInPlace_statusChanged changed)
  | statusUpdated orderId newStatus admin notes old op staff changed =>
    exact deliveryTables_updatedInPlace hs hk (updatedInPlace_statusChanged changed)
  | deliveryCreated orderId payload d order op created =>
    exact deliveryTables_deliveryCreated hs hk created
  | deliveryUpdated orderId deliveryId newStatus notes old op ofOrder changed =>
    exact deliveryTables_updatedInPlace hs hk
      (updatedInPlace_deliveryChanged hs.deliveryIds changed)
  | driverUpdated deliveryId actorId isAdmin outcome notes lat lng old op mayTouch changed =>
    exact deliveryTables_updatedInPlace hs hk
      (updatedInPlace_deliveryChanged hs.deliveryIds changed)
  | driverAssigned deliveryId driverId op written =>
    rw [written] at hk ⊢
    exact deliveryTables_updatedInPlace hs hk updatedInPlace_driverAssigned

theorem deliveryTables_catalog (c : Catalog) : DeliveryTables c.store where
  keys := (ledgerInv_catalog c).keys
  itemsUsed := fun _ h => nomatch h
  itemIds := fun _ h => nomatch h
  itemOrder := fun _ h => nomatch h
  deliveryIds := List.nodup_nil
  deliveriesUsed := fun _ h => nomatch h
  ofOrder := fun _ h => nomatch h
  allocated := fun _ h => nomatch h

/-- Units of an order item in deliveries with status `delivered`. -/
def deliveredUnits (s : Store) (itemId : Uuid) : ℕ :=
  carried (· = .delivered) s.deliveries itemId

/-- Units of an order item that the order's cancellation returned to stock: `cancel_order`
and `update_order_status` return every line that still has its product. -/
def returnedUnits (o : Order) (i : OrderItem) : ℕ :=
  if o.status = .cancelled ∧ i.productId.isSome then i.quantity else 0

/-- No unit is both delivered and back on the shelf. -/
def NoUnitTwice (s : Store) : Prop :=
  ∀ o ∈ s.orders, ∀ i ∈ o.items, deliveredUnits s i.id + returnedUnits o i ≤ i.quantity

instance (s : Store) : Decidable (NoUnitTwice s) := by
  unfold NoUnitTwice; infer_instance

/-- No delivery of a cancelled order is delivered. -/
def CancelledUndelivered (s : Store) : Prop :=
  ∀ o ∈ s.orders, o.status = .cancelled → ∀ d ∈ s.deliveries, d.orderId = o.id →
    d.status ≠ .delivered

theorem noUnitTwice_of_cancelledUndelivered {s : Store} (hs : DeliveryTables s)
    (h : CancelledUndelivered s) : NoUnitTwice s := by
  intro o ho i hi
  by_cases hc : o.status = .cancelled
  · have hzero : deliveredUnits s i.id = 0 := by
      rw [deliveredUnits, ← hs.carried_ofOrder ho hi]
      refine carried_eq_zero fun d hd hdel => absurd (of_decide_eq_true hdel) ?_
      have hd' := List.mem_filter.mp hd
      exact h o ho hc d hd'.1 (of_decide_eq_true hd'.2)
    rw [hzero, returnedUnits]
    split_ifs
    · exact le_of_eq (Nat.zero_add _)
    · exact Nat.zero_le _
  · have hle : deliveredUnits s i.id ≤ carried DeliveryStatus.allocates s.deliveries i.id := by
      refine carried_mono (fun st hst => ?_) _ _
      obtain rfl := of_decide_eq_true hst
      rfl
    rw [returnedUnits, if_neg fun h => hc h.1, Nat.add_zero]
    exact hle.trans (hs.allocated o ho i hi)

/-- No delivery of the order is delivered. -/
def NoneDelivered (s : Store) (orderId : Uuid) : Prop :=
  ∀ d ∈ s.deliveries, d.orderId = orderId → d.status ≠ .delivered

/-- The order of the delivery is not cancelled. -/
def OrderOpen (s : Store) (d : Delivery) : Prop :=
  ∀ o ∈ s.orders, o.id = d.orderId → o.status ≠ .cancelled

/-- The condition on a request in the tables it is served on: a cancellation that is
accepted finds no delivery of the order delivered, and a delivery that is accepted as
delivered belongs to an order that is not cancelled. -/
def KeepsUnitsApart (s : Store) (r : Request) : Prop :=
  match r.op with
  | .cancelOrder orderId user _ phone =>
    ∀ o ∈ Table.find Order.id orderId s.orders, ensureCanView o user phone = .ok () →
      o.status.canBeCancelled → NoneDelivered s orderId
  | .updateOrderStatus orderId .cancelled admin _ =>
    ∀ o ∈ Table.find Order.id orderId s.orders, ensureStaff admin = .ok () →
      .cancelled ∈ allowedStatusTransitions o.status → NoneDelivered s orderId
  | .updateDeliveryStatus orderId deliveryId .delivered _ =>
    ∀ d ∈ Table.find Delivery.id deliveryId s.deliveries, d.orderId = orderId →
      .delivered ∈ deliveryStatusTransitions d.status → OrderOpen s d
  | .driverUpdateStatus deliveryId actorId isAdmin .delivered _ _ _ =>
    ∀ d ∈ Table.find Delivery.id deliveryId s.deliveries,
      (isAdmin ∨ d.driverId = some actorId) →
      .delivered ∈ deliveryStatusTransitions d.status → OrderOpen s d
  | _ => True

instance (s : Store) (orderId : Uuid) : Decidable (NoneDelivered s orderId) := by
  unfold NoneDelivered; infer_instance

instance (s : Store) (d : Delivery) : Decidable (OrderOpen s d) := by
  unfold OrderOpen; infer_instance

instance (s : Store) (r : Request) : Decidable (KeepsUnitsApart s r) := by
  unfold KeepsUnitsApart; split <;> infer_instance

theorem withStatus_cancelled {o : Order} {newStatus : OrderStatus} {notes : Option String}
    {now : Timestamp} (h : (o.withStatus newStatus notes now).status = .cancelled) :
    newStatus = .cancelled := h

theorem rollUp_cancelled {ds : List Delivery} {now : Timestamp} {o : Order}
    (h : (o.rollUp ds now).status = .cancelled) : o.status = .cancelled := by
  unfold Order.rollUp at h
  split_ifs at h <;> simp_all

/-- A status change keeps cancelled orders undelivered when the new cancellation does. -/
theorem cancelledUndelivered_statusChanged {orderId : Uuid} {newStatus : OrderStatus}
    {s t : Store} {old : Order} (hs : CancelledUndelivered s)
    (h : StatusChanged orderId newStatus s t old)
    (hnew : newStatus = .cancelled → NoneDelivered s orderId) : CancelledUndelivered t := by
  obtain ⟨notes, now, ht⟩ := h.written
  intro o' ho' hc d hd hid
  rw [ht] at ho' hd
  obtain ⟨o, ho, rfl⟩ := Table.mem_modify.mp ho'
  by_cases hk : o.id = orderId
  · rw [if_pos hk] at hc hid
    exact hnew (withStatus_cancelled hc) d hd (hid.trans hk)
  · rw [if_neg hk] at hc hid
    exact hs o ho hc d hd hid

/-- A delivery status change does, when it delivers only for an open order. -/
theorem cancelledUndelivered_deliveryChanged {deliveryId : Uuid} {newStatus : DeliveryStatus}
    {s t : Store} {old : Delivery} (hs : CancelledUndelivered s)
    (hids : (s.deliveries.map Delivery.id).Nodup)
    (h : DeliveryChanged deliveryId newStatus s t old)
    (hnew : newStatus = .delivered → OrderOpen s old) : CancelledUndelivered t := by
  obtain ⟨notes, location, now, ht⟩ := h.written
  intro o' ho' hc d' hd' hid
  rw [ht] at ho' hd'
  obtain ⟨o, ho, rfl⟩ := Table.mem_modify.mp ho'
  have hoid : (if o.id = old.orderId then o.rollUp
      ((s.withDelivery deliveryId newStatus notes location now).deliveriesOf old.orderId) now
      else o).id = o.id := by
    split_ifs
    · exact (sameOrder_rollUp _ now o).id
    · rfl
  have hoc : o.status = .cancelled := by
    split_ifs at hc
    · exact rollUp_cancelled hc
    · exact hc
  rw [hoid] at hid
  obtain ⟨d, hd, rfl⟩ := Table.mem_modify.mp hd'
  by_cases hk : d.id = deliveryId
  · rw [if_pos hk] at hid ⊢
    have hold : d = old := by
      have hfind := Table.find_of_mem hids hd
      rw [hk, h.found] at hfind
      exact (Option.some.inj hfind).symm
    intro hdel
    exact hnew hdel o ho (by rw [← hold]; exact hid.symm) hoc
  · rw [if_neg hk] at hid ⊢
    exact hs o ho hoc d hd hid

theorem cancelledUndelivered_effect {r : Request} {s t : Store} (hd : DeliveryTables s)
    (hs : CancelledUndelivered s) (hg : KeepsUnitsApart s r) (h : Effect r s t) :
    CancelledUndelivered t := by
  unfold KeepsUnitsApart at hg
  cases h with
  | unchanged same => rw [same]; exact hs
  | created coupons data user key o op absent created nonneg =>
    intro o' ho' hc d hdel hid
    rw [created.deliveries] at hdel
    rw [created.orders] at ho'
    rcases List.mem_append.mp ho' with ho' | ho'
    · exact hs o' ho' hc d hdel hid
    · obtain rfl : o' = o := by simpa using ho'
      rw [created.status] at hc
      cases hc
  | cancelled orderId user reason phone old op canView cancellable changed =>
    rw [op] at hg
    exact cancelledUndelivered_statusChanged hs changed fun _ =>
      hg old changed.found canView cancellable
  | statusUpdated orderId newStatus admin notes old op staff changed =>
    refine cancelledUndelivered_statusChanged hs changed fun hc => ?_
    subst hc
    rw [op] at hg
    exact hg old changed.found staff changed.allowed
  | deliveryCreated orderId payload d order op created =>
    obtain ⟨now, hw⟩ := created.written
    intro o' ho' hc d' hdel hid
    rw [hw] at ho' hdel
    obtain ⟨o, ho, hsame⟩ := sameOrder_of_mem_modify (fun o => sameOrder_rollUp _ now o) ho'
    rcases List.mem_append.mp hdel with hdel | hdel
    · obtain ⟨o₁, ho₁, rfl⟩ := Table.mem_modify.mp ho'
      refine hs o₁ ho₁ ?_ d' hdel (hid.trans ?_)
      · split_ifs at hc
        · exact rollUp_cancelled hc
        · exact hc
      · split_ifs
        · exact (sameOrder_rollUp _ now o₁).id
        · rfl
    · obtain rfl : d' = d := by simpa using hdel
      rw [created.status]
      decide
  | deliveryUpdated orderId deliveryId newStatus notes old op ofOrder changed =>
    refine cancelledUndelivered_deliveryChanged hs hd.deliveryIds changed fun hdel => ?_
    subst hdel
    rw [op] at hg
    exact hg old changed.found ofOrder changed.allowed
  | driverUpdated deliveryId actorId isAdmin outcome notes lat lng old op mayTouch changed =>
    refine cancelledUndelivered_deliveryChanged hs hd.deliveryIds changed fun hdel => ?_
    cases outcome with
    | failed => cases hdel
    | delivered =>
      rw [op] at hg
      exact hg old changed.found mayTouch changed.allowed
  | driverAssigned deliveryId driverId op written =>
    rw [written]
    intro o ho hc d' hdel hid
    obtain ⟨d, hd', rfl⟩ := Table.mem_modify.mp hdel
    split_ifs at hid ⊢ <;> exact hs o ho hc d hd' hid

/-- In every run whose requests keep the units apart, no unit is both delivered and put
back on the shelf, whatever is served. -/
theorem noUnitTwice_run (c : Catalog) (rs : List Request)
    (h : GuardedRun KeepsUnitsApart c.store rs) : NoUnitTwice (serveAll c.store rs) := by
  have hinit : DeliveryTables c.store ∧ CancelledUndelivered c.store :=
    ⟨deliveryTables_catalog c, fun _ ho => nomatch ho⟩
  have hstep : ∀ s r, DeliveryTables s ∧ CancelledUndelivered s → KeepsUnitsApart s r →
      DeliveryTables (serve s r).1 ∧ CancelledUndelivered (serve s r).1 := fun s r hs hg =>
    ⟨deliveryTables_effect hs.1 (serve_effect s r),
      cancelledUndelivered_effect hs.1 hs.2 hg (serve_effect s r)⟩
  obtain ⟨htables, hclean⟩ := GuardedRun.invariant hstep hinit h
  exact noUnitTwice_of_cancelledUndelivered htables hclean

/-- A guest orders two cylinders and gets one of them delivered. -/
def oneOfTwoDelivered : List Request := [
  ⟨.createOrder true (cylinderCheckout 2) none 55, ⟨0, 20260101⟩⟩,
  ⟨.createDelivery 100 ⟨[⟨101, 1⟩], none, none⟩, ⟨1, 20260101⟩⟩,
  ⟨.updateDeliveryStatus 100 102 .delivered none, ⟨2, 20260101⟩⟩]

theorem noUnitTwice_oneOfTwoDelivered :
    NoUnitTwice (serveAll tenCylinders.store oneOfTwoDelivered) :=
  noUnitTwice_run tenCylinders oneOfTwoDelivered (by decide +kernel)

/-- The guest then cancels the order, which is still pending: both cylinders go back to
stock although one was delivered. -/
theorem unit_delivered_and_returned :
    ¬ NoUnitTwice (serveAll tenCylinders.store (oneOfTwoDelivered ++
      [⟨.cancelOrder 100 none none (some "0901234567"), ⟨3, 20260101⟩⟩])) := by
  decide +kernel

end Qiki.Orders
