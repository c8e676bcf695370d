import Qiki.Orders.DeliveredUnits

/-! The order status under its two writers, the transition table and the roll-up of the
deliveries: it moves forward only, and an order whose items are all delivered is delivered. -/
namespace Qiki.Orders

/-- The statuses a status may change to. -/
def OrderStatus.later : OrderStatus → List OrderStatus
  | .pending => [.confirmed, .shipping, .delivered, .cancelled]
  | .confirmed => [.shipping, .delivered, .cancelled]
  | .shipping => [.delivered, .cancelled]
  | .delivered => []
  | .cancelled => []

/-- Every order keeps its status or moves forward. -/
def StatusesForward (s t : Store) : Prop :=
  ∀ o ∈ s.orders, ∃ o', Table.find Order.id o.id t.orders = some o' ∧
    (o'.status = o.status ∨ o'.status ∈ o.status.later)

/-- Deliveries with status `delivered` carry every item in full. -/
def FullyCovered (s : Store) (o : Order) : Prop :=
  ∀ i ∈ o.items, i.quantity ≤ carried (· = .delivered) (s.deliveriesOf o.id) i.id

/-- An order that is fully covered and not cancelled has status `delivered`. -/
def CoveredDelivered (s : Store) : Prop :=
  ∀ o ∈ s.orders, o.status ≠ .cancelled → FullyCovered s o → o.status = .delivered

/-- What `CheckoutRequest` demands of the lines: there is one, and each has a quantity. -/
def Request.Accepted (r : Request) : Prop :=
  match r.op with
  | .createOrder _ data _ _ => data.items ≠ [] ∧ ∀ i ∈ data.items, 1 ≤ i.quantity
  | _ => True

instance (r : Request) : Decidable r.Accepted := by
  obtain ⟨op, _⟩ := r
  cases op <;> dsimp only [Request.Accepted] <;> infer_instance

theorem later_of_transition {old new : OrderStatus} (h : new ∈ allowedStatusTransitions old) :
    new ∈ old.later := by
  cases old <;> simp only [allowedStatusTransitions, List.mem_cons, List.not_mem_nil, or_false] at h
    <;> simp only [OrderStatus.later, List.mem_cons, List.not_mem_nil, or_false]
    <;> tauto

/-! The roll-up. -/

theorem fullyDelivered_iff (items : List OrderItem) (ds : List Delivery) :
    fullyDelivered items ds = true ↔
      items ≠ [] ∧ ∀ i ∈ items, i.quantity ≤ carried (· = .delivered) ds i.id := by
  simp [fullyDelivered, deliveredQuantities, get_quantitiesBy]

theorem rollUp_forward (ds : List Delivery) (now : Timestamp) (o : Order) :
    (o.rollUp ds now).status = o.status ∨ (o.rollUp ds now).status ∈ o.status.later := by
  unfold Order.rollUp
  split_ifs with hnone hfull hship
  · exact Or.inl rfl
  · rw [not_or] at hnone
    cases hs : o.status <;> simp_all [OrderStatus.later]
  · cases hs : o.status <;> simp_all [OrderStatus.later, OrderStatus.canBeCancelled]
  · exact Or.inl rfl

theorem rollUp_delivered {ds : List Delivery} {now : Timestamp} {o : Order}
    (h : o.status = .delivered) : (o.rollUp ds now).status = .delivered := by
  rcases rollUp_forward ds now o with hr | hr
  · rw [hr, h]
  · rw [h] at hr
    cases hr

/-- The roll-up of an order that is fully delivered and not cancelled. -/
theorem rollUp_of_fullyDelivered {ds : List Delivery} {now : Timestamp} {o : Order}
    (hds : ds ≠ []) (ho : o.status ≠ .cancelled) (h : fullyDelivered o.items ds = true) :
    (o.rollUp ds now).status = .delivered := by
  unfold Order.rollUp
  rw [if_neg (not_or.mpr ⟨hds, ho⟩), if_pos h]

/-! Forwardness. -/

/-- A row update that moves forward where it is applied. -/
theorem statusesForward_modify {s t : Store} {orderId : Uuid} {f : Order → Order}
    (hids : (s.orders.map Order.id).Nodup) (hf : ∀ o, SameOrder o (f o))
    (ht : t.orders = Table.modify Order.id orderId f s.orders)
    (hstatus : ∀ o, Table.find Order.id orderId s.orders = some o →
      (f o).status = o.status ∨ (f o).status ∈ o.status.later) : StatusesForward s t := by
  intro o ho
  have hfind := Table.find_of_mem hids ho
  rw [ht]
  by_cases hid : o.id = orderId
  · refine ⟨f o, ?_, hstatus o (hid ▸ hfind)⟩
    rw [hid, Table.find_modify_self fun o => (hf o).id, ← hid, hfind]
    rfl
  · refine ⟨o, ?_, Or.inl rfl⟩
    rw [Table.find_modify_ne (fun o => (hf o).id) hid, hfind]

theorem statusesForward_statusChanged {orderId : Uuid} {newStatus : OrderStatus} {s t : Store}
    {old : Order} (hids : (s.orders.map Order.id).Nodup)
    (h : StatusChanged orderId newStatus s t old) : StatusesForward s t := by
  obtain ⟨notes, now, ht⟩ := h.written
  refine statusesForward_modify hids (fun o => sameOrder_withStatus o newStatus notes now)
    (by rw [ht]) fun o ho => Or.inr ?_
  obtain rfl : old = o := Option.some.inj (h.found.symm.trans ho)
  exact later_of_transition h.allowed

theorem statusesForward_effect {r : Request} {s t : Store} (hs : OrderKeys s)
    (h : Effect r s t) : StatusesForward s t := by
  cases h with
  | unchanged same =>
    intro o ho
    exact ⟨o, by rw [same]; exact Table.find_of_mem hs.ids ho, Or.inl rfl⟩
  | created coupons data user key o op absent created nonneg =>
    intro o' ho'
    refine ⟨o', ?_, Or.inl rfl⟩
    rw [created.orders, Table.find_append, Table.find_of_mem hs.ids ho']
    rfl
  | cancelled orderId user reason phone old op canView cancellable changed =>
    exact statusesForward_statusChanged hs.ids changed
  | statusUpdated orderId newStatus admin notes old op staff changed =>
    exact statusesForward_statusChanged hs.ids changed
  | deliveryCreated orderId payload d order op created =>
    obtain ⟨now, ht⟩ := created.written
    exact statusesForward_modify hs.ids (fun o => sameOrder_rollUp _ now o) (by rw [ht]; rfl)
      fun o _ => rollUp_forward _ now o
  | deliveryUpdated orderId deliveryId newStatus notes old op ofOrder changed =>
    obtain ⟨notes, location, now, ht⟩ := changed.written
    exact statusesForward_modify hs.ids (fun o => sameOrder_rollUp _ now o) (by rw [ht]; rfl)
      fun o _ => rollUp_forward _ now o
  | driverUpdated deliveryId actorId isAdmin outcome notes lat lng old op mayTouch changed =>
    obtain ⟨notes, location, now, ht⟩ := changed.written
    exact statusesForward_modify hs.ids (fun o => sameOrder_rollUp _ now o) (by rw [ht]; rfl)
      fun o _ => rollUp_forward _ now o
  | driverAssigned deliveryId driverId op written =>
    intro o ho
    exact ⟨o, by rw [written]; exact Table.find_of_mem hs.ids ho, Or.inl rfl⟩

/-! Coverage. -/

/-- Orders have items, and a covered order is delivered. -/
structure RolledUp (s : Store) : Prop where
  items : ∀ o ∈ s.orders, o.items ≠ []
  covered : CoveredDelivered s

/-- A new order has a line with a positive quantity. -/
theorem created_line {data : CheckoutRequest} {key : Uuid} {day : ℕ} {s t : Store} {o : Order}
    (h : Created data key day s t o) (hd : data.items ≠ [])
    (hq : ∀ i ∈ data.items, 1 ≤ i.quantity) : ∃ i ∈ o.items, 1 ≤ i.quantity := by
  obtain ⟨first, rest, hitems⟩ := List.exists_cons_of_ne_nil hd
  have hkey : first.productId ∈ (requestedByProduct data.items).map Prod.fst := by
    rw [mem_requestedByProduct, hitems]
    exact List.mem_cons_self ..
  obtain ⟨l, hl, -⟩ := List.mem_map.mp hkey
  have hline : (l.1, (l.2 : ℤ)) ∈ o.lines := by
    rw [h.lines]
    exact List.mem_map.mpr ⟨l, hl, rfl⟩
  obtain ⟨i, hi, he⟩ := List.mem_filterMap.mp hline
  obtain ⟨p, -, hp⟩ := Option.map_eq_some_iff.mp he
  have hquantity : (i.quantity : ℤ) = l.2 := congrArg Prod.snd hp
  have hpos := requestedByProduct_pos hq l hl
  exact ⟨i, hi, by omega⟩

/-- An order row that is rewritten without touching the coverage. -/
theorem rolledUp_modify {s t : Store} {orderId : Uuid} {f : Order → Order} (hs : RolledUp s)
    (hf : ∀ o, SameOrder o (f o))
    (ht : t.orders = Table.modify Order.id orderId f s.orders)
    (hother : ∀ o ∈ s.orders, o.id ≠ orderId → FullyCovered t o → FullyCovered s o)
    (hself : ∀ o ∈ s.orders, o.id = orderId → (f o).status ≠ .cancelled → FullyCovered t (f o) →
      (f o).status = .delivered) : RolledUp t := by
  constructor
  · intro o' ho'
    obtain ⟨o, ho, hsame⟩ := sameOrder_of_mem_modify hf (ht ▸ ho')
    rw [hsame.items]
    exact hs.items o ho
  · intro o' ho' hstatus hcov
    rw [ht] at ho'
    obtain ⟨o, ho, rfl⟩ := Table.mem_modify.mp ho'
    by_cases hid : o.id = orderId
    · rw [if_pos hid] at hstatus hcov ⊢
      exact hself o ho hid hstatus hcov
    · rw [if_neg hid] at hstatus hcov ⊢
      exact hs.covered o ho hstatus (hother o ho hid hcov)

theorem rolledUp_statusChanged {orderId : Uuid} {newStatus : OrderStatus} {s t : Store}
    {old : Order} (hids : (s.orders.map Order.id).Nodup) (hs : RolledUp s)
    (h : StatusChanged orderId newStatus s t old) : RolledUp t := by
  obtain ⟨notes, now, ht⟩ := h.written
  have hto : t.orders = Table.modify Order.id orderId (·.withStatus newStatus notes now) s.orders :=
    by rw [ht]
  have htd : t.deliveries = s.deliveries := by rw [ht]
  have hcov : ∀ o, FullyCovered t o → FullyCovered s o := fun o h => by
    unfold FullyCovered Store.deliveriesOf at h ⊢
    rw [← htd]
    exact h
  refine rolledUp_modify hs (fun o => sameOrder_withStatus o newStatus notes now) hto
    (fun o _ _ => hcov o) fun o ho hid hstatus hfull => ?_
  -- the old row was covered too, hence delivered or cancelled, and nothing follows these
  have hold : old = o := by
    have hfind := Table.find_of_mem hids ho
    rw [hid, h.found] at hfind
    exact Option.some.inj hfind
  have hallowed := h.allowed
  rw [hold] at hallowed
  by_cases hc : o.status = .cancelled
  · rw [hc] at hallowed
    cases hallowed
  · rw [hs.covered o ho hc (hcov o hfull)] at hallowed
    cases hallowed

/-- A new delivery is pending: it covers nothing. -/
theorem rolledUp_deliveryCreated {orderId : Uuid} {s t : Store} {d : Delivery} {order : Order}
    (hs : RolledUp s) (h : DeliveryCreated orderId s t d order) : RolledUp t := by
  obtain ⟨now, ht⟩ := h.written
  have htd : t.deliveries = s.deliveries ++ [d] := by rw [ht]; rfl
  have hcov : ∀ o, FullyCovered t o → FullyCovered s o := by
    intro o hfull i hi
    have hle := hfull i hi
    rw [Store.deliveriesOf, htd, List.filter_append, carried_append] at hle
    have hzero : carried (· = .delivered)
        ([d].filter fun d' => decide (d'.orderId = o.id)) i.id = 0 := by
      refine carried_eq_zero fun d' hd' hdel => ?_
      obtain rfl : d' = d := by simpa using (List.mem_filter.mp hd').1
      rw [h.status] at hdel
      cases hdel
    rw [hzero, Nat.add_zero] at hle
    exact hle
  refine rolledUp_modify hs (fun o => sameOrder_rollUp _ now o) (by rw [ht]; rfl)
    (fun o _ _ => hcov o) fun o ho _ hstatus hfull => ?_
  have hsame := sameOrder_rollUp (s.deliveriesOf orderId) now o
  have hold : FullyCovered s o := by
    refine hcov o fun i hi => ?_
    have hle := hfull i (hsame.items.symm ▸ hi)
    rw [hsame.id] at hle
    exact hle
  have hopen : o.status ≠ .cancelled := by
    intro hc
    refine hstatus ?_
    rw [Order.rollUp, if_pos (Or.inr hc), hc]
  exact rollUp_delivered (hs.covered o ho hopen hold)

/-- After a delivery has changed, its order is rolled up over the changed deliveries. -/
theorem rolledUp_deliveryChanged {deliveryId : Uuid} {newStatus : DeliveryStatus} {s t : Store}
    {old : Delivery} (hids : (s.deliveries.map Delivery.id).Nodup) (hs : RolledUp s)
    (h : DeliveryChanged deliveryId newStatus s t old) : RolledUp t := by
  obtain ⟨notes, location, now, ht⟩ := h.written
  have htd : t.deliveries = Table.modify Delivery.id deliveryId
      (·.withStatus newStatus notes location now) s.deliveries := by rw [ht]; rfl
  have hof : ∀ orderId, t.deliveriesOf orderId =
      (s.withDelivery deliveryId newStatus notes location now).deliveriesOf orderId :=
    fun orderId => by rw [Store.deliveriesOf, htd]; rfl
  have hfilter : ∀ orderId, t.deliveriesOf orderId = Table.modify Delivery.id deliveryId
      (·.withStatus newStatus notes location now) (s.deliveriesOf orderId) := fun orderId => by
    rw [Store.deliveriesOf, htd]
    exact Table.filter_modify fun _ _ => rfl
  have hold : old ∈ s.deliveries := Table.mem_of_find h.found
  have hkey : old.id = deliveryId := Table.key_of_find h.found
  refine rolledUp_modify hs (fun o => sameOrder_rollUp _ now o) (by rw [ht]; rfl)
    (fun o _ hid hfull i hi => ?_) fun o ho hid hstatus hfull => ?_
  · -- the changed delivery is not one of another order
    have hsame : t.deliveriesOf o.id = s.deliveriesOf o.id := by
      rw [hfilter]
      refine Table.modify_eq_self fun d hd he => hid ?_
      obtain ⟨hmem, hof'⟩ := List.mem_filter.mp hd
      have hd_old : d = old := List.inj_on_of_nodup_map hids hmem hold (he.trans hkey.symm)
      rw [← hd_old]
      exact (of_decide_eq_true hof').symm
    rw [← hsame]
    exact hfull i hi
  · rw [← hof] at hstatus hfull ⊢
    have hsame := sameOrder_rollUp (t.deliveriesOf old.orderId) now o
    have hne : t.deliveriesOf old.orderId ≠ [] := by
      rw [hfilter]
      refine List.ne_nil_of_mem (Table.mem_modify.mpr ⟨old, ?_, rfl⟩)
      exact List.mem_filter.mpr ⟨hold, by simp⟩
    have hopen : o.status ≠ .cancelled := by
      intro hc
      refine hstatus ?_
      rw [Order.rollUp, if_pos (Or.inr hc), hc]
    refine rollUp_of_fullyDelivered hne hopen ((fullyDelivered_iff _ _).mpr ⟨hs.items o ho, ?_⟩)
    intro i hi
    have hle := hfull i (hsame.items.symm ▸ hi)
    rw [hsame.id, hid] at hle
    exact hle

theorem rolledUp_created {data : CheckoutRequest} {key : Uuid} {day : ℕ} {s t : Store} {o : Order}
    (hd : DeliveryTables s) (hs : RolledUp s) (h : Created data key day s t o)
    (hline : ∃ i ∈ o.items, 1 ≤ i.quantity) : RolledUp t := by
  have hof : ∀ orderId, t.deliveriesOf orderId = s.deliveriesOf orderId := fun orderId => by
    rw [Store.deliveriesOf, h.deliveries]
    rfl
  obtain ⟨i, hi, hpos⟩ := hline
  constructor
  · intro o' ho'
    rw [h.orders] at ho'
    rcases List.mem_append.mp ho' with ho' | ho'
    · exact hs.items o' ho'
    · obtain rfl : o' = o := by simpa using ho'
      exact List.ne_nil_of_mem hi
  · intro o' ho' hstatus hfull
    rw [h.orders] at ho'
    unfold FullyCovered at hfull
    rw [hof] at hfull
    rcases List.mem_append.mp ho' with ho' | ho'
    · exact hs.covered o' ho' hstatus hfull
    · -- the new order has no deliveries yet
      obtain rfl : o' = o := by simpa using ho'
      have hnone : s.deliveriesOf o'.id = [] := hd.deliveriesOf_unused h.id
      have hle := hfull i hi
      rw [hnone, carried_nil] at hle
      omega

theorem rolledUp_effect {r : Request} {s t : Store} (hd : DeliveryTables s) (hs : RolledUp s)
    (hr : r.Accepted) (h : Effect r s t) : RolledUp t := by
  cases h with
  | unchanged same => rw [same]; exact hs
  | created coupons data user key o op absent created nonneg =>
    unfold Request.Accepted at hr
    rw [op] at hr
    exact rolledUp_created hd hs created (created_line created hr.1 hr.2)
  | cancelled orderId user reason phone old op canView cancellable changed =>
    exact rolledUp_statusChanged hd.keys.ids hs changed
  | statusUpdated orderId newStatus admin notes old op staff changed =>
    exact rolledUp_statusChanged hd.keys.ids hs changed
  | deliveryCreated orderId payload d order op created =>
    exact rolledUp_deliveryCreated hs created
  | deliveryUpdated orderId deliveryId newStatus notes old op ofOrder changed =>
    exact rolledUp_deliveryChanged hd.deliveryIds hs changed
  | driverUpdated deliveryId actorId isAdmin outcome notes lat lng old op mayTouch changed =>
    exact rolledUp_deliveryChanged hd.deliveryIds hs changed
  | driverAssigned deliveryId driverId op written =>
    rw [written]
    refine ⟨hs.items, fun o ho hstatus hfull => hs.covered o ho hstatus fun i hi => ?_⟩
    have hds : ({ s with
        deliveries := Table.modify Delivery.id deliveryId
          (fun d => { d with driverId := driverId }) s.deliveries } : Store).deliveriesOf o.id =
        Table.modify Delivery.id deliveryId (fun d => { d with driverId := driverId })
          (s.deliveriesOf o.id) := Table.filter_modify fun _ _ => rfl
    have hle := hfull i hi
    rw [hds] at hle
    refine hle.trans (le_of_eq ?_)
    exact congrArg List.sum (Table.map_modify fun d _ => rfl)

theorem rolledUp_catalog (c : Catalog) : RolledUp c.store :=
  ⟨(fun _ h => nomatch h), (fun _ h => nomatch h)⟩

/-- In every run of requests that pass their schemas, every request moves every order's
status forward or keeps it, and a covered order is delivered. -/
theorem order_status_forward (c : Catalog) (rs : List Request) (h : ∀ r ∈ rs, r.Accepted) :
    (∀ r, StatusesForward (serveAll c.store rs) (serve (serveAll c.store rs) r).1) ∧
      CoveredDelivered (serveAll c.store rs) := by
  have hguard : GuardedRun (fun _ r => r.Accepted) c.store rs :=
    Transition.guarded_of_forall_mem h c.store
  have hinit : DeliveryTables c.store ∧ RolledUp c.store :=
    ⟨deliveryTables_catalog c, rolledUp_catalog c⟩
  have hstep : ∀ s r, DeliveryTables s ∧ RolledUp s → r.Accepted →
      DeliveryTables (serve s r).1 ∧ RolledUp (serve s r).1 := fun s r hs hr =>
    ⟨deliveryTables_effect hs.1 (serve_effect s r), rolledUp_effect hs.1 hs.2 hr (serve_effect s r)⟩
  obtain ⟨htables, hrolled⟩ := GuardedRun.invariant hstep hinit hguard
  exact ⟨fun r => statusesForward_effect htables.keys (serve_effect _ r), hrolled.covered⟩

theorem order_status_forward_oneOfTwoDelivered :
    (∀ r, StatusesForward (serveAll tenCylinders.store oneOfTwoDelivered)
      (serve (serveAll tenCylinders.store oneOfTwoDelivered) r).1) ∧
      CoveredDelivered (serveAll tenCylinders.store oneOfTwoDelivered) :=
  order_status_forward tenCylinders oneOfTwoDelivered (by decide +kernel)

end Qiki.Orders
