import Qiki.Orders.CreateOrder

/-! Staff status changes and the customer's cancellation of an order. -/
namespace Qiki.Orders

def OrderStatus.text : OrderStatus → String
  | .pending => "pending"
  | .confirmed => "confirmed"
  | .shipping => "shipping"
  | .delivered => "delivered"
  | .cancelled => "cancelled"

def ensureStaff (user : User) : Except Exn Unit :=
  if user.isStaff then .ok () else .error (.forbidden "Staff role required" "staff_required")

/-- `_ensure_can_view`: staff, the owner, or whoever knows the order's phone. -/
def ensureCanView (order : Order) (user : Option User) (phone : Option String) :
    Except Exn Unit :=
  if user.any fun u => u.isStaff || order.userId = some u.id then .ok ()
  else if phone.any fun p => p ≠ "" && order.customerPhone = p then .ok ()
  else .error (.forbidden "Order access denied" "order_forbidden")

/-- `OrderRepository.get_by_id`, and the error every caller raises for a missing order. -/
def requireOrder (orderId : Uuid) : Db Order := do
  execute
  let s ← getStore
  match Table.find Order.id orderId s.orders with
  | none => raise (.notFound "Order not found" "order_not_found")
  | some order => return order

def invalidStatusTransition (old new : OrderStatus) : Exn :=
  .validation s!"Cannot transition order from {old.text} to {new.text}"
    "invalid_status_transition"

/-- `if item.product_id: await increment_stock(...)` -/
def returnItem (item : OrderItem) : Db Unit :=
  match item.productId with
  | none => pure ()
  | some productId => incrementStock productId item.quantity

/-- `for item in order.items:` the line goes back to stock. -/
def returnStock : List OrderItem → Db Unit
  | [] => pure ()
  | item :: items => do
    returnItem item
    returnStock items

/-- `if new_status == "cancelled":` the order's lines go back to stock. -/
def returnStockIfCancelled (newStatus : OrderStatus) (items : List OrderItem) : Db Unit :=
  if newStatus = .cancelled then returnStock items else pure ()

/-- The columns that `update_status` writes. Empty notes do not replace older ones. -/
def Order.withStatus (o : Order) (newStatus : OrderStatus) (notes : Option String)
    (now : Timestamp) : Order :=
  { o with
    status := newStatus
    internalNotes := if notes.any (· ≠ "") then notes else o.internalNotes
    deliveredAt := if newStatus = .delivered then some now else o.deliveredAt
    cancelledAt := if newStatus = .cancelled then some now else o.cancelledAt
    cancelledReason := if newStatus = .cancelled then notes else o.cancelledReason }

/-- `OrderRepository.update_status`: the transition is checked again on the session's copy
of the row, then the row is written and refreshed. -/
def updateStatus (orderId : Uuid) (newStatus : OrderStatus) (notes : Option String)
    (now : Timestamp) : Db Order := do
  let order ← requireOrder orderId
  if newStatus ∈ allowedStatusTransitions order.status then do
    execute
    let s ← getStore
    setStore { s with
      orders := Table.modify Order.id orderId (·.withStatus newStatus notes now) s.orders }
    execute
    return order.withStatus newStatus notes now
  else raise (invalidStatusTransition order.status newStatus)

/-- `OrderService.update_order_status` -/
def updateOrderStatus (orderId : Uuid) (newStatus : OrderStatus) (admin : User)
    (notes : Option String) (now : Timestamp) : Db Order := do
  liftCheck (ensureStaff admin)
  let existing ← requireOrder orderId
  if newStatus ∈ allowedStatusTransitions existing.status then do
    returnStockIfCancelled newStatus existing.items
    updateStatus orderId newStatus notes now
  else raise (invalidStatusTransition existing.status newStatus)

/-- `OrderService.cancel_order` -/
def cancelOrder (orderId : Uuid) (currentUser : Option User) (reason phone : Option String)
    (now : Timestamp) : Db Order := do
  let order ← requireOrder orderId
  liftCheck (ensureCanView order currentUser phone)
  if order.status.canBeCancelled then do
    returnStock order.items
    updateStatus orderId .cancelled reason now
  else raise (.validation "Order cannot be cancelled" "order_not_cancellable")

/-! What a successful change has done. -/

theorem requireOrder_eq_ok {orderId : Uuid} {s t : Session} {o : Order}
    (h : requireOrder orderId s = .ok (o, t)) :
    Table.find Order.id orderId s.store.orders = some o ∧ t.store = s.store := by
  obtain ⟨_, s₁, h₁, h⟩ := bind_eq_ok.mp h
  obtain ⟨_, s₂, h₂, h⟩ := bind_eq_ok.mp h
  obtain ⟨rfl, hs₂⟩ := getStore_eq_ok.mp h₂
  rw [execute_store h₁] at h
  cases ho : Table.find Order.id orderId s.store.orders with
  | none => simp [ho] at h
  | some order =>
    simp only [ho] at h
    obtain ⟨rfl, rfl⟩ := pure_eq_ok.mp h
    exact ⟨rfl, by rw [hs₂, execute_store h₁]⟩

/-- The lines of a list of items, as `Order.lines`. -/
def itemLines (items : List OrderItem) : List (Uuid × ℤ) :=
  items.filterMap fun i => i.productId.map fun p => (p, (i.quantity : ℤ))

theorem Order.lines_eq (o : Order) : o.lines = itemLines o.items := rfl

theorem returnStock_eq_ok {items : List OrderItem} {s t : Session} {u : Unit}
    (h : returnStock items s = .ok (u, t)) :
    t.store = { s.store with products := adjustAll (itemLines items) s.store.products } := by
  induction items generalizing s with
  | nil =>
    obtain ⟨-, rfl⟩ := pure_eq_ok.mp h
    rfl
  | cons item items ih =>
    rw [returnStock] at h
    obtain ⟨_, s₁, h₁, h⟩ := bind_eq_ok.mp h
    rw [ih h]
    unfold returnItem at h₁
    cases hp : item.productId with
    | none =>
      simp only [hp] at h₁
      rw [← (pure_eq_ok.mp h₁).2]
      simp [itemLines, hp]
    | some p =>
      simp only [hp] at h₁
      rw [incrementStock_eq_ok h₁]
      simp [itemLines, hp, adjustAll]

theorem updateStatus_eq_ok {orderId : Uuid} {newStatus : OrderStatus} {notes : Option String}
    {now : Timestamp} {s t : Session} {r : Order}
    (h : updateStatus orderId newStatus notes now s = .ok (r, t)) :
    t.store = { s.store with
      orders := Table.modify Order.id orderId (·.withStatus newStatus notes now)
        s.store.orders } := by
  obtain ⟨order, s₁, h₁, h⟩ := bind_eq_ok.mp h
  obtain ⟨-, hs₁⟩ := requireOrder_eq_ok h₁
  by_cases hn : newStatus ∈ allowedStatusTransitions order.status
  · rw [if_pos hn] at h
    obtain ⟨_, s₂, h₂, h⟩ := bind_eq_ok.mp h
    obtain ⟨store, s₃, h₃, h⟩ := bind_eq_ok.mp h
    obtain ⟨_, s₄, h₄, h⟩ := bind_eq_ok.mp h
    obtain ⟨_, s₅, h₅, h⟩ := bind_eq_ok.mp h
    obtain ⟨hstore, -⟩ := getStore_eq_ok.mp h₃
    have hs₂ : store = s.store := by rw [hstore, execute_store h₂, hs₁]
    rw [← (pure_eq_ok.mp h).2, execute_store h₅, setStore_eq_ok.mp h₄, hs₂]
  · rw [if_neg hn] at h
    exact absurd h raise_ne_ok

/-- A committed status change: the old row allowed it, a cancellation returned the
order's lines to stock, and only this order's row was written. -/
structure StatusChanged (orderId : Uuid) (newStatus : OrderStatus) (s t : Store) (old : Order) :
    Prop where
  found : Table.find Order.id orderId s.orders = some old
  allowed : newStatus ∈ allowedStatusTransitions old.status
  written : ∃ notes now, t = { s with
    products := if newStatus = .cancelled then adjustAll old.lines s.products else s.products
    orders := Table.modify Order.id orderId (·.withStatus newStatus notes now) s.orders }

theorem updateOrderStatus_eq_ok {orderId : Uuid} {newStatus : OrderStatus} {admin : User}
    {notes : Option String} {now : Timestamp} {s t : Session} {r : Order}
    (h : updateOrderStatus orderId newStatus admin notes now s = .ok (r, t)) :
    ∃ old, ensureStaff admin = .ok () ∧
      StatusChanged orderId newStatus s.store t.store old := by
  obtain ⟨_, s₁, h₁, h⟩ := bind_eq_ok.mp h
  obtain ⟨old, s₂, h₂, h⟩ := bind_eq_ok.mp h
  obtain ⟨hstaff, hs₁⟩ := liftCheck_eq_ok.mp h₁
  obtain ⟨hfound, hs₂⟩ := requireOrder_eq_ok h₂
  rw [hs₁] at hfound hs₂
  by_cases hn : newStatus ∈ allowedStatusTransitions old.status
  · rw [if_pos hn] at h
    obtain ⟨_, s₃, h₃, h⟩ := bind_eq_ok.mp h
    refine ⟨old, hstaff, hfound, hn, notes, now, ?_⟩
    rw [updateStatus_eq_ok h]
    by_cases hc : newStatus = .cancelled
    · rw [returnStockIfCancelled, if_pos hc] at h₃
      rw [returnStock_eq_ok h₃, hs₂, if_pos hc, Order.lines_eq]
    · rw [returnStockIfCancelled, if_neg hc] at h₃
      rw [← (pure_eq_ok.mp h₃).2, hs₂, if_neg hc]
  · rw [if_neg hn] at h
    exact absurd h raise_ne_ok

theorem cancelOrder_eq_ok {orderId : Uuid} {currentUser : Option User}
    {reason phone : Option String} {now : Timestamp} {s t : Session} {r : Order}
    (h : cancelOrder orderId currentUser reason phone now s = .ok (r, t)) :
    ∃ old, ensureCanView old currentUser phone = .ok () ∧ old.status.canBeCancelled ∧
      StatusChanged orderId .cancelled s.store t.store old := by
  obtain ⟨old, s₁, h₁, h⟩ := bind_eq_ok.mp h
  obtain ⟨_, s₂, h₂, h⟩ := bind_eq_ok.mp h
  obtain ⟨hfound, hs₁⟩ := requireOrder_eq_ok h₁
  obtain ⟨hview, hs₂⟩ := liftCheck_eq_ok.mp h₂
  by_cases hc : old.status.canBeCancelled
  · rw [if_pos hc] at h
    obtain ⟨_, s₃, h₃, h⟩ := bind_eq_ok.mp h
    refine ⟨old, hview, hc, hfound, cancelled_mem_of_canBeCancelled hc, reason, now, ?_⟩
    rw [updateStatus_eq_ok h, returnStock_eq_ok h₃, hs₂, hs₁, if_pos rfl, Order.lines_eq]
  · rw [if_neg hc] at h
    exact absurd h raise_ne_ok

end Qiki.Orders
