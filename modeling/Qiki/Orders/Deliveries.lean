import Qiki.Orders.Status

/-! Deliveries: allocating an order's lines, delivery status changes and the roll-up of
the order status. -/
namespace Qiki.Orders

def DeliveryStatus.text : DeliveryStatus → String
  | .pending => "pending"
  | .shipping => "shipping"
  | .delivered => "delivered"
  | .failed => "failed"
  | .cancelled => "cancelled"

/-- A payload that passed `DeliveryCreate`; its lines are stored as they are. -/
structure DeliveryCreate where
  items : List DeliveryItem
  scheduledAt : Option Timestamp := none
  notes : Option String := none
  deriving DecidableEq, Repr

/-- `DriverOutcome` -/
inductive DriverOutcome
  | delivered | failed
  deriving DecidableEq, Repr

def DriverOutcome.status : DriverOutcome → DeliveryStatus
  | .delivered => .delivered
  | .failed => .failed

/-- The dictionary loop of `_allocated_quantities` and of the roll-up: quantities per
order item over the deliveries whose status counts. -/
def quantitiesBy (counts : DeliveryStatus → Bool) (deliveries : List Delivery) :
    List (Uuid × ℕ) :=
  deliveries.foldl
    (fun d delivery =>
      if counts delivery.status then
        delivery.items.foldl
          (fun d i => Dict.alter i.orderItemId (fun q => q.getD 0 + i.quantity) d) d
      else d) []

def DeliveryStatus.allocates (s : DeliveryStatus) : Bool := s ≠ .cancelled && s ≠ .failed

def allocatedQuantities (deliveries : List Delivery) : List (Uuid × ℕ) :=
  quantitiesBy DeliveryStatus.allocates deliveries

def deliveredQuantities (deliveries : List Delivery) : List (Uuid × ℕ) :=
  quantitiesBy (· = .delivered) deliveries

/-- The loop of `create_delivery` over the payload's lines. -/
def checkDeliveryLines (items : List OrderItem) (allocated : List (Uuid × ℕ)) (seen : List Uuid) :
    List DeliveryItem → Except Exn Unit
  | [] => .ok ()
  | line :: lines =>
    if line.orderItemId ∈ seen then
      .error (.validation "Duplicate order item in delivery" "delivery_duplicate_item")
    else match Table.find OrderItem.id line.orderItemId items with
      | none =>
        .error (.validation "Order item does not belong to this order" "delivery_item_invalid")
      | some item =>
        let remaining : ℤ := item.quantity - (Dict.get item.id allocated).getD 0
        if remaining < line.quantity then
          .error (.validation (s!"Cannot allocate {line.quantity} of '{item.productName}'; " ++
            s!"only {remaining} remaining") "delivery_over_allocation")
        else checkDeliveryLines items allocated (line.orderItemId :: seen) lines

def fullyDelivered (items : List OrderItem) (deliveries : List Delivery) : Bool :=
  !items.isEmpty && items.all fun i =>
    i.quantity ≤ (Dict.get i.id (deliveredQuantities deliveries)).getD 0

/-- `_roll_up_order_status` on the order's row, given the deliveries it is loaded with. -/
def Order.rollUp (deliveries : List Delivery) (now : Timestamp) (o : Order) : Order :=
  if deliveries = [] ∨ o.status = .cancelled then o
  else if fullyDelivered o.items deliveries then
    { o with status := .delivered, deliveredAt := some (o.deliveredAt.getD now) }
  else if (deliveries.any fun d => d.status = .shipping) ∧ o.status.canBeCancelled then
    { o with status := .shipping }
  else o

def rollUpOrderStatus (orderId : Uuid) (deliveries : List Delivery) (now : Timestamp) :
    Db Unit := do
  execute
  let s ← getStore
  setStore { s with orders := Table.modify Order.id orderId (Order.rollUp deliveries now) s.orders }

/-- `DeliveryService.create_delivery`. The roll-up sees the session's copy of
`order.deliveries`, which was loaded before the new delivery was inserted. -/
def createDelivery (orderId : Uuid) (payload : DeliveryCreate) (now : Timestamp) :
    Db Delivery := do
  let order ← requireOrder orderId
  if order.status = .cancelled then
    raise (.validation "Cannot add a delivery to a cancelled order" "order_cancelled")
  else do
    let s ← getStore
    let deliveries := s.deliveriesOf orderId
    liftCheck
      (checkDeliveryLines order.items (allocatedQuantities deliveries) [] payload.items)
    let delivery : Delivery := {
      id := s.nextId
      orderId := orderId
      code := (order.orderNumber, deliveries.length + 1)
      status := .pending
      driverId := none
      scheduledAt := payload.scheduledAt
      deliveredAt := none
      notes := payload.notes
      lastLocation := none
      items := payload.items }
    execute
    setStore { s with deliveries := s.deliveries ++ [delivery], nextId := s.nextId + 1 }
    rollUpOrderStatus orderId deliveries now
    return delivery

/-- The columns a delivery status change writes. -/
def Delivery.withStatus (d : Delivery) (newStatus : DeliveryStatus) (notes : Option String)
    (location : Option (Decimal × Decimal)) (now : Timestamp) : Delivery :=
  { d with
    status := newStatus
    notes := notes.or d.notes
    lastLocation := location.or d.lastLocation
    deliveredAt := if newStatus = .delivered then some now else d.deliveredAt }

def deliveryNotFound : Exn := .notFound "Delivery not found" "delivery_not_found"

/-- The common body of `update_delivery_status` and `driver_update_status`, once the
delivery is found and may be touched. -/
def changeDeliveryStatus (delivery : Delivery) (newStatus : DeliveryStatus)
    (notes : Option String) (location : Option (Decimal × Decimal)) (now : Timestamp) :
    Db Delivery := do
  if newStatus ∈ deliveryStatusTransitions delivery.status then do
    execute
    let s ← getStore
    let deliveries := Table.modify Delivery.id delivery.id
      (·.withStatus newStatus notes location now) s.deliveries
    setStore { s with deliveries := deliveries }
    rollUpOrderStatus delivery.orderId
      (deliveries.filter fun d => d.orderId = delivery.orderId) now
    return delivery.withStatus newStatus notes location now
  else raise (.validation
    s!"Cannot transition delivery from {delivery.status.text} to {newStatus.text}"
    "invalid_delivery_status_transition")

/-- `DeliveryRepository.get_by_id` -/
def getDeliveryById (deliveryId : Uuid) : Db (Option Delivery) := do
  execute
  let s ← getStore
  return Table.find Delivery.id deliveryId s.deliveries

/-- `DeliveryService.update_delivery_status` -/
def updateDeliveryStatus (orderId deliveryId : Uuid) (newStatus : DeliveryStatus)
    (notes : Option String) (now : Timestamp) : Db Delivery := do
  match ← getDeliveryById deliveryId with
  | none => raise deliveryNotFound
  | some delivery =>
    if delivery.orderId = orderId then changeDeliveryStatus delivery newStatus notes none now
    else raise deliveryNotFound

/-- `if lat is not None and lng is not None` -/
def bothCoordinates : Option Decimal → Option Decimal → Option (Decimal × Decimal)
  | some lat, some lng => some (lat, lng)
  | _, _ => none

/-- `DeliveryService.driver_update_status`: a driver may only touch their own delivery. -/
def driverUpdateStatus (deliveryId actorId : Uuid) (isAdmin : Bool) (outcome : DriverOutcome)
    (notes : Option String) (lat lng : Option Decimal) (now : Timestamp) : Db Delivery := do
  match ← getDeliveryById deliveryId with
  | none => raise deliveryNotFound
  | some delivery =>
    if isAdmin ∨ delivery.driverId = some actorId then
      changeDeliveryStatus delivery outcome.status notes (bothCoordinates lat lng) now
    else raise deliveryNotFound

/-- Whether `driver_id` may be written: it is cleared, or names a driver. -/
def checkDriver (users : List User) (driverId : Option Uuid) : Except Exn Unit :=
  match driverId with
  | none => .ok ()
  | some id =>
    if (Table.find User.id id users).any User.isDriver then .ok ()
    else .error (.validation "Assignee must be a driver" "invalid_driver")

/-- `DeliveryService.assign_driver` -/
def assignDriver (deliveryId : Uuid) (driverId : Option Uuid) : Db Delivery := do
  match ← getDeliveryById deliveryId with
  | none => raise deliveryNotFound
  | some delivery => do
    let s ← getStore
    liftCheck (checkDriver s.users driverId)
    execute
    setStore { s with
      deliveries := Table.modify Delivery.id deliveryId (fun d => { d with driverId := driverId })
        s.deliveries }
    return { delivery with driverId := driverId }

/-! What a successful delivery operation has done. -/

/-- The tables after the roll-up of one order. -/
def Store.rollUp (s : Store) (orderId : Uuid) (deliveries : List Delivery) (now : Timestamp) :
    Store :=
  { s with orders := Table.modify Order.id orderId (Order.rollUp deliveries now) s.orders }

theorem rollUpOrderStatus_eq_ok {orderId : Uuid} {deliveries : List Delivery} {now : Timestamp}
    {s t : Session} {u : Unit} (h : rollUpOrderStatus orderId deliveries now s = .ok (u, t)) :
    t.store = s.store.rollUp orderId deliveries now := by
  obtain ⟨_, s₁, h₁, h⟩ := bind_eq_ok.mp h
  obtain ⟨_, s₂, h₂, h⟩ := bind_eq_ok.mp h
  obtain ⟨rfl, rfl⟩ := getStore_eq_ok.mp h₂
  rw [setStore_eq_ok.mp h, execute_store h₁]
  rfl

/-- A committed delivery of an order that was not cancelled, whose lines passed the
allocation check. -/
structure DeliveryCreated (orderId : Uuid) (s t : Store) (d : Delivery) (order : Order) :
    Prop where
  found : Table.find Order.id orderId s.orders = some order
  open_ : order.status ≠ .cancelled
  lines : checkDeliveryLines order.items (allocatedQuantities (s.deliveriesOf orderId)) [] d.items
    = .ok ()
  id : d.id = s.nextId
  ofOrder : d.orderId = orderId
  status : d.status = .pending
  code : d.code = (order.orderNumber, (s.deliveriesOf orderId).length + 1)
  written : ∃ now, t = ({ s with
    deliveries := s.deliveries ++ [d], nextId := s.nextId + 1 } : Store).rollUp orderId
      (s.deliveriesOf orderId) now

theorem createDelivery_eq_ok {orderId : Uuid} {payload : DeliveryCreate} {now : Timestamp}
    {s t : Session} {d : Delivery} (h : createDelivery orderId payload now s = .ok (d, t)) :
    ∃ order, DeliveryCreated orderId s.store t.store d order ∧ d.items = payload.items := by
  obtain ⟨order, s₁, h₁, h⟩ := bind_eq_ok.mp h
  obtain ⟨hfound, hs₁⟩ := requireOrder_eq_ok h₁
  by_cases hc : order.status = .cancelled
  · rw [if_pos hc] at h
    exact absurd h raise_ne_ok
  · rw [if_neg hc] at h
    obtain ⟨store, s₂, h₂, h⟩ := bind_eq_ok.mp h
    obtain ⟨_, s₃, h₃, h⟩ := bind_eq_ok.mp h
    obtain ⟨_, s₄, h₄, h⟩ := bind_eq_ok.mp h
    obtain ⟨_, s₅, h₅, h⟩ := bind_eq_ok.mp h
    obtain ⟨_, s₆, h₆, h⟩ := bind_eq_ok.mp h
    obtain ⟨hstore, -⟩ := getStore_eq_ok.mp h₂
    obtain ⟨hlines, -⟩ := liftCheck_eq_ok.mp h₃
    rw [hs₁] at hstore
    rw [hstore] at hlines h₅ h₆ h
    obtain ⟨hd, ht⟩ := pure_eq_ok.mp h
    refine ⟨order, ⟨hfound, hc, ?_, ?_, ?_, ?_, ?_, now, ?_⟩, by rw [← hd]⟩
    · rw [← hd]; exact hlines
    · rw [← hd]
    · rw [← hd]
    · rw [← hd]
    · rw [← hd]
    · rw [← ht, rollUpOrderStatus_eq_ok h₆, setStore_eq_ok.mp h₅, ← hd]

/-- The tables after a status change of one delivery. -/
def Store.withDelivery (s : Store) (deliveryId : Uuid) (newStatus : DeliveryStatus)
    (notes : Option String) (location : Option (Decimal × Decimal)) (now : Timestamp) : Store :=
  { s with
    deliveries := Table.modify Delivery.id deliveryId (·.withStatus newStatus notes location now)
      s.deliveries }

/-- A committed status change of one delivery, with the roll-up of its order. -/
structure DeliveryChanged (deliveryId : Uuid) (newStatus : DeliveryStatus) (s t : Store)
    (old : Delivery) : Prop where
  found : Table.find Delivery.id deliveryId s.deliveries = some old
  allowed : newStatus ∈ deliveryStatusTransitions old.status
  written : ∃ notes location now, t =
    (s.withDelivery deliveryId newStatus notes location now).rollUp old.orderId
      ((s.withDelivery deliveryId newStatus notes location now).deliveriesOf old.orderId) now

theorem changeDeliveryStatus_eq_ok {deliveryId : Uuid} {old : Delivery}
    {newStatus : DeliveryStatus} {notes : Option String} {location : Option (Decimal × Decimal)}
    {now : Timestamp} {s t : Session} {r : Delivery}
    (hfound : Table.find Delivery.id deliveryId s.store.deliveries = some old)
    (h : changeDeliveryStatus old newStatus notes location now s = .ok (r, t)) :
    DeliveryChanged deliveryId newStatus s.store t.store old := by
  have hid : old.id = deliveryId := Table.key_of_find hfound
  unfold changeDeliveryStatus at h
  by_cases hn : newStatus ∈ deliveryStatusTransitions old.status
  · rw [if_pos hn] at h
    obtain ⟨_, s₁, h₁, h⟩ := bind_eq_ok.mp h
    obtain ⟨store, s₂, h₂, h⟩ := bind_eq_ok.mp h
    obtain ⟨_, s₃, h₃, h⟩ := bind_eq_ok.mp h
    obtain ⟨_, s₄, h₄, h⟩ := bind_eq_ok.mp h
    obtain ⟨hstore, -⟩ := getStore_eq_ok.mp h₂
    rw [execute_store h₁] at hstore
    rw [hstore, hid] at h₃ h₄
    refine ⟨hfound, hn, notes, location, now, ?_⟩
    rw [← (pure_eq_ok.mp h).2, rollUpOrderStatus_eq_ok h₄, setStore_eq_ok.mp h₃]
    rfl
  · rw [if_neg hn] at h
    exact absurd h raise_ne_ok

theorem getDeliveryById_eq_ok {deliveryId : Uuid} {s t : Session} {d : Option Delivery}
    (h : getDeliveryById deliveryId s = .ok (d, t)) :
    d = Table.find Delivery.id deliveryId s.store.deliveries ∧ t.store = s.store := by
  obtain ⟨_, s₁, h₁, h⟩ := bind_eq_ok.mp h
  obtain ⟨_, s₂, h₂, h⟩ := bind_eq_ok.mp h
  obtain ⟨rfl, rfl⟩ := getStore_eq_ok.mp h₂
  obtain ⟨rfl, rfl⟩ := pure_eq_ok.mp h
  rw [execute_store h₁]
  exact ⟨rfl, rfl⟩

theorem updateDeliveryStatus_eq_ok {orderId deliveryId : Uuid} {newStatus : DeliveryStatus}
    {notes : Option String} {now : Timestamp} {s t : Session} {r : Delivery}
    (h : updateDeliveryStatus orderId deliveryId newStatus notes now s = .ok (r, t)) :
    ∃ old, old.orderId = orderId ∧
      DeliveryChanged deliveryId newStatus s.store t.store old := by
  obtain ⟨found, s₁, h₁, h⟩ := bind_eq_ok.mp h
  obtain ⟨hfound, hs₁⟩ := getDeliveryById_eq_ok h₁
  cases found with
  | none => exact absurd h raise_ne_ok
  | some old =>
    dsimp only at h
    by_cases ho : old.orderId = orderId
    · rw [if_pos ho] at h
      rw [← hs₁] at hfound ⊢
      exact ⟨old, ho, changeDeliveryStatus_eq_ok hfound.symm h⟩
    · rw [if_neg ho] at h
      exact absurd h raise_ne_ok

theorem driverUpdateStatus_eq_ok {deliveryId actorId : Uuid} {isAdmin : Bool}
    {outcome : DriverOutcome} {notes : Option String} {lat lng : Option Decimal}
    {now : Timestamp} {s t : Session} {r : Delivery}
    (h : driverUpdateStatus deliveryId actorId isAdmin outcome notes lat lng now s = .ok (r, t)) :
    ∃ old, (isAdmin ∨ old.driverId = some actorId) ∧
      DeliveryChanged deliveryId outcome.status s.store t.store old := by
  obtain ⟨found, s₁, h₁, h⟩ := bind_eq_ok.mp h
  obtain ⟨hfound, hs₁⟩ := getDeliveryById_eq_ok h₁
  cases found with
  | none => exact absurd h raise_ne_ok
  | some old =>
    dsimp only at h
    by_cases ho : isAdmin ∨ old.driverId = some actorId
    · rw [if_pos ho] at h
      rw [← hs₁] at hfound ⊢
      exact ⟨old, ho, changeDeliveryStatus_eq_ok hfound.symm h⟩
    · rw [if_neg ho] at h
      exact absurd h raise_ne_ok

theorem assignDriver_eq_ok {deliveryId : Uuid} {driverId : Option Uuid} {s t : Session}
    {r : Delivery} (h : assignDriver deliveryId driverId s = .ok (r, t)) :
    t.store = { s.store with
      deliveries := Table.modify Delivery.id deliveryId (fun d => { d with driverId := driverId })
        s.store.deliveries } := by
  obtain ⟨found, s₁, h₁, h⟩ := bind_eq_ok.mp h
  obtain ⟨-, hs₁⟩ := getDeliveryById_eq_ok h₁
  cases found with
  | none => exact absurd h raise_ne_ok
  | some old =>
    obtain ⟨store, s₂, h₂, h⟩ := bind_eq_ok.mp h
    obtain ⟨_, s₃, h₃, h⟩ := bind_eq_ok.mp h
    obtain ⟨_, s₄, h₄, h⟩ := bind_eq_ok.mp h
    obtain ⟨_, s₅, h₅, h⟩ := bind_eq_ok.mp h
    obtain ⟨hstore, -⟩ := getStore_eq_ok.mp h₂
    rw [← (pure_eq_ok.mp h).2, setStore_eq_ok.mp h₅, hstore, hs₁]

end Qiki.Orders
