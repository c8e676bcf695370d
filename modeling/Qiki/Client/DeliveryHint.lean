import Qiki.Orders.DeliveredUnits
import Qiki.Orders.Undisturbed

/-! The remaining quantity that the admin page shows, beside what `create_delivery` accepts. -/
namespace Qiki.Client

open Orders

/-- `allocatedByOrderItem` -/
def allocatedByOrderItem (deliveries : List Delivery) : List (Uuid × ℕ) :=
  quantitiesBy (fun status => status ≠ .cancelled) deliveries

/-- `remaining` of `OrderDeliveries` -/
def remaining (deliveries : List Delivery) (item : OrderItem) : ℤ :=
  item.quantity - (Dict.get item.id (allocatedByOrderItem deliveries)).getD 0

/-- The two sums agree on the order item. -/
def AllocatesAlike (deliveries : List Delivery) (itemId : Uuid) : Prop :=
  (Dict.get itemId (allocatedByOrderItem deliveries)).getD 0 =
    (Dict.get itemId (allocatedQuantities deliveries)).getD 0

/-- `create_delivery` accepts a delivery of the item (of at least one unit, as `DeliveryItemCreate`
asks) exactly up to the quantity that the page shows. -/
def ShowsAccepted (s : Store) (o : Order) (item : OrderItem) : Prop :=
  ∀ (quantity : ℕ) (scheduledAt : Option Timestamp) (notes : Option String) (now : Timestamp),
    0 < quantity →
      ((∃ d, (getDb (createDelivery o.id ⟨[⟨item.id, quantity⟩], scheduledAt, notes⟩ now) s).2 =
        .ok d) ↔ (quantity : ℤ) ≤ remaining (s.deliveriesOf o.id) item)

/-- The deliveries that are neither cancelled nor failed carry the whole item. -/
def CarriedWhole (deliveries : List Delivery) (item : OrderItem) : Prop :=
  item.quantity ≤ carried DeliveryStatus.allocates deliveries item.id

/-- No failed delivery carries units of the item. -/
def FailedCarryNone (deliveries : List Delivery) (itemId : Uuid) : Prop :=
  ∀ d ∈ deliveries, d.status = .failed → ∀ l ∈ d.items, l.orderItemId = itemId → l.quantity = 0

instance (deliveries : List Delivery) (itemId : Uuid) :
    Decidable (FailedCarryNone deliveries itemId) := by
  unfold FailedCarryNone
  infer_instance

/-- The page counts the failed deliveries on top. -/
theorem carried_not_cancelled (deliveries : List Delivery) (itemId : Uuid) :
    carried (fun status => status ≠ .cancelled) deliveries itemId =
      carried DeliveryStatus.allocates deliveries itemId +
        carried (fun status => status = .failed) deliveries itemId := by
  induction deliveries with
  | nil => rfl
  | cons d ds ih =>
    rw [carried_cons, carried_cons, carried_cons, ih]
    cases hstatus : d.status <;> simp [DeliveryStatus.allocates] <;> omega

theorem lineQuantity_eq_zero_iff {lines : List DeliveryItem} {itemId : Uuid} :
    lineQuantity lines itemId = 0 ↔ ∀ l ∈ lines, l.orderItemId = itemId → l.quantity = 0 := by
  unfold lineQuantity
  rw [List.sum_eq_zero_iff]
  simp only [List.mem_map, List.mem_filter, decide_eq_true_eq]
  constructor
  · intro h l hl hid
    exact h _ ⟨l, ⟨hl, hid⟩, rfl⟩
  · rintro h n ⟨l, ⟨hl, hid⟩, rfl⟩
    exact h l hl hid

theorem carried_failed_eq_zero_iff {deliveries : List Delivery} {itemId : Uuid} :
    carried (fun status => status = .failed) deliveries itemId = 0 ↔
      FailedCarryNone deliveries itemId := by
  unfold carried FailedCarryNone
  rw [List.sum_eq_zero_iff]
  simp only [List.mem_map, decide_eq_true_eq]
  constructor
  · intro h d hd hfailed
    have hzero := h _ ⟨d, hd, rfl⟩
    rw [if_pos hfailed] at hzero
    exact lineQuantity_eq_zero_iff.mp hzero
  · rintro h n ⟨d, hd, rfl⟩
    split_ifs with hfailed
    · exact lineQuantity_eq_zero_iff.mpr (h d hd hfailed)
    · rfl

theorem allocatesAlike_iff (deliveries : List Delivery) (itemId : Uuid) :
    AllocatesAlike deliveries itemId ↔ FailedCarryNone deliveries itemId := by
  have hpage : (Dict.get itemId (allocatedByOrderItem deliveries)).getD 0 =
      carried (fun status => status ≠ .cancelled) deliveries itemId := get_quantitiesBy _ _ _
  have hserver : (Dict.get itemId (allocatedQuantities deliveries)).getD 0 =
      carried DeliveryStatus.allocates deliveries itemId := get_quantitiesBy _ _ _
  rw [AllocatesAlike, hpage, hserver, carried_not_cancelled, ← carried_failed_eq_zero_iff]
  omega

/-- A delivery of one item is accepted up to what the server has left. -/
theorem checkDeliveryLines_single {o : Order} {deliveries : List Delivery} {item : OrderItem}
    (hids : (o.items.map OrderItem.id).Nodup) (hitem : item ∈ o.items) (quantity : ℕ) :
    checkDeliveryLines o.items (allocatedQuantities deliveries) [] [⟨item.id, quantity⟩] = .ok () ↔
      (quantity : ℤ) ≤
        item.quantity - (Dict.get item.id (allocatedQuantities deliveries)).getD 0 := by
  unfold checkDeliveryLines
  rw [if_neg List.not_mem_nil, Table.find_of_mem hids hitem]
  simp only
  split_ifs with hless
  · exact iff_of_false (fun h => by cases h) (not_le.mpr hless)
  · exact iff_of_true rfl (not_lt.mp hless)

/-- An item of an order with these tables: the page shows what the server accepts, once both
allocate alike, exactly when the order is open or nothing of the item is left. -/
theorem showsAccepted_iff {s : Store} {o : Order} {item : OrderItem} (htables : DeliveryTables s)
    (ho : o ∈ s.orders) (hitem : item ∈ o.items)
    (halike : AllocatesAlike (s.deliveriesOf o.id) item.id) :
    ShowsAccepted s o item ↔
      (o.status = .cancelled → CarriedWhole (s.deliveriesOf o.id) item) := by
  have hserver : (Dict.get item.id (allocatedQuantities (s.deliveriesOf o.id))).getD 0 =
      carried DeliveryStatus.allocates (s.deliveriesOf o.id) item.id := get_quantitiesBy _ _ _
  have hfound : Table.find Order.id o.id s.orders = some o :=
    Table.find_of_mem htables.keys.ids ho
  rw [AllocatesAlike, hserver] at halike
  unfold ShowsAccepted CarriedWhole remaining
  simp only [createDelivery_answers_iff hfound,
    checkDeliveryLines_single (htables.itemIds o ho) hitem, hserver, halike]
  by_cases hcancelled : o.status = .cancelled
  · -- the server accepts nothing, so nothing may be left on the page
    simp only [hcancelled, ne_eq, not_true_eq_false, false_and, false_iff, true_imp_iff]
    constructor
    · intro hshows
      by_contra hleft
      exact hshows (item.quantity - carried DeliveryStatus.allocates (s.deliveriesOf o.id) item.id)
        none none 0 (by omega) (by omega)
    · intro hwhole quantity scheduledAt notes now hpos
      omega
  · simp only [hcancelled, ne_eq, not_false_eq_true, true_and, implies_true, false_imp_iff]

/-- After every run, and for every item of every order, the page and the server allocate alike
exactly when no failed delivery carries the item; and the page then shows what the server accepts
exactly when, besides, the order is not cancelled or nothing of the item is left. -/
theorem remaining_hint_iff (c : Catalog) (rs : List Request) :
    ∀ o ∈ (serveAll c.store rs).orders, ∀ item ∈ o.items,
      (AllocatesAlike ((serveAll c.store rs).deliveriesOf o.id) item.id ↔
        FailedCarryNone ((serveAll c.store rs).deliveriesOf o.id) item.id) ∧
      (AllocatesAlike ((serveAll c.store rs).deliveriesOf o.id) item.id ∧
          ShowsAccepted (serveAll c.store rs) o item ↔
        FailedCarryNone ((serveAll c.store rs).deliveriesOf o.id) item.id ∧
          (o.status = .cancelled →
            CarriedWhole ((serveAll c.store rs).deliveriesOf o.id) item)) := by
  have htables : DeliveryTables (serveAll c.store rs) :=
    serveAll_invariant (fun s r hs => deliveryTables_effect hs (serve_effect s r)) rs
      (deliveryTables_catalog c)
  intro o ho item hitem
  refine ⟨allocatesAlike_iff _ _, ?_⟩
  rw [← allocatesAlike_iff]
  exact and_congr_right fun halike => showsAccepted_iff htables ho hitem halike

/-- With one of two cylinders delivered the page shows the one that is left. -/
theorem shows_accepted_delivered :
    ∃ o ∈ (serveAll tenCylinders.store oneOfTwoDelivered).orders, ∃ item ∈ o.items,
      ShowsAccepted (serveAll tenCylinders.store oneOfTwoDelivered) o item := by
  have hopen : ∃ o ∈ (serveAll tenCylinders.store oneOfTwoDelivered).orders, ∃ item ∈ o.items,
      FailedCarryNone ((serveAll tenCylinders.store oneOfTwoDelivered).deliveriesOf o.id)
        item.id ∧ o.status ≠ .cancelled := by
    decide +kernel
  obtain ⟨o, ho, item, hitem, hnone, hopen⟩ := hopen
  exact ⟨o, ho, item, hitem,
    ((remaining_hint_iff _ _ o ho item hitem).2.mpr ⟨hnone, fun hc => absurd hc hopen⟩).2⟩

/-- Two cylinders are ordered, and the delivery of one of them fails. -/
def oneOfTwoFailed : List Request := [
  ⟨.createOrder true (cylinderCheckout 2) none 55, ⟨0, 20260101⟩⟩,
  ⟨.createDelivery 100 ⟨[⟨101, 1⟩], none, none⟩, ⟨1, 20260101⟩⟩,
  ⟨.updateDeliveryStatus 100 102 .failed none, ⟨2, 20260101⟩⟩]

/-- The page then shows one cylinder left, where the server accepts two. -/
theorem failed_delivery_counted :
    ¬ ∀ (c : Catalog) (rs : List Request), ∀ o ∈ (serveAll c.store rs).orders, ∀ item ∈ o.items,
      AllocatesAlike ((serveAll c.store rs).deliveriesOf o.id) item.id := by
  intro h
  have hall := h tenCylinders oneOfTwoFailed
  revert hall
  unfold AllocatesAlike
  decide +kernel

end Qiki.Client
