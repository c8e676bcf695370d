import Qiki.Chat.ProductSearch
import Qiki.Collections.Pages
import Qiki.Orders.Status

/-! The order list of the staff, and the statistics that are counted over one page of it. -/
namespace Qiki.Orders

open FirstRows

/-- A row of `orders` with the time at which it was inserted. -/
structure StoredOrder where
  order : Order
  createdAt : Timestamp
  deriving DecidableEq, Repr

/-- `OrderSearchParams` with the bounds that the schema checks. -/
structure OrderSearchParams where
  status : Option OrderStatus := none
  source : Option OrderSource := none
  search : Option Text := none
  skip : ℕ := 0
  limit : ℕ := 20
  search_length : (search.map List.length).getD 0 ≤ 255 := by decide
  limit_pos : 1 ≤ limit := by decide
  limit_le : limit ≤ 100 := by decide

section
variable (db : Unicode.Database) (lower : Text → Text)

/-- The conditions of `_list`; `lower` is the lower case of the database. -/
def OrderSearchParams.matches (params : OrderSearchParams) (o : Order) : Bool :=
  (params.status.all fun status => o.status = status) &&
    (params.source.all fun source => o.source = source) &&
    params.search.all fun search =>
      let term : Text := "%" ++ Text.strip db.space search ++ "%"
      search.isEmpty || Chat.ilike lower o.orderNumber.render.toList term ||
        Chat.ilike lower o.customerName.toList term || Chat.ilike lower o.customerPhone.toList term

/-- `_list` over all orders: one page of the rows, and the number of them. -/
def listAllOrders (ordered : List StoredOrder) (params : OrderSearchParams) : List StoredOrder × ℕ :=
  let rows := ordered.filter fun row => params.matches db lower row.order
  (Pages.rows rows params.skip params.limit, rows.length)

structure OrderStatistics where
  total : ℕ
  pending : ℕ
  confirmed : ℕ
  shipping : ℕ
  delivered : ℕ
  cancelled : ℕ
  deriving DecidableEq, Repr

def getStatistics (admin : User) (ordered : List StoredOrder) : Except Exn OrderStatistics := do
  ensureStaff admin
  let (orders, total) := listAllOrders db lower ordered { limit := 100 }
  let count (status : OrderStatus) : ℕ := orders.countP fun row => row.order.status = status
  return {
    total := total
    pending := count .pending
    confirmed := count .confirmed
    shipping := count .shipping
    delivered := count .delivered
    cancelled := count .cancelled }

end

/-- `ORDER BY created_at DESC`; rows of the same time come in any order. -/
def NewestFirst (rows ordered : List StoredOrder) : Prop :=
  ordered.Perm rows ∧ InOrder (fun row => OrderDual.toDual row.createdAt) ordered

def OrderStatistics.count (statistics : OrderStatistics) : OrderStatus → ℕ
  | .pending => statistics.pending
  | .confirmed => statistics.confirmed
  | .shipping => statistics.shipping
  | .delivered => statistics.delivered
  | .cancelled => statistics.cancelled

def ordersIn (status : OrderStatus) (rows : List StoredOrder) : ℕ :=
  rows.countP fun row => row.order.status = status

/-- The counts are the true ones and sum to the total. -/
structure AddsUp (rows : List StoredOrder) (statistics : OrderStatistics) : Prop where
  counts : ∀ status, statistics.count status = ordersIn status rows
  sum : statistics.pending + statistics.confirmed + statistics.shipping + statistics.delivered +
    statistics.cancelled = statistics.total

/-- Every order has one of the five statuses. -/
theorem ordersIn_sum (rows : List StoredOrder) :
    ordersIn .pending rows + ordersIn .confirmed rows + ordersIn .shipping rows +
      ordersIn .delivered rows + ordersIn .cancelled rows = rows.length := by
  induction rows with
  | nil => rfl
  | cons row rows ih =>
    simp only [ordersIn, List.countP_cons, List.length_cons] at ih ⊢
    cases row.order.status <;> simp <;> omega

section
variable {db : Unicode.Database} {lower : Text → Text} {rows ordered : List StoredOrder}

theorem exists_newestFirst (rows : List StoredOrder) : ∃ ordered, NewestFirst rows ordered :=
  ⟨rows.insertionSort fun a b => OrderDual.toDual a.createdAt ≤ OrderDual.toDual b.createdAt,
    List.perm_insertionSort _ rows, List.pairwise_insertionSort _ rows⟩

theorem NewestFirst.length (h : NewestFirst rows ordered) : ordered.length = rows.length :=
  h.1.length_eq

/-- The statistics count the first hundred orders, and their total all. -/
theorem getStatistics_eq (db : Unicode.Database) (lower : Text → Text) {admin : User}
    (hstaff : admin.isStaff = true) (ordered : List StoredOrder) :
    ∃ statistics, getStatistics db lower admin ordered = .ok statistics ∧
      statistics.total = ordered.length ∧
      ∀ status, statistics.count status = ordersIn status (ordered.take 100) := by
  have hall : ordered.filter (fun row => ({ limit := 100 } : OrderSearchParams).matches db lower
      row.order) = ordered := List.filter_eq_self.mpr fun row _ => rfl
  have hlist : listAllOrders db lower ordered { limit := 100 } = (ordered.take 100, ordered.length) := by
    simp only [listAllOrders, hall]
    rfl
  have hcheck : ensureStaff admin = .ok () := if_pos hstaff
  refine ⟨_, by rw [getStatistics, hcheck, hlist]; rfl, rfl, fun status => ?_⟩
  cases status <;> rfl

/-- Where the counts are true, the page holds every order. -/
theorem AddsUp.length_le {admin : User} {statistics : OrderStatistics} (h : AddsUp rows statistics)
    (hstaff : admin.isStaff = true) (hordered : NewestFirst rows ordered)
    (hok : getStatistics db lower admin ordered = .ok statistics) : rows.length ≤ 100 := by
  obtain ⟨statistics', hok', htotal, hcount⟩ := getStatistics_eq db lower hstaff ordered
  obtain rfl := Except.ok.inj (hok.symm.trans hok')
  have hpage := ordersIn_sum (ordered.take 100)
  have hlength := hordered.length
  have hsum := h.sum
  simp only [← hcount, OrderStatistics.count] at hpage
  rw [List.length_take] at hpage
  omega

/-- The statistics add up as long as all orders fit on the page. -/
theorem getStatistics_addsUp_iff (rows : List StoredOrder) (admin : User)
    (hstaff : admin.isStaff = true) :
    (∀ ordered, NewestFirst rows ordered →
      ∃ statistics, getStatistics db lower admin ordered = .ok statistics ∧ AddsUp rows statistics) ↔
      rows.length ≤ 100 := by
  constructor
  · intro h
    obtain ⟨ordered, hordered⟩ := exists_newestFirst rows
    obtain ⟨statistics, hok, hadds⟩ := h ordered hordered
    exact hadds.length_le hstaff hordered hok
  · intro hfits ordered hordered
    obtain ⟨statistics, hok, htotal, hcount⟩ := getStatistics_eq db lower hstaff ordered
    have hpage : ordered.take 100 = ordered := List.take_of_length_le (hordered.length.trans_le hfits)
    rw [hpage] at hcount
    have htrue (status : OrderStatus) : statistics.count status = ordersIn status rows := by
      rw [hcount, ordersIn, hordered.1.countP_eq]
      rfl
    refine ⟨statistics, hok, htrue, ?_⟩
    have hsum := ordersIn_sum ordered
    simp only [← hcount, OrderStatistics.count] at hsum
    rw [hsum, htotal]

end

/-- A guest's order for nothing, stored at a given time. -/
def guestOrder (createdAt : Timestamp) : StoredOrder where
  createdAt := createdAt
  order :=
    { id := createdAt
      orderNumber := ⟨20260101, createdAt⟩
      userId := none
      customerName := "Lan"
      customerPhone := "0901234567"
      customerEmail := none
      deliveryAddress := "12 Nguyễn Trãi"
      deliveryWard := none
      deliveryDistrict := none
      deliveryCity := "TP. Hồ Chí Minh"
      deliveryNotes := none
      differentRecipientName := none
      differentRecipientPhone := none
      subtotal := 0
      shippingFee := 0
      discountAmount := 0
      couponId := none
      couponCode := none
      totalAmount := 0
      vatInvoiceRequested := false
      vatInfo := none
      paymentMethod := .cod
      status := .pending
      source := .website
      referralConversationId := none
      idempotencyKey := createdAt
      customerNotes := none
      internalNotes := none
      cancelledAt := none
      cancelledReason := none
      deliveredAt := none
      items := [] }

def shopStaff : User := ⟨1, .staff, none, none, none, none⟩

theorem hundred_orders_counted : shopStaff.isStaff = true ∧
    ∀ ordered, NewestFirst ((List.range 100).map guestOrder) ordered → ∃ statistics,
      getStatistics Unicode.Vietnamese.database id shopStaff ordered = .ok statistics ∧
        AddsUp ((List.range 100).map guestOrder) statistics := by
  have hstaff : shopStaff.isStaff = true := rfl
  have hlength : ((List.range 100).map guestOrder).length ≤ 100 := by
    rw [List.length_map, List.length_range]
  exact ⟨hstaff, (getStatistics_addsUp_iff _ shopStaff hstaff).mpr hlength⟩

/-- Of a hundred and one orders one is in the total only. -/
theorem oldest_order_uncounted : ¬ ∀ (db : Unicode.Database) (lower : Text → Text)
    (rows : List StoredOrder) (admin : User), admin.isStaff = true →
      ∀ ordered, NewestFirst rows ordered →
        ∃ statistics, getStatistics db lower admin ordered = .ok statistics ∧ AddsUp rows statistics := by
  intro h
  have hclaim := h Unicode.Vietnamese.database id ((List.range 101).map guestOrder) shopStaff rfl
  obtain ⟨ordered, hordered⟩ := exists_newestFirst ((List.range 101).map guestOrder)
  obtain ⟨statistics, hok, hadds⟩ := hclaim ordered hordered
  have hlength := hadds.length_le rfl hordered hok
  rw [List.length_map, List.length_range] at hlength
  omega

end Qiki.Orders
