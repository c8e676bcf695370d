import Qiki.Collections.Pages
import Qiki.Orders.Statistics
import Qiki.Orders.StockLedger

/-! Order lists that are read page by page while the shop goes on. -/
namespace Qiki.Orders

structure OrderListResponse where
  items : List Order
  total : ℕ
  page : ℕ
  limit : ℕ
  hasMore : Bool
  deriving DecidableEq

/-- The queries of `list_user_orders` and `list_all_orders`. -/
inductive Listing
  | ofUser (userId : Uuid)
  | all
  deriving DecidableEq, Repr

def Listing.selects (listing : Listing) (o : Order) : Bool :=
  match listing with
  | .ofUser userId => o.userId = some userId
  | .all => true

section
variable (db : Unicode.Database) (lower : Text → Text)

/-- The selected orders by `created_at`, newest first; the rows of a store stand in the order in
which they were created. -/
def listOrders (listing : Listing) (params : OrderSearchParams) (s : Store) : List Order :=
  (s.orders.filter fun o => listing.selects o && params.matches db lower o).reverse

/-- `_list` and `_list_response` -/
def listResponse (listing : Listing) (params : OrderSearchParams) (s : Store) : OrderListResponse :=
  let orders := listOrders db lower listing params s
  let items := Pages.rows orders params.skip params.limit
  { items := items
    total := orders.length
    page := params.skip / params.limit + 1
    limit := params.limit
    hasMore := params.skip + items.length < orders.length }

end

/-- The tables when page `k` is read, with the requests that are served between the pages. -/
def shopAt (s : Store) (between : ℕ → List Request) : ℕ → Store
  | 0 => s
  | k + 1 => serveAll (shopAt s between k) (between k)

/-! What an order is listed by. -/

/-- The columns of an order that no request writes and that the lists read. -/
structure SameListed (o o' : Order) : Prop where
  id : o'.id = o.id
  orderNumber : o'.orderNumber = o.orderNumber
  userId : o'.userId = o.userId
  customerName : o'.customerName = o.customerName
  customerPhone : o'.customerPhone = o.customerPhone
  source : o'.source = o.source

theorem sameListed_withStatus (o : Order) (newStatus : OrderStatus) (notes : Option String)
    (now : Timestamp) : SameListed o (o.withStatus newStatus notes now) :=
  ⟨rfl, rfl, rfl, rfl, rfl, rfl⟩

theorem sameListed_rollUp (deliveries : List Delivery) (now : Timestamp) (o : Order) :
    SameListed o (o.rollUp deliveries now) := by
  unfold Order.rollUp
  split_ifs <;> exact ⟨rfl, rfl, rfl, rfl, rfl, rfl⟩

/-- A request appends an order or updates one that stays listed as it was. -/
theorem Effect.listed {r : Request} {s t : Store} (h : Effect r s t) :
    (∃ o, t.orders = s.orders ++ [o]) ∨
    ∃ orderId f, (∀ o, SameListed o (f o)) ∧ t.orders = Table.modify Order.id orderId f s.orders := by
  cases h with
  | unchanged same =>
    refine Or.inr ⟨0, id, fun _ => ⟨rfl, rfl, rfl, rfl, rfl, rfl⟩, ?_⟩
    rw [same]
    simp [Table.modify]
  | created coupons data user key o op absent created nonneg => exact Or.inl ⟨o, created.orders⟩
  | cancelled orderId user reason phone old op canView cancellable changed =>
    obtain ⟨notes, now, ht⟩ := changed.written
    exact Or.inr ⟨orderId, _, fun o => sameListed_withStatus o _ notes now, by rw [ht]⟩
  | statusUpdated orderId newStatus admin notes old op staff changed =>
    obtain ⟨notes, now, ht⟩ := changed.written
    exact Or.inr ⟨orderId, _, fun o => sameListed_withStatus o _ notes now, by rw [ht]⟩
  | deliveryCreated orderId payload d order op created =>
    obtain ⟨now, ht⟩ := created.written
    exact Or.inr ⟨orderId, _, fun o => sameListed_rollUp _ now o, by rw [ht]; rfl⟩
  | deliveryUpdated orderId deliveryId newStatus notes old op ofOrder changed =>
    obtain ⟨notes, location, now, ht⟩ := changed.written
    exact Or.inr ⟨old.orderId, _, fun o => sameListed_rollUp _ now o, by rw [ht]; rfl⟩
  | driverUpdated deliveryId actorId isAdmin outcome notes lat lng old op mayTouch changed =>
    obtain ⟨notes, location, now, ht⟩ := changed.written
    exact Or.inr ⟨old.orderId, _, fun o => sameListed_rollUp _ now o, by rw [ht]; rfl⟩
  | driverAssigned deliveryId driverId op written =>
    refine Or.inr ⟨0, id, fun _ => ⟨rfl, rfl, rfl, rfl, rfl, rfl⟩, ?_⟩
    rw [written]
    simp [Table.modify]

/-- How an order is found again in a list. -/
def Order.label (o : Order) : Uuid × OrderNumber := (o.id, o.orderNumber)

section
variable {db : Unicode.Database} {lower : Text → Text} {listing : Listing}
  {params : OrderSearchParams}

theorem selects_of_sameListed (hstatus : params.status = none) {o o' : Order}
    (h : SameListed o o') : (listing.selects o' && params.matches db lower o') =
      (listing.selects o && params.matches db lower o) := by
  have hlisting : listing.selects o' = listing.selects o := by
    cases listing with
    | ofUser userId => simp only [Listing.selects, h.userId]
    | all => rfl
  rw [hlisting]
  simp only [OrderSearchParams.matches, hstatus, Option.all_none, h.source, h.orderNumber,
    h.customerName, h.customerPhone]

/-- An update leaves the list of such orders as it is. -/
theorem labels_modify {orders : List Order} {orderId : Uuid} {f : Order → Order} {p : Order → Bool}
    (hp : ∀ o, p (f o) = p o) (hf : ∀ o, (f o).label = o.label) :
    ((Table.modify Order.id orderId f orders).filter p).map Order.label =
      (orders.filter p).map Order.label := by
  have hrow (o : Order) : p (if o.id = orderId then f o else o) = p o := by
    split_ifs
    · exact hp o
    · rfl
  have hlabel (o : Order) : (if o.id = orderId then f o else o).label = o.label := by
    split_ifs
    · exact hf o
    · rfl
  rw [Table.modify, List.filter_map, List.map_map]
  simp only [Function.comp_def, hrow, hlabel]

/-- A list without a status filter only grows. -/
theorem labels_sublist_of_effect (hstatus : params.status = none) {r : Request} {s t : Store}
    (h : Effect r s t) : ((listOrders db lower listing params s).map Order.label).Sublist
      ((listOrders db lower listing params t).map Order.label) := by
  rw [listOrders, listOrders, List.map_reverse, List.map_reverse, List.reverse_sublist]
  rcases h.listed with ⟨o, ht⟩ | ⟨orderId, f, hf, ht⟩
  · rw [ht, List.filter_append, List.map_append]
    exact List.sublist_append_left _ _
  · have hlabel (o : Order) : (f o).label = o.label := by
      rw [Order.label, (hf o).id, (hf o).orderNumber]
      rfl
    rw [ht, labels_modify (fun o => selects_of_sameListed hstatus (hf o)) hlabel]

theorem labels_sublist_serveAll (hstatus : params.status = none) (s : Store) (rs : List Request) :
    ((listOrders db lower listing params s).map Order.label).Sublist
      ((listOrders db lower listing params (serveAll s rs)).map Order.label) := by
  let labels (t : Store) := (listOrders db lower listing params t).map Order.label
  have hstep (t : Store) (r : Request) (ht : (labels s).Sublist (labels t)) :
      (labels s).Sublist (labels (serve t r).1) :=
    ht.trans (labels_sublist_of_effect hstatus (serve_effect t r))
  exact serveAll_invariant hstep rs (List.Sublist.refl _)

end

/-- Whatever is ordered, cancelled, confirmed and delivered while somebody reads an order list page
by page to its end, every order that was on it when he began is on one of the pages; only a list
of one status may lose orders between its pages. -/
theorem orders_paged (db : Unicode.Database) (lower : Text → Text) (listing : Listing)
    (params : OrderSearchParams) (hstatus : params.status = none) (s : Store)
    (between : ℕ → List Request) (last : ℕ)
    (hlast : (listResponse db lower listing { params with skip := last * params.limit }
      (shopAt s between last)).hasMore = false) :
    ∀ o ∈ s.orders, listing.selects o = true → params.matches db lower o = true →
      ∃ k ≤ last, ∃ o' ∈ (listResponse db lower listing { params with skip := k * params.limit }
        (shopAt s between k)).items, o'.id = o.id ∧ o'.orderNumber = o.orderNumber := by
  intro o ho hlisting hselects
  let lists (k : ℕ) := (listOrders db lower listing params (shopAt s between k)).map Order.label
  have hgrow (k : ℕ) : (lists k).Sublist (lists (k + 1)) :=
    labels_sublist_serveAll hstatus (shopAt s between k) (between k)
  have hmem : o.label ∈ lists 0 := by
    refine List.mem_map_of_mem (List.mem_reverse.mpr (List.mem_filter.mpr ⟨ho, ?_⟩))
    rw [hlisting, hselects]
    rfl
  have hend : Pages.hasMore (lists last) (last * params.limit) params.limit = false := by
    rw [Pages.hasMore, ← Pages.map_rows, List.length_map, List.length_map]
    exact hlast
  obtain ⟨k, hk, hpage⟩ := Pages.mem_rows_of_growing hgrow hmem hend
  rw [← Pages.map_rows] at hpage
  obtain ⟨o', ho', hlabel⟩ := List.mem_map.mp hpage
  exact ⟨k, hk, o', ho', congrArg Prod.fst hlabel, congrArg Prod.snd hlabel⟩

/-- The shop after two sales, orders 100 and 102. -/
def twoSales : Store :=
  serveAll tenCylinders.store [⟨.createOrder true (cylinderCheckout 3) none 55, ⟨0, 20260101⟩⟩,
    ⟨.createOrder true (cylinderCheckout 2) none 56, ⟨1, 20260101⟩⟩]

/-- After the first page another customer buys, after the second one order is called off. -/
def saleThenCancel (page : ℕ) : List Request :=
  if page = 0 then [⟨.createOrder true (cylinderCheckout 1) none 57, ⟨2, 20260101⟩⟩]
  else [⟨.cancelOrder 102 none none (some "0901234567"), ⟨3, 20260101⟩⟩]

/-- The list of the staff, in the alphabet of the shop. -/
def staffList (params : OrderSearchParams) (s : Store) : OrderListResponse :=
  listResponse Unicode.Vietnamese.database (List.map Char.toLower) .all params s

theorem orders_paged_saleThenCancel :
    (∀ k < 3, (staffList { skip := k * 1, limit := 1 } (shopAt twoSales saleThenCancel k)).items.map
      Order.id = [[102], [102], [100]].getD k []) ∧
    ∀ o ∈ twoSales.orders, Listing.all.selects o = true →
      OrderSearchParams.matches Unicode.Vietnamese.database (List.map Char.toLower) { limit := 1 }
        o = true →
      ∃ k ≤ 2, ∃ o' ∈ (staffList { skip := k * 1, limit := 1 }
        (shopAt twoSales saleThenCancel k)).items, o'.id = o.id ∧ o'.orderNumber = o.orderNumber :=
  ⟨by decide +kernel, orders_paged Unicode.Vietnamese.database (List.map Char.toLower) .all
    { limit := 1 } rfl twoSales saleThenCancel 2 (by decide +kernel)⟩

-- A list of the pending orders: confirming order 102 after the first page hides order 100.
example :
    let manager : User := ⟨7, .admin, none, none, none, none⟩
    let between (_ : ℕ) : List Request :=
      [⟨.updateOrderStatus 102 .confirmed manager none, ⟨2, 20260101⟩⟩]
    let page (k : ℕ) := staffList { status := some .pending, skip := k * 1, limit := 1 }
      (shopAt twoSales between k)
    (page 0).items.map Order.id = [102] ∧ (page 1).items = [] ∧ (page 1).hasMore = false := by
  decide +kernel

end Qiki.Orders
