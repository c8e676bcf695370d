import Qiki.Catalog.Storefront
import Qiki.Orders.Availability
import Qiki.Orders.CheckoutPayload
import Qiki.Orders.Forward

/-! A reorder: the lines of a past order against the catalog of today, and the checkout of what is
left of them. -/
namespace Qiki.Catalog

open Orders

/-- The lines of a checkout are added up by product, and each has a quantity. -/
structure Aggregated (o : Order) : Prop where
  products : (o.lines.map Prod.fst).Nodup
  quantities : ∀ l ∈ o.lines, 1 ≤ l.2

theorem aggregated_created {data : CheckoutRequest} {key : Uuid} {day : ℕ} {s t : Store} {o : Order}
    (h : Created data key day s t o) (hq : ∀ i ∈ data.items, 1 ≤ i.quantity) : Aggregated o := by
  constructor
  · rw [h.lines, List.map_map]
    exact requestedByProduct_nodup data.items
  · rw [h.lines]
    intro l hl
    obtain ⟨line, hline, rfl⟩ := List.mem_map.mp hl
    have hpos := requestedByProduct_pos hq line hline
    dsimp only
    omega

theorem aggregated_effect {r : Request} {s t : Store} (hs : ∀ o ∈ s.orders, Aggregated o)
    (hr : r.Accepted) (h : Effect r s t) : ∀ o ∈ t.orders, Aggregated o := by
  intro o ho
  rcases h.orders with ⟨coupons, data, user, key, new, hop, -, hcreated⟩ | ⟨orderId, f, hf, ht, -⟩
  · unfold Request.Accepted at hr
    rw [hop] at hr
    rw [hcreated.orders] at ho
    rcases List.mem_append.mp ho with ho | ho
    · exact hs o ho
    · rw [List.mem_singleton.mp ho]
      exact aggregated_created hcreated hr.2
  · rw [ht, Table.mem_modify] at ho
    obtain ⟨old, hold, rfl⟩ := ho
    have hlines : (if old.id = orderId then f old else old).lines = old.lines := by
      split_ifs
      · rw [Order.lines, (hf old).items, Order.lines]
      · rfl
    have hkept := hs old hold
    exact ⟨hlines ▸ hkept.products, hlines ▸ hkept.quantities⟩

/-- In every run of requests that pass their schemas the rows have their ids, and each order is
aggregated. -/
theorem aggregated_serveAll (c : Orders.Catalog) {rs : List Request} (h : ∀ r ∈ rs, r.Accepted) :
    OrderKeys (serveAll c.store rs) ∧ ∀ o ∈ (serveAll c.store rs).orders, Aggregated o := by
  have hguard : GuardedRun (fun _ r => r.Accepted) c.store rs :=
    Transition.guarded_of_forall_mem h c.store
  have hinit : OrderKeys c.store ∧ ∀ o ∈ c.store.orders, Aggregated o :=
    ⟨⟨List.nodup_nil, (fun _ h => nomatch h), List.nodup_nil⟩, fun _ h => nomatch h⟩
  have hstep : ∀ s r, (OrderKeys s ∧ ∀ o ∈ s.orders, Aggregated o) → r.Accepted →
      OrderKeys (serve s r).1 ∧ ∀ o ∈ (serve s r).1.orders, Aggregated o := fun s r hs hr =>
    ⟨orderKeys_effect hs.1 (serve_effect s r), aggregated_effect hs.2 hr (serve_effect s r)⟩
  exact GuardedRun.invariant hstep hinit hguard

/-! One line. -/

/-- The product of a past line can still be bought. -/
structure Available (products : List Product) (line : OrderItem) (p : Product) : Prop where
  found : line.productId.bind (fun id => Table.find Product.id id products) = some p
  active : p.isActive = true
  inStock : 0 < p.stockQuantity

/-- Why a past line is skipped. -/
def SkippedFor (products : List Product) (line : OrderItem) : SkipReason → Prop
  | .notFound => line.productId.bind (fun id => Table.find Product.id id products) = none
  | .inactive => ∃ p, line.productId.bind (fun id => Table.find Product.id id products) = some p ∧
      p.isActive = false
  | .outOfStock => ∃ p, line.productId.bind (fun id => Table.find Product.id id products) = some p ∧
      p.isActive = true ∧ p.stockQuantity ≤ 0

/-- What stands for a past line in the answer: its product, or the line with a reason. -/
def Answers (products : List Product) (line : OrderItem) :
    Except SkippedReorderItem ReorderItem → Prop
  | .ok item => ∃ p, Available products line p ∧ item.productId = p.id ∧
      item.quantity = min line.quantity p.stockQuantity.toNat
  | .error skipped => skipped.productId = line.productId ∧ SkippedFor products line skipped.reason

section
variable {products : List Product} {line : OrderItem} {p : Product}

theorem productId_of_found
    (h : line.productId.bind (fun id => Table.find Product.id id products) = some p) :
    line.productId = some p.id ∧ p ∈ products := by
  obtain ⟨id, hid, hp⟩ := Option.bind_eq_some_iff.mp h
  rw [hid, Table.key_of_find hp]
  exact ⟨rfl, Table.mem_of_find hp⟩

theorem reorderLine_answers (products : List Product) (line : OrderItem) :
    Answers products line (reorderLine products line) := by
  unfold reorderLine
  cases hfound : line.productId.bind fun id => Table.find Product.id id products with
  | none => exact ⟨rfl, hfound⟩
  | some p =>
    have hid := (productId_of_found hfound).1
    dsimp only
    split_ifs with hinactive hempty
    · refine ⟨hid.symm, p, hfound, ?_⟩
      simpa using hinactive
    · refine ⟨hid.symm, p, hfound, ?_, hempty⟩
      simpa using hinactive
    · refine ⟨p, ⟨hfound, ?_, not_le.mp hempty⟩, rfl, rfl⟩
      simpa using hinactive

theorem reorderLine_of_available (h : Available products line p) :
    ∃ item, reorderLine products line = .ok item ∧ item.productId = p.id ∧
      item.quantity = min line.quantity p.stockQuantity.toNat := by
  have hactive : (!p.isActive) ≠ true := by simp [h.active]
  have hstock : ¬ p.stockQuantity ≤ 0 := not_le.mpr h.inStock
  unfold reorderLine
  rw [h.found]
  dsimp only
  rw [if_neg hactive, if_neg hstock]
  exact ⟨_, rfl, rfl, rfl⟩

end

/-! The whole answer. -/

/-- Each past line stands once in the answer, in the order of the lines. -/
def AnswersEachLine (products : List Product) (lines : List OrderItem) (items : List ReorderItem)
    (skipped : List SkippedReorderItem) : Prop :=
  ∃ answers : List (Except SkippedReorderItem ReorderItem),
    List.Forall₂ (Answers products) lines answers ∧
      items = answers.filterMap Except.toOption ∧
      skipped = answers.filterMap fun answer => match answer with
        | .error skipped => some skipped
        | .ok _ => none

/-- The lines of a checkout for the items of a reorder. -/
def payloadLines (exchange : Uuid → Bool) (items : List ReorderItem) : List ItemPayload :=
  items.map fun i => ⟨i.productId, i.quantity, exchange i.productId⟩

/-- The fields of a checkout other than its lines are valid. -/
def ContactValid (r : PayloadReader) (contact : CheckoutPayload) : Prop :=
  ∃ data, modelValidate r { contact with items := [⟨0, 1, false⟩] } = .ok data

/-- A reorder whose answer can be checked out. -/
structure SafeToCheckOut (r : PayloadReader) (products : List Product) (lines : List OrderItem)
    (items : List ReorderItem) (skipped : List SkippedReorderItem) : Prop where
  answered : AnswersEachLine products lines items skipped
  checksOut : ∀ contact exchange, ContactValid r contact →
    ∃ data, modelValidate r { contact with items := payloadLines exchange items } = .ok data ∧
      FindsStock products data

section
variable {orders : List Order} {products : List Product} {o : Order} {user : User}

/-- The owner of an order gets one answer for each of its lines. -/
theorem reorder_eq (hfound : Table.find Order.id o.id orders = some o)
    (howner : o.userId = some user.id) : ∃ items skipped,
      reorder orders products o.id user = .ok (items, skipped) ∧
      items = (o.items.map (reorderLine products)).filterMap Except.toOption ∧
      AnswersEachLine products o.items items skipped := by
  refine ⟨_, _, ?_, rfl, o.items.map (reorderLine products), ?_, rfl, rfl⟩
  · unfold reorder
    rw [hfound]
    exact (if_neg (not_not.mpr howner)).trans rfl
  · rw [List.forall₂_map_right_iff, List.forall₂_same]
    exact fun line _ => reorderLine_answers products line

theorem mem_reordered {lines : List OrderItem} {item : ReorderItem} :
    item ∈ (lines.map (reorderLine products)).filterMap Except.toOption ↔
      ∃ line ∈ lines, reorderLine products line = .ok item := by
  simp only [List.mem_filterMap, List.mem_map, exists_exists_and_eq_and]
  refine exists_congr fun line => and_congr_right fun _ => ?_
  cases reorderLine products line <;> simp [Except.toOption]

/-- No product is reordered twice. -/
theorem reordered_nodup (h : Aggregated o) :
    (((o.items.map (reorderLine products)).filterMap Except.toOption).map
      ReorderItem.productId).Nodup := by
  have hsublist (lines : List OrderItem) :
      (((lines.map (reorderLine products)).filterMap Except.toOption).map
        ReorderItem.productId).Sublist (lines.filterMap OrderItem.productId) := by
    induction lines with
    | nil => exact List.Sublist.refl _
    | cons line lines ih =>
      have hanswers := reorderLine_answers products line
      rw [List.map_cons]
      cases hline : reorderLine products line with
      | error skipped =>
        rw [List.filterMap_cons_none rfl]
        exact ih.trans ((List.sublist_cons_self line lines).filterMap _)
      | ok item =>
        rw [hline] at hanswers
        obtain ⟨p, hp, hitem, -⟩ := hanswers
        have hid := (productId_of_found hp.found).1
        have hok : (Except.ok item : Except SkippedReorderItem ReorderItem).toOption = some item := rfl
        rw [List.filterMap_cons_some hok, List.map_cons, hitem, List.filterMap_cons_some hid]
        exact ih.cons_cons p.id
  have hlines : o.items.filterMap OrderItem.productId = o.lines.map Prod.fst := by
    rw [Order.lines, List.map_filterMap]
    refine List.filterMap_congr fun i _ => ?_
    cases i.productId <;> rfl
  exact (hlines ▸ h.products).sublist (hsublist o.items)

/-- A line that can still be bought is reordered with a quantity, which passes the bound of a checkout
line when the past quantity or the stock does. -/
theorem quantity_reordered (h : Aggregated o) {line : OrderItem} (hline : line ∈ o.items) {p : Product}
    (hp : Available products line p) {item : ReorderItem}
    (hitem : item.quantity = min line.quantity p.stockQuantity.toNat) :
    (1 ≤ item.quantity ∧ item.quantity ≤ 100) ↔ (line.quantity ≤ 100 ∨ p.stockQuantity ≤ 100) := by
  have hmem : (p.id, (line.quantity : ℤ)) ∈ o.lines := by
    refine List.mem_filterMap.mpr ⟨line, hline, ?_⟩
    rw [(productId_of_found hp.found).1]
    rfl
  have hpos := h.quantities _ hmem
  have hstock := hp.inStock
  dsimp only at hpos
  omega

/-- The lines of a reorder pass their checks exactly when there is one and none is too long. -/
theorem payloadLines_valid (h : Aggregated o) (exchange : Uuid → Bool) :
    let lines := payloadLines exchange
      ((o.items.map (reorderLine products)).filterMap Except.toOption)
    (lines ≠ [] ∧ ∀ i ∈ lines, 1 ≤ i.quantity ∧ i.quantity ≤ 100) ↔
      (∃ line ∈ o.items, ∃ p, Available products line p) ∧
        ∀ line ∈ o.items, ∀ p, Available products line p →
          line.quantity ≤ 100 ∨ p.stockQuantity ≤ 100 := by
  intro lines
  have hlines {i : ItemPayload} : i ∈ lines ↔ ∃ line ∈ o.items, ∃ item,
      reorderLine products line = .ok item ∧
        (⟨item.productId, item.quantity, exchange item.productId⟩ : ItemPayload) = i := by
    constructor
    · intro hi
      obtain ⟨item, hitem, rfl⟩ := List.mem_map.mp hi
      obtain ⟨line, hline, hok⟩ := mem_reordered.mp hitem
      exact ⟨line, hline, item, hok, rfl⟩
    · rintro ⟨line, hline, item, hok, rfl⟩
      exact List.mem_map_of_mem (mem_reordered.mpr ⟨line, hline, hok⟩)
  refine and_congr ?_ ?_
  · constructor
    · intro hne
      obtain ⟨i, hi⟩ := List.exists_mem_of_ne_nil _ hne
      obtain ⟨line, hline, item, hok, -⟩ := hlines.mp hi
      have hanswers := reorderLine_answers products line
      rw [hok] at hanswers
      obtain ⟨p, hp, -⟩ := hanswers
      exact ⟨line, hline, p, hp⟩
    · rintro ⟨line, hline, p, hp⟩
      obtain ⟨item, hok, -⟩ := reorderLine_of_available hp
      exact List.ne_nil_of_mem (hlines.mpr ⟨line, hline, item, hok, rfl⟩)
  · constructor
    · intro hbounds line hline p hp
      obtain ⟨item, hok, -, hquantity⟩ := reorderLine_of_available hp
      have hitem := hbounds _ (hlines.mpr ⟨line, hline, item, hok, rfl⟩)
      refine (quantity_reordered h hline hp hquantity).mp ?_
      dsimp only at hitem
      omega
    · intro hbounds i hi
      obtain ⟨line, hline, item, hok, rfl⟩ := hlines.mp hi
      have hanswers := reorderLine_answers products line
      rw [hok] at hanswers
      obtain ⟨p, hp, -, hquantity⟩ := hanswers
      have hitem := (quantity_reordered h hline hp hquantity).mpr (hbounds line hline p hp)
      dsimp only
      omega

/-- The stock holds what is reordered. -/
theorem findsStock_reordered (hids : (products.map Product.id).Nodup) (h : Aggregated o)
    {data : CheckoutRequest} {exchange : Uuid → Bool}
    (hitems : data.items = ((o.items.map (reorderLine products)).filterMap Except.toOption).map
      fun i => ⟨i.productId, i.quantity, exchange i.productId⟩) : FindsStock products data := by
  have hrow : ∀ i ∈ data.items, ∃ p ∈ products, p.id = i.productId ∧ p.isActive = true ∧
      (i.quantity : ℤ) ≤ p.stockQuantity := by
    intro i hi
    rw [hitems] at hi
    obtain ⟨item, hitem, rfl⟩ := List.mem_map.mp hi
    obtain ⟨line, -, hline⟩ := mem_reordered.mp hitem
    have hanswers := reorderLine_answers products line
    rw [hline] at hanswers
    obtain ⟨p, hp, hid, hquantity⟩ := hanswers
    have hstock := hp.inStock
    refine ⟨p, (productId_of_found hp.found).2, hid.symm, hp.active, ?_⟩
    dsimp only
    omega
  have hnodup : (data.items.map (·.productId)).Nodup := by
    rw [hitems, List.map_map]
    exact reordered_nodup h
  refine (findsStock_iff hids fun i hi => ?_).mpr fun i hi p hp hid => ?_
  · obtain ⟨p, hp, hid, hactive, -⟩ := hrow i hi
    exact ⟨p, hp, hid, hactive⟩
  · obtain ⟨q, hq, hid', -, hstock⟩ := hrow i hi
    obtain rfl : p = q := List.inj_on_of_nodup_map hids hp hq (hid.trans hid'.symm)
    rw [hid, requestedUnits_of_nodup hnodup hi]
    exact hstock

end

/-- What the owner of a past order is promised: the rebuilt cart can be checked out. -/
def ReorderSafe (r : PayloadReader) (orders : List Order) (products : List Product) (o : Order)
    (user : User) : Prop :=
  ∃ items skipped, reorder orders products o.id user = .ok (items, skipped) ∧
    SafeToCheckOut r products o.items items skipped

/-- Contact data that every reader takes. -/
def sampleContact : CheckoutPayload where
  items := []
  customerName := "Lan"
  customerPhone := ""
  deliveryAddress := "12 Lê Lợi"

theorem sampleContact_valid (r : PayloadReader) : ContactValid r sampleContact := ⟨_, rfl⟩

/-- After every run, a reorder can be checked out exactly when a product of the order can still be
bought, and no line takes more than a hundred units from the stock. -/
theorem reorder_safe (r : PayloadReader) (c : Orders.Catalog) {rs : List Request}
    (haccepted : ∀ x ∈ rs, x.Accepted) {o : Order} (ho : o ∈ (serveAll c.store rs).orders)
    {user : User} (howner : o.userId = some user.id) {products : List Product}
    (hids : (products.map Product.id).Nodup) :
    ReorderSafe r (serveAll c.store rs).orders products o user ↔
      (∃ line ∈ o.items, ∃ p, Available products line p) ∧
        ∀ line ∈ o.items, ∀ p, Available products line p →
          line.quantity ≤ 100 ∨ p.stockQuantity ≤ 100 := by
  obtain ⟨hkeys, haggregated⟩ := aggregated_serveAll c haccepted
  have hlines := haggregated o ho
  obtain ⟨items, skipped, hreorder, hitems, hanswered⟩ :=
    reorder_eq (Table.find_of_mem hkeys.ids ho) howner
  constructor
  · rintro ⟨items', skipped', hreorder', hsafe⟩
    obtain ⟨rfl, -⟩ := Prod.mk.inj (Except.ok.inj (hreorder.symm.trans hreorder'))
    obtain ⟨data, hdata⟩ := sampleContact_valid r
    obtain ⟨data', hdata', -⟩ := hsafe.checksOut sampleContact (fun _ => false) ⟨data, hdata⟩
    rw [hitems] at hdata'
    exact (payloadLines_valid hlines _).mp ((modelValidate_items hdata _).mp ⟨data', hdata'⟩)
  · intro hcondition
    refine ⟨items, skipped, hreorder, hanswered, ?_⟩
    rintro contact exchange ⟨data, hdata⟩
    have hvalid := (payloadLines_valid hlines exchange).mpr hcondition
    rw [← hitems] at hvalid
    obtain ⟨data', hdata'⟩ := (modelValidate_items hdata _).mpr hvalid
    have hrequest : data'.items = ((o.items.map (reorderLine products)).filterMap Except.toOption).map
        fun i => ⟨i.productId, i.quantity, exchange i.productId⟩ := by
      obtain ⟨rfl, -⟩ := modelValidate_eq_ok hdata'
      simp [CheckoutPayload.request, payloadLines, hitems]
    exact ⟨data', hdata', findsStock_reordered hids hlines hrequest⟩

/-! Two hundred cylinders, and a customer who orders the same product on several lines. -/

def cylinder : Product where
  id := 1
  sku := "GAS12"
  name := "Gas 12kg"
  brand := "Petro"
  sizeKg := 12
  category := .gas
  unit := "kg"
  price := 250000
  salePrice := none
  stockQuantity := 1000
  isActive := true

def lan : User := ⟨3, .customer, some "Lan", none, none, none⟩

def cylinderShop : Orders.Catalog where
  products := [cylinder]
  coupons := []
  redemptions := []
  users := [lan]
  nextId := 100
  ids := by decide
  nonneg := by decide

def lanCheckout (lines : List ℕ) : Request where
  op := .createOrder true {
    items := lines.map fun quantity => ⟨1, quantity, false⟩
    customerName := "Lan"
    customerPhone := some "+84901234567"
    deliveryAddress := "12 Lê Lợi" } (some lan) 7
  clock := ⟨0, 20260101⟩

/-- The order of that checkout, with the lines added up. -/
def lanOrder (quantity : ℕ) : Order where
  id := 100
  orderNumber := ⟨20260101, 1⟩
  userId := some 3
  customerName := "Lan"
  customerPhone := "+84901234567"
  customerEmail := none
  deliveryAddress := "12 Lê Lợi"
  deliveryWard := none
  deliveryDistrict := none
  deliveryCity := "TP. Hồ Chí Minh"
  deliveryNotes := none
  differentRecipientName := none
  differentRecipientPhone := none
  subtotal := 250000 * quantity
  shippingFee := 0
  discountAmount := 0
  couponId := none
  couponCode := none
  totalAmount := 250000 * quantity
  vatInvoiceRequested := false
  vatInfo := none
  paymentMethod := .cod
  status := .pending
  source := .website
  referralConversationId := none
  idempotencyKey := 7
  customerNotes := none
  internalNotes := none
  cancelledAt := none
  cancelledReason := none
  deliveredAt := none
  items := [{
    id := 101, productId := some 1, productName := "Gas 12kg", productBrand := some "Petro",
    productSizeKg := some 12, quantity := quantity, unitPrice := 250000,
    subtotal := 250000 * quantity, isExchange := false }]

theorem reorder_safe_lan :
    ReorderSafe Orders.sampleReader (serveAll cylinderShop.store [lanCheckout [1, 1]]).orders [cylinder]
      (lanOrder 2) lan := by
  have haccepted : ∀ x ∈ [lanCheckout [1, 1]], x.Accepted := by decide
  have ho : lanOrder 2 ∈ (serveAll cylinderShop.store [lanCheckout [1, 1]]).orders := by
    decide +kernel
  have hids : ([cylinder].map Product.id).Nodup := by decide
  refine (reorder_safe Orders.sampleReader cylinderShop haccepted ho rfl hids).mpr ⟨?_, ?_⟩
  · exact ⟨_, List.mem_singleton_self _, cylinder, rfl, rfl, by decide⟩
  · intro line hline p _
    obtain rfl := List.mem_singleton.mp hline
    left
    decide

/-- What is left of the order of two lines of sixty. -/
def hundredTwenty : ReorderItem where
  productId := 1
  sku := "GAS12"
  name := "Gas 12kg"
  brand := "Petro"
  sizeKg := 12
  category := .gas
  unit := "kg"
  price := 250000
  quantity := 120
  stockQuantity := 1000

/-- Two lines of sixty are one line of a hundred and twenty, which no checkout takes. -/
theorem long_line_refused :
    reorder (serveAll cylinderShop.store [lanCheckout [60, 60]]).orders [cylinder] 100 lan =
        .ok ([hundredTwenty], []) ∧
      ¬ ∀ (r : PayloadReader) (c : Orders.Catalog) (rs : List Request) (o : Order) (user : User)
        (products : List Product), (∀ x ∈ rs, x.Accepted) → o ∈ (serveAll c.store rs).orders →
        o.userId = some user.id → (products.map Product.id).Nodup →
        ReorderSafe r (serveAll c.store rs).orders products o user := by
  have hreorder : reorder (serveAll cylinderShop.store [lanCheckout [60, 60]]).orders [cylinder] 100
      lan = .ok ([hundredTwenty], []) := by decide +kernel
  refine ⟨hreorder, fun hclaim => ?_⟩
  have ho : lanOrder 120 ∈ (serveAll cylinderShop.store [lanCheckout [60, 60]]).orders := by
    decide +kernel
  obtain ⟨items, skipped, hitems, hsafe⟩ := hclaim Orders.sampleReader cylinderShop [lanCheckout [60, 60]]
    (lanOrder 120) lan [cylinder] (by decide) ho rfl (by decide)
  obtain ⟨rfl, -⟩ := Prod.mk.inj (Except.ok.inj (hreorder.symm.trans hitems))
  obtain ⟨data, hdata, -⟩ :=
    hsafe.checksOut sampleContact (fun _ => false) (sampleContact_valid Orders.sampleReader)
  have hrefused : modelValidate Orders.sampleReader { sampleContact with
      items := payloadLines (fun _ => false) [hundredTwenty] } =
        .error [⟨["items", "0", "quantity"], none⟩] := rfl
  cases hrefused.symm.trans hdata

end Qiki.Catalog
