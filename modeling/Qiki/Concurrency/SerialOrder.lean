import Qiki.Concurrency.CouponLimits
import Qiki.Concurrency.OrderNumbers
import Qiki.Orders.Undisturbed
import Qiki.Transition.Versions

/-! Concurrent checkouts have the effect of the committed ones served one after the other. -/
namespace Qiki.Concurrency.Checkout

open Orders Transition

/-- A checkout of a serial run: its session, when it is served, and the order it answers. -/
structure Served (ι : Type*) where
  session : ι
  clock : Clock
  order : Order

/-- One `POST /orders/checkout` with no other request about; `uuid4` gives the new row `fresh`. -/
def Call.alone (call : Call) (clock : Clock) (fresh : Uuid) (s : Store) :
    Store × Except Exn Order :=
  let r := getDb (createOrder call.coupons call.data call.user call.key clock)
    { s with nextId := fresh }
  ({ r.1 with nextId := s.nextId }, r.2)

/-- A checkout whose key is known changes nothing. -/
theorem alone_existing {call : Call} {s : Store} {o : Order}
    (h : Table.find Order.idempotencyKey call.key s.orders = some o) (clock : Clock)
    (fresh : Uuid) : call.alone clock fresh s = (s, .ok o) := by
  have hexisting : getDb (createOrder call.coupons call.data call.user call.key clock)
      { s with nextId := fresh } = ({ s with nextId := fresh }, .ok o) :=
    getDb_createOrder_existing h
  rw [Call.alone, hexisting]

/-- The next checkout of a serial run, which has to answer this order. -/
def serveNext {ι : Type*} (calls : ι → Call) (s : Store) (v : Served ι) : Option Store :=
  match (calls v.session).alone v.clock v.order.id s with
  | (t, .ok o) => if o = v.order then some t else none
  | (_, .error _) => none

/-! Later tables: what a snapshot still knows. -/

def Tables.productRows (t : Tables) : Versions Uuid (Option Product) where
  version := t.productVersion
  row := fun p => Table.find Product.id p t.store.products

def Tables.couponRows (t : Tables) : Versions Uuid (Option Coupon × List CouponRedemption) where
  version := t.couponVersion
  row := fun c => (Table.find Coupon.id c t.store.coupons, redemptionsOf t.store c)

/-- Orders were added; where a day has new ones, the first of them has the day's next number. -/
def NumberedFrom (seen orders : List Order) : Prop :=
  ∃ later, orders = seen ++ later ∧ ∀ day, (∀ o ∈ later, o.orderNumber.day ≠ day) ∨
    ∃ o ∈ later, o.orderNumber = ⟨day, nextCounter seen day⟩

theorem nextCounter_append {seen later : List Order} {day : ℕ}
    (h : ∀ o ∈ later, o.orderNumber.day ≠ day) :
    nextCounter (seen ++ later) day = nextCounter seen day := by
  have hnone : later.filter (fun o => o.orderNumber.day = day) = [] :=
    List.filter_eq_nil_iff.mpr fun o ho => by simpa using h o ho
  rw [nextCounter, nextCounter, List.filter_append, hnone, List.append_nil]

theorem NumberedFrom.refl (seen : List Order) : NumberedFrom seen seen :=
  ⟨[], (List.append_nil seen).symm, fun _ => Or.inl fun _ ho => by cases ho⟩

theorem NumberedFrom.trans {a b c : List Order} (hab : NumberedFrom a b) (hbc : NumberedFrom b c) :
    NumberedFrom a c := by
  obtain ⟨later, rfl, hday⟩ := hab
  obtain ⟨later', rfl, hday'⟩ := hbc
  refine ⟨later ++ later', List.append_assoc .., fun day => ?_⟩
  rcases hday day with hnone | ⟨o, ho, hnumber⟩
  · rcases hday' day with hnone' | ⟨o, ho, hnumber⟩
    · exact Or.inl fun o ho => (List.mem_append.mp ho).elim (hnone o) (hnone' o)
    · rw [nextCounter_append hnone] at hnumber
      exact Or.inr ⟨o, List.mem_append_right _ ho, hnumber⟩
  · exact Or.inr ⟨o, List.mem_append_left _ ho, hnumber⟩

/-- While nobody has taken the next number of a day, it is still the next one. -/
theorem NumberedFrom.nextCounter_eq {seen orders : List Order} (h : NumberedFrom seen orders)
    {day : ℕ} (hfree : ∀ o ∈ orders, o.orderNumber ≠ ⟨day, nextCounter seen day⟩) :
    nextCounter orders day = nextCounter seen day := by
  obtain ⟨later, rfl, hday⟩ := h
  rcases hday day with hnone | ⟨o, ho, hnumber⟩
  · exact nextCounter_append hnone
  · exact absurd hnumber (hfree o (List.mem_append_right _ ho))

theorem numberedFrom_append {orders : List Order} {o : Order}
    (h : o.orderNumber.counter = nextCounter orders o.orderNumber.day) :
    NumberedFrom orders (orders ++ [o]) := by
  refine ⟨[o], rfl, fun day => ?_⟩
  by_cases hday : o.orderNumber.day = day
  · refine Or.inr ⟨o, List.mem_singleton_self o, ?_⟩
    rw [← hday, ← h]
  · refine Or.inl fun o' ho' => ?_
    rw [List.mem_singleton.mp ho']
    exact hday

/-- The committed tables at a time and at a later one. -/
structure Tables.Before (s t : Tables) : Prop where
  products : s.productRows.Before t.productRows
  coupons : s.couponRows.Before t.couponRows
  productIds : s.store.products.map Product.id = t.store.products.map Product.id
  couponCodes : s.store.coupons.map (fun c => (c.id, c.code)) =
    t.store.coupons.map fun c => (c.id, c.code)
  orders : NumberedFrom s.store.orders t.store.orders

theorem Tables.Before.refl (t : Tables) : t.Before t :=
  ⟨.refl _, .refl _, rfl, rfl, .refl _⟩

theorem Tables.Before.trans {a b c : Tables} (hab : a.Before b) (hbc : b.Before c) : a.Before c :=
  ⟨hab.products.trans hbc.products, hab.coupons.trans hbc.coupons,
    hab.productIds.trans hbc.productIds, hab.couponCodes.trans hbc.couponCodes,
    hab.orders.trans hbc.orders⟩

/-! The writes of an attempt. -/

/-- The stock that a snapshot shows. -/
def stockOf (s : Store) (p : Uuid) : ℤ :=
  ((Table.find Product.id p s.products).map (·.stockQuantity)).getD 0

def stockWrites (s : Store) (lines : List (Uuid × ℕ)) : List Write :=
  lines.map fun l => .stock l.1 (stockOf s l.1 - l.2)

def couponWrites (choice : Option (Coupon × Decimal)) (user : Option User) (orderId : Uuid) :
    List Write :=
  match choice with
  | none => []
  | some (c, _) =>
    [.coupon c.id (c.usedCount + 1), .redemption ⟨c.id, user.map (·.id), orderId⟩]

/-- Everything that a checkout writes. -/
def Call.writes (call : Call) (s : Store) (choice : Option (Coupon × Decimal)) (o : Order) :
    List Write :=
  stockWrites s call.lines ++ [.order o] ++ couponWrites choice call.user o.id

theorem find_takeLines {lines : List (Uuid × ℕ)} {p : Uuid} (h : p ∉ lines.map Prod.fst)
    (s : Store) : Table.find Product.id p (takeLines lines s).products =
      Table.find Product.id p s.products := by
  induction lines generalizing s with
  | nil => rfl
  | cons l lines ih =>
    rw [List.map_cons, List.mem_cons, not_or] at h
    have hrest := ih h.2 { s with products := adjustStock l.1 (-l.2) s.products }
    exact hrest.trans (find_adjustStock_ne h.1 _ _)

theorem ids_takeLines (lines : List (Uuid × ℕ)) (s : Store) :
    (takeLines lines s).products.map Product.id = s.products.map Product.id := by
  rw [takeLines, adjustAll_eq, List.map_map]
  rfl

/-- The line's row stands in both stores. -/
def SameRow (s t : Store) (p : Uuid) : Prop :=
  ∃ row, Table.find Product.id p s.products = some row ∧
    Table.find Product.id p t.products = some row

/-- Writing the stock that is left over is taking the line. -/
theorem apply_stock {s t : Store} {l : Uuid × ℕ} (h : SameRow s t l.1)
    (hids : (t.products.map Product.id).Nodup) :
    Write.apply t (.stock l.1 (stockOf s l.1 - l.2)) = takeLines [l] t := by
  obtain ⟨row, hs, ht⟩ := h
  have hproducts : Table.modify Product.id l.1
      (fun p : Product => { p with stockQuantity := stockOf s l.1 - l.2 }) t.products =
        adjustStock l.1 (-l.2) t.products := by
    refine List.map_congr_left fun r hr => ?_
    by_cases hid : r.id = l.1
    · rw [if_pos hid, if_pos hid]
      have hfound := Table.find_of_mem hids hr
      rw [hid, ht] at hfound
      cases hfound
      rw [stockOf, hs, Option.map_some, Option.getD_some, sub_eq_add_neg]
    · rw [if_neg hid, if_neg hid]
  rw [Write.apply, hproducts]
  rfl

theorem foldl_stockWrites {s t : Store} {lines : List (Uuid × ℕ)}
    (hkeys : (lines.map Prod.fst).Nodup) (hids : (t.products.map Product.id).Nodup)
    (h : ∀ l ∈ lines, SameRow s t l.1) :
    (stockWrites s lines).foldl Write.apply t = takeLines lines t := by
  induction lines generalizing t with
  | nil => rfl
  | cons l lines ih =>
    obtain ⟨hnew, hkeys⟩ := List.nodup_cons.mp hkeys
    rw [stockWrites, List.map_cons, List.foldl_cons, apply_stock (h l List.mem_cons_self) hids]
    refine ih hkeys (by rw [ids_takeLines]; exact hids) fun l' hl' => ?_
    obtain ⟨row, hs, ht⟩ := h l' (List.mem_cons_of_mem _ hl')
    have hne : l'.1 ∉ [l].map Prod.fst := fun hmem =>
      hnew (List.mem_singleton.mp hmem ▸ List.mem_map_of_mem hl')
    exact ⟨row, hs, (find_takeLines hne t).trans ht⟩

theorem foldl_couponWrites (choice : Option (Coupon × Decimal)) (user : Option User)
    (orderId : Uuid) (t : Store) :
    (couponWrites choice user orderId).foldl Write.apply t = redeem choice user orderId t := by
  cases choice <;> rfl

/-- The tables after a commit of everything that a checkout writes. -/
theorem foldl_writes {call : Call} {s t : Store} {choice : Option (Coupon × Decimal)} {o : Order}
    (hids : (t.products.map Product.id).Nodup) (h : ∀ l ∈ call.lines, SameRow s t l.1) :
    (call.writes s choice o).foldl Write.apply t =
      redeem choice call.user o.id { takeLines call.lines t with orders := t.orders ++ [o] } := by
  have hkeys : (call.lines.map Prod.fst).Nodup := requestedByProduct_nodup _
  rw [Call.writes, List.foldl_append, List.foldl_append, foldl_stockWrites hkeys hids h,
    foldl_couponWrites]
  rfl

/-- A product is written exactly when it is among the lines. -/
theorem productWritten_iff {call : Call} {s : Store} {choice : Option (Coupon × Decimal)}
    {o : Order} {p : Uuid} :
    (∃ w ∈ call.writes s choice o, w.productId = some p) ↔ p ∈ call.lines.map Prod.fst := by
  constructor
  · rintro ⟨w, hw, hp⟩
    rw [Call.writes, List.append_assoc, List.mem_append] at hw
    rcases hw with hw | hw
    · obtain ⟨l, hl, rfl⟩ := List.mem_map.mp hw
      cases hp
      exact List.mem_map_of_mem hl
    · rcases List.mem_append.mp hw with hw | hw
      · rw [List.mem_singleton.mp hw] at hp
        cases hp
      · cases choice with
        | none => cases hw
        | some c =>
          rcases List.mem_cons.mp hw with rfl | hw
          · cases hp
          · rw [List.mem_singleton.mp hw] at hp
            cases hp
  · intro hp
    obtain ⟨l, hl, rfl⟩ := List.mem_map.mp hp
    refine ⟨.stock l.1 (stockOf s l.1 - l.2), ?_, rfl⟩
    rw [Call.writes, List.append_assoc]
    exact List.mem_append_left _ (List.mem_map_of_mem hl)

theorem couponWritten_iff {call : Call} {s : Store} {choice : Option (Coupon × Decimal)}
    {o : Order} {c : Uuid} :
    (∃ w ∈ call.writes s choice o, w.couponId = some c) ↔ ∃ r, choice = some r ∧ r.1.id = c := by
  constructor
  · rintro ⟨w, hw, hc⟩
    rw [Call.writes, List.append_assoc, List.mem_append] at hw
    rcases hw with hw | hw
    · obtain ⟨l, hl, rfl⟩ := List.mem_map.mp hw
      cases hc
    · rcases List.mem_append.mp hw with hw | hw
      · rw [List.mem_singleton.mp hw] at hc
        cases hc
      · cases choice with
        | none => cases hw
        | some r =>
          refine ⟨r, rfl, ?_⟩
          rcases List.mem_cons.mp hw with rfl | hw
          · exact Option.some.inj hc
          · rw [List.mem_singleton.mp hw] at hc
            exact Option.some.inj hc
  · rintro ⟨r, rfl, rfl⟩
    refine ⟨.coupon r.1.id (r.1.usedCount + 1), ?_, rfl⟩
    rw [Call.writes]
    exact List.mem_append_right _ List.mem_cons_self

theorem redeem_products (choice : Option (Coupon × Decimal)) (user : Option User) (orderId : Uuid)
    (s : Store) : (redeem choice user orderId s).products = s.products := by
  cases choice <;> rfl

theorem redeem_orders (choice : Option (Coupon × Decimal)) (user : Option User) (orderId : Uuid)
    (s : Store) : (redeem choice user orderId s).orders = s.orders := by
  cases choice <;> rfl

theorem redeem_couponCodes (choice : Option (Coupon × Decimal)) (user : Option User)
    (orderId : Uuid) (s : Store) :
    (redeem choice user orderId s).coupons.map (fun c => (c.id, c.code)) =
      s.coupons.map fun c => (c.id, c.code) := by
  cases choice with
  | none => rfl
  | some r => exact Table.map_modify fun _ _ => rfl

/-- A redemption changes nothing about another coupon. -/
theorem redeem_couponRow {choice : Option (Coupon × Decimal)} {c : Uuid}
    (h : ¬ ∃ r, choice = some r ∧ r.1.id = c) (user : Option User) (orderId : Uuid) (s : Store) :
    Table.find Coupon.id c (redeem choice user orderId s).coupons =
        Table.find Coupon.id c s.coupons ∧
      redemptionsOf (redeem choice user orderId s) c = redemptionsOf s c := by
  cases choice with
  | none => exact ⟨rfl, rfl⟩
  | some r =>
    have hne : r.1.id ≠ c := fun he => h ⟨r, rfl, he⟩
    refine ⟨Table.find_modify_ne (fun _ => rfl) hne.symm, ?_⟩
    rw [redemptionsOf_append _ s.redemptions _ c rfl, if_neg hne, List.append_nil]
    rfl

/-- A commit leads to later tables. -/
theorem before_commit {call : Call} {s : Store} {g : Tables}
    {choice : Option (Coupon × Decimal)} {o : Order}
    (hids : (g.store.products.map Product.id).Nodup)
    (hrows : ∀ l ∈ call.lines, SameRow s g.store l.1)
    (hnumber : o.orderNumber.counter = nextCounter g.store.orders o.orderNumber.day) :
    g.Before (g.commit (call.writes s choice o)) := by
  have hstore : (g.commit (call.writes s choice o)).store = redeem choice call.user o.id
      { takeLines call.lines g.store with orders := g.store.orders ++ [o] } :=
    foldl_writes hids hrows
  refine ⟨?_, ?_, ?_, ?_, ?_⟩
  · refine Versions.before_of_written (fun p => rfl) fun p hp => ?_
    rw [productWritten_iff] at hp
    show Table.find Product.id p (g.commit (call.writes s choice o)).store.products = _
    rw [hstore, redeem_products]
    exact find_takeLines hp g.store
  · refine Versions.before_of_written (fun c => rfl) fun c hc => ?_
    rw [couponWritten_iff] at hc
    show (Table.find Coupon.id c (g.commit (call.writes s choice o)).store.coupons, _) = _
    rw [hstore]
    obtain ⟨hrow, hredemptions⟩ := redeem_couponRow hc call.user o.id
      { takeLines call.lines g.store with orders := g.store.orders ++ [o] }
    exact Prod.ext hrow hredemptions
  · rw [hstore, redeem_products]
    exact (ids_takeLines call.lines g.store).symm
  · rw [hstore, redeem_couponCodes]
    rfl
  · rw [hstore, redeem_orders]
    exact numberedFrom_append hnumber

/-! A commit, seen as a checkout served alone. -/

theorem price_eq_ok {call : Call} {s : Store} {items : List ItemData}
    (h : call.price s = .ok items) : checkProducts (call.products s) call.productIds = .ok () ∧
      priceLines (call.products s) (exchangeByProduct call.data.items) call.lines = .ok items := by
  unfold Call.price at h
  cases hcheck : checkProducts (call.products s) call.productIds with
  | error e => simp [hcheck] at h
  | ok u => exact ⟨rfl, by simpa [hcheck] using h⟩

theorem items_of_price {call : Call} {s : Store} {items : List ItemData}
    (h : call.price s = .ok items) : call.items s = items := by
  rw [Call.items, h]

/-- A coupon found by its code in a snapshot is found in later tables with the same row. -/
theorem find_code {s t : Store} {code : String} {c : Coupon}
    (hcodes : s.coupons.map (fun c => (c.id, c.code)) = t.coupons.map fun c => (c.id, c.code))
    (hids : (t.coupons.map Coupon.id).Nodup)
    (hs : Table.find Coupon.code code s.coupons = some c)
    (hrow : Table.find Coupon.id c.id t.coupons = some c) :
    Table.find Coupon.code code t.coupons = some c := by
  have hpair (coupons : List Coupon) :
      (coupons.map fun c => (c.id, c.code)).find? (fun k => k.2 = code) =
        (Table.find Coupon.code code coupons).map fun c => (c.id, c.code) := by
    rw [List.find?_map]
    rfl
  have hfound := hpair t.coupons
  rw [← hcodes, hpair s.coupons, hs, Option.map_some] at hfound
  obtain ⟨c', hc', hsame⟩ := Option.map_eq_some_iff.mp hfound.symm
  have hrow' := Table.find_of_mem hids (Table.mem_of_find hc')
  rw [(Prod.mk.inj hsame).1, hrow] at hrow'
  rw [hc', ← hrow']

section Alone
variable {call : Call} {s g : Tables} {choice : Option (Coupon × Decimal)} {o : Order}

/-- The rows of the request are those of the snapshot while their versions are. -/
theorem Tables.Before.call_products (h : s.Before g)
    (hids : (g.store.products.map Product.id).Nodup)
    (hcurrent : ∀ p ∈ call.productIds, s.productVersion p = g.productVersion p) :
    call.products s.store = call.products g.store :=
  Table.filter_key_congr h.productIds (by rw [h.productIds]; exact hids) fun p hp =>
    h.products.same p (hcurrent p hp)

theorem Tables.Before.couponChoice {now : Timestamp} {subtotal : Decimal} (h : s.Before g)
    (hids : (g.store.coupons.map Coupon.id).Nodup)
    (hcurrent : ∀ c d, choice = some (c, d) → s.couponVersion c.id = g.couponVersion c.id)
    (hchoice : CouponChoice call.coupons call.data.couponCode call.user subtotal now
      s.store.coupons s.store.redemptions choice) :
    CouponChoice call.coupons call.data.couponCode call.user subtotal now g.store.coupons
      g.store.redemptions choice := by
  have hids' : (s.store.coupons.map Coupon.id).Nodup := by
    have hsame := congrArg (List.map Prod.fst) h.couponCodes
    rw [List.map_map, List.map_map] at hsame
    exact hsame ▸ hids
  cases hchoice with
  | none hcode => exact .none hcode
  | some text c service code eligible perUser =>
    obtain ⟨hfind, -⟩ := checkEligibility_eq_ok eligible
    have hrows := h.coupons.same c.id (hcurrent c _ rfl)
    obtain ⟨hrow, hredemptions⟩ := Prod.mk.inj hrows
    have hrow' : Table.find Coupon.id c.id s.store.coupons = some c :=
      Table.find_of_mem hids' (Table.mem_of_find hfind)
    have hcode := find_code h.couponCodes hids hfind (hrow ▸ hrow')
    refine .some text c service code ?_ ?_
    · rw [hcode, ← hfind]
      exact eligible
    · have hused : userRedemptions s.store.redemptions c.id =
          userRedemptions g.store.redemptions c.id := by
        funext u
        rw [← usesBy_redemptionsOf, ← usesBy_redemptionsOf, hredemptions]
      rw [← hused]
      exact perUser

/-- A checkout on current rows commits what it does when it is served alone. -/
theorem alone_of_current {now : Timestamp} {phone : String} (h : s.Before g)
    (hproducts : (g.store.products.map Product.id).Nodup)
    (hcoupons : (g.store.coupons.map Coupon.id).Nodup)
    (hpriced : call.price s.store = .ok (call.items s.store))
    (hrows : ∀ p ∈ call.productIds, s.productVersion p = g.productVersion p)
    (hchoice : CouponChoice call.coupons call.data.couponCode call.user (call.subtotal s.store) now
      s.store.coupons s.store.redemptions choice)
    (hrow : ∀ c d, choice = some (c, d) → s.couponVersion c.id = g.couponVersion c.id)
    (hinsert : insertOrderCheck g.store.orders (call.orderData s.store choice) o.orderNumber =
      .ok phone)
    (ho : o = (call.orderData s.store choice).row phone o.id o.orderNumber
      (itemRows (o.id + 1) (call.items s.store)))
    (hnumber : o.orderNumber.counter = nextCounter g.store.orders o.orderNumber.day) :
    call.alone ⟨now, o.orderNumber.day⟩ o.id g.store =
      ((g.commit (call.writes s.store choice o)).store, .ok o) := by
  have hsame := h.call_products hproducts hrows
  have hitems : call.items s.store = call.items g.store := by
    rw [Call.items, Call.items, price_congr hsame]
  have hprice : call.price g.store = .ok (call.items g.store) := by
    rw [← hitems, ← price_congr hsame]
    exact hpriced
  have hdata := orderData_congr hsame choice
  have hchoice' := h.couponChoice hcoupons hrow hchoice
  rw [Call.subtotal, hitems] at hchoice'
  have hkey : Table.find Order.idempotencyKey call.key g.store.orders = none :=
    Table.find_eq_none.mpr fun o' ho' => ((insertOrderCheck_eq_ok hinsert).2 o' ho').2
  have hnumber' : o.orderNumber = ⟨o.orderNumber.day,
      nextCounter g.store.orders o.orderNumber.day⟩ := by rw [← hnumber]
  have hlines : ∀ l ∈ call.lines, SameRow s.store g.store l.1 := by
    intro l hl
    obtain ⟨row, hfind, -⟩ := hasStock_of_priceLines (price_eq_ok hpriced).2 l hl
    have hp := (mem_productIds call l.1).mpr (List.mem_map_of_mem hl)
    rw [find_products hp] at hfind
    exact ⟨row, hfind, (h.products.same l.1 (hrows l.1 hp)).symm.trans hfind⟩
  obtain ⟨hcheck, hpriceLines⟩ := price_eq_ok hprice
  have hinsert' : insertOrderCheck g.store.orders (call.orderData g.store choice)
      ⟨o.orderNumber.day, nextCounter g.store.orders o.orderNumber.day⟩ = .ok phone := by
    rw [← hnumber', ← hdata]
    exact hinsert
  have ho' : o = (call.orderData g.store choice).row phone o.id
      ⟨o.orderNumber.day, nextCounter g.store.orders o.orderNumber.day⟩
      (itemRows (o.id + 1) (call.items g.store)) := by
    rw [← hnumber', ← hdata, ← hitems]
    exact ho
  have hcreate : getDb (createOrder call.coupons call.data call.user call.key
      ⟨now, o.orderNumber.day⟩) { g.store with nextId := o.id } =
        (redeem choice call.user o.id { takeLines call.lines { g.store with nextId := o.id } with
          orders := g.store.orders ++ [o]
          nextId := o.id + 1 + (call.items g.store).length }, .ok o) :=
    runs_createOrder hkey rfl hcheck hpriceLines hchoice' rfl hinsert' ho'
  rw [Call.alone, hcreate]
  refine Prod.ext ?_ rfl
  show _ = (call.writes s.store choice o).foldl Write.apply g.store
  rw [foldl_writes hproducts hlines]
  cases choice <;> rfl

end Alone

end Qiki.Concurrency.Checkout
