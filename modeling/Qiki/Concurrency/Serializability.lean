import Qiki.Concurrency.SerialOrder

/-! What a session of a concurrent checkout holds at each statement, and the serial order of the
commits. -/
namespace Qiki.Concurrency.Checkout

open Orders Transition

section Sessions
variable {ι : Type*}

/-- A product row that is locked at the version of the snapshot. -/
structure RowHeld (i : ι) (g : Shared ι) (s : Tables) (p : Uuid) : Prop where
  locked : g.locks (.product p) = some i
  current : s.productVersion p = g.tables.productVersion p

structure CouponHeld (i : ι) (g : Shared ι) (s : Tables) (c : Uuid) : Prop where
  locked : g.locks (.coupon c) = some i
  current : s.couponVersion c = g.tables.couponVersion c

/-- The lines are priced, and their rows are held. -/
structure Ready (call : Call) (i : ι) (g : Shared ι) (s : Tables) : Prop where
  priced : call.price s.store = .ok (call.items s.store)
  held : ∀ p ∈ call.productIds, RowHeld i g s p

/-- The coupon is chosen from the snapshot, and its row is held. -/
structure Settled (call : Call) (i : ι) (g : Shared ι) (s : Tables)
    (choice : Option (Coupon × Decimal)) : Prop where
  chosen : ∃ now, CouponChoice call.coupons call.data.couponCode call.user (call.subtotal s.store)
    now s.store.coupons s.store.redemptions choice
  held : ∀ c d, choice = some (c, d) → CouponHeld i g s c.id

/-- The order that the session inserts, under a number and a key that nobody else can take. -/
structure Inserting (call : Call) (i : ι) (g : Shared ι) (s : Tables)
    (choice : Option (Coupon × Decimal)) (o : Order) : Prop where
  row : ∃ phone, insertOrderCheck g.tables.store.orders (call.orderData s.store choice)
      o.orderNumber = .ok phone ∧
    o = (call.orderData s.store choice).row phone o.id o.orderNumber
      (itemRows (o.id + 1) (call.items s.store))
  counter : o.orderNumber.counter = nextCounter s.store.orders o.orderNumber.day
  number : g.locks (.numbers o.orderNumber.day) = some i
  key : g.locks (.key call.key) = some i

/-- What an attempt has checked, locked and written when it stands at a statement. -/
inductive Standing (call : Call) (i : ι) (g : Shared ι) (s : Tables) (writes : List Write)
    (choice : Option (Coupon × Decimal)) : Phase → Prop
  | lockProducts (todo : List Uuid) (unwritten : writes = [])
      (held : ∀ p ∈ call.productIds, p ∈ todo ∨
        Table.find Product.id p s.store.products = none ∨ RowHeld i g s p) :
      Standing call i g s writes choice (.lockProducts todo)
  | priceItems (unwritten : writes = [])
      (held : ∀ p ∈ call.productIds,
        Table.find Product.id p s.store.products = none ∨ RowHeld i g s p) :
      Standing call i g s writes choice .priceItems
  | lockCoupon (unwritten : writes = []) (ready : Ready call i g s)
      (service : call.coupons = true) (text : String) (given : call.data.couponCode = some text) :
      Standing call i g s writes choice .lockCoupon
  | countRedemptions (c : Coupon) (unwritten : writes = []) (ready : Ready call i g s)
      (service : call.coupons = true) (text : String) (given : call.data.couponCode = some text)
      (eligible : ∃ now, checkEligibility (Table.find Coupon.code text s.store.coupons)
        (call.subtotal s.store) now = .ok c) (held : CouponHeld i g s c.id) :
      Standing call i g s writes choice (.countRedemptions c)
  | lockStock (line : Uuid × ℕ) (rest done : List (Uuid × ℕ)) (ready : Ready call i g s)
      (settled : Settled call i g s choice) (lines : call.lines = done ++ line :: rest)
      (written : writes = stockWrites s.store done) :
      Standing call i g s writes choice (.lockStock line rest)
  | writeStock (line : Uuid × ℕ) (rest done : List (Uuid × ℕ)) (ready : Ready call i g s)
      (settled : Settled call i g s choice) (lines : call.lines = done ++ line :: rest)
      (written : writes = stockWrites s.store done) :
      Standing call i g s writes choice (.writeStock line rest)
  | lockNumbers (ready : Ready call i g s) (settled : Settled call i g s choice)
      (written : writes = stockWrites s.store call.lines) :
      Standing call i g s writes choice .lockNumbers
  | readNumber (day : ℕ) (ready : Ready call i g s) (settled : Settled call i g s choice)
      (written : writes = stockWrites s.store call.lines)
      (number : g.locks (.numbers day) = some i) :
      Standing call i g s writes choice (.readNumber day)
  | insertOrder (n : OrderNumber) (ready : Ready call i g s) (settled : Settled call i g s choice)
      (written : writes = stockWrites s.store call.lines)
      (number : g.locks (.numbers n.day) = some i)
      (counter : n.counter = nextCounter s.store.orders n.day) :
      Standing call i g s writes choice (.insertOrder n)
  | insertItems (o : Order) (ready : Ready call i g s) (settled : Settled call i g s choice)
      (inserting : Inserting call i g s choice o)
      (written : writes = stockWrites s.store call.lines ++ [.order o]) :
      Standing call i g s writes choice (.insertItems o)
  | updateCoupon (o : Order) (ready : Ready call i g s) (settled : Settled call i g s choice)
      (inserting : Inserting call i g s choice o)
      (written : writes = stockWrites s.store call.lines ++ [.order o]) :
      Standing call i g s writes choice (.updateCoupon o)
  | insertRedemption (o : Order) (c : Coupon) (d : Decimal) (ready : Ready call i g s)
      (settled : Settled call i g s choice) (inserting : Inserting call i g s choice o)
      (accepted : choice = some (c, d))
      (written : writes = stockWrites s.store call.lines ++ [.order o] ++
        [.coupon c.id (c.usedCount + 1)]) :
      Standing call i g s writes choice (.insertRedemption o)
  | existing (o : Order) (unwritten : writes = [])
      (found : Table.find Order.idempotencyKey call.key s.store.orders = some o) :
      Standing call i g s writes choice (.commit o)
  | commit (o : Order) (ready : Ready call i g s) (settled : Settled call i g s choice)
      (inserting : Inserting call i g s choice o)
      (written : writes = call.writes s.store choice o) :
      Standing call i g s writes choice (.commit o)

/-- The invariant of one session. -/
inductive SessionInv (call : Call) (i : ι) (g : Shared ι) (t : Txn) : Prop
  | start (phase : t.phase = .setIsolation ∨ t.phase = .findKey) (unwritten : t.writes = [])
  | reading (s : Tables) (snapshot : t.snapshot = some s) (before : s.Before g.tables)
      (standing : Standing call i g s t.writes t.coupon t.phase)
  | ended (ended : t.active = false)

/-- The committed tables: primary keys are distinct. -/
structure DistinctIds (g : Shared ι) : Prop where
  products : (g.tables.store.products.map Product.id).Nodup
  coupons : (g.tables.store.coupons.map Coupon.id).Nodup

/-! What a session keeps while it holds its locks. -/

/-- A change of the shared state that leaves the session its locks and what they protect. -/
structure Unhindered (i : ι) (g g' : Shared ι) : Prop where
  locks : ∀ r, g.locks r = some i → g'.locks r = some i
  products : ∀ p, g.locks (.product p) = some i →
    g'.tables.productVersion p = g.tables.productVersion p
  coupons : ∀ c, g.locks (.coupon c) = some i →
    g'.tables.couponVersion c = g.tables.couponVersion c
  orders : ∃ later, g'.tables.store.orders = g.tables.store.orders ++ later ∧
    ∀ o ∈ later, g.locks (.numbers o.orderNumber.day) ≠ some i ∧
      g.locks (.key o.idempotencyKey) ≠ some i

section Keeps
variable {call : Call} {i : ι} {g g' : Shared ι} {s : Tables} {p c : Uuid}
  {choice : Option (Coupon × Decimal)} {o : Order} {writes : List Write} {phase : Phase}

theorem unhindered_of_tables (ht : g'.tables = g.tables)
    (hl : ∀ r, g.locks r = some i → g'.locks r = some i) : Unhindered i g g' where
  locks := hl
  products _ _ := by rw [ht]
  coupons _ _ := by rw [ht]
  orders := ⟨[], by rw [ht, List.append_nil], fun _ ho => by cases ho⟩

theorem RowHeld.mono (h : RowHeld i g s p) (hg : Unhindered i g g') : RowHeld i g' s p :=
  ⟨hg.locks _ h.locked, h.current.trans (hg.products p h.locked).symm⟩

theorem CouponHeld.mono (h : CouponHeld i g s c) (hg : Unhindered i g g') : CouponHeld i g' s c :=
  ⟨hg.locks _ h.locked, h.current.trans (hg.coupons c h.locked).symm⟩

theorem Ready.mono (h : Ready call i g s) (hg : Unhindered i g g') : Ready call i g' s :=
  ⟨h.priced, fun p hp => (h.held p hp).mono hg⟩

theorem Settled.mono (h : Settled call i g s choice) (hg : Unhindered i g g') :
    Settled call i g' s choice :=
  ⟨h.chosen, fun c d hc => (h.held c d hc).mono hg⟩

/-- Orders with another number and another key do not refuse this one. -/
theorem insertOrderCheck_append {orders later : List Order} {d : OrderData} {n : OrderNumber}
    {phone : String} (h : insertOrderCheck orders d n = .ok phone)
    (hlater : ∀ o ∈ later, o.orderNumber ≠ n ∧ o.idempotencyKey ≠ d.idempotencyKey) :
    insertOrderCheck (orders ++ later) d n = .ok phone := by
  obtain ⟨hphone, hunused⟩ := insertOrderCheck_eq_ok h
  have hnone : ¬ ∃ o ∈ orders ++ later, o.orderNumber = n ∨ o.idempotencyKey = d.idempotencyKey := by
    rintro ⟨o, ho, hsame⟩
    have hne : o.orderNumber ≠ n ∧ o.idempotencyKey ≠ d.idempotencyKey :=
      (List.mem_append.mp ho).elim (hunused o) (hlater o)
    exact hsame.elim hne.1 hne.2
  unfold insertOrderCheck at h ⊢
  simp only [hphone] at h ⊢
  split_ifs at h with hlength hamounts
  rw [if_neg hlength, if_neg hamounts, if_neg hnone]

theorem Inserting.mono (h : Inserting call i g s choice o) (hg : Unhindered i g g') :
    Inserting call i g' s choice o := by
  obtain ⟨phone, hcheck, hrow⟩ := h.row
  obtain ⟨later, horders, hlater⟩ := hg.orders
  refine ⟨⟨phone, ?_, hrow⟩, h.counter, hg.locks _ h.number, hg.locks _ h.key⟩
  rw [horders]
  refine insertOrderCheck_append hcheck fun o' ho' => ⟨fun hn => ?_, fun hk => ?_⟩
  · exact (hlater o' ho').1 (hn ▸ h.number)
  · exact (hlater o' ho').2 (hk ▸ h.key)

theorem Standing.mono (h : Standing call i g s writes choice phase) (hg : Unhindered i g g') :
    Standing call i g' s writes choice phase := by
  cases h with
  | lockProducts todo unwritten held =>
    exact .lockProducts todo unwritten fun p hp => (held p hp).imp_right (·.imp_right (·.mono hg))
  | priceItems unwritten held =>
    exact .priceItems unwritten fun p hp => (held p hp).imp_right (·.mono hg)
  | lockCoupon unwritten ready service text given =>
    exact .lockCoupon unwritten (ready.mono hg) service text given
  | countRedemptions c unwritten ready service text given eligible held =>
    exact .countRedemptions c unwritten (ready.mono hg) service text given eligible (held.mono hg)
  | lockStock line rest done ready settled lines written =>
    exact .lockStock line rest done (ready.mono hg) (settled.mono hg) lines written
  | writeStock line rest done ready settled lines written =>
    exact .writeStock line rest done (ready.mono hg) (settled.mono hg) lines written
  | lockNumbers ready settled written =>
    exact .lockNumbers (ready.mono hg) (settled.mono hg) written
  | readNumber day ready settled written number =>
    exact .readNumber day (ready.mono hg) (settled.mono hg) written (hg.locks _ number)
  | insertOrder n ready settled written number counter =>
    exact .insertOrder n (ready.mono hg) (settled.mono hg) written (hg.locks _ number) counter
  | insertItems o ready settled inserting written =>
    exact .insertItems o (ready.mono hg) (settled.mono hg) (inserting.mono hg) written
  | updateCoupon o ready settled inserting written =>
    exact .updateCoupon o (ready.mono hg) (settled.mono hg) (inserting.mono hg) written
  | insertRedemption o c d ready settled inserting accepted written =>
    exact .insertRedemption o c d (ready.mono hg) (settled.mono hg) (inserting.mono hg) accepted
      written
  | existing o unwritten found => exact .existing o unwritten found
  | commit o ready settled inserting written =>
    exact .commit o (ready.mono hg) (settled.mono hg) (inserting.mono hg) written

theorem SessionInv.mono {t : Txn} (h : SessionInv call i g t) (hg : Unhindered i g g')
    (hb : g.tables.Before g'.tables) : SessionInv call i g' t := by
  cases h with
  | start phase unwritten => exact .start phase unwritten
  | reading s snapshot before standing =>
    exact .reading s snapshot (before.trans hb) (standing.mono hg)
  | ended ended => exact .ended ended

end Keeps

/-! The commit. -/

section Commit
variable {call : Call} {i j : ι} {g g' : Shared ι} {s : Tables} {t : Txn}
  {choice : Option (Coupon × Decimal)} {o : Order}

/-- A commit that places an order. -/
structure Places (call : Call) (i : ι) (g : Shared ι) (s : Tables)
    (choice : Option (Coupon × Decimal)) (o : Order) : Prop where
  before : s.Before g.tables
  ready : Ready call i g s
  settled : Settled call i g s choice
  inserting : Inserting call i g s choice o

/-- A session commits the order that already has its key, or one that it places. -/
theorem SessionInv.commits (h : SessionInv call i g t) (hp : t.phase = .commit o) :
    (t.writes = [] ∧ Table.find Order.idempotencyKey call.key g.tables.store.orders = some o) ∨
      ∃ s, Places call i g s t.coupon o ∧ t.writes = call.writes s.store t.coupon o := by
  cases h with
  | start phase unwritten =>
    rw [hp] at phase
    rcases phase with h | h <;> cases h
  | reading s snapshot before standing =>
    rw [hp] at standing
    cases standing with
    | existing o unwritten found =>
      obtain ⟨later, horders, -⟩ := before.orders
      refine Or.inl ⟨unwritten, ?_⟩
      rw [horders, Table.find, List.find?_append]
      exact Option.or_eq_some_iff.mpr (Or.inl found)
    | commit o ready settled inserting written =>
      exact Or.inr ⟨s, ⟨before, ready, settled, inserting⟩, written⟩
  | ended ended =>
    rw [Txn.active, hp] at ended
    cases ended

theorem Places.key (h : Places call i g s choice o) : o.idempotencyKey = call.key := by
  obtain ⟨phone, -, hrow⟩ := h.inserting.row
  rw [hrow]
  rfl

/-- The number is the next one of the committed orders too. -/
theorem Places.counter (h : Places call i g s choice o) :
    o.orderNumber.counter = nextCounter g.tables.store.orders o.orderNumber.day := by
  obtain ⟨phone, hcheck, -⟩ := h.inserting.row
  have hnumber : o.orderNumber =
      ⟨o.orderNumber.day, nextCounter s.store.orders o.orderNumber.day⟩ := by
    rw [← h.inserting.counter]
  have hnext := h.before.orders.nextCounter_eq fun o' ho' =>
    hnumber ▸ ((insertOrderCheck_eq_ok hcheck).2 o' ho').1
  rw [hnext]
  exact h.inserting.counter

theorem Places.sameRow (h : Places call i g s choice o) {l : Uuid × ℕ} (hl : l ∈ call.lines) :
    SameRow s.store g.tables.store l.1 := by
  obtain ⟨row, hfind, -⟩ := hasStock_of_priceLines (price_eq_ok h.ready.priced).2 l hl
  have hp := (mem_productIds call l.1).mpr (List.mem_map_of_mem hl)
  rw [find_products hp] at hfind
  exact ⟨row, hfind, (h.before.products.same l.1 (h.ready.held l.1 hp).current).symm.trans hfind⟩

theorem Places.before_commit (h : Places call i g s choice o) (hg : DistinctIds g) :
    g.tables.Before (g.tables.commit (call.writes s.store choice o)) :=
  Checkout.before_commit hg.products (fun _ hl => h.sameRow hl) h.counter

/-- What the commit leaves is what the checkout does alone. -/
theorem Places.alone (h : Places call i g s choice o) (hg : DistinctIds g) :
    ∃ now, call.alone ⟨now, o.orderNumber.day⟩ o.id g.tables.store =
      ((g.tables.commit (call.writes s.store choice o)).store, .ok o) := by
  obtain ⟨phone, hcheck, hrow⟩ := h.inserting.row
  obtain ⟨now, hchosen⟩ := h.settled.chosen
  exact ⟨now, alone_of_current h.before hg.products hg.coupons h.ready.priced
    (fun p hp => (h.ready.held p hp).current) hchosen (fun c d hc => (h.settled.held c d hc).current)
    hcheck hrow h.counter⟩

/-- The commit leaves the other sessions what they have locked. -/
theorem Places.unhindered (h : Places call i g s choice o) (hj : j ≠ i)
    (ht : g'.tables = g.tables.commit (call.writes s.store choice o))
    (hg : DistinctIds g) (hl : ∀ r, g.locks r = some j → g'.locks r = some j) :
    Unhindered j g g' where
  locks := hl
  products p hp := by
    have hother : ¬ ∃ w ∈ call.writes s.store choice o, w.productId = some p := by
      rw [productWritten_iff, ← mem_productIds]
      intro hmem
      rw [(h.ready.held p hmem).locked] at hp
      exact hj (Option.some.inj hp).symm
    rw [ht]
    simp only [Tables.commit, if_neg hother, Nat.add_zero]
  coupons c hc := by
    have hother : ¬ ∃ w ∈ call.writes s.store choice o, w.couponId = some c := by
      rw [couponWritten_iff]
      rintro ⟨r, hr, rfl⟩
      rw [(h.settled.held r.1 r.2 hr).locked] at hc
      exact hj (Option.some.inj hc).symm
    rw [ht]
    simp only [Tables.commit, if_neg hother, Nat.add_zero]
  orders := by
    have hstore : (g.tables.commit (call.writes s.store choice o)).store = redeem choice call.user
        o.id { takeLines call.lines g.tables.store with
          orders := g.tables.store.orders ++ [o] } :=
      foldl_writes hg.products fun _ hl => h.sameRow hl
    refine ⟨[o], by rw [ht, hstore, redeem_orders], fun o' ho' => ?_⟩
    rw [List.mem_singleton.mp ho', h.inserting.number, h.key, h.inserting.key]
    exact ⟨fun he => hj (Option.some.inj he).symm, fun he => hj (Option.some.inj he).symm⟩

end Commit

/-! One statement of the session itself. -/

section Statement
variable [DecidableEq ι] {call : Call} {i : ι} {g g' : Shared ι} {s : Tables} {t t' : Txn}

theorem sessionInv_raise {e : Exn} : SessionInv call i g' (raise i e g t).2 := by
  unfold raise
  split_ifs
  · exact .start (Or.inl rfl) rfl
  · exact .ended rfl

theorem sessionInv_of_raise {e : Exn} (h : some (raise i e g t) = some (g', t')) :
    SessionInv call i g' t' := by
  rw [← show (raise i e g t).2 = t' from congrArg Prod.snd (Option.some.inj h)]
  exact sessionInv_raise

theorem unhindered_locked {r : Resource} {locks : Locks Resource ι}
    (hl : g.locks.acquire r i = some locks) : Unhindered i g { g with locks := locks } :=
  unhindered_of_tables rfl fun _ hr => Locks.acquire_own hl hr

theorem lockRow_sessionInv {r : Resource} {seen current : ℕ}
    {next : Shared ι → Shared ι × Txn}
    (h : lockRow i r seen current g t next = some (g', t'))
    (hnext : ∀ locks, g.locks.acquire r i = some locks → seen = current →
      SessionInv call i (next { g with locks := locks }).1 (next { g with locks := locks }).2) :
    SessionInv call i g' t' := by
  obtain ⟨locks, hl, ⟨hv, h⟩ | ⟨-, h⟩⟩ := lockRow_eq_some h
  · have hn := hnext locks hl hv
    rw [h] at hn
    exact hn
  · exact sessionInv_of_raise (congrArg some h)

omit [DecidableEq ι] in
/-- Once the coupon is settled the lines are taken from stock. -/
theorem standing_nextLine {writes : List Write} {choice : Option (Coupon × Decimal)}
    (done : List (Uuid × ℕ)) {rest : List (Uuid × ℕ)} (ready : Ready call i g s) (settled : Settled call i g s choice)
    (lines : call.lines = done ++ rest) (written : writes = stockWrites s.store done) :
    Standing call i g s writes choice (nextLine rest) := by
  cases rest with
  | nil =>
    rw [List.append_nil] at lines
    exact .lockNumbers ready settled (lines ▸ written)
  | cons line rest => exact .lockStock line rest done ready settled lines written

omit [DecidableEq ι] in
/-- What the session sees after taking some of the lines. -/
theorem view_takeLines {done rest : List (Uuid × ℕ)} (before : s.Before g.tables)
    (hg : DistinctIds g) (ready : Ready call i g s) (lines : call.lines = done ++ rest)
    (written : t.writes = stockWrites s.store done) : t.view s = takeLines done s.store := by
  have hkeys : (call.lines.map Prod.fst).Nodup := requestedByProduct_nodup _
  rw [lines, List.map_append, List.nodup_append] at hkeys
  have hids : (s.store.products.map Product.id).Nodup := before.productIds ▸ hg.products
  rw [Txn.view, written]
  refine foldl_stockWrites hkeys.1 hids fun l hl => ?_
  have hmem : l ∈ call.lines := lines ▸ List.mem_append_left _ hl
  obtain ⟨row, hfind, -⟩ := hasStock_of_priceLines (price_eq_ok ready.priced).2 l hmem
  rw [find_products ((mem_productIds call l.1).mpr (List.mem_map_of_mem hmem))] at hfind
  exact ⟨row, hfind, hfind⟩

omit [DecidableEq ι] in
theorem ready_of_price {items : List ItemData} (h : call.price s.store = .ok items)
    (held : ∀ p ∈ call.productIds,
      Table.find Product.id p s.store.products = none ∨ RowHeld i g s p) : Ready call i g s := by
  refine ⟨by rw [items_of_price h]; exact h, fun p hp => (held p hp).resolve_left fun hnone => ?_⟩
  obtain ⟨l, hl, rfl⟩ := List.mem_map.mp ((mem_productIds call p).mp hp)
  obtain ⟨row, hfind, -⟩ := hasStock_of_priceLines (price_eq_ok h).2 l hl
  rw [find_products hp, hnone] at hfind
  cases hfind

/-- The session's own statement keeps its invariant. -/
theorem statement_sessionInv {clock : Clock} {fresh : Uuid} (hg : DistinctIds g)
    (snapshot : t.snapshot = some s) (before : s.Before g.tables)
    (standing : Standing call i g s t.writes t.coupon t.phase)
    (h : statement call i clock fresh s g t = some (g', t')) : SessionInv call i g' t' := by
  unfold statement at h
  generalize hp : t.phase = phase at standing
  cases standing with
  | lockProducts todo unwritten held =>
    cases todo with
    | nil =>
      simp only [hp] at h
      cases h
      exact .reading s snapshot before (.priceItems unwritten fun q hq =>
        (held q hq).resolve_left List.not_mem_nil)
    | cons p rest =>
      simp only [hp] at h
      cases hf : Table.find Product.id p s.store.products with
      | none =>
        simp only [hf] at h
        cases h
        refine .reading s snapshot before (.lockProducts rest unwritten fun q hq => ?_)
        rcases held q hq with htodo | hheld
        · rcases List.mem_cons.mp htodo with rfl | hrest
          · exact Or.inr (Or.inl hf)
          · exact Or.inl hrest
        · exact Or.inr hheld
      | some row =>
        simp only [hf] at h
        refine lockRow_sessionInv h fun locks hl hv => ?_
        refine .reading s snapshot before (.lockProducts rest unwritten fun q hq => ?_)
        rcases held q hq with htodo | hnone | hheld
        · rcases List.mem_cons.mp htodo with rfl | hrest
          · exact Or.inr (Or.inr ⟨Locks.acquire_self hl, hv⟩)
          · exact Or.inl hrest
        · exact Or.inr (Or.inl hnone)
        · exact Or.inr (Or.inr (hheld.mono (unhindered_locked hl)))
  | priceItems unwritten held =>
    simp only [hp] at h
    cases hprice : call.price s.store with
    | error e =>
      simp only [hprice] at h
      exact sessionInv_of_raise h
    | ok items =>
      simp only [hprice] at h
      have ready := ready_of_price hprice held
      cases hcode : call.data.couponCode with
      | none =>
        simp only [hcode] at h
        cases h
        have settled : Settled call i g s none :=
          ⟨⟨0, .none hcode⟩, fun c d hc => by cases hc⟩
        exact .reading s snapshot before (standing_nextLine [] ready settled rfl unwritten)
      | some text =>
        simp only [hcode] at h
        split_ifs at h with hservice
        · cases h
          exact .reading s snapshot before (.lockCoupon unwritten ready hservice text hcode)
        · exact sessionInv_of_raise h
  | lockCoupon unwritten ready service text given =>
    simp only [hp] at h
    cases hf : Table.find Coupon.code (call.data.couponCode.getD "") s.store.coupons with
    | none =>
      simp only [hf] at h
      exact sessionInv_of_raise h
    | some coupon =>
      simp only [hf] at h
      refine lockRow_sessionInv h fun locks hl hv => ?_
      cases he : checkEligibility (some coupon) (call.subtotal s.store) clock.now with
      | error e => exact sessionInv_raise
      | ok c =>
        obtain ⟨hc, -⟩ := checkEligibility_eq_ok he
        obtain rfl := Option.some.inj hc
        rw [given, Option.getD_some] at hf
        refine .reading s snapshot before (.countRedemptions coupon unwritten
          (ready.mono (unhindered_locked hl)) service text given ⟨clock.now, hf ▸ he⟩ ?_)
        exact ⟨Locks.acquire_self hl, hv⟩
  | countRedemptions coupon unwritten ready service text given eligible held =>
    simp only [hp] at h
    split_ifs at h
    · exact sessionInv_of_raise h
    · cases hc : checkPerUser coupon (call.user.map (·.id))
          (userRedemptions s.store.redemptions coupon.id) with
      | error e =>
        simp only [hc] at h
        exact sessionInv_of_raise h
      | ok u =>
        simp only [hc] at h
        cases h
        obtain ⟨now, heligible⟩ := eligible
        have settled : Settled call i g s
            (some (coupon, computeDiscount coupon (call.subtotal s.store))) :=
          ⟨⟨now, .some text coupon service given heligible hc⟩, fun c d hcd => by cases hcd; exact held⟩
        exact .reading s snapshot before (standing_nextLine [] ready settled rfl unwritten)
  | lockStock line rest done ready settled lines written =>
    simp only [hp] at h
    cases hf : Table.find Product.id line.1 (t.view s).products with
    | none =>
      simp only [hf] at h
      exact sessionInv_of_raise h
    | some product =>
      simp only [hf] at h
      refine lockRow_sessionInv h fun locks hl _ => ?_
      split_ifs
      · exact sessionInv_raise
      · exact .reading s snapshot before (.writeStock line rest done
          (ready.mono (unhindered_locked hl)) (settled.mono (unhindered_locked hl)) lines written)
  | writeStock line rest done ready settled lines written =>
    simp only [hp] at h
    rw [view_takeLines before hg ready lines written] at h
    have hkeys : (call.lines.map Prod.fst).Nodup := requestedByProduct_nodup _
    have hnew : line.1 ∉ done.map Prod.fst := by
      rw [lines, List.map_append, List.nodup_append] at hkeys
      exact fun hmem => hkeys.2.2 _ hmem _ List.mem_cons_self rfl
    rw [find_takeLines hnew] at h
    cases hf : Table.find Product.id line.1 s.store.products with
    | none =>
      simp only [hf] at h
      exact sessionInv_of_raise h
    | some product =>
      simp only [hf] at h
      cases h
      refine .reading s snapshot before (standing_nextLine (done ++ [line]) ready settled
        (by rw [lines, List.append_assoc]; rfl) ?_)
      have hstock : stockOf s.store line.1 = product.stockQuantity := by rw [stockOf, hf]; rfl
      rw [written, stockWrites, stockWrites, List.map_append, ← hstock]
      rfl
  | lockNumbers ready settled written =>
    simp only [hp] at h
    split_ifs at h
    · exact sessionInv_of_raise h
    · obtain ⟨locks, hl, h⟩ := Option.map_eq_some_iff.mp h
      cases h
      exact .reading s snapshot before (.readNumber clock.day (ready.mono (unhindered_locked hl))
        (settled.mono (unhindered_locked hl)) written (Locks.acquire_self hl))
  | readNumber day ready settled written number =>
    simp only [hp] at h
    rw [view_takeLines before hg ready (List.append_nil _).symm written] at h
    cases h
    exact .reading s snapshot before (.insertOrder _ ready settled written number rfl)
  | insertOrder n ready settled written number counter =>
    simp only [hp] at h
    obtain ⟨locks, hl, h⟩ := Option.map_eq_some_iff.mp h
    cases hi : insertOrderCheck g.tables.store.orders (call.orderData s.store t.coupon) n with
    | error e =>
      simp only [hi] at h
      exact sessionInv_of_raise (congrArg some h)
    | ok phone =>
      simp only [hi] at h
      cases h
      have hlocked := unhindered_locked hl
      refine .reading s snapshot before (.insertItems _ (ready.mono hlocked) (settled.mono hlocked)
        ⟨⟨phone, hi, rfl⟩, counter, hlocked.locks _ number, Locks.acquire_self hl⟩ ?_)
      rw [← written]
  | insertItems o ready settled inserting written =>
    simp only [hp] at h
    cases hc : t.coupon with
    | none =>
      rw [hc] at h settled inserting
      cases h
      refine .reading s snapshot before (.commit o ready settled inserting ?_)
      show t.writes = call.writes s.store none o
      rw [written, Call.writes, couponWrites, List.append_nil]
    | some c =>
      rw [hc] at h settled inserting
      cases h
      exact .reading s snapshot before (.updateCoupon o ready settled inserting written)
  | updateCoupon o ready settled inserting written =>
    simp only [hp] at h
    cases hc : t.coupon with
    | none => simp [hc] at h
    | some r =>
      obtain ⟨c, d⟩ := r
      rw [hc] at h settled inserting
      cases h
      refine .reading s snapshot before (.insertRedemption o c d ready settled inserting rfl ?_)
      rw [← written]
  | insertRedemption o c d ready settled inserting accepted written =>
    simp only [hp] at h
    rw [accepted] at h settled inserting
    cases h
    refine .reading s snapshot before (.commit o ready settled inserting ?_)
    show t.writes ++ _ = call.writes s.store (some (c, d)) o
    rw [written, Call.writes, couponWrites, List.append_assoc _ [_] [_]]
    rfl
  | existing o unwritten found =>
    simp only [hp] at h
    cases h
    exact .ended rfl
  | commit o ready settled inserting written =>
    simp only [hp] at h
    cases h
    exact .ended rfl

/-! Only a commit commits. -/

/-- A session whose request has not just been committed. -/
def Uncommitted (t : Txn) : Prop := ∀ o, t.phase ≠ .committed o

theorem raise_uncommitted {e : Exn} : Uncommitted (raise i e g t).2 := by
  unfold raise
  split_ifs <;> exact fun o ho => by cases ho

theorem uncommitted_of_raise {e : Exn} (h : some (raise i e g t) = some (g', t')) :
    Uncommitted t' := by
  rw [← show (raise i e g t).2 = t' from congrArg Prod.snd (Option.some.inj h)]
  exact raise_uncommitted

theorem nextLine_uncommitted (lines : List (Uuid × ℕ)) (o : Order) :
    nextLine lines ≠ .committed o := by
  cases lines <;> exact fun h => by cases h

theorem lockRow_uncommitted {r : Resource} {seen current : ℕ} {next : Shared ι → Shared ι × Txn}
    (h : lockRow i r seen current g t next = some (g', t'))
    (hnext : ∀ g, Uncommitted (next g).2) : Uncommitted t' := by
  obtain ⟨locks, hl, ⟨-, h⟩ | ⟨-, h⟩⟩ := lockRow_eq_some h
  · rw [← show (next { g with locks := locks }).2 = t' from congrArg Prod.snd h]
    exact hnext _
  · exact uncommitted_of_raise (congrArg some h)

theorem statement_uncommitted {clock : Clock} {fresh : Uuid}
    (h : statement call i clock fresh s g t = some (g', t')) (hp : ∀ o, t.phase ≠ .commit o) :
    Uncommitted t' := by
  unfold statement at h
  split at h
  · cases h; exact fun o ho => by cases ho
  · split at h
    · cases h; exact fun o ho => by cases ho
    · exact lockRow_uncommitted h fun g o ho => by cases ho
  · split at h
    · exact uncommitted_of_raise h
    · split at h
      · cases h; exact nextLine_uncommitted call.lines
      · split_ifs at h
        · cases h; exact fun o ho => by cases ho
        · exact uncommitted_of_raise h
  · split at h
    · exact uncommitted_of_raise h
    · refine lockRow_uncommitted h fun g => ?_
      split
      · exact raise_uncommitted
      · exact fun o ho => by cases ho
  · split_ifs at h
    · exact uncommitted_of_raise h
    · split at h
      · exact uncommitted_of_raise h
      · cases h; exact nextLine_uncommitted call.lines
  · split at h
    · exact uncommitted_of_raise h
    · refine lockRow_uncommitted h fun g => ?_
      split_ifs
      · exact raise_uncommitted
      · exact fun o ho => by cases ho
  · split at h
    · exact uncommitted_of_raise h
    · cases h; exact nextLine_uncommitted _
  · split_ifs at h
    · exact uncommitted_of_raise h
    · obtain ⟨locks, -, h⟩ := Option.map_eq_some_iff.mp h
      cases h; exact fun o ho => by cases ho
  · cases h; exact fun o ho => by cases ho
  · obtain ⟨locks, -, h⟩ := Option.map_eq_some_iff.mp h
    dsimp only at h
    split at h
    · exact uncommitted_of_raise (congrArg some h)
    · cases h; exact fun o ho => by cases ho
  · split at h <;> cases h <;> exact fun o ho => by cases ho
  · split at h <;> cases h
    exact fun o ho => by cases ho
  · split at h <;> cases h
    exact fun o ho => by cases ho
  · rename_i o hcommit
    exact absurd hcommit (hp o)
  · cases h

end Statement

/-! Any event. -/

section Events
variable [DecidableEq ι] {lateIsolation : Bool} {calls : ι → Call} {i j : ι} {g g' : Shared ι}
  {t t' : Txn} {e : Event}

theorem step_sessionInv (hg : DistinctIds g) (ht : SessionInv (calls i) i g t)
    (h : step lateIsolation calls i g t e = some (g', t')) : SessionInv (calls i) i g' t' := by
  unfold step at h
  cases e with
  | statement clock fresh =>
    cases ht with
    | start phase unwritten =>
      rcases phase with hp | hp
      · simp only [hp] at h
        split_ifs at h
        · exact sessionInv_of_raise h
        · cases h
          exact .start (Or.inr rfl) unwritten
      · simp only [hp] at h
        cases hf : Table.find Order.idempotencyKey (calls i).key g.tables.store.orders with
        | none =>
          simp only [hf] at h
          cases h
          exact .reading g.tables rfl (.refl _)
            (.lockProducts _ unwritten fun p hp => Or.inl (((calls i).mem_rowOrder _).mpr hp))
        | some o =>
          simp only [hf] at h
          cases h
          exact .reading g.tables rfl (.refl _) (.existing o unwritten hf)
    | reading s snapshot before standing =>
      cases hp : t.phase with
      | setIsolation => rw [hp] at standing; cases standing
      | findKey => rw [hp] at standing; cases standing
      | _ =>
        simp only [hp, snapshot] at h
        exact statement_sessionInv hg snapshot before standing h
    | ended ended =>
      rw [Txn.active] at ended
      cases hp : t.phase with
      | committed o => cases hs : t.snapshot <;> simp [hp, hs, statement] at h
      | failed e => cases hs : t.snapshot <;> simp [hp, hs, statement] at h
      | _ => simp [hp] at ended
  | serializationFailure =>
    cases hp : t.phase with
    | committed o => simp [hp] at h
    | failed e => simp [hp] at h
    | commit o =>
      simp only [hp] at h
      cases h
      exact .ended rfl
    | _ =>
      simp only [hp] at h
      exact sessionInv_of_raise h
  | fault e =>
    cases hp : t.phase with
    | committed o => simp [hp] at h
    | failed e => simp [hp] at h
    | _ =>
      simp only [hp] at h
      cases h
      exact .ended rfl

/-- An event commits the order of a session at its commit, or it commits nothing. -/
theorem step_committed (h : step lateIsolation calls i g t e = some (g', t')) :
    (∃ o, t.phase = .commit o ∧ t'.phase = .committed o ∧
      g'.tables = g.tables.commit t.writes) ∨ (g'.tables = g.tables ∧ Uncommitted t') := by
  unfold step at h
  cases e with
  | statement clock fresh =>
    cases hp : t.phase with
    | setIsolation =>
      simp only [hp] at h
      split_ifs at h
      · have htables : (raise i (.dbapi "25001") g t).1 = g' := congrArg Prod.fst (Option.some.inj h)
        exact Or.inr ⟨htables ▸ rfl, uncommitted_of_raise h⟩
      · cases h
        exact Or.inr ⟨rfl, fun o ho => by cases ho⟩
    | findKey =>
      simp only [hp] at h
      split at h <;> cases h <;> exact Or.inr ⟨rfl, fun o ho => by cases ho⟩
    | commit o =>
      cases hs : t.snapshot with
      | none => simp [hp, hs] at h
      | some s =>
        simp only [hp, hs, statement] at h
        cases h
        exact Or.inl ⟨o, rfl, rfl, rfl⟩
    | _ =>
      cases hs : t.snapshot with
      | none => simp [hp, hs] at h
      | some s =>
        simp only [hp, hs] at h
        have hopen : ∀ o, t.phase ≠ .commit o := fun o ho => by rw [hp] at ho; cases ho
        obtain ⟨htables | ⟨o, ho, -⟩, -⟩ := statement_shared h
        · exact Or.inr ⟨htables, statement_uncommitted h hopen⟩
        · exact absurd ho (hopen o)
  | serializationFailure =>
    cases hp : t.phase with
    | committed o => simp [hp] at h
    | failed e => simp [hp] at h
    | commit o =>
      simp only [hp] at h
      cases h
      exact Or.inr ⟨rfl, fun o ho => by cases ho⟩
    | _ =>
      simp only [hp] at h
      have htables : (raise i serializationFailure g t).1 = g' :=
        congrArg Prod.fst (Option.some.inj h)
      exact Or.inr ⟨htables ▸ rfl, uncommitted_of_raise h⟩
  | fault e =>
    cases hp : t.phase with
    | committed o => simp [hp] at h
    | failed e => simp [hp] at h
    | _ =>
      simp only [hp] at h
      cases h
      exact Or.inr ⟨rfl, fun o ho => by cases ho⟩

theorem step_before (hg : DistinctIds g) (ht : SessionInv (calls i) i g t)
    (h : step lateIsolation calls i g t e = some (g', t')) : g.tables.Before g'.tables := by
  rcases step_committed h with ⟨o, hp, -, htables⟩ | ⟨htables, -⟩
  · rw [htables]
    rcases ht.commits hp with ⟨hw, -⟩ | ⟨s, places, hw⟩
    · rw [hw, commit_nil]
      exact .refl _
    · rw [hw]
      exact places.before_commit hg
  · rw [htables]
    exact .refl _

omit [DecidableEq ι] in
theorem DistinctIds.mono (h : DistinctIds g) (hb : g.tables.Before g'.tables) : DistinctIds g' := by
  have hcoupons := congrArg (List.map Prod.fst) hb.couponCodes
  rw [List.map_map, List.map_map] at hcoupons
  exact ⟨hb.productIds ▸ h.products, hcoupons ▸ h.coupons⟩

/-- Another session's event leaves a session its locks, and what it has read under them. -/
theorem sessionInv_other (hg : DistinctIds g) (hj : j ≠ i) {tj : Txn}
    (htj : SessionInv (calls j) j g tj) (ht : SessionInv (calls i) i g t)
    (h : step lateIsolation calls i g t e = some (g', t')) : SessionInv (calls j) j g' tj := by
  have hlocks : ∀ r, g.locks r = some j → g'.locks r = some j := fun r hr =>
    ((step_shared h).locks j hj r).mpr hr
  refine htj.mono ?_ (step_before hg ht h)
  rcases step_committed h with ⟨o, hp, -, htables⟩ | ⟨htables, -⟩
  · rcases ht.commits hp with ⟨hw, -⟩ | ⟨s, places, hw⟩
    · rw [hw, commit_nil] at htables
      exact unhindered_of_tables htables hlocks
    · rw [hw] at htables
      exact places.unhindered hj htables hg hlocks
  · exact unhindered_of_tables htables hlocks

omit [DecidableEq ι] in
theorem serveNext_eq_some {s u : Store} {v : Served ι}
    (h : (calls v.session).alone v.clock v.order.id s = (u, .ok v.order)) :
    serveNext calls s v = some u := by
  simp [serveNext, h]

/-- A commit is the next checkout of a serial run. -/
theorem step_serial (hg : DistinctIds g) (ht : SessionInv (calls i) i g t)
    (h : step lateIsolation calls i g t e = some (g', t')) :
    (g'.tables = g.tables ∧ Uncommitted t') ∨ ∃ clock o, t'.phase = .committed o ∧
      serveNext calls g.tables.store ⟨i, clock, o⟩ = some g'.tables.store := by
  rcases step_committed h with ⟨o, hp, hcommitted, htables⟩ | hnone
  · rw [htables]
    rcases ht.commits hp with ⟨hw, hfound⟩ | ⟨s, places, hw⟩
    · refine Or.inr ⟨⟨0, 0⟩, o, hcommitted, serveNext_eq_some ?_⟩
      rw [hw, commit_nil]
      exact alone_existing hfound _ _
    · obtain ⟨now, halone⟩ := places.alone hg
      refine Or.inr ⟨⟨now, o.orderNumber.day⟩, o, hcommitted, serveNext_eq_some ?_⟩
      rw [hw]
      exact halone
  · exact Or.inl hnone

/-- A request that has ended takes no more events. -/
theorem active_of_step (h : step lateIsolation calls i g t e = some (g', t')) :
    t.active = true := by
  rw [Txn.active]
  cases hp : t.phase with
  | committed o => cases e <;> cases hs : t.snapshot <;> simp [step, statement, hp, hs] at h
  | failed e' => cases e <;> cases hs : t.snapshot <;> simp [step, statement, hp, hs] at h
  | _ => rfl

/-- The sessions with the committed tables. -/
def Consistent (calls : ι → Call) (c : Threads ι (Shared ι) Txn) : Prop :=
  ThreadInv DistinctIds (fun i g t => SessionInv (calls i) i g t) c

theorem consistent_step {c c' : Threads ι (Shared ι) Txn} (hc : Consistent calls c)
    (h : interleave (step lateIsolation calls) c (i, e) = some c') : Consistent calls c' := by
  have hone : exec (interleave (step lateIsolation calls)) c [(i, e)] = some c' :=
    exec_cons.mpr ⟨c', h, rfl⟩
  refine threadInv_exec ?_ ?_ hc hone
  · intro c i e g' t' hc hst
    exact ⟨hc.shared.mono (step_before hc.shared (hc.thread i) hst),
      step_sessionInv hc.shared (hc.thread i) hst⟩
  · intro c i j e g' t' hc hj hst
    exact sessionInv_other hc.shared hj (hc.thread j) (hc.thread i) hst

/-- The session has committed. -/
def Txn.hasCommitted (t : Txn) : Bool :=
  match t.phase with
  | .committed _ => true
  | _ => false

/-- The sessions that commit in a run, in the order of their commits. -/
def commitOrder (lateIsolation : Bool) (calls : ι → Call) :
    Threads ι (Shared ι) Txn → List (ι × Event) → List ι
  | _, [] => []
  | c, e :: events =>
    match interleave (step lateIsolation calls) c e with
    | none => []
    | some c' =>
      (if (c'.thread e.1).hasCommitted then [e.1] else []) ++ commitOrder lateIsolation calls c' events

omit [DecidableEq ι] in
theorem hasCommitted_of_phase {o : Order} (h : t.phase = .committed o) : t.hasCommitted = true := by
  rw [Txn.hasCommitted, h]

omit [DecidableEq ι] in
theorem hasCommitted_of_uncommitted (h : Uncommitted t) : t.hasCommitted = false := by
  unfold Txn.hasCommitted
  split
  case h_1 o ho => exact absurd ho (h o)
  case h_2 => rfl

theorem commitOrder_cons {c c' : Threads ι (Shared ι) Txn}
    (h : interleave (step lateIsolation calls) c (i, e) = some c') (events : List (ι × Event)) :
    commitOrder lateIsolation calls c ((i, e) :: events) =
      (if (c'.thread i).hasCommitted then [i] else []) ++
        commitOrder lateIsolation calls c' events := by
  rw [commitOrder, h]

/-- The commits of a run, one after the other, are a serial run of the sessions' checkouts. -/
structure CommitsInOrder (calls : ι → Call) (c c' : Threads ι (Shared ι) Txn)
    (served : List (Served ι)) : Prop where
  tables : exec (serveNext calls) c.shared.tables.store served = some c'.shared.tables.store
  once : (served.map Served.session).Nodup
  active : ∀ v ∈ served, (c.thread v.session).active = true
  committed : ∀ i o, (c'.thread i).phase = .committed o ↔
    (c.thread i).phase = .committed o ∨ ∃ v ∈ served, v.session = i ∧ v.order = o

omit [DecidableEq ι] in
theorem not_committed_of_active (h : t.active = true) : Uncommitted t := by
  intro o ho
  rw [Txn.active, ho] at h
  cases h

/-- The run lemma. -/
theorem exists_commitsInOrder {c c' : Threads ι (Shared ι) Txn} {events : List (ι × Event)}
    (hc : Consistent calls c)
    (h : exec (interleave (step lateIsolation calls)) c events = some c') :
    ∃ served, CommitsInOrder calls c c' served ∧
      served.map Served.session = commitOrder lateIsolation calls c events := by
  induction events generalizing c with
  | nil =>
    cases h
    refine ⟨[], ⟨rfl, List.nodup_nil, fun v hv => ?_, fun i o => ?_⟩, rfl⟩
    · cases hv
    · simp
  | cons e events ih =>
    obtain ⟨c₁, h₁, hrest⟩ := exec_cons.mp h
    obtain ⟨i, a⟩ := e
    obtain ⟨served, hserved, horder⟩ := ih (consistent_step hc h₁) hrest
    rw [commitOrder_cons h₁, ← horder]
    obtain ⟨g', t', hst, rfl⟩ := interleave_eq_some.mp h₁
    simp only [Function.update_self]
    have hactive := active_of_step hst
    have hother : ∀ v ∈ served, (c.thread v.session).active = true := by
      intro v hv
      by_cases hi : v.session = i
      · rw [hi]
        exact hactive
      · have hstill := hserved.active v hv
        dsimp only at hstill
        rwa [Function.update_of_ne hi] at hstill
    have htables := hserved.tables
    rcases step_serial hc.shared (hc.thread i) hst with ⟨hsame, hopen⟩ | ⟨clock, o, hdone, hnext⟩
    · rw [hsame] at htables
      refine ⟨served, ⟨htables, hserved.once, hother, fun k o => ?_⟩, ?_⟩
      swap
      · rw [hasCommitted_of_uncommitted hopen]
        rfl
      rw [hserved.committed]
      dsimp only
      by_cases hk : k = i
      · subst hk
        rw [Function.update_self]
        rw [iff_false_intro (hopen o), iff_false_intro (not_committed_of_active hactive o)]
      · rw [Function.update_of_ne hk]
    · have hnew : i ∉ served.map Served.session := by
        intro hmem
        obtain ⟨v, hv, rfl⟩ := List.mem_map.mp hmem
        have hstill := hserved.active v hv
        dsimp only at hstill
        rw [Function.update_self] at hstill
        exact not_committed_of_active hstill o hdone
      refine ⟨⟨i, clock, o⟩ :: served, ⟨exec_cons.mpr ⟨_, hnext, htables⟩,
        List.nodup_cons.mpr ⟨hnew, hserved.once⟩, fun v hv => ?_, fun k o' => ?_⟩, ?_⟩
      · rcases List.mem_cons.mp hv with rfl | hv
        · exact hactive
        · exact hother v hv
      · rw [hserved.committed]
        dsimp only
        by_cases hk : k = i
        · subst hk
          have hnone : ¬ ∃ v ∈ served, v.session = k ∧ v.order = o' := by
            rintro ⟨v, hv, rfl, -⟩
            exact hnew (List.mem_map_of_mem hv)
          rw [Function.update_self, hdone, Phase.committed.injEq]
          simp [hnone, not_committed_of_active hactive o']
        · rw [Function.update_of_ne hk]
          simp [Ne.symm hk]
      · rw [hasCommitted_of_phase hdone]
        rfl

end Events

theorem consistent_init [DecidableEq ι] {tables : Tables}
    (products : (tables.store.products.map Product.id).Nodup)
    (coupons : (tables.store.coupons.map Coupon.id).Nodup) : Consistent calls (init ι tables) :=
  ⟨⟨products, coupons⟩, fun _ => .start (Or.inl rfl) rfl⟩

/-- In a run from the start the committed sessions are those of the serial run. -/
theorem CommitsInOrder.committed_iff [DecidableEq ι] {tables : Tables} {c : Threads ι (Shared ι) Txn}
    {served : List (Served ι)} (h : CommitsInOrder calls (init ι tables) c served) (i : ι)
    (o : Order) : (c.thread i).phase = .committed o ↔ ∃ v ∈ served, v.session = i ∧ v.order = o := by
  rw [h.committed]
  exact or_iff_right fun hstart => by cases hstart

end Sessions

/-- Any interleaving of checkouts, whatever their coupons, keys, retries and faults, has the effect
of serving the committed ones alone, one after the other in the order of their commits, and gives
each of them the same order. -/
theorem checkouts_serializable {ι : Type*} [DecidableEq ι] (lateIsolation : Bool)
    (calls : ι → Call) (tables : Tables)
    (products : (tables.store.products.map Product.id).Nodup)
    (coupons : (tables.store.coupons.map Coupon.id).Nodup) {events : List (ι × Event)}
    {c : Threads ι (Shared ι) Txn}
    (h : exec (interleave (step lateIsolation calls)) (init ι tables) events = some c) :
    ∃ served : List (Served ι),
      exec (serveNext calls) tables.store served = some c.shared.tables.store ∧
        served.map Served.session = commitOrder lateIsolation calls (init ι tables) events ∧
        (served.map Served.session).Nodup ∧
        ∀ i o, (c.thread i).phase = .committed o ↔ ∃ v ∈ served, v.session = i ∧ v.order = o := by
  obtain ⟨served, hserved, horder⟩ := exists_commitsInOrder (consistent_init products coupons) h
  exact ⟨served, hserved.tables, horder, hserved.once, hserved.committed_iff⟩

theorem checkouts_serializable_race : ∃ c, exec (interleave (step true couponCalls))
      (init (Fin 2) couponTables) couponRace = some c ∧
    ∃ served : List (Served (Fin 2)),
      exec (serveNext couponCalls) couponTables.store served = some c.shared.tables.store ∧
        served.map Served.session = commitOrder true couponCalls (init (Fin 2) couponTables)
          couponRace ∧
        (served.map Served.session).Nodup ∧
        ∀ i o, (c.thread i).phase = .committed o ↔ ∃ v ∈ served, v.session = i ∧ v.order = o := by
  have hrun : (exec (interleave (step true couponCalls)) (init (Fin 2) couponTables)
      couponRace).isSome := by decide +kernel
  obtain ⟨c, hc⟩ := Option.isSome_iff_exists.mp hrun
  exact ⟨c, hc, checkouts_serializable true couponCalls couponTables (by decide) (by decide) hc⟩

end Qiki.Concurrency.Checkout
