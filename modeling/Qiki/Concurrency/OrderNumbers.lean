import Qiki.Concurrency.Checkout
import Qiki.Orders.StockLedger

/-! Independent concurrent checkouts: when all of them commit, with distinct order numbers. -/
namespace Qiki.Concurrency.Checkout

open Orders Transition

/-- Every requested product exists, is active and has the requested quantity. -/
def Call.Stocked (call : Call) (s : Store) : Prop :=
  ∀ line ∈ call.lines, ∃ product, Table.find Product.id line.1 s.products = some product ∧
    product.isActive ∧ (line.2 : ℤ) ≤ product.stockQuantity

/-- What the columns of `orders` ask of a checkout: a phone, and amounts of `numeric(10,2)`. -/
structure Call.Storable (call : Call) (s : Store) : Prop where
  phone : call.data.customerPhone ≠ none
  subtotal : (call.orderData s none).subtotal < 10 ^ 8
  shippingFee : (call.orderData s none).shippingFee < 10 ^ 8
  totalAmount : (call.orderData s none).totalAmount < 10 ^ 8

/-- Requests that do not touch each other's rows, on tables where each could be served. -/
structure Independent {ι : Type*} (calls : ι → Call) (tables : Tables) : Prop where
  keys : ∀ i j, i ≠ j → (calls i).key ≠ (calls j).key
  products : ∀ i j, i ≠ j → ∀ p ∈ (calls i).productIds, p ∉ (calls j).productIds
  stocked : ∀ i, (calls i).Stocked tables.store
  noCoupon : ∀ i, (calls i).data.couponCode = none
  storable : ∀ i, (calls i).Storable tables.store
  numbers : (tables.store.orders.map Order.orderNumber).Nodup

/-! A request that could be served is priced. -/

theorem checkProducts_ok {products : List Product} {ids : List Uuid}
    (h : ∀ p ∈ ids, ∃ product, Table.find Product.id p products = some product ∧
      product.isActive) : checkProducts products ids = .ok () := by
  induction ids with
  | nil => rfl
  | cons p ids ih =>
    obtain ⟨product, hf, ha⟩ := h p (List.mem_cons_self ..)
    simp only [checkProducts, hf, ha, if_true]
    exact ih fun q hq => h q (List.mem_cons_of_mem _ hq)

theorem priceLines_ok {products : List Product} {exchange : List (Uuid × Bool)}
    {lines : List (Uuid × ℕ)}
    (h : ∀ line ∈ lines, ∃ product, Table.find Product.id line.1 products = some product ∧
      (line.2 : ℤ) ≤ product.stockQuantity) :
    ∃ items, priceLines products exchange lines = .ok items := by
  induction lines with
  | nil => exact ⟨[], rfl⟩
  | cons line lines ih =>
    obtain ⟨product, hf, hq⟩ := h line (List.mem_cons_self ..)
    obtain ⟨items, hitems⟩ := ih fun l hl => h l (List.mem_cons_of_mem _ hl)
    have hline : ∃ item, priceLine products exchange line = .ok item := by
      simp only [priceLine, hf, if_neg (not_lt.mpr hq)]
      exact ⟨_, rfl⟩
    obtain ⟨item, hitem⟩ := hline
    exact ⟨item :: items, by rw [priceLines, hitem, hitems]; rfl⟩

theorem mem_productIds (call : Call) (p : Uuid) :
    p ∈ call.productIds ↔ p ∈ call.lines.map Prod.fst := by
  rw [Call.productIds, productIds, Call.lines, mem_requestedByProduct, List.mem_dedup]

theorem find_products {call : Call} {p : Uuid} (hp : p ∈ call.productIds) (s : Store) :
    Table.find Product.id p (call.products s) = Table.find Product.id p s.products :=
  Table.find_filter_key hp

theorem Call.Stocked.price {call : Call} {s : Store} (h : call.Stocked s) :
    ∃ items, call.price s = .ok items := by
  have hcheck : checkProducts (call.products s) call.productIds = .ok () := by
    refine checkProducts_ok fun p hp => ?_
    obtain ⟨line, hl, rfl⟩ := List.mem_map.mp ((mem_productIds call p).mp hp)
    obtain ⟨product, hf, ha, -⟩ := h line hl
    exact ⟨product, by rw [find_products hp]; exact hf, ha⟩
  have hlines : ∀ line ∈ call.lines, ∃ product,
      Table.find Product.id line.1 (call.products s) = some product ∧
        (line.2 : ℤ) ≤ product.stockQuantity := by
    intro line hl
    obtain ⟨product, hf, -, hq⟩ := h line hl
    have hp := (mem_productIds call line.1).mpr (List.mem_map_of_mem hl)
    exact ⟨product, by rw [find_products hp]; exact hf, hq⟩
  rw [Call.price, hcheck]
  exact priceLines_ok hlines

/-- Prices and order data depend on the rows of the requested products only. -/
theorem price_congr {call : Call} {s s' : Store} (h : call.products s = call.products s') :
    call.price s = call.price s' := by
  rw [Call.price, Call.price, h]

theorem orderData_congr {call : Call} {s s' : Store} (h : call.products s = call.products s')
    (coupon : Option (Coupon × Decimal)) : call.orderData s coupon = call.orderData s' coupon := by
  have hitems : call.items s = call.items s' := by rw [Call.items, Call.items, price_congr h]
  rw [Call.orderData, Call.orderData, Call.subtotal, Call.subtotal, hitems, h]

/-! What a commit of stock and one order changes. -/

/-- Writes to the stock of the request's own products. -/
def OwnStock (call : Call) (ws : List Write) : Prop :=
  ∀ w ∈ ws, ∃ p v, w = .stock p v ∧ p ∈ call.productIds

/-- The rows of the request's products are the same in both tables. -/
structure SameRows (call : Call) (t t' : Tables) : Prop where
  products : call.products t.store = call.products t'.store
  versions : ∀ p ∈ call.productIds, t.productVersion p = t'.productVersion p

theorem foldl_ownStock {call : Call} {ws : List Write} (h : OwnStock call ws) (s : Store) :
    (ws.foldl Write.apply s).orders = s.orders := by
  induction ws generalizing s with
  | nil => rfl
  | cons w ws ih =>
    obtain ⟨p, v, rfl, -⟩ := h w (List.mem_cons_self ..)
    rw [List.foldl_cons, ih fun w' hw' => h w' (List.mem_cons_of_mem _ hw')]
    rfl

/-- The stock of one request's products is not seen by a request without them. -/
theorem products_foldl_ownStock {call call' : Call} {ws : List Write}
    (hdisj : ∀ p ∈ call.productIds, p ∉ call'.productIds) (h : OwnStock call ws) (s : Store) :
    call'.products (ws.foldl Write.apply s) = call'.products s := by
  induction ws generalizing s with
  | nil => rfl
  | cons w ws ih =>
    obtain ⟨p, v, rfl, hp⟩ := h w (List.mem_cons_self ..)
    rw [List.foldl_cons, ih fun w' hw' => h w' (List.mem_cons_of_mem _ hw')]
    have hfilter : (Table.modify Product.id p (fun r : Product => { r with stockQuantity := v })
        s.products).filter (fun r => r.id ∈ call'.productIds) =
          Table.modify Product.id p (fun r : Product => { r with stockQuantity := v })
            (call'.products s) := Table.filter_modify fun r _ => rfl
    have hself : Table.modify Product.id p (fun r : Product => { r with stockQuantity := v })
        (call'.products s) = call'.products s := by
      refine Table.modify_eq_self fun r hr he => hdisj p hp ?_
      rw [← he]
      simpa using (List.mem_filter.mp hr).2
    exact hfilter.trans hself

/-- A commit of one request's stock and order, as another request sees it. -/
theorem sameRows_commit {call call' : Call} {ws : List Write} {o : Order} {t t' : Tables}
    (hdisj : ∀ p ∈ call.productIds, p ∉ call'.productIds) (h : OwnStock call ws)
    (hs : SameRows call' t t') : SameRows call' t (t'.commit (ws ++ [.order o])) := by
  constructor
  · show _ = call'.products ((ws ++ [Write.order o]).foldl Write.apply t'.store)
    rw [List.foldl_append, hs.products, ← products_foldl_ownStock hdisj h t'.store]
    rfl
  · intro p hp
    have hno : ¬ ∃ w ∈ ws ++ [Write.order o], w.productId = some p := by
      rintro ⟨w, hw, hwp⟩
      rcases List.mem_append.mp hw with hw | hw
      · obtain ⟨q, v, rfl, hq⟩ := h w hw
        obtain rfl : q = p := Option.some.inj hwp
        exact hdisj q hq hp
      · rw [List.mem_singleton.mp hw] at hwp
        cases hwp
    simp only [Tables.commit, if_neg hno, Nat.add_zero]
    exact hs.versions p hp

theorem orders_commit {call : Call} {ws : List Write} (h : OwnStock call ws) (o : Order)
    (t : Tables) : (t.commit (ws ++ [.order o])).store.orders = t.store.orders ++ [o] := by
  show ((ws ++ [Write.order o]).foldl Write.apply t.store).orders = _
  rw [List.foldl_append]
  show (ws.foldl Write.apply t.store).orders ++ [o] = _
  rw [foldl_ownStock h]

/-! The statements left to a request. -/

def linesLeft (lines : List (Uuid × ℕ)) : ℕ := 2 * lines.length + 5

/-- The statements left in the attempt of a checkout without a coupon, from this one on. -/
def Phase.left (call : Call) : Phase → ℕ
  | .setIsolation => call.productIds.length + linesLeft call.lines + 4
  | .findKey => call.productIds.length + linesLeft call.lines + 3
  | .lockProducts todo => todo.length + linesLeft call.lines + 2
  | .priceItems => linesLeft call.lines + 1
  | .lockStock _ rest => linesLeft rest + 2
  | .writeStock _ rest => linesLeft rest + 1
  | .lockNumbers => 5
  | .readNumber _ => 4
  | .insertOrder _ => 3
  | .insertItems _ => 2
  | .commit _ => 1
  | _ => 0

/-- One attempt. -/
def Call.attemptLength (call : Call) : ℕ := call.productIds.length + linesLeft call.lines + 4

/-- The events left to a request over its three attempts. -/
def Txn.left (call : Call) (t : Txn) : ℕ :=
  t.phase.left call + (2 - t.attempt) * (call.attemptLength + 1)

theorem nextLine_left (call : Call) (lines : List (Uuid × ℕ)) :
    (nextLine lines).left call = linesLeft lines := by
  cases lines with
  | nil => rfl
  | cons line rest =>
    simp only [nextLine, Phase.left, linesLeft, List.length_cons]
    omega

theorem left_next {call : Call} {t t' : Txn} (ha : t'.attempt = t.attempt)
    (h : t'.phase.left call < t.phase.left call) : t'.left call < t.left call := by
  unfold Txn.left
  rw [ha]
  omega

section Invariant
variable {ι : Type*}

/-- The statements between the advisory lock and the end of the transaction. -/
def Phase.numbering : Phase → Bool
  | .readNumber _ | .insertOrder _ | .insertItems _ | .commit _ => true
  | _ => false

/-- What a request may have locked. -/
def Held (call : Call) (phase : Phase) : Resource → Prop
  | .product p => p ∈ call.productIds
  | .coupon _ => False
  | .numbers _ => phase.numbering
  | .key k => k = call.key

/-- A number that its session has to itself: the day is locked and no order has it. -/
structure Numbered (i : ι) (g : Shared ι) (n : OrderNumber) : Prop where
  locked : g.locks (.numbers n.day) = some i
  fresh : ∀ o ∈ g.tables.store.orders, o.orderNumber ≠ n

/-- The lines still to be taken from stock are untouched in what the session sees. -/
structure LinesOpen (call : Call) (t₀ : Tables) (view : Store) (lines : List (Uuid × ℕ)) :
    Prop where
  keys : (lines.map Prod.fst).Nodup
  requested : ∀ l ∈ lines, l ∈ call.lines
  untouched : ∀ l ∈ lines, Table.find Product.id l.1 view.products =
    Table.find Product.id l.1 t₀.store.products

/-- What the attempt has done when it stands at a statement. -/
def Attempted (call : Call) (i : ι) (t₀ : Tables) (g : Shared ι) (s : Tables) (t : Txn) : Prop :=
  match t.phase with
  | .lockProducts todo => (∀ p ∈ todo, p ∈ call.productIds) ∧ t.writes = []
  | .priceItems => t.writes = []
  | .lockStock line rest | .writeStock line rest =>
    OwnStock call t.writes ∧ LinesOpen call t₀ (t.view s) (line :: rest)
  | .lockNumbers => OwnStock call t.writes
  | .readNumber day => OwnStock call t.writes ∧ g.locks (.numbers day) = some i
  | .insertOrder n => OwnStock call t.writes ∧ Numbered i g n ∧ n.render.length ≤ 20
  | .insertItems o | .commit o => ∃ ws, OwnStock call ws ∧ t.writes = ws ++ [.order o] ∧
      Numbered i g o.orderNumber ∧ o.idempotencyKey = call.key
  | _ => False

/-- An attempt between its first query and its end. -/
structure Working (call : Call) (i : ι) (t₀ : Tables) (g : Shared ι) (s : Tables) (t : Txn) :
    Prop where
  snapshot : t.snapshot = some s
  rows : SameRows call s t₀
  absent : ∀ o ∈ g.tables.store.orders, o.idempotencyKey ≠ call.key
  coupon : t.coupon = none
  attempted : Attempted call i t₀ g s t

/-- The stored order of this request. -/
structure Stored (call : Call) (g : Shared ι) (o : Order) : Prop where
  mem : o ∈ g.tables.store.orders
  key : o.idempotencyKey = call.key

/-- Where a request can be that has not failed. -/
def Going (call : Call) (i : ι) (t₀ : Tables) (g : Shared ι) (t : Txn) : Prop :=
  match t.phase with
  | .setIsolation | .findKey => t.writes = [] ∧ t.coupon = none
  | .committed o => Stored call g o
  | .commit o => (t.snapshot ≠ none ∧ t.writes = [] ∧ Stored call g o) ∨
      ∃ s, Working call i t₀ g s t
  | _ => ∃ s, Working call i t₀ g s t

/-- The invariant of one request. -/
structure RequestInv (call : Call) (i : ι) (t₀ : Tables) (g : Shared ι) (t : Txn) : Prop where
  attempts : t.attempt ≤ 2
  signedIn : call.user ≠ none → t.attempt = 0
  held : ∀ r, g.locks r = some i → Held call t.phase r
  rows : t.active → SameRows call t₀ g.tables
  going : Going call i t₀ g t

/-- The committed tables: order numbers are distinct. -/
def NumbersDistinct (g : Shared ι) : Prop :=
  (g.tables.store.orders.map Order.orderNumber).Nodup

theorem Held.mono {call : Call} {phase phase' : Phase} {r : Resource} (h : Held call phase r)
    (hn : phase.numbering → phase'.numbering) : Held call phase' r := by
  cases r with
  | product p => exact h
  | coupon c => exact h
  | numbers d => exact hn h
  | key k => exact h

/-- An attempt that has not ended is where a request can be. -/
theorem Working.going {call : Call} {i : ι} {t₀ s : Tables} {g : Shared ι} {t : Txn}
    (h : Working call i t₀ g s t) : Going call i t₀ g t := by
  have ha := h.attempted
  unfold Attempted at ha
  unfold Going
  cases hp : t.phase with
  | setIsolation => rw [hp] at ha; exact ha.elim
  | findKey => rw [hp] at ha; exact ha.elim
  | committed o => rw [hp] at ha; exact ha.elim
  | commit o => exact Or.inr ⟨s, h⟩
  | _ => exact ⟨s, h⟩

theorem Working.next {call : Call} {i : ι} {t₀ s : Tables} {g g' : Shared ι} {t t' : Txn}
    (h : Working call i t₀ g s t) (ht : g'.tables = g.tables) (hs : t'.snapshot = t.snapshot)
    (hc : t'.coupon = t.coupon) (ha : Attempted call i t₀ g' s t') :
    Working call i t₀ g' s t' :=
  ⟨hs.trans h.snapshot, h.rows, by rw [ht]; exact h.absent, hc.trans h.coupon, ha⟩

theorem attempted_nextLine {call : Call} {i : ι} {t₀ s : Tables} {g : Shared ι} {t : Txn}
    {lines : List (Uuid × ℕ)} (hp : t.phase = nextLine lines) (hw : OwnStock call t.writes)
    (hl : LinesOpen call t₀ (t.view s) lines) : Attempted call i t₀ g s t := by
  unfold Attempted
  rw [hp]
  cases lines with
  | nil => exact hw
  | cons line rest => exact ⟨hw, hl⟩

/-- What one statement of a request achieves. -/
structure Advances (call : Call) (i : ι) (t₀ : Tables) (t : Txn) (r : Shared ι × Txn) : Prop where
  numbers : NumbersDistinct r.1
  request : RequestInv call i t₀ r.1 r.2
  left : r.2.left call < t.left call

/-- A statement inside an attempt: the committed tables are the same. -/
theorem RequestInv.advances {call : Call} {i : ι} {t₀ : Tables} {g g' : Shared ι} {t t' : Txn}
    (h : RequestInv call i t₀ g t) (hn : NumbersDistinct g) (ht : g'.tables = g.tables)
    (hactive : t.active) (ha : t'.attempt = t.attempt)
    (hheld : ∀ r, g'.locks r = some i → Held call t'.phase r) (hgoing : Going call i t₀ g' t')
    (hleft : t'.phase.left call < t.phase.left call) : Advances call i t₀ t (g', t') where
  numbers := by
    unfold NumbersDistinct
    rw [ht]
    exact hn
  request := by
    refine ⟨by rw [ha]; exact h.attempts, by rw [ha]; exact h.signedIn, hheld, fun _ => ?_, hgoing⟩
    rw [ht]
    exact h.rows hactive
  left := left_next ha hleft

section Locking
variable [DecidableEq ι] {call : Call} {i : ι} {g : Shared ι} {t : Txn} {r : Resource}

theorem acquire_free (h : ∀ j, g.locks r = some j → j = i) :
    ∃ locks, g.locks.acquire r i = some locks := by
  refine ⟨Function.update g.locks r (some i), Locks.acquire_eq_some.mpr ⟨?_, rfl⟩⟩
  cases hr : g.locks r with
  | none => exact Or.inl rfl
  | some j => exact Or.inr (by rw [h j hr])

theorem lockRow_ok {seen current : ℕ} {next : Shared ι → Shared ι × Txn}
    {locks : Locks Resource ι} (hl : g.locks.acquire r i = some locks) (hv : seen = current) :
    lockRow i r seen current g t next = some (next { g with locks := locks }) := by
  simp only [lockRow, hl, Option.map_some, if_pos hv]

theorem held_acquire {phase phase' : Phase} {locks : Locks Resource ι}
    (hl : g.locks.acquire r i = some locks) (h : ∀ r, g.locks r = some i → Held call phase r)
    (hr : Held call phase' r) (hn : phase.numbering → phase'.numbering) :
    ∀ r', locks r' = some i → Held call phase' r' := by
  intro r' hr'
  rcases (Locks.acquire_own_iff hl).mp hr' with rfl | hr'
  · exact hr
  · exact (h r' hr').mono hn

end Locking

/-! One statement at a time: none fails, and only the advisory lock makes a request wait. -/

section Statements
variable [DecidableEq ι] {call : Call} {i : ι} {t₀ s : Tables} {g : Shared ι} {t : Txn}
  {clock : Clock} {fresh : Uuid}

omit [DecidableEq ι] in
/-- The product row of a requested line, as the snapshot shows it. -/
theorem Working.row (hw : Working call i t₀ g s t) {p : Uuid} (hp : p ∈ call.productIds) :
    Table.find Product.id p s.store.products = Table.find Product.id p t₀.store.products := by
  rw [← find_products hp s.store, hw.rows.products, find_products hp]

omit [DecidableEq ι] in
/-- Nobody else has changed a requested product since the snapshot. -/
theorem Working.version (hw : Working call i t₀ g s t) (h : SameRows call t₀ g.tables) {p : Uuid}
    (hp : p ∈ call.productIds) : s.productVersion p = g.tables.productVersion p :=
  (hw.rows.versions p hp).trans (h.versions p hp)

theorem lockProducts_advances {todo : List Uuid} (h : RequestInv call i t₀ g t)
    (hn : NumbersDistinct g) (hw : Working call i t₀ g s t) (hp : t.phase = .lockProducts todo)
    (hfree : ∀ p ∈ call.productIds, ∀ j, g.locks (.product p) = some j → j = i)
    (hstock : call.Stocked t₀.store) :
    ∃ r, statement call i clock fresh s g t = some r ∧ Advances call i t₀ t r := by
  have hactive : t.active := by rw [Txn.active, hp]
  have ha := hw.attempted
  have hheld := h.held
  unfold Attempted at ha
  rw [hp] at ha hheld
  cases todo with
  | nil =>
    refine ⟨(g, { t with phase := .priceItems }), by simp only [statement, hp], ?_⟩
    have hw' : Working call i t₀ g s { t with phase := .priceItems } := hw.next rfl rfl rfl ha.2
    refine h.advances hn rfl hactive rfl
      (fun r hr => (hheld r hr).mono fun hnum => by cases hnum) hw'.going ?_
    rw [hp]
    simp only [Phase.left, List.length_nil]
    omega
  | cons p rest =>
    have hmem := ha.1 p (List.mem_cons_self ..)
    obtain ⟨line, hl, rfl⟩ := List.mem_map.mp ((mem_productIds call p).mp hmem)
    obtain ⟨product, hf, -⟩ := hstock line hl
    rw [← hw.row hmem] at hf
    obtain ⟨locks, hlocks⟩ := acquire_free (hfree line.1 hmem)
    refine ⟨({ g with locks := locks }, { t with phase := .lockProducts rest }), ?_, ?_⟩
    · simp only [statement, hp, hf]
      exact lockRow_ok hlocks (hw.version (h.rows hactive) hmem)
    · have hw' : Working call i t₀ { g with locks := locks } s
          { t with phase := .lockProducts rest } :=
        hw.next rfl rfl rfl ⟨fun q hq => ha.1 q (List.mem_cons_of_mem _ hq), ha.2⟩
      refine h.advances hn rfl hactive rfl
        (held_acquire hlocks hheld hmem fun hnum => by cases hnum) hw'.going ?_
      rw [hp]
      simp only [Phase.left, List.length_cons]
      omega

theorem priceItems_advances (h : RequestInv call i t₀ g t) (hn : NumbersDistinct g)
    (hw : Working call i t₀ g s t) (hp : t.phase = .priceItems) (hstock : call.Stocked t₀.store)
    (hcoupon : call.data.couponCode = none) :
    ∃ r, statement call i clock fresh s g t = some r ∧ Advances call i t₀ t r := by
  have hactive : t.active := by rw [Txn.active, hp]
  have ha := hw.attempted
  have hheld := h.held
  unfold Attempted at ha
  rw [hp] at ha hheld
  obtain ⟨items, hitems⟩ := hstock.price
  rw [← price_congr hw.rows.products] at hitems
  refine ⟨(g, startDecrement call t none), by simp only [statement, hp, hitems, hcoupon], ?_⟩
  have hown : OwnStock call t.writes := by
    intro w hmem
    rw [ha] at hmem
    cases hmem
  have hview : t.view s = s.store := by rw [Txn.view, ha]; rfl
  have hopen : LinesOpen call t₀ (t.view s) call.lines := by
    refine ⟨requestedByProduct_nodup _, fun l hl => hl, fun l hl => ?_⟩
    rw [hview]
    exact hw.row ((mem_productIds call l.1).mpr (List.mem_map_of_mem hl))
  have hw' : Working call i t₀ g s (startDecrement call t none) :=
    hw.next rfl rfl hw.coupon.symm (attempted_nextLine rfl hown hopen)
  refine h.advances hn rfl hactive rfl
    (fun r hr => (hheld r hr).mono fun hnum => by cases hnum) hw'.going ?_
  rw [hp]
  show (nextLine call.lines).left call < _
  rw [nextLine_left]
  exact Nat.lt_succ_self _

theorem lockStock_advances {line : Uuid × ℕ} {rest : List (Uuid × ℕ)}
    (h : RequestInv call i t₀ g t) (hn : NumbersDistinct g) (hw : Working call i t₀ g s t)
    (hp : t.phase = .lockStock line rest)
    (hfree : ∀ p ∈ call.productIds, ∀ j, g.locks (.product p) = some j → j = i)
    (hstock : call.Stocked t₀.store) :
    ∃ r, statement call i clock fresh s g t = some r ∧ Advances call i t₀ t r := by
  have hactive : t.active := by rw [Txn.active, hp]
  have ha := hw.attempted
  have hheld := h.held
  unfold Attempted at ha
  rw [hp] at ha hheld
  have hline := ha.2.requested line (List.mem_cons_self ..)
  have hmem := (mem_productIds call line.1).mpr (List.mem_map_of_mem hline)
  obtain ⟨product, hf, -, hq⟩ := hstock line hline
  rw [← ha.2.untouched line (List.mem_cons_self ..)] at hf
  obtain ⟨locks, hlocks⟩ := acquire_free (hfree line.1 hmem)
  refine ⟨({ g with locks := locks }, { t with phase := .writeStock line rest }), ?_, ?_⟩
  · simp only [statement, hp, hf]
    rw [lockRow_ok hlocks (hw.version (h.rows hactive) hmem), if_neg (not_lt.mpr hq)]
  · have hw' : Working call i t₀ { g with locks := locks } s
        { t with phase := .writeStock line rest } := hw.next rfl rfl rfl ha
    refine h.advances hn rfl hactive rfl
      (held_acquire hlocks hheld hmem fun hnum => by cases hnum) hw'.going ?_
    rw [hp]
    exact Nat.lt_succ_self _

theorem writeStock_advances {line : Uuid × ℕ} {rest : List (Uuid × ℕ)}
    (h : RequestInv call i t₀ g t) (hn : NumbersDistinct g) (hw : Working call i t₀ g s t)
    (hp : t.phase = .writeStock line rest) (hstock : call.Stocked t₀.store) :
    ∃ r, statement call i clock fresh s g t = some r ∧ Advances call i t₀ t r := by
  have hactive : t.active := by rw [Txn.active, hp]
  have ha := hw.attempted
  have hheld := h.held
  unfold Attempted at ha
  rw [hp] at ha hheld
  have hline := ha.2.requested line (List.mem_cons_self ..)
  have hmem := (mem_productIds call line.1).mpr (List.mem_map_of_mem hline)
  obtain ⟨product, hf, -⟩ := hstock line hline
  rw [← ha.2.untouched line (List.mem_cons_self ..)] at hf
  let stock := product.stockQuantity - line.2
  let t' : Txn :=
    { t with
      phase := nextLine rest
      writes := t.writes ++ [.stock line.1 stock] }
  refine ⟨(g, t'), by simp only [statement, hp, hf]; rfl, ?_⟩
  have hown : OwnStock call t'.writes := by
    intro w hw
    rcases List.mem_append.mp hw with hw | hw
    · exact ha.1 w hw
    · exact ⟨line.1, stock, List.mem_singleton.mp hw, hmem⟩
  have hview : (t'.view s).products = Table.modify Product.id line.1
      (fun p => { p with stockQuantity := stock }) (t.view s).products := by
    show ((t.writes ++ [Write.stock line.1 stock]).foldl Write.apply s.store).products = _
    rw [List.foldl_append]
    rfl
  have hkeys := List.nodup_cons.mp ha.2.keys
  have hopen : LinesOpen call t₀ (t'.view s) rest := by
    refine ⟨hkeys.2, fun l hl => ha.2.requested l (List.mem_cons_of_mem _ hl), fun l hl => ?_⟩
    have hne : l.1 ≠ line.1 := fun he => hkeys.1 (he ▸ List.mem_map_of_mem hl)
    have hkept : Table.find Product.id l.1 (t'.view s).products =
        Table.find Product.id l.1 (t.view s).products := by
      rw [hview]
      exact Table.find_modify_ne (fun p => rfl) hne
    rw [hkept]
    exact ha.2.untouched l (List.mem_cons_of_mem _ hl)
  have hw' : Working call i t₀ g s t' :=
    hw.next rfl rfl rfl (attempted_nextLine rfl hown hopen)
  refine h.advances hn rfl hactive rfl
    (fun r hr => (hheld r hr).mono fun hnum => by cases hnum) hw'.going ?_
  rw [hp]
  show (nextLine rest).left call < _
  rw [nextLine_left]
  exact Nat.lt_succ_self _

theorem lockNumbers_advances (h : RequestInv call i t₀ g t) (hn : NumbersDistinct g)
    (hw : Working call i t₀ g s t) (hp : t.phase = .lockNumbers)
    (hfree : ∀ j, g.locks (.numbers clock.day) = some j → j = i) :
    ∃ r, statement call i clock fresh s g t = some r ∧ Advances call i t₀ t r := by
  have hactive : t.active := by rw [Txn.active, hp]
  have ha := hw.attempted
  have hheld := h.held
  unfold Attempted at ha
  rw [hp] at ha hheld
  have hloaded : ¬ (call.user.isSome ∧ t.expired) := by
    rintro ⟨hu, he⟩
    have hzero := h.signedIn (Option.isSome_iff_ne_none.mp hu)
    rw [Txn.expired, hzero] at he
    cases he
  obtain ⟨locks, hlocks⟩ := acquire_free hfree
  refine ⟨({ g with locks := locks }, { t with phase := .readNumber clock.day }), ?_, ?_⟩
  · simp only [statement, hp, if_neg hloaded, hlocks, Option.map_some]
  · have hw' : Working call i t₀ { g with locks := locks } s
        { t with phase := .readNumber clock.day } :=
      hw.next rfl rfl rfl ⟨ha, Locks.acquire_self hlocks⟩
    refine h.advances hn rfl hactive rfl
      (held_acquire hlocks hheld rfl fun hnum => by cases hnum) hw'.going ?_
    rw [hp]
    exact Nat.lt_succ_self _

/-- The snapshot has every order of the day, so the next number is new. -/
theorem readNumber_advances {day : ℕ} (h : RequestInv call i t₀ g t) (hn : NumbersDistinct g)
    (hw : Working call i t₀ g s t) (hp : t.phase = .readNumber day)
    (hseen : ∀ o ∈ g.tables.store.orders, o.orderNumber.day = day → o ∈ (t.view s).orders)
    (hlength : (OrderNumber.mk day (nextCounter (t.view s).orders day)).render.length ≤ 20) :
    ∃ r, statement call i clock fresh s g t = some r ∧ Advances call i t₀ t r := by
  have hactive : t.active := by rw [Txn.active, hp]
  have ha := hw.attempted
  have hheld := h.held
  unfold Attempted at ha
  rw [hp] at ha hheld
  let n : OrderNumber := ⟨day, nextCounter (t.view s).orders day⟩
  refine ⟨(g, { t with phase := .insertOrder n }), by simp only [statement, hp]; rfl, ?_⟩
  have hfresh : ∀ o ∈ g.tables.store.orders, o.orderNumber ≠ n := by
    intro o ho he
    have hday : o.orderNumber.day = day := by rw [he]
    have hlt := counter_lt_nextCounter (hseen o ho hday)
    rw [hday, he] at hlt
    exact lt_irrefl _ hlt
  have hw' : Working call i t₀ g s { t with phase := .insertOrder n } :=
    hw.next rfl rfl rfl ⟨ha.1, ⟨ha.2, hfresh⟩, hlength⟩
  refine h.advances hn rfl hactive rfl (fun r hr => (hheld r hr).mono fun _ => rfl) hw'.going ?_
  rw [hp]
  exact Nat.lt_succ_self _

theorem insertOrder_advances {n : OrderNumber} (h : RequestInv call i t₀ g t)
    (hn : NumbersDistinct g) (hw : Working call i t₀ g s t) (hp : t.phase = .insertOrder n)
    (hfree : ∀ j, g.locks (.key call.key) = some j → j = i)
    (hstore : call.Storable t₀.store) :
    ∃ r, statement call i clock fresh s g t = some r ∧ Advances call i t₀ t r := by
  have hactive : t.active := by rw [Txn.active, hp]
  have ha := hw.attempted
  have hheld := h.held
  unfold Attempted at ha
  rw [hp] at ha hheld
  obtain ⟨hown, hnumber, hlength⟩ := ha
  obtain ⟨locks, hlocks⟩ := acquire_free hfree
  obtain ⟨phone, hphone⟩ := Option.ne_none_iff_exists'.mp hstore.phone
  have hdata : call.orderData s.store t.coupon = call.orderData t₀.store none := by
    rw [hw.coupon]
    exact orderData_congr hw.rows.products none
  have hcheck : insertOrderCheck g.tables.store.orders (call.orderData s.store t.coupon) n =
      .ok phone := by
    have hnew : ¬ ∃ o ∈ g.tables.store.orders, o.orderNumber = n ∨
        o.idempotencyKey = (call.orderData t₀.store none).idempotencyKey := by
      rintro ⟨o, ho, hon | hok⟩
      · exact hnumber.fresh o ho hon
      · exact hw.absent o ho hok
    have hamounts : ¬ (10 ^ 8 ≤ (call.orderData t₀.store none).subtotal ∨
        10 ^ 8 ≤ (call.orderData t₀.store none).shippingFee ∨
        10 ^ 8 ≤ (call.orderData t₀.store none).totalAmount) := by
      rintro (h₁ | h₂ | h₃)
      · exact not_le.mpr hstore.subtotal h₁
      · exact not_le.mpr hstore.shippingFee h₂
      · exact not_le.mpr hstore.totalAmount h₃
    have hdataPhone : (call.orderData t₀.store none).checkout.customerPhone = some phone := hphone
    rw [hdata, insertOrderCheck, if_neg (not_lt.mpr hlength), if_neg hamounts, hdataPhone]
    exact if_neg hnew
  let o := (call.orderData s.store t.coupon).row phone fresh n
    (itemRows (fresh + 1) (call.items s.store))
  let t' : Txn :=
    { t with
      phase := .insertItems o
      writes := t.writes ++ [.order o] }
  refine ⟨({ g with locks := locks }, t'), ?_, ?_⟩
  · simp only [statement, hp, hlocks, Option.map_some, hcheck]
    rfl
  · have hnumbered : Numbered i { g with locks := locks } o.orderNumber :=
      ⟨Locks.acquire_own hlocks hnumber.locked, hnumber.fresh⟩
    have hw' : Working call i t₀ { g with locks := locks } s t' :=
      hw.next rfl rfl rfl ⟨t.writes, hown, rfl, hnumbered, rfl⟩
    refine h.advances hn rfl hactive rfl (held_acquire hlocks hheld rfl fun _ => rfl) hw'.going ?_
    rw [hp]
    exact Nat.lt_succ_self _

theorem insertItems_advances {o : Order} (h : RequestInv call i t₀ g t) (hn : NumbersDistinct g)
    (hw : Working call i t₀ g s t) (hp : t.phase = .insertItems o) :
    ∃ r, statement call i clock fresh s g t = some r ∧ Advances call i t₀ t r := by
  have hactive : t.active := by rw [Txn.active, hp]
  have ha := hw.attempted
  have hheld := h.held
  unfold Attempted at ha
  rw [hp] at ha hheld
  refine ⟨(g, { t with phase := .commit o }), by simp only [statement, hp, hw.coupon], ?_⟩
  have hw' : Working call i t₀ g s { t with phase := .commit o } := hw.next rfl rfl rfl ha
  refine h.advances hn rfl hactive rfl (fun r hr => (hheld r hr).mono fun _ => rfl) hw'.going ?_
  rw [hp]
  exact Nat.lt_succ_self _

theorem commit_nil (t : Tables) : t.commit [] = t := by
  simp [Tables.commit]

/-- What a request at its commit is about to write: nothing, or its stock and its order. -/
structure OwnCommit (call : Call) (i : ι) (g : Shared ι) (ws : List Write) (o : Order) :
    Prop where
  stock : OwnStock call ws
  number : Numbered i g o.orderNumber
  key : o.idempotencyKey = call.key

omit [DecidableEq ι] in
theorem RequestInv.atCommit {o : Order} (h : RequestInv call i t₀ g t) (hp : t.phase = .commit o) :
    t.snapshot ≠ none ∧ ((t.writes = [] ∧ Stored call g o) ∨
      ∃ ws, t.writes = ws ++ [.order o] ∧ OwnCommit call i g ws o) := by
  have hgoing := h.going
  unfold Going at hgoing
  rw [hp] at hgoing
  rcases hgoing with ⟨hs, hw, ho⟩ | ⟨s, hw⟩
  · exact ⟨hs, Or.inl ⟨hw, ho⟩⟩
  · have ha := hw.attempted
    unfold Attempted at ha
    rw [hp] at ha
    obtain ⟨ws, hown, heq, hn, hk⟩ := ha
    refine ⟨?_, Or.inr ⟨ws, heq, hown, hn, hk⟩⟩
    rw [hw.snapshot]
    exact Option.some_ne_none s

theorem commit_advances {o : Order} (h : RequestInv call i t₀ g t) (hn : NumbersDistinct g)
    (hp : t.phase = .commit o) :
    ∃ r, statement call i clock fresh s g t = some r ∧ Advances call i t₀ t r := by
  let g' : Shared ι := ⟨g.tables.commit t.writes, g.locks.release i⟩
  let t' : Txn := { t with phase := .committed o }
  refine ⟨(g', t'), by simp only [statement, hp]; rfl, ?_⟩
  have horders : NumbersDistinct g' ∧ Stored call g' o := by
    obtain ⟨-, ⟨hw, ho⟩ | ⟨ws, hw, hown⟩⟩ := h.atCommit hp
    · have htables : g'.tables = g.tables := by
        show g.tables.commit t.writes = g.tables
        rw [hw, commit_nil]
      refine ⟨?_, ?_, ho.key⟩
      · unfold NumbersDistinct
        rw [htables]
        exact hn
      · rw [htables]
        exact ho.mem
    · have horders : g'.tables.store.orders = g.tables.store.orders ++ [o] := by
        show (g.tables.commit t.writes).store.orders = _
        rw [hw]
        exact orders_commit hown.stock o g.tables
      refine ⟨?_, ?_, hown.key⟩
      · unfold NumbersDistinct
        rw [horders, List.map_append]
        refine List.nodup_append.mpr ⟨hn, List.nodup_singleton _, fun a ha b hb => ?_⟩
        obtain ⟨o', ho', rfl⟩ := List.mem_map.mp ha
        rw [List.mem_singleton.mp hb]
        exact hown.number.fresh o' ho'
      · rw [horders]
        exact List.mem_append_right _ (List.mem_singleton.mpr rfl)
  refine ⟨horders.1, ⟨h.attempts, h.signedIn, ?_, ?_, horders.2⟩, left_next rfl ?_⟩
  · intro r hr
    exact absurd hr (Locks.release_self r)
  · intro hactive
    cases hactive
  · rw [hp]
    exact Nat.zero_lt_one

end Statements

/-- The condition on one event: the isolation level is accepted, the session that reads the
day's number sees every committed order of the day and gets a number that fits its column,
a guest's attempt fails at most twice and before its commit, and nothing else fails. -/
def upToDate (lateIsolation : Bool) (call : Call) (g : Shared ι) (t : Txn) : Event → Bool
  | .statement _ _ =>
    match t.phase with
    | .setIsolation => call.user.isNone || lateIsolation
    | .readNumber day =>
      t.snapshot.all fun s =>
        (g.tables.store.orders.all fun o => o.orderNumber.day = day → o ∈ (t.view s).orders) &&
          (OrderNumber.mk day (nextCounter (t.view s).orders day)).render.length ≤ 20
    | _ => true
  | .serializationFailure =>
    match t.phase with
    | .commit _ => false
    | _ => call.user.isNone && t.attempt < 2
  | .fault _ => false

section Steps
variable [DecidableEq ι] {lateIsolation : Bool} {calls : ι → Call} {i j : ι} {t₀ : Tables}
  {g g' : Shared ι} {t t' : Txn} {e : Event} {clock : Clock} {fresh : Uuid}

/-- Nobody else holds the request's own rows and key. -/
structure Free (call : Call) (i : ι) (g : Shared ι) : Prop where
  products : ∀ p ∈ call.productIds, ∀ j, g.locks (.product p) = some j → j = i
  key : ∀ j, g.locks (.key call.key) = some j → j = i

/-- A request that has not ended takes its next statement, unless it waits for the
advisory lock of the day. -/
theorem statement_advances (hind : Independent calls t₀) (hn : NumbersDistinct g)
    (h : RequestInv (calls i) i t₀ g t) (hactive : t.active) (hfree : Free (calls i) i g)
    (hup : upToDate lateIsolation (calls i) g t (.statement clock fresh))
    (hnumbers : t.phase = .lockNumbers → ∀ j, g.locks (.numbers clock.day) = some j → j = i) :
    ∃ r, step lateIsolation calls i g t (.statement clock fresh) = some r ∧
      Advances (calls i) i t₀ t r := by
  have hgoing := h.going
  have hheld := h.held
  unfold Going at hgoing
  cases hp : t.phase with
  | setIsolation =>
    rw [hp] at hgoing hheld
    have hlevel : ¬ ((calls i).user.isSome ∧ !t.expired ∧ !lateIsolation) := by
      simp only [upToDate, hp, Bool.or_eq_true, Option.isNone_iff_eq_none] at hup
      rintro ⟨hu, -, hl⟩
      rcases hup with hup | hup
      · rw [hup] at hu
        cases hu
      · rw [hup] at hl
        cases hl
    refine ⟨(g, { t with phase := .findKey }), by simp only [step, hp, if_neg hlevel], ?_⟩
    refine h.advances hn rfl hactive rfl
      (fun r hr => (hheld r hr).mono fun hnum => by cases hnum) hgoing ?_
    rw [hp]
    exact Nat.lt_succ_self _
  | findKey =>
    rw [hp] at hgoing hheld
    cases hf : Table.find Order.idempotencyKey (calls i).key g.tables.store.orders with
    | some o =>
      let t' : Txn :=
        { t with
          phase := .commit o
          snapshot := some g.tables }
      refine ⟨(g, t'), by simp only [step, hp, hf]; rfl, ?_⟩
      have hkey : o.idempotencyKey = (calls i).key := Table.key_of_find hf
      have hstored : Stored (calls i) g o := ⟨Table.mem_of_find hf, hkey⟩
      refine h.advances hn rfl hactive rfl (fun r hr => (hheld r hr).mono fun hnum => by cases hnum)
        (Or.inl ⟨Option.some_ne_none _, hgoing.1, hstored⟩) ?_
      rw [hp]
      show 1 < (calls i).productIds.length + linesLeft (calls i).lines + 3
      omega
    | none =>
      let t' : Txn :=
        { t with
          phase := .lockProducts ((calls i).rowOrder t.attempt)
          snapshot := some g.tables }
      refine ⟨(g, t'), by simp only [step, hp, hf]; rfl, ?_⟩
      have hrows := h.rows hactive
      have hw : Working (calls i) i t₀ g g.tables t' :=
        ⟨rfl, ⟨hrows.products.symm, fun p hp => (hrows.versions p hp).symm⟩,
          Table.find_eq_none.mp hf, hgoing.2, fun p hp => ((calls i).mem_rowOrder _).mp hp,
          hgoing.1⟩
      refine h.advances hn rfl hactive rfl
        (fun r hr => (hheld r hr).mono fun hnum => by cases hnum) hw.going ?_
      rw [hp]
      show ((calls i).rowOrder t.attempt).length + linesLeft (calls i).lines + 2 <
        (calls i).productIds.length + linesLeft (calls i).lines + 3
      rw [(calls i).length_rowOrder]
      exact Nat.lt_succ_self _
  | commit o =>
    obtain ⟨s, hs⟩ := Option.ne_none_iff_exists'.mp (h.atCommit hp).1
    simp only [step, hp, hs]
    exact commit_advances h hn hp
  | committed o => simp [Txn.active, hp] at hactive
  | failed e => simp [Txn.active, hp] at hactive
  | lockProducts todo =>
    rw [hp] at hgoing
    obtain ⟨s, hw⟩ := hgoing
    simp only [step, hp, hw.snapshot]
    exact lockProducts_advances h hn hw hp hfree.products (hind.stocked i)
  | priceItems =>
    rw [hp] at hgoing
    obtain ⟨s, hw⟩ := hgoing
    simp only [step, hp, hw.snapshot]
    exact priceItems_advances h hn hw hp (hind.stocked i) (hind.noCoupon i)
  | lockStock line rest =>
    rw [hp] at hgoing
    obtain ⟨s, hw⟩ := hgoing
    simp only [step, hp, hw.snapshot]
    exact lockStock_advances h hn hw hp hfree.products (hind.stocked i)
  | writeStock line rest =>
    rw [hp] at hgoing
    obtain ⟨s, hw⟩ := hgoing
    simp only [step, hp, hw.snapshot]
    exact writeStock_advances h hn hw hp (hind.stocked i)
  | lockNumbers =>
    rw [hp] at hgoing
    obtain ⟨s, hw⟩ := hgoing
    simp only [step, hp, hw.snapshot]
    exact lockNumbers_advances h hn hw hp (hnumbers hp)
  | readNumber day =>
    rw [hp] at hgoing
    obtain ⟨s, hw⟩ := hgoing
    simp only [upToDate, hp, hw.snapshot, Option.all_some, Bool.and_eq_true, List.all_eq_true,
      decide_eq_true_eq] at hup
    simp only [step, hp, hw.snapshot]
    exact readNumber_advances h hn hw hp hup.1 hup.2
  | insertOrder n =>
    rw [hp] at hgoing
    obtain ⟨s, hw⟩ := hgoing
    simp only [step, hp, hw.snapshot]
    exact insertOrder_advances h hn hw hp hfree.key (hind.storable i)
  | insertItems o =>
    rw [hp] at hgoing
    obtain ⟨s, hw⟩ := hgoing
    simp only [step, hp, hw.snapshot]
    exact insertItems_advances h hn hw hp
  | _ =>
    rw [hp] at hgoing
    obtain ⟨s, hw⟩ := hgoing
    have ha := hw.attempted
    unfold Attempted at ha
    rw [hp] at ha
    exact ha.elim

omit [DecidableEq ι] in
/-- What is left of a request while another one steps. -/
theorem Working.frame {call : Call} {s : Tables} (h : Working call j t₀ g s t)
    (habsent : ∀ o ∈ g'.tables.store.orders, o.idempotencyKey ≠ call.key)
    (hlocks : ∀ d, g.locks (.numbers d) = some j → g'.locks (.numbers d) = some j)
    (hnumber : ∀ n, Numbered j g n → Numbered j g' n) : Working call j t₀ g' s t := by
  refine ⟨h.snapshot, h.rows, habsent, h.coupon, ?_⟩
  have ha := h.attempted
  unfold Attempted at ha ⊢
  cases hp : t.phase with
  | readNumber day =>
    rw [hp] at ha
    exact ⟨ha.1, hlocks day ha.2⟩
  | insertOrder n =>
    rw [hp] at ha
    exact ⟨ha.1, hnumber n ha.2.1, ha.2.2⟩
  | insertItems o | commit o =>
    rw [hp] at ha
    obtain ⟨ws, hown, heq, hn, hk⟩ := ha
    exact ⟨ws, hown, heq, hnumber _ hn, hk⟩
  | _ =>
    rw [hp] at ha
    exact ha

omit [DecidableEq ι] in
theorem Going.frame {call : Call} (h : Going call j t₀ g t)
    (hstored : ∀ o, Stored call g o → Stored call g' o)
    (hworking : ∀ s, Working call j t₀ g s t → Working call j t₀ g' s t) :
    Going call j t₀ g' t := by
  unfold Going at h ⊢
  cases hp : t.phase with
  | setIsolation | findKey =>
    rw [hp] at h
    exact h
  | committed o =>
    rw [hp] at h
    exact hstored o h
  | commit o =>
    rw [hp] at h
    rcases h with ⟨hs, hw, ho⟩ | ⟨s, hw⟩
    · exact Or.inl ⟨hs, hw, hstored o ho⟩
    · exact Or.inr ⟨s, hworking s hw⟩
  | _ =>
    rw [hp] at h
    obtain ⟨s, hw⟩ := h
    exact ⟨s, hworking s hw⟩

/-- A step of another request keeps the invariant: it commits other products, another key
and, since each holds the advisory lock of its day, another number. -/
theorem requestInv_other (hind : Independent calls t₀) (hj : j ≠ i) {tj : Txn}
    (htj : RequestInv (calls j) j t₀ g tj) (ht : RequestInv (calls i) i t₀ g t)
    (h : step lateIsolation calls i g t e = some (g', t')) : RequestInv (calls j) j t₀ g' tj := by
  have hshared := step_shared h
  have hheld : ∀ r, g'.locks r = some j → Held (calls j) tj.phase r :=
    fun r hr => htj.held r ((hshared.locks j hj r).mp hr)
  have hkept : ∀ d, g.locks (.numbers d) = some j → g'.locks (.numbers d) = some j :=
    fun d hd => (hshared.locks j hj _).mpr hd
  have hsame : g'.tables = g.tables → RequestInv (calls j) j t₀ g' tj := by
    intro htables
    refine ⟨htj.attempts, htj.signedIn, hheld, fun hactive => ?_, htj.going.frame ?_ ?_⟩
    · rw [htables]
      exact htj.rows hactive
    · intro o ho
      exact ⟨by rw [htables]; exact ho.mem, ho.key⟩
    · intro s hw
      refine hw.frame (by rw [htables]; exact hw.absent) hkept fun n hn => ⟨hkept _ hn.locked, ?_⟩
      rw [htables]
      exact hn.fresh
  rcases hshared.tables with htables | ⟨o, hp, htables⟩
  · exact hsame htables
  · obtain ⟨-, ⟨hw, -⟩ | ⟨ws, hw, hown⟩⟩ := ht.atCommit hp
    · rw [hw, commit_nil] at htables
      exact hsame htables
    · rw [hw] at htables
      have horders : g'.tables.store.orders = g.tables.store.orders ++ [o] := by
        rw [htables]
        exact orders_commit hown.stock o g.tables
      refine ⟨htj.attempts, htj.signedIn, hheld, fun hactive => ?_, htj.going.frame ?_ ?_⟩
      · rw [htables]
        exact sameRows_commit (hind.products i j hj.symm) hown.stock (htj.rows hactive)
      · intro o' ho'
        refine ⟨?_, ho'.key⟩
        rw [horders]
        exact List.mem_append_left _ ho'.mem
      · intro s hwork
        refine hwork.frame ?_ hkept fun n hn => ⟨hkept _ hn.locked, ?_⟩
        · intro o' ho'
          rw [horders] at ho'
          rcases List.mem_append.mp ho' with ho' | ho'
          · exact hwork.absent o' ho'
          · rw [List.mem_singleton.mp ho', hown.key]
            exact hind.keys i j hj.symm
        · intro o' ho'
          rw [horders] at ho'
          rcases List.mem_append.mp ho' with ho' | ho'
          · exact hn.fresh o' ho'
          · intro he
            rw [List.mem_singleton.mp ho'] at he
            have hi := hown.number.locked
            rw [he, hn.locked] at hi
            exact hj (Option.some.inj hi)

/-- The locks of the others leave a request its own rows and key. -/
theorem free_of_others (hind : Independent calls t₀) {thread : ι → Txn}
    (h : ∀ j, RequestInv (calls j) j t₀ g (thread j)) (i : ι) : Free (calls i) i g := by
  constructor
  · intro p hp j hj
    by_contra hne
    exact hind.products i j (fun he => hne he.symm) p hp ((h j).held _ hj)
  · intro j hj
    by_contra hne
    exact hind.keys i j (fun he => hne he.symm) ((h j).held _ hj)

/-- An event that meets its condition advances its request. -/
theorem step_advances (hind : Independent calls t₀) (hn : NumbersDistinct g)
    (h : RequestInv (calls i) i t₀ g t) (hfree : Free (calls i) i g)
    (hup : upToDate lateIsolation (calls i) g t e)
    (hs : step lateIsolation calls i g t e = some (g', t')) :
    Advances (calls i) i t₀ t (g', t') := by
  cases e with
  | statement clock fresh =>
    have hactive : t.active := by
      cases hp : t.phase with
      | committed o => cases hsn : t.snapshot <;> simp [step, hp, hsn, statement] at hs
      | failed e => cases hsn : t.snapshot <;> simp [step, hp, hsn, statement] at hs
      | _ => rw [Txn.active, hp]
    have hnumbers : t.phase = .lockNumbers →
        ∀ j, g.locks (.numbers clock.day) = some j → j = i := by
      intro hp j hj
      cases hsn : t.snapshot with
      | none => simp [step, hp, hsn] at hs
      | some s =>
        simp only [step, hp, hsn, statement] at hs
        split_ifs at hs with hu
        · have hgoing := h.going
          unfold Going at hgoing
          rw [hp] at hgoing
          obtain ⟨s', hw⟩ := hgoing
          have hzero := h.signedIn (Option.isSome_iff_ne_none.mp hu.1)
          have hexpired := hu.2
          rw [Txn.expired, hzero] at hexpired
          cases hexpired
        · obtain ⟨locks, hl, -⟩ := Option.map_eq_some_iff.mp hs
          rcases (Locks.acquire_eq_some.mp hl).1 with hnone | hi
          · rw [hnone] at hj
            cases hj
          · rw [hi] at hj
            exact (Option.some.inj hj).symm
    obtain ⟨r, hr, hadv⟩ := statement_advances hind hn h hactive hfree hup hnumbers
    rw [hr] at hs
    rw [← Option.some.inj hs]
    exact hadv
  | serializationFailure =>
    have hactive : t.active := by
      cases hp : t.phase with
      | committed o => simp [step, hp] at hs
      | failed e => simp [step, hp] at hs
      | _ => rw [Txn.active, hp]
    have hretry : (calls i).user = none ∧ t.attempt < 2 ∧
        raise i Orders.serializationFailure g t = (g', t') := by
      cases hp : t.phase with
      | committed o => simp [step, hp] at hs
      | failed e => simp [step, hp] at hs
      | commit o => simp [upToDate, hp] at hup
      | _ =>
        simp only [upToDate, hp, Bool.and_eq_true, Option.isNone_iff_eq_none,
          decide_eq_true_eq] at hup
        simp only [step, hp] at hs
        exact ⟨hup.1, hup.2, Option.some.inj hs⟩
    obtain ⟨hu, hlt, hr⟩ := hretry
    have hserial : Orders.serializationFailure.isSerializationFailure ∧ t.attempt < 2 :=
      ⟨rfl, hlt⟩
    rw [raise, if_pos hserial] at hr
    obtain ⟨rfl, rfl⟩ := Prod.mk.inj hr
    refine ⟨hn, ⟨hlt, fun h => absurd hu h, fun r hr => absurd hr (Locks.release_self r),
      fun _ => h.rows hactive, ⟨rfl, rfl⟩⟩, ?_⟩
    have hk : 2 - t.attempt = (2 - (t.attempt + 1)) + 1 := by omega
    simp only [Txn.left, Phase.left, hk, Nat.add_mul, Call.attemptLength]
    omega
  | fault e => simp [upToDate] at hup

end Steps

/-! Runs. -/

section Runs
variable [DecidableEq ι] {lateIsolation : Bool} {calls : ι → Call} {t₀ : Tables}
  {c c' : Threads ι (Shared ι) Txn} {events : List (ι × Event)}

/-- The invariant of a run. -/
abbrev RunInv (calls : ι → Call) (t₀ : Tables) (c : Threads ι (Shared ι) Txn) : Prop :=
  ThreadInv NumbersDistinct (fun i g t => RequestInv (calls i) i t₀ g t) c

/-- The condition on an event of a run. -/
abbrev UpToDate (lateIsolation : Bool) (calls : ι → Call) (c : Threads ι (Shared ι) Txn)
    (e : ι × Event) : Prop :=
  upToDate lateIsolation (calls e.1) c.shared (c.thread e.1) e.2

omit [DecidableEq ι] in
theorem runInv_init (hind : Independent calls t₀) : RunInv calls t₀ (init ι t₀) := by
  refine ⟨hind.numbers, fun i => ⟨Nat.zero_le 2, fun _ => rfl, fun r hr => ?_, fun _ => ?_, ?_⟩⟩
  · cases hr
  · exact ⟨rfl, fun _ _ => rfl⟩
  · exact ⟨rfl, rfl⟩

theorem runInv_advances (hind : Independent calls t₀) {i : ι} {e : Event} {g' : Shared ι}
    {t' : Txn} (hc : RunInv calls t₀ c) (hg : UpToDate lateIsolation calls c (i, e))
    (hs : step lateIsolation calls i c.shared (c.thread i) e = some (g', t')) :
    Advances (calls i) i t₀ (c.thread i) (g', t') :=
  step_advances hind hc.shared (hc.thread i) (free_of_others hind hc.thread i) hg hs

theorem runInv_step (hind : Independent calls t₀) (c : Threads ι (Shared ι) Txn)
    (e : ι × Event) (c' : Threads ι (Shared ι) Txn) (hc : RunInv calls t₀ c)
    (hg : UpToDate lateIsolation calls c e)
    (hs : interleave (step lateIsolation calls) c e = some c') : RunInv calls t₀ c' := by
  refine threadInv_step ?_ ?_ c e c' hc hg hs
  · intro c i e g' t' hc hg hst
    have hadv := runInv_advances hind hc hg hst
    exact ⟨hadv.numbers, hadv.request⟩
  · intro c i j e g' t' hc hg hj hst
    exact requestInv_other hind hj (hc.thread j) (hc.thread i) hst

/-- A request that has not ended has a statement to take or waits for the advisory lock. -/
theorem runInv_enabled (hind : Independent calls t₀) (hc : RunInv calls t₀ c) {i : ι}
    (hactive : (c.thread i).active) (clock : Clock) (fresh : Uuid)
    (hnumbers : (c.thread i).phase = .lockNumbers →
      ∀ j, c.shared.locks (.numbers clock.day) = some j → j = i) :
    step lateIsolation calls i c.shared (c.thread i) (.statement clock fresh) ≠ none := by
  have hup : upToDate lateIsolation (calls i) c.shared (c.thread i) (.statement clock fresh) →
      step lateIsolation calls i c.shared (c.thread i) (.statement clock fresh) ≠ none := by
    intro hup
    obtain ⟨r, hr, -⟩ := statement_advances hind hc.shared (hc.thread i) hactive
      (free_of_others hind hc.thread i) hup hnumbers
    rw [hr]
    exact Option.some_ne_none r
  -- the two statements with a condition are never blocked
  cases hp : (c.thread i).phase with
  | setIsolation =>
    simp only [step, hp]
    split_ifs <;> exact Option.some_ne_none _
  | readNumber day =>
    have hgoing := (hc.thread i).going
    unfold Going at hgoing
    rw [hp] at hgoing
    obtain ⟨s, hw⟩ := hgoing
    simp only [step, hp, hw.snapshot, statement]
    exact Option.some_ne_none _
  | _ => exact hup (by simp only [upToDate, hp])

/-- When no request can take a statement, all have committed: the holder of the advisory
lock is never blocked. -/
theorem runInv_complete (hind : Independent calls t₀) (hc : RunInv calls t₀ c)
    (hstop : ∀ i clock fresh, step lateIsolation calls i c.shared (c.thread i)
      (.statement clock fresh) = none) (i : ι) :
    ∃ o, (c.thread i).phase = .committed o ∧ o ∈ c.shared.tables.store.orders := by
  have hgoing := (hc.thread i).going
  unfold Going at hgoing
  by_cases hactive : (c.thread i).active
  · exfalso
    refine runInv_enabled hind hc hactive ⟨0, 0⟩ 0 (fun hp j hj => ?_) (hstop i ⟨0, 0⟩ 0)
    by_contra hne
    have hnumbering : (c.thread j).phase.numbering := (hc.thread j).held _ hj
    refine runInv_enabled hind hc ?_ ⟨0, 0⟩ 0 (fun hpj => ?_) (hstop j ⟨0, 0⟩ 0)
    · unfold Txn.active
      cases hpj : (c.thread j).phase with
      | committed o => rw [hpj] at hnumbering; cases hnumbering
      | failed e => rw [hpj] at hnumbering; cases hnumbering
      | _ => rfl
    · rw [hpj] at hnumbering
      cases hnumbering
  · cases hp : (c.thread i).phase with
    | committed o =>
      rw [hp] at hgoing
      exact ⟨o, rfl, hgoing.mem⟩
    | failed e =>
      rw [hp] at hgoing
      obtain ⟨s, hw⟩ := hgoing
      have ha := hw.attempted
      unfold Attempted at ha
      rw [hp] at ha
      exact ha.elim
    | _ =>
      rw [Txn.active, hp] at hactive
      exact absurd rfl hactive

end Runs

end Invariant

/-- Independent checkouts in a state of a run: none has failed, no two have one order
number, each needs a bounded number of events in three attempts, and when nothing more can
happen all have committed. -/
structure AllServed {ι : Type*} [DecidableEq ι] (lateIsolation : Bool) (calls : ι → Call)
    (events : List (ι × Event)) (c : Threads ι (Shared ι) Txn) : Prop where
  noFailure : ∀ i e, (c.thread i).phase ≠ .failed e
  numbers : ∀ i j o o', i ≠ j → (c.thread i).phase = .committed o →
    (c.thread j).phase = .committed o' → o.orderNumber ≠ o'.orderNumber
  attempts : ∀ i, (c.thread i).attempt < 3
  bounded : ∀ i, (events.filter fun e => e.1 = i).length ≤ 3 * ((calls i).attemptLength + 1)
  complete : (∀ i clock fresh, step lateIsolation calls i c.shared (c.thread i)
      (.statement clock fresh) = none) →
    ∀ i, ∃ o, (c.thread i).phase = .committed o ∧ o ∈ c.shared.tables.store.orders

/-- Independent checkouts are all served in every interleaving in which each session that
draws an order number has all committed orders of the day in its snapshot. -/
theorem checkouts_allServed {ι : Type*} [DecidableEq ι] {lateIsolation : Bool} {calls : ι → Call}
    {tables : Tables} (hind : Independent calls tables) {events : List (ι × Event)}
    {c : Threads ι (Shared ι) Txn}
    (h : exec (interleave (step lateIsolation calls)) (init ι tables) events = some c)
    (hg : Guarded (interleave (step lateIsolation calls)) (UpToDate lateIsolation calls)
      (init ι tables) events) : AllServed lateIsolation calls events c := by
  have hinit := runInv_init hind
  have hc : RunInv calls tables c := hg.invariant (runInv_step hind) hinit h
  refine ⟨fun i e hp => ?_, fun i j o o' hne hi hj => ?_, fun i => ?_, fun i => ?_, ?_⟩
  · have hgoing := (hc.thread i).going
    unfold Going at hgoing
    rw [hp] at hgoing
    obtain ⟨s, hw⟩ := hgoing
    have ha := hw.attempted
    unfold Attempted at ha
    rw [hp] at ha
    exact ha
  · have hgi := (hc.thread i).going
    have hgj := (hc.thread j).going
    unfold Going at hgi hgj
    rw [hi] at hgi
    rw [hj] at hgj
    intro he
    have hoo : o = o' := List.inj_on_of_nodup_map hc.shared hgi.mem hgj.mem he
    exact hind.keys i j hne (by rw [← hgi.key, hoo, hgj.key])
  · exact Nat.lt_succ_of_le (hc.thread i).attempts
  · have hle := hg.steps_le_measure (fun i t => t.left (calls i)) (runInv_step hind)
      (fun hc hg hs => (runInv_advances hind hc hg hs).left) i hinit h
    have hleft : ((init ι tables).thread i).left (calls i) ≤
        3 * ((calls i).attemptLength + 1) := by
      show (calls i).attemptLength + 2 * ((calls i).attemptLength + 1) ≤ _
      omega
    exact (Nat.le_add_right _ _).trans (hle.trans hleft)
  · exact fun hstop => runInv_complete hind hc hstop

/-- Two products with ten units each. -/
def guestTables : Tables where
  store :=
    { tenCylinders.store with
      products := tenCylinders.store.products ++
        tenCylinders.store.products.map fun p => { p with id := 2, sku := "GAS6", sizeKg := 6 } }
  productVersion := fun _ => 0
  couponVersion := fun _ => 0

/-- Two guests, each with one unit of a product of its own. -/
def guestCalls (i : Fin 2) : Call where
  coupons := true
  data := { cylinderCheckout 1 with items := [⟨1 + i.val, 1, false⟩] }
  user := none
  key := 30 + i.val

def guestNext (i : Fin 2) : Fin 2 × Event := (i, .statement ⟨0, 20260101⟩ (100 + 10 * i.val))

theorem guestCalls_independent : Independent guestCalls guestTables where
  keys := by decide
  products := by decide
  stocked := by
    intro i line hl
    have hline : line = (1 + i.val, 1) := by
      have hlines : (guestCalls i).lines = [(1 + i.val, 1)] := rfl
      rw [hlines] at hl
      exact List.mem_singleton.mp hl
    subst hline
    fin_cases i
    · exact ⟨_, rfl, rfl, by decide⟩
    · exact ⟨_, rfl, rfl, by decide⟩
  noCoupon := fun _ => rfl
  storable := by
    intro i
    fin_cases i
    · exact ⟨by decide, by decide +kernel, by decide +kernel, by decide +kernel⟩
    · exact ⟨by decide, by decide +kernel, by decide +kernel, by decide +kernel⟩
  numbers := List.nodup_nil

/-- The second guest's first attempt is rolled back; its second one starts after the first
guest has committed. -/
def retriedAfterCommit : List (Fin 2 × Event) :=
  [guestNext 0, guestNext 1, guestNext 1] ++ List.replicate 11 (guestNext 0) ++
    [(1, .serializationFailure)] ++ List.replicate 12 (guestNext 1)

theorem checkouts_allServed_retried : ∃ c,
    exec (interleave (step false guestCalls)) (init (Fin 2) guestTables) retriedAfterCommit =
      some c ∧ AllServed false guestCalls retriedAfterCommit c := by
  have hrun : (exec (interleave (step false guestCalls)) (init (Fin 2) guestTables)
      retriedAfterCommit).isSome := by decide +kernel
  obtain ⟨c, hc⟩ := Option.isSome_iff_exists.mp hrun
  exact ⟨c, hc, checkouts_allServed guestCalls_independent hc (by decide +kernel)⟩

/-- The second guest looks its key up before the first one commits, and draws its number
after that. -/
def snapshotBeforeCommit : List (Fin 2 × Event) :=
  [guestNext 0, guestNext 1, guestNext 1] ++ List.replicate 11 (guestNext 0) ++
    List.replicate 8 (guestNext 1)

theorem checkout_duplicate_number : Independent guestCalls guestTables ∧
    ¬ ∀ (events : List (Fin 2 × Event)) (c : Threads (Fin 2) (Shared (Fin 2)) Txn),
      (∀ e ∈ events, ∃ clock fresh, e.2 = .statement clock fresh) →
      exec (interleave (step false guestCalls)) (init (Fin 2) guestTables) events = some c →
      AllServed false guestCalls events c := by
  refine ⟨guestCalls_independent, fun h => ?_⟩
  have hrun : ((exec (interleave (step false guestCalls)) (init (Fin 2) guestTables)
      snapshotBeforeCommit).map fun c => match (c.thread 1).phase with
        | .failed e => e == .dbapi "23505"
        | _ => false) = some true := by decide +kernel
  obtain ⟨c, hc, hphase⟩ := Option.map_eq_some_iff.mp hrun
  have hstatements : ∀ e ∈ snapshotBeforeCommit, ∃ clock fresh, e.2 = .statement clock fresh := by
    intro e he
    simp only [snapshotBeforeCommit, List.mem_append, List.mem_replicate, List.mem_cons,
      List.not_mem_nil, or_false] at he
    rcases he with ((rfl | rfl | rfl) | ⟨-, rfl⟩) | ⟨-, rfl⟩ <;> exact ⟨_, _, rfl⟩
  have hserved := (h snapshotBeforeCommit c hstatements hc).noFailure 1
  cases hp : (c.thread 1).phase with
  | failed e => exact hserved e hp
  | _ => simp [hp] at hphase

end Qiki.Concurrency.Checkout
