import Qiki.Orders.CreateOrder
import Qiki.Transition.Threads

/-! Concurrent checkouts at SERIALIZABLE, statement by statement: one snapshot for each
attempt, row and advisory locks until the end of the transaction, and the retry loop. -/
namespace Qiki.Concurrency.Checkout

open Orders Transition

/-- A row version that a transaction has written. -/
inductive Write
  | stock (productId : Uuid) (value : ℤ)
  | order (o : Order)
  | coupon (couponId : Uuid) (usedCount : ℕ)
  | redemption (r : CouponRedemption)

def Write.apply (s : Store) : Write → Store
  | .stock productId value =>
    { s with
      products := Table.modify Product.id productId
        (fun p => { p with stockQuantity := value }) s.products }
  | .order o => { s with orders := s.orders ++ [o] }
  | .coupon couponId usedCount =>
    { s with
      coupons := Table.modify Coupon.id couponId (fun c => { c with usedCount := usedCount })
        s.coupons }
  | .redemption r => { s with redemptions := s.redemptions ++ [r] }

/-- The product whose row the write replaces. -/
def Write.productId : Write → Option Uuid
  | .stock productId _ => some productId
  | _ => none

/-- The coupon whose row or redemptions the write changes. -/
def Write.couponId : Write → Option Uuid
  | .coupon couponId _ => some couponId
  | .redemption r => some r.couponId
  | _ => none

/-- Tables with the number of commits that have changed each product row and each coupon. -/
structure Tables where
  store : Store
  productVersion : Uuid → ℕ
  couponVersion : Uuid → ℕ

/-- The tables after a commit of these writes. -/
def Tables.commit (t : Tables) (writes : List Write) : Tables where
  store := writes.foldl Write.apply t.store
  productVersion := fun p =>
    t.productVersion p + if ∃ w ∈ writes, w.productId = some p then 1 else 0
  couponVersion := fun c =>
    t.couponVersion c + if ∃ w ∈ writes, w.couponId = some c then 1 else 0

/-- What a transaction may lock: a row, the advisory key `orders:<day>`, or the unique
entry of an idempotency key that it is inserting. -/
inductive Resource
  | product (id : Uuid)
  | coupon (id : Uuid)
  | numbers (day : ℕ)
  | key (k : Uuid)
  deriving DecidableEq, Repr

structure Shared (ι : Type*) where
  tables : Tables
  locks : Locks Resource ι

/-- The products of `get_many_for_update`. -/
def productIds (data : CheckoutRequest) : List Uuid := (data.items.map (·.productId)).dedup

/-- One `POST /orders/checkout`. -/
structure Call where
  coupons : Bool
  data : CheckoutRequest
  user : Option User
  key : Uuid
  /-- The order in which `get_many_for_update` locks the rows in an attempt: the query has no
  `ORDER BY`. -/
  rowOrder : ℕ → List Uuid := fun _ => productIds data
  rowOrder_perm : ∀ attempt, (rowOrder attempt).Perm (productIds data) := by
    exact fun _ => List.Perm.refl _

/-- The statement a session is about to send. -/
inductive Phase
  | setIsolation
  | findKey
  | lockProducts (todo : List Uuid)
  | priceItems
  | lockCoupon
  | countRedemptions (coupon : Coupon)
  | lockStock (line : Uuid × ℕ) (rest : List (Uuid × ℕ))
  | writeStock (line : Uuid × ℕ) (rest : List (Uuid × ℕ))
  | lockNumbers
  | readNumber (day : ℕ)
  | insertOrder (number : OrderNumber)
  | insertItems (o : Order)
  | updateCoupon (o : Order)
  | insertRedemption (o : Order)
  | commit (o : Order)
  | committed (o : Order)
  | failed (e : Exn)

/-- One request: its statement, how many attempts were rolled back, the snapshot and the
writes of the current attempt, and the coupon it has accepted. -/
structure Txn where
  phase : Phase
  attempt : ℕ := 0
  snapshot : Option Tables := none
  writes : List Write := []
  coupon : Option (Coupon × Decimal) := none

inductive Event
  /-- The next statement, at this time; `fresh` is what `uuid4` returns. -/
  | statement (clock : Clock) (fresh : Uuid)
  /-- PostgreSQL answers the statement with 40001. -/
  | serializationFailure
  /-- Any other exception ends the request. -/
  | fault (e : Exn)

def Call.productIds (call : Call) : List Uuid := Checkout.productIds call.data

theorem Call.mem_rowOrder (call : Call) (attempt : ℕ) {p : Uuid} :
    p ∈ call.rowOrder attempt ↔ p ∈ call.productIds := (call.rowOrder_perm attempt).mem_iff

theorem Call.length_rowOrder (call : Call) (attempt : ℕ) :
    (call.rowOrder attempt).length = call.productIds.length :=
  (call.rowOrder_perm attempt).length_eq

def Call.lines (call : Call) : List (Uuid × ℕ) := requestedByProduct call.data.items

/-- The rows of the snapshot that `get_many_for_update` returned. -/
def Call.products (call : Call) (s : Store) : List Product :=
  s.products.filter fun p => p.id ∈ call.productIds

/-- The checks between the product locks and the coupon: `items_data`. -/
def Call.price (call : Call) (s : Store) : Except Exn (List ItemData) :=
  match checkProducts (call.products s) call.productIds with
  | .error e => .error e
  | .ok () => priceLines (call.products s) (exchangeByProduct call.data.items) call.lines

def Call.items (call : Call) (s : Store) : List ItemData :=
  match call.price s with
  | .ok items => items
  | .error _ => []

def Call.subtotal (call : Call) (s : Store) : Decimal := ((call.items s).map (·.subtotal)).sum

def Call.orderData (call : Call) (s : Store) (coupon : Option (Coupon × Decimal)) : OrderData :=
  let subtotal := call.subtotal s
  let shippingFee := calculateShipping (call.products s) call.lines
  let discountAmount := (coupon.map Prod.snd).getD 0
  { userId := call.user.map (·.id)
    checkout := call.data
    subtotal := subtotal
    shippingFee := shippingFee
    discountAmount := discountAmount
    coupon := coupon.map Prod.fst
    totalAmount := max 0 (subtotal + shippingFee - discountAmount)
    idempotencyKey := call.key }

/-- `for ...: await decrement_stock(...)`, then the order. -/
def nextLine : List (Uuid × ℕ) → Phase
  | [] => .lockNumbers
  | line :: rest => .lockStock line rest

/-- What the transaction sees: its snapshot with its own writes. -/
def Txn.view (t : Txn) (s : Tables) : Store := t.writes.foldl Write.apply s.store

/-- A rolled back session has expired its objects, `current_user` among them. -/
def Txn.expired (t : Txn) : Bool := t.attempt ≠ 0

def Txn.active (t : Txn) : Bool :=
  match t.phase with
  | .committed _ | .failed _ => false
  | _ => true

section Step
variable {ι : Type*} [DecidableEq ι]

/-- The attempt ends with `e`: its locks are released, and a serialization failure in one
of the first two attempts starts the next one. -/
def raise (i : ι) (e : Exn) (g : Shared ι) (t : Txn) : Shared ι × Txn :=
  ({ g with locks := g.locks.release i },
    if e.isSerializationFailure ∧ t.attempt < 2 then
      { phase := .setIsolation, attempt := t.attempt + 1 }
    else { t with phase := .failed e })

/-- Lock a row that the snapshot shows with version `seen`, then go on; 40001 if another
transaction has changed it since. -/
def lockRow (i : ι) (r : Resource) (seen current : ℕ) (g : Shared ι) (t : Txn)
    (next : Shared ι → Shared ι × Txn) : Option (Shared ι × Txn) :=
  (g.locks.acquire r i).map fun locks =>
    let g := { g with locks := locks }
    if seen = current then next g else raise i Orders.serializationFailure g t

/-- The statement after the coupon is settled. -/
def startDecrement (call : Call) (t : Txn) (coupon : Option (Coupon × Decimal)) : Txn :=
  { t with phase := nextLine call.lines, coupon := coupon }

/-- The statement of a session that has read its snapshot `s`; `none` when it waits for a
lock or has ended. -/
def statement (call : Call) (i : ι) (clock : Clock) (fresh : Uuid) (s : Tables) (g : Shared ι)
    (t : Txn) : Option (Shared ι × Txn) :=
  match t.phase with
  | .lockProducts [] => some (g, { t with phase := .priceItems })
  | .lockProducts (p :: rest) =>
    match Table.find Product.id p s.store.products with
    | none => some (g, { t with phase := .lockProducts rest })
    | some _ =>
      lockRow i (.product p) (s.productVersion p) (g.tables.productVersion p) g t fun g =>
        (g, { t with phase := .lockProducts rest })
  | .priceItems =>
    match call.price s.store with
    | .error e => some (raise i e g t)
    | .ok _ =>
      match call.data.couponCode with
      | none => some (g, startDecrement call t none)
      | some _ =>
        if call.coupons then some (g, { t with phase := .lockCoupon })
        else some (raise i
          (.validation "Coupons are not available" "coupon_unavailable") g t)
  | .lockCoupon =>
    match Table.find Coupon.code (call.data.couponCode.getD "") s.store.coupons with
    | none => some (raise i (.couponError "Coupon not found" "coupon_not_found") g t)
    | some coupon =>
      lockRow i (.coupon coupon.id) (s.couponVersion coupon.id)
        (g.tables.couponVersion coupon.id) g t fun g =>
          match checkEligibility (some coupon) (call.subtotal s.store) clock.now with
          | .error e => raise i e g t
          | .ok coupon => (g, { t with phase := .countRedemptions coupon })
  | .countRedemptions coupon =>
    -- `user.id` is read only for a coupon with a per-user limit
    if coupon.perUserLimit.isSome ∧ call.user.isSome ∧ t.expired then
      some (raise i .missingGreenlet g t)
    else match checkPerUser coupon (call.user.map (·.id))
        (userRedemptions s.store.redemptions coupon.id) with
      | .error e => some (raise i e g t)
      | .ok () => some (g, startDecrement call t
          (some (coupon, computeDiscount coupon (call.subtotal s.store))))
  | .lockStock line rest =>
    match Table.find Product.id line.1 (t.view s).products with
    | none => some (raise i (.notFound "Product not found" "product_not_found") g t)
    | some product =>
      lockRow i (.product line.1) (s.productVersion line.1) (g.tables.productVersion line.1) g t
        fun g =>
          if product.stockQuantity < line.2 then
            raise i (.insufficientStock
              s!"Insufficient stock: requested {line.2}, available {product.stockQuantity}") g t
          else (g, { t with phase := .writeStock line rest })
  | .writeStock line rest =>
    match Table.find Product.id line.1 (t.view s).products with
    | none => some (raise i (.notFound "Product not found" "product_not_found") g t)
    | some product => some (g, { t with
        phase := nextLine rest
        writes := t.writes ++ [.stock line.1 (product.stockQuantity - line.2)] })
  | .lockNumbers =>
    -- `current_user.id` goes into `order_data` before the number is drawn
    if call.user.isSome ∧ t.expired then some (raise i .missingGreenlet g t)
    else (g.locks.acquire (.numbers clock.day) i).map fun locks =>
      ({ g with locks := locks }, { t with phase := .readNumber clock.day })
  | .readNumber day =>
    some (g, { t with phase := .insertOrder ⟨day, nextCounter (t.view s).orders day⟩ })
  | .insertOrder number =>
    -- unique indexes see what is committed now, not the snapshot
    (g.locks.acquire (.key call.key) i).map fun locks =>
      let g := { g with locks := locks }
      match insertOrderCheck g.tables.store.orders (call.orderData s.store t.coupon) number with
      | .error e => raise i e g t
      | .ok phone =>
        let o := (call.orderData s.store t.coupon).row phone fresh number
          (itemRows (fresh + 1) (call.items s.store))
        (g, { t with phase := .insertItems o, writes := t.writes ++ [.order o] })
  | .insertItems o =>
    match t.coupon with
    | none => some (g, { t with phase := .commit o })
    | some _ => some (g, { t with phase := .updateCoupon o })
  | .updateCoupon o =>
    match t.coupon with
    | none => none
    | some (coupon, _) => some (g, { t with
        phase := .insertRedemption o
        writes := t.writes ++ [.coupon coupon.id (coupon.usedCount + 1)] })
  | .insertRedemption o =>
    match t.coupon with
    | none => none
    | some (coupon, _) => some (g, { t with
        phase := .commit o
        writes := t.writes ++ [.redemption ⟨coupon.id, call.user.map (·.id), o.id⟩] })
  | .commit o =>
    some (⟨g.tables.commit t.writes, g.locks.release i⟩, { t with phase := .committed o })
  | _ => none

/-- One event of session `i`. `lateIsolation` tells whether the server accepts the
isolation level after the query that loaded the user. -/
def step (lateIsolation : Bool) (calls : ι → Call) (i : ι) (g : Shared ι) (t : Txn) :
    Event → Option (Shared ι × Txn)
  | .statement clock fresh =>
    match t.phase with
    | .setIsolation =>
      if (calls i).user.isSome ∧ !t.expired ∧ !lateIsolation then
        some (raise i (.dbapi "25001") g t)
      else some (g, { t with phase := .findKey })
    | .findKey =>
      -- the first query: the snapshot of the attempt is taken here
      let t := { t with snapshot := some g.tables }
      match Table.find Order.idempotencyKey (calls i).key g.tables.store.orders with
      | some existing => some (g, { t with phase := .commit existing })
      | none => some (g, { t with phase := .lockProducts ((calls i).rowOrder t.attempt) })
    | _ =>
      match t.snapshot with
      | none => none
      | some s => statement (calls i) i clock fresh s g t
  | .serializationFailure =>
    match t.phase with
    | .committed _ | .failed _ => none
    | .commit _ =>
      -- `get_db` commits outside the retried function
      some ({ g with locks := g.locks.release i },
        { t with phase := .failed Orders.serializationFailure })
    | _ => some (raise i Orders.serializationFailure g t)
  | .fault e =>
    match t.phase with
    | .committed _ | .failed _ => none
    | _ => some ({ g with locks := g.locks.release i }, { t with phase := .failed e })

/-- All requests before their first statement. -/
def init (ι : Type*) (tables : Tables) : Threads ι (Shared ι) Txn where
  shared := ⟨tables, fun _ => none⟩
  thread := fun _ => { phase := .setIsolation }

end Step

section Spec
variable {ι : Type*} [DecidableEq ι] {lateIsolation : Bool} {calls : ι → Call} {i : ι}
  {g g' : Shared ι} {t t' : Txn}

theorem lockRow_eq_some {r : Resource} {seen current : ℕ} {next : Shared ι → Shared ι × Txn}
    (h : lockRow i r seen current g t next = some (g', t')) :
    ∃ locks, g.locks.acquire r i = some locks ∧
      ((seen = current ∧ next { g with locks := locks } = (g', t')) ∨
        (seen ≠ current ∧
          raise i Orders.serializationFailure { g with locks := locks } t = (g', t'))) := by
  obtain ⟨locks, hl, h⟩ := Option.map_eq_some_iff.mp h
  refine ⟨locks, hl, ?_⟩
  dsimp only at h
  by_cases hv : seen = current
  · rw [if_pos hv] at h
    exact Or.inl ⟨hv, h⟩
  · rw [if_neg hv] at h
    exact Or.inr ⟨hv, h⟩

/-- A statement changes no other session's locks, and the committed tables only when it is
the commit. -/
structure SharedStep (i : ι) (g g' : Shared ι) (t : Txn) : Prop where
  tables : g'.tables = g.tables ∨
    ∃ o, t.phase = .commit o ∧ g'.tables = g.tables.commit t.writes
  locks : ∀ j, j ≠ i → ∀ r, g'.locks r = some j ↔ g.locks r = some j

omit [DecidableEq ι] in
theorem SharedStep.refl (i : ι) (g : Shared ι) (t : Txn) : SharedStep i g g t :=
  ⟨Or.inl rfl, fun _ _ _ => Iff.rfl⟩

theorem SharedStep.locked {r : Resource} {locks : Locks Resource ι}
    (h : g.locks.acquire r i = some locks) : SharedStep i g { g with locks := locks } t :=
  ⟨Or.inl rfl, fun _ hj r' => Locks.acquire_other h hj r'⟩

theorem SharedStep.released : SharedStep i g { g with locks := g.locks.release i } t :=
  ⟨Or.inl rfl, fun _ hj r => Locks.release_other hj r⟩

theorem SharedStep.lockedReleased {r : Resource} {locks : Locks Resource ι}
    (h : g.locks.acquire r i = some locks) :
    SharedStep i g { g with locks := Locks.release locks i } t :=
  ⟨Or.inl rfl, fun _ hj r' => (Locks.release_other hj r').trans (Locks.acquire_other h hj r')⟩

theorem lockRow_shared {r : Resource} {seen current : ℕ} {next : Shared ι → Shared ι × Txn}
    (h : lockRow i r seen current g t next = some (g', t'))
    (hnext : ∀ locks, g.locks.acquire r i = some locks →
      SharedStep i g (next { g with locks := locks }).1 t) : SharedStep i g g' t := by
  obtain ⟨locks, hl, ⟨-, h⟩ | ⟨-, h⟩⟩ := lockRow_eq_some h
  · have hstep := hnext locks hl
    rw [h] at hstep
    exact hstep
  · obtain ⟨rfl, -⟩ := Prod.mk.inj h
    exact SharedStep.lockedReleased hl

theorem statement_shared {call : Call} {clock : Clock} {fresh : Uuid} {s : Tables}
    (h : statement call i clock fresh s g t = some (g', t')) : SharedStep i g g' t := by
  unfold statement at h
  cases hp : t.phase with
  | setIsolation => simp [hp] at h
  | findKey => simp [hp] at h
  | lockProducts todo =>
    cases todo with
    | nil => simp only [hp] at h; cases h; exact SharedStep.refl ..
    | cons p rest =>
      simp only [hp] at h
      cases hf : Table.find Product.id p s.store.products with
      | none => simp only [hf] at h; cases h; exact SharedStep.refl ..
      | some row =>
        simp only [hf] at h
        exact lockRow_shared h fun locks hl => SharedStep.locked hl
  | priceItems =>
    simp only [hp] at h
    cases hpr : call.price s.store with
    | error e => simp only [hpr] at h; cases h; exact SharedStep.released
    | ok items =>
      simp only [hpr] at h
      cases hcode : call.data.couponCode with
      | none => simp only [hcode] at h; cases h; exact SharedStep.refl ..
      | some code =>
        simp only [hcode] at h
        split_ifs at h <;> cases h
        · exact SharedStep.refl ..
        · exact SharedStep.released
  | lockCoupon =>
    simp only [hp] at h
    cases hf : Table.find Coupon.code (call.data.couponCode.getD "") s.store.coupons with
    | none => simp only [hf] at h; cases h; exact SharedStep.released
    | some coupon =>
      simp only [hf] at h
      refine lockRow_shared h fun locks hl => ?_
      cases checkEligibility (some coupon) (call.subtotal s.store) clock.now with
      | error e => exact SharedStep.lockedReleased hl
      | ok c => exact SharedStep.locked hl
  | countRedemptions coupon =>
    simp only [hp] at h
    split_ifs at h
    · cases h; exact SharedStep.released
    · cases hc : checkPerUser coupon (call.user.map (·.id))
          (userRedemptions s.store.redemptions coupon.id) with
      | error e => simp only [hc] at h; cases h; exact SharedStep.released
      | ok u => simp only [hc] at h; cases h; exact SharedStep.refl ..
  | lockStock line rest =>
    simp only [hp] at h
    cases hf : Table.find Product.id line.1 (t.view s).products with
    | none => simp only [hf] at h; cases h; exact SharedStep.released
    | some product =>
      simp only [hf] at h
      refine lockRow_shared h fun locks hl => ?_
      split_ifs
      · exact SharedStep.lockedReleased hl
      · exact SharedStep.locked hl
  | writeStock line rest =>
    simp only [hp] at h
    cases hf : Table.find Product.id line.1 (t.view s).products with
    | none => simp only [hf] at h; cases h; exact SharedStep.released
    | some product => simp only [hf] at h; cases h; exact SharedStep.refl ..
  | lockNumbers =>
    simp only [hp] at h
    split_ifs at h
    · cases h; exact SharedStep.released
    · obtain ⟨locks, hl, h⟩ := Option.map_eq_some_iff.mp h
      cases h
      exact SharedStep.locked hl
  | readNumber day => simp only [hp] at h; cases h; exact SharedStep.refl ..
  | insertOrder number =>
    simp only [hp] at h
    obtain ⟨locks, hl, h⟩ := Option.map_eq_some_iff.mp h
    cases hi : insertOrderCheck g.tables.store.orders (call.orderData s.store t.coupon) number with
    | error e => simp only [hi] at h; cases h; exact SharedStep.lockedReleased hl
    | ok phone => simp only [hi] at h; cases h; exact SharedStep.locked hl
  | insertItems o =>
    simp only [hp] at h
    cases hc : t.coupon with
    | none => simp only [hc] at h; cases h; exact SharedStep.refl ..
    | some c => simp only [hc] at h; cases h; exact SharedStep.refl ..
  | updateCoupon o =>
    simp only [hp] at h
    cases hc : t.coupon with
    | none => simp [hc] at h
    | some c => simp only [hc] at h; cases h; exact SharedStep.refl ..
  | insertRedemption o =>
    simp only [hp] at h
    cases hc : t.coupon with
    | none => simp [hc] at h
    | some c => simp only [hc] at h; cases h; exact SharedStep.refl ..
  | commit o =>
    simp only [hp] at h
    cases h
    exact ⟨Or.inr ⟨o, hp, rfl⟩, fun _ hj r => Locks.release_other hj r⟩
  | committed o => simp [hp] at h
  | failed e => simp [hp] at h

theorem step_shared {e : Event} (h : step lateIsolation calls i g t e = some (g', t')) :
    SharedStep i g g' t := by
  cases e with
  | statement clock fresh =>
    have hrest : ∀ s, statement (calls i) i clock fresh s g t = some (g', t') →
        SharedStep i g g' t := fun s hs => statement_shared hs
    unfold step at h
    cases hp : t.phase with
    | setIsolation =>
      simp only [hp] at h
      split_ifs at h <;> cases h
      · exact SharedStep.released
      · exact SharedStep.refl ..
    | findKey =>
      simp only [hp] at h
      cases hf : Table.find Order.idempotencyKey (calls i).key g.tables.store.orders with
      | none => simp only [hf] at h; cases h; exact SharedStep.refl ..
      | some o => simp only [hf] at h; cases h; exact SharedStep.refl ..
    | _ =>
      simp only [hp] at h
      cases hsn : t.snapshot with
      | none => simp [hsn] at h
      | some s => simp only [hsn] at h; exact hrest s h
  | serializationFailure =>
    unfold step at h
    cases hp : t.phase with
    | committed o => simp [hp] at h
    | failed e => simp [hp] at h
    | _ => simp only [hp] at h; cases h; exact SharedStep.released
  | fault e =>
    unfold step at h
    cases hp : t.phase with
    | committed o => simp [hp] at h
    | failed e => simp [hp] at h
    | _ => simp only [hp] at h; cases h; exact SharedStep.released

end Spec

end Qiki.Concurrency.Checkout
