import Qiki.Orders.CheckoutPayload
import Qiki.Orders.CheckoutRows
import Qiki.Orders.Discounts

/-! Whether the rows of an accepted checkout fit the columns of the order tables. -/
namespace Qiki.Orders

/-! What the steps before the insert can raise. -/

/-- `numeric_value_out_of_range` and `not_null_violation`. -/
def Exn.isStorageError (e : Exn) : Bool := e ∈ [.dbapi "22003", .dbapi "23502"]

/-- No call ends with an error of a column. -/
def RaisesNoStorageError {α : Type} (m : Db α) : Prop :=
  ∀ s e, m s = .error e → e.isStorageError = false

section
variable {α β : Type}

theorem RaisesNoStorageError.bind {x : Db α} {f : α → Db β} (hx : RaisesNoStorageError x)
    (hf : ∀ a, RaisesNoStorageError (f a)) : RaisesNoStorageError (x >>= f) := by
  intro s e h
  change (x s >>= fun p => f p.1 p.2) = _ at h
  rcases Except.bind_eq_error h with h | ⟨r, -, h⟩
  · exact hx s e h
  · exact hf r.1 r.2 e h

theorem raisesNoStorageError_pure (a : α) : RaisesNoStorageError (pure a : Db α) := by
  intro s e h
  cases h

theorem raisesNoStorageError_raise {e : Exn} (he : e.isStorageError = false) :
    RaisesNoStorageError (raise e : Db α) := by
  intro s e' h
  rw [← Except.error.inj h]
  exact he

theorem raisesNoStorageError_execute : RaisesNoStorageError execute := by
  intro s e h
  unfold execute at h
  split_ifs at h
  rw [← Except.error.inj h]
  decide

theorem raisesNoStorageError_getStore : RaisesNoStorageError getStore := by
  intro s e h
  cases h

theorem raisesNoStorageError_setStore (t : Store) : RaisesNoStorageError (setStore t) := by
  intro s e h
  cases h

theorem raisesNoStorageError_setTransactionSerializable :
    RaisesNoStorageError setTransactionSerializable := by
  intro s e h
  unfold setTransactionSerializable at h
  split_ifs at h
  · rw [← Except.error.inj h]
    decide
  · rw [← Except.error.inj h]
    decide

theorem raisesNoStorageError_readUserId (user : Option User) :
    RaisesNoStorageError (readUserId user) := by
  intro s e h
  unfold readUserId at h
  cases user with
  | none => cases h
  | some u =>
    dsimp only at h
    split_ifs at h
    rw [← Except.error.inj h]
    decide

theorem liftCheck_eq_error {r : Except Exn α} {s : Session} {e : Exn}
    (h : liftCheck r s = .error e) : r = .error e := by
  cases r with
  | ok a => cases h
  | error e' => rw [← Except.error.inj h]

theorem raisesNoStorageError_liftCheck {r : Except Exn α}
    (hr : ∀ e, r = .error e → e.isStorageError = false) : RaisesNoStorageError (liftCheck r) := by
  intro s e h
  exact hr e (liftCheck_eq_error h)

/-- An error of a column comes from behind a step that raises none. -/
theorem storageError_bind {x : Db α} {f : α → Db β} {s : Session} {e : Exn}
    (hx : RaisesNoStorageError x) (h : (x >>= f) s = .error e) (he : e.isStorageError = true) :
    ∃ a t, x s = .ok (a, t) ∧ f a t = .error e := by
  change (x s >>= fun p => f p.1 p.2) = _ at h
  rcases Except.bind_eq_error h with h | ⟨r, hr, h⟩
  · rw [hx s e h] at he
    cases he
  · exact ⟨r.1, r.2, hr, h⟩

end

theorem raisesNoStorageError_checkProducts (products : List Product) (productIds : List Uuid) :
    RaisesNoStorageError (liftCheck (checkProducts products productIds)) := by
  apply raisesNoStorageError_liftCheck
  induction productIds with
  | nil => exact fun e h => nomatch h
  | cons productId productIds ih =>
    intro e h
    unfold checkProducts at h
    split at h
    · rw [← Except.error.inj h]
      rfl
    · split_ifs at h
      · exact ih e h
      · rw [← Except.error.inj h]
        rfl

theorem raisesNoStorageError_priceLines (products : List Product) (exchange : List (Uuid × Bool))
    (lines : List (Uuid × ℕ)) :
    RaisesNoStorageError (liftCheck (priceLines products exchange lines)) := by
  apply raisesNoStorageError_liftCheck
  induction lines with
  | nil => exact fun e h => nomatch h
  | cons l lines ih =>
    intro e h
    rcases Except.bind_eq_error h with h | ⟨d, -, h⟩
    · unfold priceLine at h
      split at h
      · rw [← Except.error.inj h]
        rfl
      · split_ifs at h
        rw [← Except.error.inj h]
        rfl
    · rcases Except.bind_eq_error h with h | ⟨ds, -, h⟩
      · exact ih e h
      · cases h

theorem raisesNoStorageError_applyCoupon (code : String) (subtotal : Decimal) (user : Option User)
    (now : Timestamp) : RaisesNoStorageError (applyCoupon code subtotal user now) := by
  have hlimit (c : Coupon) (userId : Option Uuid) (used : Uuid → ℕ) :
      RaisesNoStorageError (liftCheck (checkPerUser c userId used)) := by
    apply raisesNoStorageError_liftCheck
    intro e h
    unfold checkPerUser at h
    split at h
    · cases h
    · split at h
      · rw [← Except.error.inj h]
        rfl
      · split_ifs at h
        rw [← Except.error.inj h]
        rfl
  have heligible (found : Option Coupon) :
      RaisesNoStorageError (liftCheck (checkEligibility found subtotal now)) := by
    apply raisesNoStorageError_liftCheck
    intro e h
    unfold checkEligibility at h
    split at h
    · rw [← Except.error.inj h]
      rfl
    · split_ifs at h <;> (rw [← Except.error.inj h]; rfl)
  have henforce (c : Coupon) : RaisesNoStorageError (enforcePerUserLimit c user) := by
    unfold enforcePerUserLimit
    split
    · exact raisesNoStorageError_pure ()
    · exact hlimit c none _
    · exact (raisesNoStorageError_readUserId _).bind fun userId =>
        raisesNoStorageError_execute.bind fun _ =>
        raisesNoStorageError_getStore.bind fun _ => hlimit c userId _
  have hfind : RaisesNoStorageError (getByCodeForUpdate code) :=
    raisesNoStorageError_execute.bind fun _ =>
      raisesNoStorageError_getStore.bind fun _ => raisesNoStorageError_pure _
  exact hfind.bind fun found => (heligible found).bind fun c =>
    (henforce c).bind fun _ => raisesNoStorageError_pure _

theorem raisesNoStorageError_applyCheckoutCoupon (coupons : Bool) (code : Option String)
    (subtotal : Decimal) (user : Option User) (now : Timestamp) :
    RaisesNoStorageError (applyCheckoutCoupon coupons code subtotal user now) := by
  unfold applyCheckoutCoupon
  split
  · exact raisesNoStorageError_pure _
  · split_ifs
    · exact raisesNoStorageError_raise rfl
    · exact (raisesNoStorageError_applyCoupon _ _ _ _).bind fun _ => raisesNoStorageError_pure _

theorem raisesNoStorageError_decrementAll (lines : List (Uuid × ℕ)) :
    RaisesNoStorageError (decrementAll lines) := by
  have hline (productId : Uuid) (quantity : ℕ) :
      RaisesNoStorageError (decrementStock productId quantity) := by
    refine raisesNoStorageError_execute.bind fun _ => raisesNoStorageError_getStore.bind fun s => ?_
    split
    · exact raisesNoStorageError_raise rfl
    · split_ifs
      · exact raisesNoStorageError_raise rfl
      · exact raisesNoStorageError_execute.bind fun _ => raisesNoStorageError_setStore _
  induction lines with
  | nil => exact raisesNoStorageError_pure ()
  | cons l lines ih => exact (hline l.1 l.2).bind fun _ => ih

section
variable (coupons : Bool) (checkoutData : CheckoutRequest) (currentUser : Option User)
  (key : Uuid) (clock : Clock)

theorem raisesNoStorageError_checkoutRows :
    RaisesNoStorageError (checkoutRows coupons checkoutData currentUser key clock) := by
  have hproducts (ids : List Uuid) : RaisesNoStorageError (getManyForUpdate ids) :=
    raisesNoStorageError_execute.bind fun _ =>
      raisesNoStorageError_getStore.bind fun _ => raisesNoStorageError_pure _
  exact (hproducts _).bind fun products =>
    (raisesNoStorageError_checkProducts _ _).bind fun _ =>
    (raisesNoStorageError_priceLines _ _ _).bind fun items =>
    (raisesNoStorageError_applyCheckoutCoupon _ _ _ _ _).bind fun _ =>
    (raisesNoStorageError_decrementAll _).bind fun _ =>
    (raisesNoStorageError_readUserId _).bind fun _ => raisesNoStorageError_pure _

theorem raisesNoStorageError_recordCheckoutRedemption (coupon : Option Coupon) (orderId : Uuid) :
    RaisesNoStorageError (recordCheckoutRedemption coupon currentUser orderId) := by
  unfold recordCheckoutRedemption
  split
  · exact raisesNoStorageError_pure ()
  · exact (raisesNoStorageError_readUserId _).bind fun _ =>
      raisesNoStorageError_execute.bind fun _ => raisesNoStorageError_execute.bind fun _ =>
      raisesNoStorageError_getStore.bind fun _ => raisesNoStorageError_setStore _

/-- Only the insert of the order can end in an error of a column. -/
theorem storageError_createWithItems {orderData : OrderData} {items : List ItemData}
    {s : Session} {e : Exn} (h : createWithItems orderData items clock s = .error e)
    (he : e.isStorageError = true) :
    ∃ orders number, insertOrderCheck orders orderData number = .error e := by
  have hnumber : RaisesNoStorageError (nextOrderNumber clock.day) :=
    raisesNoStorageError_execute.bind fun _ => raisesNoStorageError_execute.bind fun _ =>
      raisesNoStorageError_getStore.bind fun _ => raisesNoStorageError_pure _
  obtain ⟨number, s₁, -, h⟩ := storageError_bind hnumber h he
  obtain ⟨_, s₂, -, h⟩ := storageError_bind raisesNoStorageError_execute h he
  obtain ⟨store, s₃, -, h⟩ := storageError_bind raisesNoStorageError_getStore h he
  refine ⟨store.orders, number, ?_⟩
  change (liftCheck (insertOrderCheck store.orders orderData number) s₃ >>= _) = _ at h
  rcases Except.bind_eq_error h with h | ⟨⟨phone, s₄⟩, -, h⟩
  · exact liftCheck_eq_error h
  · obtain ⟨_, s₅, -, h⟩ := storageError_bind raisesNoStorageError_execute h he
    obtain ⟨_, s₆, -, h⟩ := storageError_bind (raisesNoStorageError_setStore _) h he
    obtain ⟨_, s₇, -, h⟩ := storageError_bind raisesNoStorageError_execute h he
    cases h

end

/-! What the columns hold. -/

/-- A row that `ProductCreate` admits, in columns of type `NUMERIC(10, 2)`. -/
structure Product.Admitted (p : Product) : Prop where
  price : 0 ≤ p.price ∧ p.price < 10 ^ 8 ∧ IsCents p.price
  salePrice : ∀ sale ∈ p.salePrice, 0 ≤ sale ∧ sale < 10 ^ 8 ∧ IsCents sale

/-- A phone number in its normal form: `+84` and nine digits. -/
def IsVietnamesePhone (phone : String) : Prop :=
  ∃ x, Chat.IsSubscriber x ∧ phone.toList = ("+84" : Text) ++ x

/-- The rows fit the columns of `orders` and `order_items`. -/
structure Fits (rows : OrderData × List ItemData) : Prop where
  itemSubtotals : ∀ i ∈ rows.2, |i.subtotal| < 10 ^ 8
  subtotal : |rows.1.subtotal| < 10 ^ 8
  shippingFee : |rows.1.shippingFee| < 10 ^ 8
  totalAmount : |rows.1.totalAmount| < 10 ^ 8
  customerPhone : ∃ phone, rows.1.checkout.customerPhone = some phone ∧ IsVietnamesePhone phone

theorem not_storageError_of_fits {rows : OrderData × List ItemData} (h : Fits rows)
    {orders : List Order} {number : OrderNumber} {e : Exn}
    (he : insertOrderCheck orders rows.1 number = .error e) : e.isStorageError = false := by
  obtain ⟨phone, hphone, -⟩ := h.customerPhone
  unfold insertOrderCheck at he
  rw [hphone] at he
  split_ifs at he with hlength hamounts
  · rw [← Except.error.inj he]
    decide
  · exfalso
    rcases hamounts with hlarge | hlarge | hlarge
    · exact absurd ((le_abs_self _).trans_lt h.subtotal) (not_lt.mpr hlarge)
    · exact absurd ((le_abs_self _).trans_lt h.shippingFee) (not_lt.mpr hlarge)
    · exact absurd ((le_abs_self _).trans_lt h.totalAmount) (not_lt.mpr hlarge)
  · rw [← Except.error.inj he]
    decide

/-- The normal form has a newline behind it exactly when the number was written with one. -/
theorem isVietnamesePhone_iff {db : Unicode.Database} {phone normalized : Text}
    (h : Chat.validatePhone db phone = some normalized) :
    IsVietnamesePhone (String.ofList normalized) ↔
      (Chat.phoneDigits db phone).getLast? ≠ some '\n' := by
  obtain ⟨x, tail, hx, htail, rfl, hdigits⟩ := Chat.validatePhone_eq_some.mp h
  obtain ⟨d, ds, rfl, -, hlength, -⟩ := id hx
  have hlast : (Chat.phoneDigits db phone).getLast? = (d :: ds ++ tail).getLast? := by
    rcases hdigits with hdigits | hdigits
    · rw [hdigits]
      rfl
    · rw [hdigits]
      rfl
  rw [hlast]
  rcases htail with rfl | rfl
  · constructor
    · rintro - hnewline
      rw [List.append_nil] at hnewline
      exact Chat.newline_not_mem_subscriber hx (List.mem_of_getLast? hnewline)
    · intro _
      exact ⟨d :: ds, hx, by rw [String.toList_ofList, List.append_nil]⟩
  · constructor
    · rintro ⟨y, ⟨e, es, rfl, -, hlength', -⟩, hy⟩
      exfalso
      rw [String.toList_ofList] at hy
      have hlengths := congrArg List.length (List.append_cancel_left hy)
      simp only [List.length_append, List.length_cons, List.length_nil] at hlengths
      omega
    · intro hno
      exact absurd List.getLast?_concat hno

section
variable {coupons : Bool} {checkoutData : CheckoutRequest} {currentUser : Option User} {key : Uuid}
  {clock : Clock} {r : PayloadReader} {p : CheckoutPayload} {store : Store}

/-- The condition under which the rows of an accepted payload fit. -/
structure WithinColumns (r : PayloadReader) (store : Store) (p : CheckoutPayload)
    (checkoutData : CheckoutRequest) : Prop where
  phone : p.customerPhone ≠ ""
  noNewline : (Chat.phoneDigits r.db p.customerPhone.toList).getLast? ≠ some '\n'
  subtotal : priceSum store.products checkoutData.items < 10 ^ 8
  total : priceSum store.products checkoutData.items + feeSum store.products checkoutData.items -
    couponDiscount store checkoutData.couponCode (priceSum store.products checkoutData.items) < 10 ^ 8

theorem fits_iff (haccepted : modelValidate r p = .ok checkoutData)
    (hcatalog : ∀ q ∈ store.products, q.Admitted) {rows : OrderData × List ItemData}
    (h : Handed store checkoutData rows) : Fits rows ↔ WithinColumns r store p checkoutData := by
  have hprices : ∀ q ∈ store.products, 0 ≤ q.price := fun q hq => (hcatalog q hq).price.1
  have hsubtotal := priceSum_nonneg hprices checkoutData.items
  have hfee := feeSum_nonneg store.products checkoutData.items
  have hdiscount : couponDiscount store checkoutData.couponCode
      (priceSum store.products checkoutData.items) ≤ priceSum store.products checkoutData.items := by
    unfold couponDiscount
    cases checkoutData.couponCode.bind fun text => Table.find Coupon.code text store.coupons with
    | none => exact hsubtotal
    | some c => exact (computeDiscount_bounds c hsubtotal).2
  have hphone : (∃ phone, checkoutData.customerPhone = some phone ∧ IsVietnamesePhone phone) ↔
      p.customerPhone ≠ "" ∧
        (Chat.phoneDigits r.db p.customerPhone.toList).getLast? ≠ some '\n' := by
    rcases customerPhone_of_modelValidate haccepted with ⟨hempty, hnone⟩ | ⟨normalized, hsome, hvalid,
      hdata⟩
    · rw [hnone]
      exact iff_of_false (fun ⟨_, h, _⟩ => nomatch h) fun h => h.1 hempty
    · rw [hdata]
      simp [hsome, isVietnamesePhone_iff hvalid]
  constructor
  · intro hfits
    obtain ⟨hsome, hnewline⟩ := hphone.mp (h.checkout ▸ hfits.customerPhone)
    refine ⟨hsome, hnewline, ?_, ?_⟩
    · rw [← h.subtotal]
      exact (le_abs_self _).trans_lt hfits.subtotal
    · have htotal := (le_abs_self _).trans_lt hfits.totalAmount
      rw [h.totalAmount] at htotal
      exact (le_max_right _ _).trans_lt htotal
  · intro hwithin
    have htotal := hwithin.total
    have hlt : rows.1.subtotal < 10 ^ 8 := by
      rw [h.subtotal]
      exact hwithin.subtotal
    refine ⟨fun i hi => ?_, ?_, ?_, ?_, ?_⟩
    · rw [abs_of_nonneg (h.itemsNonneg hprices i hi)]
      have hle : i.subtotal ≤ (rows.2.map (·.subtotal)).sum := by
        apply List.single_le_sum
        · intro x hx
          obtain ⟨j, hj, rfl⟩ := List.mem_map.mp hx
          exact h.itemsNonneg hprices j hj
        · exact List.mem_map_of_mem hi
      rw [h.items] at hle
      exact hle.trans_lt hlt
    · rw [abs_of_nonneg (h.subtotal ▸ hsubtotal)]
      exact hlt
    · rw [h.shippingFee, abs_of_nonneg hfee]
      linarith
    · rw [h.totalAmount, abs_of_nonneg (le_max_left _ _)]
      exact max_lt (by norm_num) htotal
    · rw [h.checkout]
      exact hphone.mpr ⟨hwithin.phone, hwithin.noNewline⟩

end

/-- Every value that the checkout of a new key hands to the database fits its column, and no error
of a column ends it. -/
structure CanBeStored (coupons : Bool) (checkoutData : CheckoutRequest) (currentUser : Option User)
    (key : Uuid) (clock : Clock) (store : Store) : Prop where
  rows : Table.find Order.idempotencyKey key store.orders = none → ∀ s t rows, s.store = store →
    checkoutRows coupons checkoutData currentUser key clock s = .ok (rows, t) → Fits rows
  ends : ∀ s e, s.store = store →
    createOrder coupons checkoutData currentUser key clock s = .error e → e.isStorageError = false

/-- An error of a column ends the checkout only when its key is new and its rows do not fit. -/
theorem checkoutRows_of_storageError {coupons : Bool} {checkoutData : CheckoutRequest}
    {currentUser : Option User} {key : Uuid} {clock : Clock} {s : Session} {e : Exn}
    (h : createOrder coupons checkoutData currentUser key clock s = .error e)
    (he : e.isStorageError = true) : Table.find Order.idempotencyKey key s.store.orders = none ∧
    ∃ s' t rows, s'.store = s.store ∧
      checkoutRows coupons checkoutData currentUser key clock s' = .ok (rows, t) ∧ ¬ Fits rows := by
  have hkeys : RaisesNoStorageError (getByIdempotencyKey key) :=
    raisesNoStorageError_execute.bind fun _ =>
      raisesNoStorageError_getStore.bind fun _ => raisesNoStorageError_pure _
  obtain ⟨_, s₁, h₁, h⟩ :=
    storageError_bind raisesNoStorageError_setTransactionSerializable h he
  obtain ⟨found, s₂, h₂, h⟩ := storageError_bind hkeys h he
  obtain ⟨hread, hfound⟩ := getByIdempotencyKey_eq_ok h₂
  have hs₁ : s₁.store = s.store := setTransactionSerializable_store h₁
  have hs₂ : s₂.store = s.store := hread.trans hs₁
  cases found with
  | some existing => cases h
  | none =>
    have hplace : placeOrder coupons checkoutData currentUser key clock s₂ = .error e := h
    rw [placeOrder_eq] at hplace
    obtain ⟨rows, s₃, h₃, h⟩ := storageError_bind
      (raisesNoStorageError_checkoutRows coupons checkoutData currentUser key clock) hplace he
    refine ⟨hs₁ ▸ hfound.symm, s₂, s₃, rows, hs₂, h₃, fun hfits => ?_⟩
    change (createWithItems rows.1 rows.2 clock s₃ >>= _) = _ at h
    rcases Except.bind_eq_error h with h | ⟨⟨order, s₄⟩, -, h⟩
    · obtain ⟨orders, number, hcheck⟩ := storageError_createWithItems clock h he
      rw [not_storageError_of_fits hfits hcheck] at he
      cases he
    · obtain ⟨_, s₅, -, h⟩ :=
        storageError_bind (raisesNoStorageError_recordCheckoutRedemption currentUser _ _) h he
      cases h

/-- The rows of an accepted checkout with a new key fit exactly when its phone is there, with no
newline behind its digits, and its sums are below the bound of their columns. -/
theorem checkout_storable (r : PayloadReader) {p : CheckoutPayload} {checkoutData : CheckoutRequest}
    (haccepted : modelValidate r p = .ok checkoutData) {store : Store}
    (hcatalog : ∀ q ∈ store.products, q.Admitted) (coupons : Bool) (currentUser : Option User)
    (key : Uuid) (clock : Clock) :
    CanBeStored coupons checkoutData currentUser key clock store ↔
      (Table.find Order.idempotencyKey key store.orders = none →
        FindsStock store.products checkoutData →
        CouponAccepted coupons store checkoutData.couponCode
          (priceSum store.products checkoutData.items) currentUser clock.now →
        WithinColumns r store p checkoutData) := by
  constructor
  · intro hstored hnew hstock hcoupon
    obtain ⟨s, t, rows, rfl, hrows⟩ := (checkoutRows_isOk coupons checkoutData currentUser key clock
      store).mpr ⟨hstock, hcoupon⟩
    exact (fits_iff haccepted hcatalog (checkoutRows_eq_ok hrows).2.2).mp
      (hstored.rows hnew s t rows rfl hrows)
  · intro hwithin
    have hfits : Table.find Order.idempotencyKey key store.orders = none → ∀ s t rows,
        s.store = store →
        checkoutRows coupons checkoutData currentUser key clock s = .ok (rows, t) → Fits rows := by
      rintro hnew s t rows rfl hrows
      obtain ⟨hstock, hcoupon, hhanded⟩ := checkoutRows_eq_ok hrows
      exact (fits_iff haccepted hcatalog hhanded).mpr (hwithin hnew hstock hcoupon)
    refine ⟨hfits, fun s e hs h => ?_⟩
    by_contra he
    obtain ⟨hnew, s', t, rows, hs', hrows, hnot⟩ :=
      checkoutRows_of_storageError h (Bool.eq_true_of_not_eq_false he)
    exact hnot (hfits (hs ▸ hnew) s' t rows (hs'.trans hs) hrows)

/-! A shop with a thousand cylinders. -/

def depot : Store where
  products := [{
    id := 1, sku := "GAS12", name := "Gas 12kg", brand := "Petro", sizeKg := 12,
    category := .gas, unit := "kg", price := 250000, salePrice := none, stockQuantity := 1000,
    isActive := true }]
  orders := []
  deliveries := []
  coupons := []
  redemptions := []
  users := []
  nextId := 100

theorem depot_admitted : ∀ q ∈ depot.products, q.Admitted := by
  intro q hq
  obtain rfl := List.mem_singleton.mp hq
  refine ⟨⟨by norm_num, by norm_num, 25000000, by norm_num⟩, fun sale hsale => ?_⟩
  cases hsale

/-- Lan orders cylinders, on several lines. -/
def lanPayload (phone : String) (lines : List ℤ) : CheckoutPayload where
  items := lines.map fun quantity => ⟨1, quantity, false⟩
  customerName := "Lan"
  customerPhone := phone
  deliveryAddress := "12 Lê Lợi"

def lanRequest (phone : Option String) (lines : List ℕ) : CheckoutRequest where
  items := lines.map fun quantity => ⟨1, quantity, false⟩
  customerName := "Lan"
  customerPhone := phone
  deliveryAddress := "12 Lê Lợi"

theorem checkout_storable_lan :
    CanBeStored true (lanRequest (some "+84901234567") [1]) none 7 ⟨0, 20260101⟩ depot := by
  have haccepted : modelValidate sampleReader (lanPayload "0901234567" [1]) =
      .ok (lanRequest (some "+84901234567") [1]) := by rfl
  refine (checkout_storable sampleReader haccepted depot_admitted true none 7 ⟨0, 20260101⟩).mpr
    fun _ _ _ => ?_
  constructor
  · decide
  · decide
  · decide +kernel
  · decide +kernel

/-- Five lines of a hundred cylinders. -/
def bulkLines : List ℕ := [100, 100, 100, 100, 100]

/-- An empty phone is accepted and becomes a null; five lines come to more than the column holds. -/
theorem empty_phone_not_stored :
    createOrder true (lanRequest none [1]) none 7 ⟨0, 20260101⟩ { store := depot } =
        .error (.dbapi "23502") ∧
      createOrder true (lanRequest (some "+84901234567") bulkLines) none 7 ⟨0, 20260101⟩
        { store := depot } = .error (.dbapi "22003") ∧
      modelValidate sampleReader (lanPayload "0901234567" [100, 100, 100, 100, 100]) =
        .ok (lanRequest (some "+84901234567") bulkLines) ∧
      ¬ ∀ (r : PayloadReader) (p : CheckoutPayload) (checkoutData : CheckoutRequest) (store : Store)
        (coupons : Bool) (currentUser : Option User) (key : Uuid) (clock : Clock),
        modelValidate r p = .ok checkoutData → (∀ q ∈ store.products, q.Admitted) →
        FindsStock store.products checkoutData →
        CanBeStored coupons checkoutData currentUser key clock store := by
  have hnull : createOrder true (lanRequest none [1]) none 7 ⟨0, 20260101⟩ { store := depot } =
      .error (.dbapi "23502") := by decide +kernel
  refine ⟨hnull, by decide +kernel, by rfl, fun hclaim => ?_⟩
  have hstock : FindsStock depot.products (lanRequest none [1]) := ⟨by rfl, _, by rfl⟩
  have hstored := hclaim sampleReader (lanPayload "" [1]) (lanRequest none [1]) depot true none 7
    ⟨0, 20260101⟩ (by rfl) depot_admitted hstock
  have hclean := hstored.ends { store := depot } _ rfl hnull
  revert hclean
  decide

end Qiki.Orders
