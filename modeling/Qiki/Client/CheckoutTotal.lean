import Qiki.Client.CartAmounts
import Qiki.Orders.CheckoutRows
import Qiki.Orders.Discounts

/-! The total that the checkout page shows, beside the one that `create_order` charges. -/
namespace Qiki.Orders

/-- The rules of a coupon: everything but how often it was used. -/
def Coupon.rules (c : Coupon) : Coupon := { c with usedCount := 0 }

/-- `CODE_PATTERN`: `^[A-Z0-9-]{3,50}$` -/
def couponChar (c : Char) : Bool := ('A' ≤ c && c ≤ 'Z') || ('0' ≤ c && c ≤ '9') || c == '-'

def isCouponCode (code : String) : Bool := hasLength 3 50 code && code.toList.all couponChar

/-- `str.upper` and `str.strip` keep the characters of coupon codes. -/
def PayloadReader.KeepsCodes (r : PayloadReader) : Prop :=
  ∀ c, couponChar c = true → r.upper c = [c] ∧ r.db.space c = false

theorem normalizeCouponCode_of_code {r : PayloadReader} (hr : r.KeepsCodes) {code : String}
    (hcode : isCouponCode code = true) : normalizeCouponCode r (some code) = some code := by
  rw [isCouponCode, Bool.and_eq_true, List.all_eq_true] at hcode
  obtain ⟨hlength, hchars⟩ := hcode
  have hupper (s : Text) (hs : ∀ c ∈ s, couponChar c = true) : s.flatMap r.upper = s := by
    induction s with
    | nil => rfl
    | cons c s ih =>
      rw [List.flatMap_cons, (hr c (hs c List.mem_cons_self)).1,
        ih fun d hd => hs d (List.mem_cons_of_mem c hd), List.singleton_append]
  have hkept : r.upperStrip code = code := by
    unfold PayloadReader.upperStrip
    rw [hupper _ hchars, Text.strip_of_not_drop fun c hc => (hr c (hchars c hc)).2,
      String.ofList_toList]
  have hne : code ≠ "" := by
    rintro rfl
    revert hlength
    decide
  unfold normalizeCouponCode
  rw [Option.map_some, hkept, Option.filter_some, if_pos (decide_eq_true hne)]

/-- The columns of the amounts keep two decimal places. -/
def Coupon.InCents (c : Coupon) : Prop :=
  (∃ k : ℤ, c.value = k / 100) ∧ ∀ cap ∈ c.maxDiscount, ∃ k : ℤ, cap = k / 100

/-- On a whole subtotal a discount comes to hundredths. -/
theorem computeDiscount_inCents {c : Coupon} (hc : c.InCents) (n : ℤ) :
    ∃ k : ℤ, computeDiscount c n = k / 100 := by
  obtain ⟨⟨v, hv⟩, hcap⟩ := hc
  have hraw : ∃ k : ℤ, rawDiscount c n = k / 100 := by
    unfold rawDiscount
    cases hmax : c.maxDiscount with
    | none =>
      cases c.discountType with
      | percent => exact ⟨_, quantizeCents_eq _⟩
      | fixed => exact ⟨v, hv⟩
    | some cap =>
      dsimp only
      split_ifs
      · exact hcap cap hmax
      · cases c.discountType with
        | percent => exact ⟨_, quantizeCents_eq _⟩
        | fixed => exact ⟨v, hv⟩
  unfold computeDiscount
  dsimp only
  split_ifs
  · exact ⟨0, by norm_num⟩
  · exact ⟨n * 100, by push_cast; ring⟩
  · exact ⟨0, by norm_num⟩
  · exact hraw

theorem insertOrderCheck_amounts {orders : List Order} {d : OrderData} {n : OrderNumber}
    {phone : String} (h : insertOrderCheck orders d n = .ok phone) :
    d.subtotal < 10 ^ 8 ∧ d.shippingFee < 10 ^ 8 := by
  have hfits : ¬(10 ^ 8 ≤ d.subtotal ∨ 10 ^ 8 ≤ d.shippingFee ∨ 10 ^ 8 ≤ d.totalAmount) := by
    intro hlarge
    unfold insertOrderCheck at h
    rw [if_pos hlarge] at h
    split_ifs at h
  rw [not_or, not_or] at hfits
  exact ⟨not_le.mp hfits.1, not_le.mp hfits.2.1⟩

/-- The amounts of a stored order fit their columns. -/
theorem placeOrder_small {coupons : Bool} {checkoutData : CheckoutRequest}
    {currentUser : Option User} {key : Uuid} {clock : Clock} {s t : Session} {o : Order}
    (h : placeOrder coupons checkoutData currentUser key clock s = .ok (o, t)) :
    o.subtotal < 10 ^ 8 ∧ o.shippingFee < 10 ^ 8 := by
  obtain ⟨products, items, coupon, discount, s₁, s₂, s₃, s₄, -, -, -, -, -, -, hcreate, -⟩ :=
    placeOrder_stages h
  obtain ⟨phone, hinsert, rfl, -⟩ := createWithItems_eq_ok hcreate
  exact insertOrderCheck_amounts hinsert

end Qiki.Orders

namespace Qiki.Client

open Orders Rounding Catalog

/-- The coupons are the same but for their uses. -/
def SameRules (a b : List Coupon) : Prop := a.map Coupon.rules = b.map Coupon.rules

theorem find_of_sameRules {a b : List Coupon} (h : SameRules a b) {code : String} {c : Coupon}
    (hc : Table.find Coupon.code code a = some c) :
    ∃ c', Table.find Coupon.code code b = some c' ∧
      ∀ s, computeDiscount c' s = computeDiscount c s := by
  have hfind (l : List Coupon) : Table.find Coupon.code code (l.map Coupon.rules) =
      (Table.find Coupon.code code l).map Coupon.rules := by
    unfold Table.find
    rw [List.find?_map]
    rfl
  have hrules := hfind a
  rw [h, hfind b, hc, Option.map_some, Option.map_eq_some_iff] at hrules
  obtain ⟨c', hc', heq⟩ := hrules
  refine ⟨c', hc', fun s => ?_⟩
  have hdiscount : computeDiscount c'.rules s = computeDiscount c.rules s := by rw [heq]
  exact hdiscount

/-- The catalog and the rules of the coupons are those of the checkout. -/
def ShopEvent.Unchanged (store : Store) : ShopEvent → Prop
  | .addItem product _ => ∃ p, Table.find Product.id product.id store.products = some p ∧
      p.effectivePrice = effectivePriceValue product.price product.salePrice ∧
      p.category = product.category
  | .couponAnswered _ coupons _ => SameRules coupons store.coupons
  | _ => True

/-- Only products with a whole price go into the cart. -/
def ShopEvent.WholePriced : ShopEvent → Prop
  | .addItem product _ => WholeDong (effectivePriceValue product.price product.salePrice)
  | _ => True

/-! The subtotal for which the coupon in use was validated. -/

section
variable (r : PayloadReader)

def validatedStep (page : ShopPage) (validatedAt : Option Decimal) : ShopEvent → Option Decimal
  | .couponAnswered request coupons now =>
    match page.validating[request]? with
    | none => validatedAt
    | some (code, subtotal) =>
      (validateCoupon r coupons now code subtotal).map fun _ => subtotal
  | .couponFailed request => if request < page.validating.length then none else validatedAt
  | .removeCoupon => none
  | .resetCheckout => none
  | .reload => none
  | _ => validatedAt

def traceStep (s : ShopPage × Option Decimal) (e : ShopEvent) : ShopPage × Option Decimal :=
  (s.1.apply r e, validatedStep r s.1 s.2 e)

/-- The page after a visit, with the subtotal for which its coupon was validated. -/
def traced (events : List ShopEvent) : ShopPage × Option Decimal :=
  events.foldl (traceStep r) ({}, none)

theorem traced_page (events : List ShopEvent) : (traced r events).1 = ShopPage.after r events := by
  have hrun (s : ShopPage × Option Decimal) :
      (events.foldl (traceStep r) s).1 = events.foldl (ShopPage.apply r) s.1 := by
    induction events generalizing s with
    | nil => rfl
    | cons e events ih => exact ih (traceStep r s e)
  exact hrun ({}, none)

/-- The subtotal that was sent with the coupon in use. -/
def validatedAt (events : List ShopEvent) : Option Decimal := (traced r events).2

end

/-! What the page knows is what the server has. -/

/-- The line carries the price and the category of its product, and the price is whole. -/
def CartItem.Mirrors (store : Store) (item : CartItem) : Prop :=
  ∃ p, Table.find Product.id item.productId store.products = some p ∧
    item.price = p.effectivePrice ∧ (∃ n : ℕ, item.price = n) ∧ item.category = some p.category

/-- The prices of the catalog fit their columns. -/
def PricesInRange (store : Store) : Prop := ∀ p ∈ store.products, 0 ≤ p.price ∧ p.price < 10 ^ 8

structure Mirrors (store : Store) (s : ShopPage × Option Decimal) : Prop where
  items : ∀ item ∈ s.1.items, item.Mirrors store
  validating : ∀ sent ∈ s.1.validating, ∃ n : ℤ, sent.2 = n
  coupon : ∀ code, s.1.couponCode = some code → ∃ c, ∃ subtotal : ℤ,
    Table.find Coupon.code code store.coupons = some c ∧ s.2 = some (subtotal : Decimal) ∧
      s.1.discountAmount = double (computeDiscount c subtotal)

section
variable {r : PayloadReader} {store : Store} {items : List CartItem}

/-- A product whose price is that of the catalog, as the cart reads it. -/
theorem price_of_unchanged (hprices : PricesInRange store) {product : Product} {quantity : ℤ}
    (hproduct : (ShopEvent.addItem product quantity).Unchanged store)
    (hwhole : (ShopEvent.addItem product quantity).WholePriced) :
    ∃ p, Table.find Product.id product.id store.products = some p ∧
      effectivePriceValue (double product.price) (product.salePrice.map double) =
        p.effectivePrice ∧
      (∃ n : ℕ, p.effectivePrice = n) ∧ p.category = product.category := by
  obtain ⟨p, hp, hprice, hcategory⟩ := hproduct
  obtain ⟨k, hk⟩ := hwhole
  obtain ⟨hnonneg, hsmall⟩ := hprices p (Table.mem_of_find hp)
  have heffective : 0 ≤ p.effectivePrice ∧ p.effectivePrice ≤ p.price := by
    refine ⟨effectivePrice_nonneg hnonneg, ?_⟩
    unfold Product.effectivePrice effectivePrice
    split
    · split_ifs with hsale
      · exact hsale.2.le
      · exact le_refl _
    · exact le_refl _
  rw [← hk] at hprice
  obtain ⟨n, rfl⟩ : ∃ n : ℕ, k = n := by
    have hpos : (0 : ℚ) ≤ k := hprice ▸ heffective.1
    exact Int.eq_ofNat_of_zero_le (by exact_mod_cast hpos)
  have hn : n < 2 ^ 53 := by
    have hlt : (n : ℚ) < 10 ^ 8 := by
      have hle := heffective.2.trans_lt hsmall
      rwa [hprice, Int.cast_natCast] at hle
    have hlt : n < 10 ^ 8 := by exact_mod_cast hlt
    omega
  refine ⟨p, hp, ?_, ⟨n, by rw [hprice, Int.cast_natCast]⟩, hcategory⟩
  rw [hprice]
  exact (effectivePriceValue_double (hk.symm.trans (Int.cast_natCast n)) hn).trans
    (Int.cast_natCast n).symm

theorem mirrors_addItem (hprices : PricesInRange store) (h : ∀ item ∈ items, item.Mirrors store)
    {product : Product} {quantity : ℤ}
    (hproduct : (ShopEvent.addItem product quantity).Unchanged store)
    (hwhole : (ShopEvent.addItem product quantity).WholePriced) :
    ∀ item ∈ addItem product quantity items, item.Mirrors store := by
  intro item hitem
  unfold addItem at hitem
  split_ifs at hitem
  · obtain ⟨old, hold, rfl⟩ := Table.mem_modify.mp hitem
    have hkept := h old hold
    split_ifs
    · exact hkept
    · exact hkept
  · rcases List.mem_append.mp hitem with hitem | hitem
    · exact h item hitem
    · obtain rfl := List.mem_singleton.mp hitem
      obtain ⟨p, hp, hprice, hwhole, hcategory⟩ := price_of_unchanged hprices hproduct hwhole
      exact ⟨p, hp, hprice, hprice ▸ hwhole, congrArg some hcategory.symm⟩

theorem mirrors_removeItem (h : ∀ item ∈ items, item.Mirrors store) (productId : Uuid) :
    ∀ item ∈ removeItem productId items, item.Mirrors store :=
  fun item hitem => h item (List.mem_of_mem_filter hitem)

theorem mirrors_updateQuantity (h : ∀ item ∈ items, item.Mirrors store) (productId : Uuid)
    (quantity : ℤ) : ∀ item ∈ updateQuantity productId quantity items, item.Mirrors store := by
  intro item hitem
  unfold updateQuantity at hitem
  split_ifs at hitem
  · exact mirrors_removeItem h productId item hitem
  · obtain ⟨old, hold, rfl⟩ := Table.mem_modify.mp hitem
    have hkept := h old hold
    split_ifs
    · exact hkept
    · exact hkept

/-- An accepted coupon is stored under the code of the answer, with its discount on the subtotal. -/
theorem validateCoupon_eq_some {coupons : List Coupon} {now : Timestamp} {code : String}
    {subtotal : Decimal} {result : CouponValidateResponse}
    (h : validateCoupon r coupons now code subtotal = some result) :
    ∃ c, Table.find Coupon.code result.code coupons = some c ∧
      result.discountAmount = computeDiscount c subtotal := by
  unfold validateCoupon at h
  split_ifs at h
  split at h
  next c heligible =>
    obtain rfl := Option.some.inj h
    have hfound := (checkEligibility_eq_ok heligible).1
    have hcode : c.code = r.upperStrip code := Table.key_of_find hfound
    refine ⟨c, ?_, rfl⟩
    dsimp only
    rw [hcode]
    exact hfound
  next => cases h

theorem Mirrors.step (hprices : PricesInRange store) {s : ShopPage × Option Decimal}
    (h : Mirrors store s) {e : ShopEvent} (he : e.Unchanged store) (hwhole : e.WholePriced) :
    Mirrors store (traceStep r s e) := by
  have hnone : ∀ code, (none : Option String) = some code → ∃ c, ∃ subtotal : ℤ,
      Table.find Coupon.code code store.coupons = some c ∧
        (none : Option Decimal) = some (subtotal : Decimal) ∧
          (0 : ℚ) = double (computeDiscount c subtotal) := fun code hcode => by cases hcode
  cases e with
  | addItem product quantity =>
    exact ⟨mirrors_addItem hprices h.items he hwhole, h.validating, h.coupon⟩
  | removeItem productId => exact ⟨mirrors_removeItem h.items productId, h.validating, h.coupon⟩
  | updateQuantity productId quantity =>
    exact ⟨mirrors_updateQuantity h.items productId quantity, h.validating, h.coupon⟩
  | clearCart => exact ⟨fun item hitem => (by cases hitem), h.validating, h.coupon⟩
  | applyCoupon codeInput =>
    unfold traceStep ShopPage.apply
    dsimp only
    split_ifs
    · exact h
    · refine ⟨h.items, fun sent hsent => ?_, h.coupon⟩
      rcases List.mem_append.mp hsent with hsent | hsent
      · exact h.validating sent hsent
      · obtain rfl := List.mem_singleton.mp hsent
        refine shortest_getTotal fun item hitem => ?_
        obtain ⟨p, -, -, ⟨n, hn⟩, -⟩ := h.items item hitem
        exact ⟨n, hn.trans (Int.cast_natCast n).symm⟩
  | couponAnswered request coupons now =>
    unfold traceStep ShopPage.apply validatedStep
    dsimp only
    cases hsent : s.1.validating[request]? with
    | none => exact h
    | some sent =>
      obtain ⟨subtotal, hsubtotal⟩ := h.validating sent (List.mem_of_getElem? hsent)
      obtain ⟨code, sentSubtotal⟩ := sent
      obtain rfl : sentSubtotal = subtotal := hsubtotal
      have hrest : ∀ sent ∈ s.1.validating.eraseIdx request, ∃ n : ℤ, sent.2 = n :=
        fun sent hmem => h.validating sent (List.mem_of_mem_eraseIdx hmem)
      dsimp only
      cases hresult : validateCoupon r coupons now code subtotal with
      | none => exact ⟨h.items, hrest, hnone⟩
      | some result =>
        refine ⟨h.items, hrest, fun code' hcode' => ?_⟩
        obtain rfl := Option.some.inj hcode'
        obtain ⟨c, hc, hdiscount⟩ := validateCoupon_eq_some hresult
        obtain ⟨c', hc', heq⟩ := find_of_sameRules he hc
        exact ⟨c', subtotal, hc', rfl, congrArg double (hdiscount.trans (heq subtotal).symm)⟩
  | couponFailed request =>
    unfold traceStep ShopPage.apply validatedStep
    dsimp only
    split_ifs
    · exact ⟨h.items, fun sent hmem => h.validating sent (List.mem_of_mem_eraseIdx hmem), hnone⟩
    · exact h
  | removeCoupon => exact ⟨h.items, h.validating, hnone⟩
  | resetCheckout => exact ⟨h.items, h.validating, hnone⟩
  | reload => exact ⟨h.items, fun sent hsent => (by cases hsent), hnone⟩

theorem mirrors_traced (hprices : PricesInRange store) {events : List ShopEvent}
    (h : ∀ e ∈ events, e.Unchanged store) (hwhole : ∀ e ∈ events, e.WholePriced) :
    Mirrors store (traced r events) := by
  have hrun (s : ShopPage × Option Decimal) (hs : Mirrors store s) :
      Mirrors store (events.foldl (traceStep r) s) := by
    induction events generalizing s with
    | nil => exact hs
    | cons e events ih =>
      exact ih (fun e' he' => h e' (List.mem_cons_of_mem e he'))
        (fun e' he' => hwhole e' (List.mem_cons_of_mem e he')) _
        (hs.step hprices (h e List.mem_cons_self) (hwhole e List.mem_cons_self))
  refine hrun _ ⟨fun item hitem => ?_, fun sent hsent => ?_, fun code hcode => ?_⟩
  · cases hitem
  · cases hsent
  · cases hcode

/-- The lines that `ConfirmStep` sends, as the server reads them. -/
def cartLines (items : List CartItem) : List OrderItemCreate :=
  items.map fun item => ⟨item.productId, item.quantity.toNat, false⟩

theorem quantity_toNat {item : CartItem} (hpos : 1 ≤ item.quantity) :
    ((item.quantity.toNat : ℕ) : Decimal) = item.quantity := by
  have hnat : (item.quantity.toNat : ℤ) = item.quantity := Int.toNat_of_nonneg (by omega)
  exact_mod_cast congrArg (fun z : ℤ => (z : Decimal)) hnat

/-- What a line comes to. -/
def CartItem.amount (item : CartItem) : ℕ := ⌊item.price⌋₊ * item.quantity.toNat

theorem CartItem.Mirrors.charge {item : CartItem} (h : item.Mirrors store) (hpos : 1 ≤ item.quantity)
    (rate : Product → Decimal) : ∃ p, item.price = p.effectivePrice ∧ item.category = some p.category ∧
      chargeBy rate store.products item.productId item.quantity.toNat = rate p * item.quantity := by
  obtain ⟨p, hp, hprice, -, hcategory⟩ := h
  refine ⟨p, hprice, hcategory, ?_⟩
  rw [chargeBy_apply, hp, quantity_toNat hpos]
  rfl

theorem CartItem.Mirrors.amount {item : CartItem} (h : item.Mirrors store)
    (hpos : 1 ≤ item.quantity) : item.price * item.quantity = item.amount := by
  obtain ⟨p, -, -, ⟨n, hn⟩, -⟩ := h
  unfold CartItem.amount
  rw [hn, Nat.floor_natCast, Nat.cast_mul, quantity_toNat hpos]

theorem priceSum_cartLines (h : ∀ item ∈ items, item.Mirrors store)
    (hpos : ∀ item ∈ items, 1 ≤ item.quantity) :
    priceSum store.products (cartLines items) = ((items.map CartItem.amount).sum : ℕ) := by
  unfold priceSum cartLines
  rw [List.map_map, Nat.cast_list_sum, List.map_map]
  congr 1
  apply List.map_congr_left
  intro item hitem
  obtain ⟨p, hprice, -, hcharge⟩ :=
    (h item hitem).charge (hpos item hitem) Product.effectivePrice
  show chargeBy _ store.products item.productId item.quantity.toNat = (item.amount : Decimal)
  rw [hcharge, ← hprice]
  exact (h item hitem).amount (hpos item hitem)

/-- Below the limit of the columns the page adds the prices up as the server does. -/
theorem getTotal_eq (h : ∀ item ∈ items, item.Mirrors store)
    (hpos : ∀ item ∈ items, 1 ≤ item.quantity)
    (hsmall : priceSum store.products (cartLines items) < 10 ^ 8) :
    getTotal items = priceSum store.products (cartLines items) := by
  rw [priceSum_cartLines h hpos] at hsmall ⊢
  have hsum : (items.map CartItem.amount).sum < 10 ^ 8 := by exact_mod_cast hsmall
  exact getTotal_exact (fun item hitem => (h item hitem).amount (hpos item hitem)) (by omega)

theorem feeSum_cartLines (h : ∀ item ∈ items, item.Mirrors store)
    (hpos : ∀ item ∈ items, 1 ≤ item.quantity) :
    feeSum store.products (cartLines items) =
      (5000 * ((items.filter fun item => item.category = some .nuocUong).map
        fun item => item.quantity.toNat).sum : ℕ) := by
  induction items with
  | nil => rfl
  | cons item items ih =>
    have hrest := ih (fun i hi => h i (List.mem_cons_of_mem item hi))
      fun i hi => hpos i (List.mem_cons_of_mem item hi)
    obtain ⟨p, -, hcategory, hcharge⟩ :=
      (h item List.mem_cons_self).charge (hpos item List.mem_cons_self) Product.feeRate
    have hsum : feeSum store.products (cartLines (item :: items)) =
        p.feeRate * item.quantity + feeSum store.products (cartLines items) := by
      rw [← hcharge]
      exact List.sum_cons
    rw [hsum, hrest, List.filter_cons, hcategory]
    cases hkind : p.category with
    | gas =>
      rw [if_neg (by decide)]
      simp [Product.feeRate, calculateDeliveryFee, hkind]
    | nuocUong =>
      rw [if_pos (by decide), List.map_cons, List.sum_cons, Nat.mul_add, Nat.cast_add,
        Nat.cast_mul 5000 item.quantity.toNat, quantity_toNat (hpos item List.mem_cons_self)]
      simp [Product.feeRate, calculateDeliveryFee, hkind, Orders.waterDeliveryFeePerUnit]

theorem calculateCartShipping_eq (h : ∀ item ∈ items, item.Mirrors store)
    (hpos : ∀ item ∈ items, 1 ≤ item.quantity)
    (hsmall : feeSum store.products (cartLines items) < 10 ^ 8) :
    calculateCartShipping items = feeSum store.products (cartLines items) := by
  rw [feeSum_cartLines h hpos] at hsmall ⊢
  rw [Nat.cast_mul, Nat.cast_ofNat]
  refine calculateCartShipping_exact
    (fun item hitem => (quantity_toNat (hpos item hitem)).symm) ?_
  have hfee : 5000 * ((items.filter fun item => item.category = some .nuocUong).map
      fun item => item.quantity.toNat).sum < 10 ^ 8 := by exact_mod_cast hsmall
  omega

end

/-- The coupon in use takes off a whole amount now, and what it took off when it was validated, held
to the subtotal, comes to that amount in whole đồng. -/
def DiscountStands (coupons : List Coupon) (page : ShopPage) (validatedAt : Option Decimal) : Prop :=
  ∀ code ∈ page.couponCode, ∀ c ∈ Table.find Coupon.code code coupons, ∀ subtotal ∈ validatedAt,
    let kept := min (computeDiscount c subtotal) page.subtotal
    let now := computeDiscount c page.subtotal
    WholeDong now ∧ now - 1 / 2 < kept ∧ kept ≤ now + 1 / 2

/-- A total is shown as it is charged when the discount that it is shown with comes to the charged
one. -/
theorem shown_eq_iff {subtotal shippingFee : ℕ} (hsubtotal : subtotal < 10 ^ 8)
    (hshipping : shippingFee < 10 ^ 8) {shown charged : ℚ} (hshown : ∃ k : ℤ, shown = k / 100)
    (hnonneg : 0 ≤ shown) (hle : shown ≤ subtotal) :
    ((readPrice (formatPrice (max 0 (double (double (subtotal + shippingFee) - double shown)))) : ℤ) :
        ℚ) = subtotal + shippingFee - charged ↔
      WholeDong charged ∧ charged - 1 / 2 < shown ∧ shown ≤ charged + 1 / 2 := by
  have hadd : double ((subtotal : ℚ) + shippingFee) = ((subtotal + shippingFee : ℕ) : ℤ) := by
    have hround := double_natCast (by omega : subtotal + shippingFee < 2 ^ 53)
    push_cast at hround ⊢
    exact hround
  have hle : shown ≤ (((subtotal + shippingFee : ℕ) : ℤ) : ℚ) := by
    push_cast
    have hfee : (0 : ℚ) ≤ shippingFee := Nat.cast_nonneg _
    linarith
  have hbits : ((subtotal + shippingFee : ℕ) : ℤ) < 2 ^ 44 := by omega
  have hrounded := halfAway_double_sub hbits hshown hnonneg hle
  have hdouble : 0 ≤ double ((((subtotal + shippingFee : ℕ) : ℤ) : ℚ) - double shown) := by
    refine double_nonneg ?_
    have htop := double_mono hnonneg hle
    rw [Int.cast_natCast, double_natCast (by omega)] at htop
    rw [Int.cast_natCast]
    linarith
  rw [hadd, max_eq_right hdouble, readPrice_formatPrice hdouble, hrounded]
  have hrest : (0 : ℚ) ≤ (((subtotal + shippingFee : ℕ) : ℤ) : ℚ) - shown := by linarith
  have hcast : (((subtotal + shippingFee : ℕ) : ℤ) : ℚ) = subtotal + shippingFee := by push_cast; rfl
  constructor
  · intro hequal
    have hwhole : charged = ((((subtotal + shippingFee : ℕ) : ℤ) -
        halfAway ((((subtotal + shippingFee : ℕ) : ℤ) : ℚ) - shown) : ℤ) : ℚ) := by
      rw [Int.cast_sub, hequal, hcast]
      ring
    obtain ⟨hlow, hhigh⟩ := (halfAway_eq_iff hrest).mp rfl
    rw [hequal] at hlow hhigh
    rw [hcast] at hlow hhigh
    exact ⟨⟨_, hwhole.symm⟩, by linarith, by linarith⟩
  · rintro ⟨⟨n, rfl⟩, hlow, hhigh⟩
    have hround : halfAway ((((subtotal + shippingFee : ℕ) : ℤ) : ℚ) - shown) =
        ((subtotal + shippingFee : ℕ) : ℤ) - n := by
      rw [halfAway_eq_iff hrest]
      push_cast
      constructor <;> linarith
    rw [hround]
    push_cast
    ring

/-- The order has the whole amounts of the page, and the discount is computed anew. -/
structure ChargesCart (r : PayloadReader) (coupons : List Coupon) (now : Timestamp) (page : ShopPage)
    (o : Order) (amount fee : ℕ) : Prop where
  subtotal : page.subtotal = amount
  subtotal_small : amount < 10 ^ 8
  shippingFee : page.shippingFee = fee
  shippingFee_small : fee < 10 ^ 8
  total : o.totalAmount = amount + fee - o.discountAmount
  discount : (normalizeCouponCode r page.couponCode = none ∧ o.discountAmount = 0) ∨
    ∃ text c, normalizeCouponCode r page.couponCode = some text ∧
      checkEligibility (Table.find Coupon.code text coupons) amount now = .ok c ∧
      o.discountAmount = computeDiscount c amount

section
variable {r : PayloadReader} {page : ShopPage} {o : Order}

/-- An accepted checkout of whole prices charges the cart of the page. -/
theorem chargesCart {form : CheckoutPayload} {checkoutData : CheckoutRequest} {coupons : Bool}
    {currentUser : Option User} {key : Uuid} {clock : Clock} {s t : Session}
    (hitems : ∀ item ∈ page.items, item.Mirrors s.store) (hprices : PricesInRange s.store)
    (haccepted : modelValidate r (page.payload form) = .ok checkoutData)
    (hkey : Table.find Order.idempotencyKey key s.store.orders = none)
    (hcreate : createOrder coupons checkoutData currentUser key clock s = .ok (o, t)) :
    ∃ amount fee, ChargesCart r s.store.coupons clock.now page o amount fee := by
  -- the lines that the server reads are those of the cart
  obtain ⟨hdata, -⟩ := modelValidate_eq_ok haccepted
  have hlines : checkoutData.items = cartLines page.items := by
    rw [hdata]
    exact List.map_map
  have hcode : checkoutData.couponCode = normalizeCouponCode r page.couponCode := by rw [hdata]; rfl
  have hpos : ∀ item ∈ page.items, 1 ≤ item.quantity := by
    intro item hitem
    have hline : (⟨item.productId, item.quantity.toNat, false⟩ : OrderItemCreate) ∈
        checkoutData.items := by
      rw [hlines]
      exact List.mem_map_of_mem hitem
    have hquantity := (quantity_of_modelValidate haccepted _ hline).1
    dsimp only at hquantity
    omega
  obtain ⟨s₁, hs₁, hplace⟩ := placeOrder_of_createOrder hkey hcreate
  have hcharged := placeOrder_charged hplace
  obtain ⟨hsmall, hsmallFee⟩ := placeOrder_small hplace
  have hdiscount := (placeOrder_total hplace).2
  have htotal := (shippingFee_le_totalAmount (hs₁ ▸ fun p hp => (hprices p hp).1) hplace).1
  rw [hs₁] at hcharged hdiscount
  have hsubtotal : o.subtotal = page.subtotal := by
    rw [hcharged.subtotal, hlines] at hsmall ⊢
    exact (getTotal_eq hitems hpos hsmall).symm
  have hshipping : o.shippingFee = page.shippingFee := by
    rw [hcharged.shippingFee, hlines] at hsmallFee ⊢
    exact (calculateCartShipping_eq hitems hpos hsmallFee).symm
  obtain ⟨amount, hamount⟩ : ∃ n : ℕ, o.subtotal = n := by
    rw [hcharged.subtotal, hlines]
    exact ⟨_, priceSum_cartLines hitems hpos⟩
  obtain ⟨fee, hfee⟩ : ∃ n : ℕ, o.shippingFee = n := by
    rw [hcharged.shippingFee, hlines]
    exact ⟨_, feeSum_cartLines hitems hpos⟩
  rw [hcode, hamount] at hdiscount
  rw [hamount] at hsmall
  rw [hfee] at hsmallFee
  refine ⟨amount, fee, hsubtotal.symm.trans hamount, ?_, hshipping.symm.trans hfee, ?_, ?_, hdiscount⟩
  · exact_mod_cast hsmall
  · exact_mod_cast hsmallFee
  · rw [htotal, hamount, hfee]

variable {coupons : List Coupon} {now : Timestamp} {amount fee : ℕ}
  (h : ChargesCart r coupons now page o amount fee)
include h

/-- Without a coupon nothing is taken off. -/
theorem ChargesCart.shown_of_none (hnone : page.couponCode = none) :
    (readPrice (formatPrice page.total) : Decimal) = o.totalAmount := by
  have hzero : o.discountAmount = 0 := by
    rcases h.discount with ⟨-, hzero⟩ | ⟨text, c, hsome, -⟩
    · exact hzero
    · rw [hnone] at hsome
      cases hsome
  have hnothing : _ ↔ WholeDong 0 ∧ _ ∧ _ := shown_eq_iff h.subtotal_small h.shippingFee_small
    ⟨0, by norm_num⟩ (le_refl (0 : ℚ)) (Nat.cast_nonneg amount)
  have hzeroDouble : double 0 = 0 := by simpa using double_natCast (by norm_num : 0 < 2 ^ 53)
  rw [hzeroDouble] at hnothing
  unfold ShopPage.total ShopPage.discount
  rw [h.total, hzero, h.subtotal, h.shippingFee, hnone]
  exact hnothing.mpr ⟨⟨0, Int.cast_zero⟩, by norm_num, by norm_num⟩

/-- With one, the page takes off the kept discount as a double. -/
theorem ChargesCart.shown_iff (hr : r.KeepsCodes) {code : String} {c : Coupon} {subtotal : ℤ}
    (hinUse : page.couponCode = some code) (hvalid : isCouponCode code = true)
    (hfound : Table.find Coupon.code code coupons = some c) (hcents : c.InCents)
    (hdiscount : page.discountAmount = double (computeDiscount c subtotal)) :
    (readPrice (formatPrice page.total) : Decimal) = o.totalAmount ↔
      let kept := min (computeDiscount c subtotal) page.subtotal
      let now := computeDiscount c page.subtotal
      WholeDong now ∧ now - 1 / 2 < kept ∧ kept ≤ now + 1 / 2 := by
  have hserver : o.discountAmount = computeDiscount c amount := by
    have hdiscount := h.discount
    rw [hinUse, normalizeCouponCode_of_code hr hvalid] at hdiscount
    rcases hdiscount with ⟨hnone, -⟩ | ⟨text, c', hsome, heligible, hserver⟩
    · cases hnone
    · obtain rfl := Option.some.inj hsome
      obtain rfl := Option.some.inj (hfound.symm.trans (checkEligibility_eq_ok heligible).1)
      exact hserver
  have hne : code ≠ "" := by
    rintro rfl
    revert hvalid
    decide
  have hnonneg : 0 ≤ computeDiscount c subtotal := by
    rw [computeDiscount_eq]
    exact le_max_left _ _
  have hkept : 0 ≤ min (computeDiscount c subtotal) (amount : ℚ) :=
    le_min hnonneg (Nat.cast_nonneg amount)
  have hkeptCents : ∃ k : ℤ, min (computeDiscount c subtotal) (amount : ℚ) = k / 100 := by
    obtain ⟨k, hk⟩ := computeDiscount_inCents hcents subtotal
    rcases min_choice (computeDiscount c subtotal) (amount : ℚ) with hmin | hmin
    · exact ⟨k, hmin.trans hk⟩
    · exact ⟨amount * 100, hmin.trans (by push_cast; ring)⟩
  have hsmall := h.subtotal_small
  have hoff : min page.discountAmount (amount : ℚ) =
      double (min (computeDiscount c subtotal) (amount : ℚ)) := by
    rw [hdiscount]
    exact min_double_natCast hnonneg (by omega)
  unfold ShopPage.total ShopPage.discount
  rw [h.total, h.subtotal, h.shippingFee, hinUse, Option.any_some, if_pos (decide_eq_true hne), hoff,
    hserver]
  exact shown_eq_iff hsmall h.shippingFee_small hkeptCents hkept (min_le_right _ _)

end

/-- With the catalog and the rules of the coupons unchanged and whole prices in the cart, an accepted
checkout charges the total that the page shows exactly when the discount of the coupon in use still
stands. -/
theorem checkout_total {r : PayloadReader} (hr : r.KeepsCodes) {events : List ShopEvent}
    {form : CheckoutPayload} {checkoutData : CheckoutRequest} {coupons : Bool}
    {currentUser : Option User} {key : Uuid} {clock : Clock} {s t : Session} {o : Order}
    (hunchanged : ∀ e ∈ events, e.Unchanged s.store) (hwhole : ∀ e ∈ events, e.WholePriced)
    (hcodes : ∀ c ∈ s.store.coupons, isCouponCode c.code = true)
    (hcents : ∀ c ∈ s.store.coupons, c.InCents) (hprices : PricesInRange s.store)
    (haccepted : modelValidate r ((ShopPage.after r events).payload form) = .ok checkoutData)
    (hkey : Table.find Order.idempotencyKey key s.store.orders = none)
    (hcreate : createOrder coupons checkoutData currentUser key clock s = .ok (o, t)) :
    (readPrice (formatPrice (ShopPage.after r events).total) : Decimal) = o.totalAmount ↔
      DiscountStands s.store.coupons (ShopPage.after r events) (validatedAt r events) := by
  have hmirrors : Mirrors s.store (traced r events) := mirrors_traced hprices hunchanged hwhole
  have hpage := traced_page r events
  generalize hvisit : ShopPage.after r events = page at *
  obtain ⟨hitems, -, hcoupon⟩ := hmirrors
  rw [hpage] at hitems hcoupon
  obtain ⟨amount, fee, hcharges⟩ := chargesCart hitems hprices haccepted hkey hcreate
  cases hinUse : page.couponCode with
  | none =>
    refine iff_of_true (hcharges.shown_of_none hinUse) fun code hcode => ?_
    rw [hinUse] at hcode
    cases hcode
  | some code =>
    obtain ⟨c, subtotal, hfound, hvalidated, hdiscount⟩ := hcoupon code hinUse
    have hmem := Table.mem_of_find hfound
    have hvalid : isCouponCode code = true := by
      rw [← Table.key_of_find hfound]
      exact hcodes c hmem
    have hvalidated : validatedAt r events = some (subtotal : Decimal) := hvalidated
    rw [hcharges.shown_iff hr hinUse hvalid hfound (hcents c hmem) hdiscount]
    constructor
    · intro hstands code' hcode' c' hc' subtotal' hsubtotal'
      obtain rfl := Option.some.inj (hinUse.symm.trans hcode')
      obtain rfl := Option.some.inj (hfound.symm.trans hc')
      obtain rfl := Option.some.inj (hvalidated.symm.trans hsubtotal')
      exact hstands
    · intro hstands
      exact hstands code hinUse c hfound subtotal hvalidated

/-- A whole discount that is kept as it is now computed stands. -/
theorem DiscountStands.of_kept {coupons : List Coupon} {page : ShopPage}
    {validatedAt : Option Decimal}
    (h : ∀ code ∈ page.couponCode, ∀ c ∈ Table.find Coupon.code code coupons,
      ∀ subtotal ∈ validatedAt, WholeDong (computeDiscount c page.subtotal) ∧
        min (computeDiscount c subtotal) page.subtotal = computeDiscount c page.subtotal) :
    DiscountStands coupons page validatedAt := by
  intro code hcode c hc subtotal hsubtotal
  obtain ⟨hwhole, hkept⟩ := h code hcode c hc subtotal hsubtotal
  dsimp only
  rw [hkept]
  exact ⟨hwhole, by linarith, by linarith⟩

/-- On the subtotal for which it was validated the discount is kept. -/
theorem discount_stands_self (c : Coupon) {subtotal : Decimal} (h : 0 ≤ subtotal) :
    min (computeDiscount c subtotal) subtotal = computeDiscount c subtotal :=
  min_eq_left (computeDiscount_bounds c h).2

/-- When the subtotal has grown, it is kept only if it has not grown with it. -/
theorem discount_stands_of_le (c : Coupon) {before now : Decimal} (h : 0 ≤ before)
    (hle : before ≤ now) : min (computeDiscount c before) now = computeDiscount c now ↔
      computeDiscount c before = computeDiscount c now := by
  rw [min_eq_left ((computeDiscount_bounds c h).2.trans hle)]

/-- A fixed discount is kept unless the smaller subtotal held it down. -/
theorem fixed_discount_stands {c : Coupon} (hc : couponBase c = true)
    (hfixed : c.discountType = .fixed) {before now : Decimal} (hbefore : 0 ≤ before) (hnow : 0 ≤ now) :
    min (computeDiscount c before) now = computeDiscount c now ↔
      now ≤ before ∨ rawDiscount c now ≤ before := by
  have hsame : rawDiscount c before = rawDiscount c now := by
    unfold rawDiscount
    rw [hfixed]
  have hraw : 0 ≤ rawDiscount c now := by
    obtain ⟨hvalue, hcap, -⟩ := couponBase_bounds hc
    unfold rawDiscount
    rw [hfixed]
    cases hmax : c.maxDiscount with
    | none => exact hvalue.le
    | some cap =>
      dsimp only
      split_ifs
      · exact (hcap cap hmax).le
      · exact hvalue.le
  rw [computeDiscount_eq, computeDiscount_eq, hsame, max_eq_right (le_min hbefore hraw),
    max_eq_right (le_min hnow hraw), ← min_le_iff]
  constructor
  · intro h
    rw [← h]
    exact (min_le_left _ _).trans (min_le_left _ _)
  · intro h
    apply le_antisymm
    · exact le_min (min_le_right _ _) ((min_le_left _ _).trans (min_le_right _ _))
    · exact le_min (le_min h (min_le_right _ _)) (min_le_left _ _)

/-! A cart of cylinders with a coupon of 7.5%, at most 20 000. -/

theorem sampleReader_keepsCodes : sampleReader.KeepsCodes := by
  intro c hc
  have hrange : '-' ≤ c ∧ c ≤ 'Z' := by
    simp only [couponChar, Bool.or_eq_true, Bool.and_eq_true, decide_eq_true_eq, beq_iff_eq] at hc
    rcases hc with (⟨hlow, hhigh⟩ | ⟨hlow, hhigh⟩) | rfl
    · exact ⟨le_trans (by decide) hlow, hhigh⟩
    · exact ⟨le_trans (by decide) hlow, le_trans hhigh (by decide)⟩
    · decide
  constructor
  · have hupper : c.toUpper = c := by
      unfold Char.toUpper
      rw [dif_neg]
      rintro ⟨hlow, -⟩
      have hlt : ('a' : Char) ≤ 'Z' := le_trans hlow hrange.2
      revert hlt
      decide
    exact congrArg (fun d => [d]) hupper
  · apply decide_eq_false
    intro hmem
    have hspaces : [' ', '\t', '\n', '\r', '\u000B', '\u000C', '\u00A0'].all
        (fun d => !(decide ('-' ≤ d) && decide (d ≤ 'Z'))) = true := by decide
    have hspace := List.all_eq_true.mp hspaces c hmem
    simp [hrange.1, hrange.2] at hspace

def cylinder : Product := couponShop.products.head (by decide)

/-- One cylinder, and the coupon validated for it. -/
def oneCylinder : List ShopEvent :=
  [.addItem cylinder 1, .applyCoupon "gas7", .couponAnswered 0 [sevenAndAHalf] 0]

def lanForm : CheckoutPayload where
  items := []
  customerName := "Lan"
  customerPhone := "0901234567"
  deliveryAddress := "12 Lê Lợi"

theorem oneCylinder_unchanged : ∀ e ∈ oneCylinder, e.Unchanged couponShop := by
  intro e he
  rcases List.mem_cons.mp he with rfl | he
  · exact ⟨cylinder, by decide +kernel, rfl, rfl⟩
  · rcases List.mem_cons.mp he with rfl | he
    · trivial
    · obtain rfl := List.mem_singleton.mp he
      rfl

theorem couponShop_codes : ∀ c ∈ couponShop.coupons, isCouponCode c.code = true := by
  intro c hc
  obtain rfl := List.mem_singleton.mp hc
  decide

theorem couponShop_cents : ∀ c ∈ couponShop.coupons, c.InCents := by
  intro c hc
  obtain rfl := List.mem_singleton.mp hc
  refine ⟨⟨750, by norm_num [sevenAndAHalf]⟩, fun cap hcap => ⟨2000000, ?_⟩⟩
  obtain rfl := Option.some.inj hcap
  norm_num

theorem couponShop_prices : PricesInRange couponShop := by
  intro p hp
  obtain rfl := List.mem_singleton.mp hp
  constructor <;> norm_num

theorem oneCylinder_wholePriced : ∀ e ∈ oneCylinder, e.WholePriced := by
  intro e he
  rcases List.mem_cons.mp he with rfl | he
  · exact ⟨250000, by decide +kernel⟩
  · rcases List.mem_cons.mp he with rfl | he
    · trivial
    · obtain rfl := List.mem_singleton.mp he
      trivial

/-- Right after the coupon was validated the totals agree. -/
theorem checkout_total_oneCylinder : ∃ o t,
    createOrder true (cylindersWithCoupon 1) none 55 ⟨0, 20260101⟩ { store := couponShop } =
      .ok (o, t) ∧
      (readPrice (formatPrice (ShopPage.after sampleReader oneCylinder).total) : Decimal) =
        o.totalAmount := by
  have haccepted : modelValidate sampleReader
      ((ShopPage.after sampleReader oneCylinder).payload lanForm) = .ok (cylindersWithCoupon 1) := by
    decide +kernel
  cases h : createOrder true (cylindersWithCoupon 1) none 55 ⟨0, 20260101⟩ { store := couponShop } with
  | error e =>
    have hok : (createOrder true (cylindersWithCoupon 1) none 55 ⟨0, 20260101⟩
      { store := couponShop }).isOk = true := by decide +kernel
    rw [h] at hok
    cases hok
  | ok result =>
    refine ⟨result.1, result.2, rfl, (checkout_total sampleReader_keepsCodes oneCylinder_unchanged
      oneCylinder_wholePriced couponShop_codes couponShop_cents couponShop_prices haccepted rfl
      h).mpr (DiscountStands.of_kept ?_)⟩
    intro code hcode c hc subtotal hsubtotal
    have hpage : (ShopPage.after sampleReader oneCylinder).couponCode = some "GAS7" ∧
        (ShopPage.after sampleReader oneCylinder).subtotal = 250000 ∧
        validatedAt sampleReader oneCylinder = some 250000 := by decide +kernel
    rw [hpage.1] at hcode
    rw [hpage.2.2] at hsubtotal
    rw [hpage.2.1]
    obtain rfl := Option.some.inj hcode
    obtain rfl := Option.some.inj hsubtotal
    obtain rfl := List.mem_singleton.mp (Table.mem_of_find hc)
    exact ⟨⟨18750, by decide +kernel⟩, discount_stands_self _ (by norm_num)⟩

/-- The coupon is validated for one cylinder, then the cart holds two. -/
def secondCylinder : List ShopEvent := oneCylinder ++ [.updateQuantity 1 2]

/-- The page still takes off 18 750, the server takes off 20 000. -/
theorem stale_discount_shown :
    (createOrder true (cylindersWithCoupon 2) none 55 ⟨0, 20260101⟩ { store := couponShop }).map
        (fun result => result.1.totalAmount) = .ok 480000 ∧
      formatPrice (ShopPage.after sampleReader secondCylinder).total = "481.250\u00a0₫" ∧
      ¬ ∀ (r : PayloadReader) (events : List ShopEvent) (form : CheckoutPayload)
        (checkoutData : CheckoutRequest) (coupons : Bool) (currentUser : Option User) (key : Uuid)
        (clock : Clock) (s t : Session) (o : Order), r.KeepsCodes →
        (∀ e ∈ events, e.Unchanged s.store) → (∀ e ∈ events, e.WholePriced) →
        (∀ c ∈ s.store.coupons, isCouponCode c.code = true) → (∀ c ∈ s.store.coupons, c.InCents) →
        PricesInRange s.store →
        modelValidate r ((ShopPage.after r events).payload form) = .ok checkoutData →
        Table.find Order.idempotencyKey key s.store.orders = none →
        createOrder coupons checkoutData currentUser key clock s = .ok (o, t) →
        (readPrice (formatPrice (ShopPage.after r events).total) : Decimal) = o.totalAmount := by
  have hcharged : (createOrder true (cylindersWithCoupon 2) none 55 ⟨0, 20260101⟩
      { store := couponShop }).map (fun result => result.1.totalAmount) = .ok 480000 := by
    decide +kernel
  have hshown : formatPrice (ShopPage.after sampleReader secondCylinder).total =
      "481.250\u00a0₫" := by decide +kernel
  have hread : readPrice (formatPrice (ShopPage.after sampleReader secondCylinder).total) =
      481250 := by decide +kernel
  have haccepted : modelValidate sampleReader
      ((ShopPage.after sampleReader secondCylinder).payload lanForm) =
        .ok (cylindersWithCoupon 2) := by decide +kernel
  have hunchanged : ∀ e ∈ secondCylinder, e.Unchanged couponShop ∧ e.WholePriced := by
    intro e he
    rcases List.mem_append.mp he with he | he
    · exact ⟨oneCylinder_unchanged e he, oneCylinder_wholePriced e he⟩
    · obtain rfl := List.mem_singleton.mp he
      exact ⟨trivial, trivial⟩
  refine ⟨hcharged, hshown, fun hclaim => ?_⟩
  cases h : createOrder true (cylindersWithCoupon 2) none 55 ⟨0, 20260101⟩ { store := couponShop } with
  | error e =>
    rw [h] at hcharged
    cases hcharged
  | ok result =>
    have hequal := hclaim sampleReader secondCylinder lanForm (cylindersWithCoupon 2) true none 55
      ⟨0, 20260101⟩ { store := couponShop } result.2 result.1 sampleReader_keepsCodes
      (fun e he => (hunchanged e he).1) (fun e he => (hunchanged e he).2) couponShop_codes
      couponShop_cents couponShop_prices haccepted rfl h
    rw [h] at hcharged
    have htotal : result.1.totalAmount = 480000 := Except.ok.inj hcharged
    rw [hread, htotal] at hequal
    norm_num at hequal

end Qiki.Client
