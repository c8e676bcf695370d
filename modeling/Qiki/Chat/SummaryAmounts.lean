import Qiki.Orders.Amounts
import Qiki.Catalog.ShownAmounts
import Qiki.Chat.NegatedConfirmation

/-! The amounts of an order summary against those of the order that is created from it. -/
namespace Qiki.Chat

open Orders Catalog

/-- The line about the delivery of water shows this fee; free delivery has no line. -/
def ShowsFee (texts : SummaryTexts) (lines : List Text) (fee : ℤ) : Prop :=
  lines = [] ∧ fee = 0 ∨
    ∃ after, lines = ["- " ++ texts.waterFee ++ ": +" ++ after] ∧ readVnd after = fee

/-- Below the lines of the items the summary shows this fee and this subtotal. -/
def PrintsAmounts (summary : OrderSummary) (language : Language) (fee subtotal : ℤ) : Prop :=
  let texts := summaryTexts language
  ∃ feeLines after rest, formatOrderSummary summary language = Text.join "\n"
      ([texts.opening] ++ summary.items.map summaryLine ++ feeLines ++
        ("- " ++ texts.subtotal ++ ": **" ++ after) :: rest) ∧
    ShowsFee texts feeLines fee ∧ readVnd after = subtotal

/-- The amount that `_format_order_summary` prints as the subtotal. -/
def summarySubtotal (items : List (ChatOrderItem × Product)) : Decimal :=
  (items.map lineTotal).sum + waterDeliveryFee items

/-- What stands behind the fee in its line. -/
def feeTail (texts : SummaryTexts) (bottles : ℕ) : Text :=
  " (" ++ texts.perBottle ++ " × " ++ Text.ofNat bottles ++ " " ++ texts.bottles ++ ")"

theorem formatOrderSummary_lines (summary : OrderSummary) (language : Language) :
    let texts := summaryTexts language
    ∃ rest, formatOrderSummary summary language = Text.join "\n"
      ([texts.opening] ++ summary.items.map summaryLine ++
        (if waterDeliveryFee summary.items ≠ 0 then
          ["- " ++ texts.waterFee ++ ": +" ++ (formatVnd (waterDeliveryFee summary.items) ++
            feeTail texts (waterItemQuantity summary.items))] else []) ++
        ("- " ++ texts.subtotal ++ ": **" ++
          (formatVnd (summarySubtotal summary.items) ++ "**")) :: rest) := by
  apply Exists.intro
  unfold formatOrderSummary feeTail labelled
  simp only [List.append_assoc, List.cons_append, List.nil_append]
  rfl

/-- The amounts are shown without the fraction of a đồng. -/
theorem printsAmounts (summary : OrderSummary) (language : Language) :
    PrintsAmounts summary language (truncated (waterDeliveryFee summary.items))
      (truncated (summarySubtotal summary.items)) := by
  obtain ⟨rest, htext⟩ := formatOrderSummary_lines summary language
  refine ⟨_, _, rest, htext, ?_, readVnd_formatVnd (summarySubtotal summary.items) "**"⟩
  by_cases hfee : waterDeliveryFee summary.items ≠ 0
  · rw [if_pos hfee]
    exact Or.inr ⟨_, rfl, readVnd_formatVnd _ _⟩
  · rw [if_neg hfee, not_not.mp hfee]
    exact Or.inl ⟨rfl, rfl⟩

/-- The line of a checkout that orders a matched item. -/
def checkoutLine (i : ChatOrderItem × Product) : OrderItemCreate :=
  { productId := i.2.id, quantity := i.1.quantity.getD 0 }

theorem checkout_eq_some {rt : Runtime} {o : ReadyOrder} {conversationId : Uuid}
    {checkout : CheckoutRequest} (h : o.checkout rt conversationId = some checkout) :
    checkout.items = o.items.map checkoutLine ∧ checkout.couponCode = none := by
  simp only [ReadyOrder.checkout] at h
  split_ifs at h
  obtain ⟨phone, -, rfl⟩ := Option.map_eq_some_iff.mp h
  exact ⟨rfl, rfl⟩

/-- The water fee is the fee rate of the products, line by line. -/
theorem waterDeliveryFee_eq (items : List (ChatOrderItem × Product)) :
    waterDeliveryFee items =
      (items.map fun i => i.2.feeRate * ((i.1.quantity.getD 0 : ℕ) : Decimal)).sum := by
  unfold waterDeliveryFee waterItemQuantity
  induction items with
  | nil => simp
  | cons i items ih =>
    rw [List.map_cons, List.sum_cons, ← ih]
    cases hcategory : i.2.category with
    | gas => simp [hcategory, Product.feeRate, calculateDeliveryFee]
    | nuocUong =>
      simp only [hcategory, Product.feeRate, calculateDeliveryFee, waterDeliveryFeePerUnit,
        decide_true, List.filter_cons_of_pos, List.map_cons, List.sum_cons, Nat.cast_add,
        Nat.cast_one, mul_one, mul_add]

theorem summarySubtotal_nonneg {items : List (ChatOrderItem × Product)}
    (h : ∀ i ∈ items, 0 ≤ i.2.price) : 0 ≤ summarySubtotal items := by
  refine add_nonneg (List.sum_nonneg fun x hx => ?_)
    (mul_nonneg (by norm_num) (Nat.cast_nonneg _))
  obtain ⟨i, hi, rfl⟩ := List.mem_map.mp hx
  exact mul_nonneg (effectivePrice_nonneg (h i hi)) (Nat.cast_nonneg _)

/-- The catalog still has the price, the sale price and the category of a shown product. -/
def Unchanged (products : List Product) (shown : Product) : Prop :=
  ∀ p ∈ products, p.id = shown.id →
    p.price = shown.price ∧ p.salePrice = shown.salePrice ∧ p.category = shown.category

instance (products : List Product) (shown : Product) : Decidable (Unchanged products shown) :=
  inferInstanceAs (Decidable (∀ p ∈ products, _))

theorem chargeBy_checkoutLine {rate : Product → Decimal} {products : List Product}
    {i : ChatOrderItem × Product}
    (hrate : ∀ p ∈ products, p.id = i.2.id → rate p = rate i.2)
    (hfound : (Table.find Product.id i.2.id products).isSome) :
    chargeBy rate products i.2.id (i.1.quantity.getD 0) = rate i.2 * i.1.quantity.getD 0 := by
  obtain ⟨p, hp⟩ := Option.isSome_iff_exists.mp hfound
  rw [chargeBy_apply, hp, Option.elim_some,
    hrate p (Table.mem_of_find hp) (Table.key_of_find hp)]

/-- The order charges the summary's amounts. -/
theorem charged_amounts {items : List (ChatOrderItem × Product)} {checkout : CheckoutRequest}
    {products : List Product} {order : Order} (h : Charged checkout products order)
    (hitems : checkout.items = items.map checkoutLine) (hcoupon : checkout.couponCode = none)
    (hcatalog : ∀ i ∈ items, Unchanged products i.2) (hprice : ∀ i ∈ items, 0 ≤ i.2.price) :
    order.shippingFee = waterDeliveryFee items ∧ order.totalAmount = summarySubtotal items := by
  have hsum (rate : Product → Decimal)
      (hrate : ∀ i ∈ items, ∀ p ∈ products, p.id = i.2.id → rate p = rate i.2) :
      (checkout.items.map fun i => chargeBy rate products i.productId i.quantity).sum =
        (items.map fun i => rate i.2 * ((i.1.quantity.getD 0 : ℕ) : Decimal)).sum := by
    rw [hitems, List.map_map]
    refine congrArg List.sum (List.map_congr_left fun i hi => ?_)
    exact chargeBy_checkoutLine (hrate i hi)
      (h.found _ (hitems ▸ List.mem_map_of_mem (f := checkoutLine) hi))
  have hsubtotal : order.subtotal = (items.map lineTotal).sum := by
    rw [h.subtotal, hsum]
    · rfl
    · intro i hi p hp hid
      obtain ⟨hlist, hsale, -⟩ := hcatalog i hi p hp hid
      rw [Product.effectivePrice, hlist, hsale, Product.effectivePrice]
  have hfee : order.shippingFee = waterDeliveryFee items := by
    rw [h.shippingFee, waterDeliveryFee_eq, hsum]
    intro i hi p hp hid
    rw [Product.feeRate, (hcatalog i hi p hp hid).2.2, Product.feeRate]
  refine ⟨hfee, ?_⟩
  rw [h.totalAmount hcoupon, hsubtotal, hfee]
  exact max_eq_right (summarySubtotal_nonneg hprice)

/-- The fee for the delivery of water is a whole number of đồng. -/
theorem truncated_waterDeliveryFee (items : List (ChatOrderItem × Product)) :
    (truncated (waterDeliveryFee items) : Decimal) = waterDeliveryFee items := by
  refine truncated_eq_iff.mpr ⟨5000 * waterItemQuantity items, ?_⟩
  rw [waterDeliveryFee]
  push_cast
  rfl

theorem wholeDong_summarySubtotal {items : List (ChatOrderItem × Product)}
    (h : ∀ i ∈ items, WholeDong i.2.effectivePrice) : WholeDong (summarySubtotal items) := by
  refine WholeDong.add (WholeDong.sum fun x hx => ?_) ⟨_, truncated_waterDeliveryFee items⟩
  obtain ⟨i, hi, rfl⟩ := List.mem_map.mp hx
  exact (h i hi).mul_natCast _

/-- Whatever the lines of a shown summary, the order that is created from the same lines charges
the fee that the summary shows, and the subtotal that it shows is the total without the fraction of
a đồng: the same when the prices are whole. -/
theorem summary_amounts {rt : Runtime} {shown placed : ReadyOrder} {conversationId : Uuid}
    {checkout : CheckoutRequest} {coupons : Bool} {user : Option User} {key : Uuid} {clock : Clock}
    {s t : Session} {order : Order}
    (hlines : placed.items.map checkoutLine = shown.items.map checkoutLine)
    (hcheckout : placed.checkout rt conversationId = some checkout)
    (hcatalog : ∀ i ∈ shown.items, Unchanged s.store.products i.2)
    (hprice : ∀ i ∈ shown.items, 0 ≤ i.2.price)
    (hkey : Table.find Order.idempotencyKey key s.store.orders = none)
    (h : createOrder coupons checkout user key clock s = .ok (order, t)) :
    order.shippingFee = waterDeliveryFee shown.items ∧
      order.totalAmount = summarySubtotal shown.items ∧
      ∀ language, ∃ fee subtotal : ℤ, PrintsAmounts shown.summary language fee subtotal ∧
        (fee : Decimal) = order.shippingFee ∧ subtotal = ⌊order.totalAmount⌋ ∧
        ((subtotal : Decimal) = order.totalAmount ↔ WholeDong order.totalAmount) ∧
        ((∀ i ∈ shown.items, WholeDong i.2.effectivePrice) →
          (subtotal : Decimal) = order.totalAmount) := by
  obtain ⟨hitems, hcoupon⟩ := checkout_eq_some hcheckout
  obtain ⟨hfee, htotal⟩ := charged_amounts (createOrder_charged hkey h)
    (hitems.trans hlines) hcoupon hcatalog hprice
  refine ⟨hfee, htotal, fun language => ⟨_, _, printsAmounts shown.summary language, ?_, ?_, ?_, ?_⟩⟩
  · exact (truncated_waterDeliveryFee shown.items).trans hfee.symm
  · rw [htotal]
    exact truncated_of_nonneg (summarySubtotal_nonneg hprice)
  · rw [htotal]
    exact truncated_eq_iff
  · intro hwhole
    rw [htotal]
    exact truncated_eq_iff.mpr (wholeDong_summarySubtotal hwhole)

/-- A can of water on sale. -/
def canOfWater : Product where
  id := 3
  sku := "LAVIE-20"
  name := "Nước Lavie"
  brand := "Lavie"
  sizeKg := 20
  category := .nuocUong
  unit := "lit"
  price := 60000
  salePrice := some 55000
  stockQuantity := 20
  isActive := true

/-- Water between two lines of the same gas. -/
def mixedOrder : ReadyOrder where
  slots := lanSlots
  items := [(⟨some "elf", some 2⟩, elfGas), (⟨some "lavie", some 3⟩, canOfWater),
    (⟨some "elf", some 1⟩, elfGas)]
  phone := "0912345678"
  zone := ⟨"Bình Thọ", "Thủ Đức"⟩
  paymentMethod := .cod

/-- The shop that sells the two products. -/
def mixedStore : Store := ⟨[canOfWater, elfGas], [], [], [], [], [], 10⟩

theorem summary_amounts_mixed : ∃ checkout order t,
    mixedOrder.checkout plainRuntime 1 = some checkout ∧
    createOrder false checkout none 7 ⟨0, 20260101⟩ { store := mixedStore } = .ok (order, t) ∧
    ∃ fee subtotal : ℤ, PrintsAmounts mixedOrder.summary .vi fee subtotal ∧
      (fee : Decimal) = order.shippingFee ∧ (subtotal : Decimal) = order.totalAmount := by
  have hok : (mixedOrder.checkout plainRuntime 1).any (fun checkout =>
      (createOrder false checkout none 7 ⟨0, 20260101⟩ { store := mixedStore }).isOk) = true := by
    decide +kernel
  obtain ⟨checkout, hcheckout, hok⟩ := (Option.any_eq_true _ _).mp hok
  obtain ⟨⟨order, t⟩, hcreated⟩ : ∃ r, createOrder false checkout none 7 ⟨0, 20260101⟩
      { store := mixedStore } = .ok r := by
    cases hr : createOrder false checkout none 7 ⟨0, 20260101⟩ { store := mixedStore } with
    | error e => simp [hr, Except.isOk, Except.toBool] at hok
    | ok r => exact ⟨r, rfl⟩
  obtain ⟨fee, subtotal, hprinted, hfee, -, -, htotal⟩ :=
    (summary_amounts rfl hcheckout (by decide) (by decide) rfl hcreated).2.2 .vi
  exact ⟨checkout, order, t, hcheckout, hcreated, fee, subtotal, hprinted, hfee,
    htotal (by decide +kernel)⟩

/-- A cylinder at 445.000,50đ. -/
def halfDongGas : Product := { elfGas with price := 890001 / 2 }

def halfDongOrder : ReadyOrder where
  slots := lanSlots
  items := [(⟨some "elf", some 1⟩, halfDongGas)]
  phone := "0912345678"
  zone := ⟨"Bình Thọ", "Thủ Đức"⟩
  paymentMethod := .cod

def halfDongStore : Store := ⟨[halfDongGas], [], [], [], [], [], 10⟩

/-- The summary shows 445.000đ for a cylinder that is charged at 445.000,50đ. -/
theorem half_dong_hidden :
    ¬ ∀ (rt : Runtime) (shown placed : ReadyOrder) (conversationId : Uuid)
      (checkout : CheckoutRequest) (coupons : Bool) (user : Option User) (key : Uuid)
      (clock : Clock) (s t : Session) (order : Order),
      placed.items.map checkoutLine = shown.items.map checkoutLine →
      placed.checkout rt conversationId = some checkout →
      (∀ i ∈ shown.items, Unchanged s.store.products i.2) →
      (∀ i ∈ shown.items, 0 ≤ i.2.price) →
      Table.find Order.idempotencyKey key s.store.orders = none →
      createOrder coupons checkout user key clock s = .ok (order, t) →
      ∀ language, ∃ fee subtotal : ℤ, PrintsAmounts shown.summary language fee subtotal ∧
        (fee : Decimal) = order.shippingFee ∧ (subtotal : Decimal) = order.totalAmount := by
  intro h
  have hrun : (halfDongOrder.checkout plainRuntime 1).any (fun checkout =>
      (createOrder false checkout none 7 ⟨0, 20260101⟩ { store := halfDongStore }).toOption.any
        fun r => r.1.totalAmount = 890001 / 2) = true := by
    decide +kernel
  obtain ⟨checkout, hcheckout, hrun⟩ := (Option.any_eq_true _ _).mp hrun
  obtain ⟨order, t, hcreated, htotal⟩ : ∃ order t, createOrder false checkout none 7 ⟨0, 20260101⟩
      { store := halfDongStore } = .ok (order, t) ∧ order.totalAmount = 890001 / 2 := by
    cases hr : createOrder false checkout none 7 ⟨0, 20260101⟩ { store := halfDongStore } with
    | error e => simp [hr, Except.toOption] at hrun
    | ok r => exact ⟨r.1, r.2, rfl, by simpa [hr, Except.toOption] using hrun⟩
  obtain ⟨fee, subtotal, -, -, hshown⟩ := h plainRuntime halfDongOrder halfDongOrder 1 checkout
    false none 7 ⟨0, 20260101⟩ { store := halfDongStore } t order rfl hcheckout (by decide +kernel)
    (by decide +kernel) rfl hcreated .vi
  have hhalf : (subtotal : Decimal) = 890001 / 2 := hshown.trans htotal
  have hdouble : ((2 * subtotal : ℤ) : Decimal) = (890001 : ℤ) := by
    push_cast
    linarith
  have hinteger := Int.cast_injective hdouble
  omega

end Qiki.Chat
