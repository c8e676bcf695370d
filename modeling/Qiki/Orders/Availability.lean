import Qiki.Orders.CreateOrder
import Qiki.Data.Stages

/-! The stock that `create_order` looks for, product by product. -/
namespace Qiki.Orders

/-- The units of a product over all lines of a checkout. -/
def requestedUnits (items : List OrderItemCreate) (productId : Uuid) : ℕ :=
  (items.map fun i => if i.productId = productId then i.quantity else 0).sum

/-- The weight of one entry in the count for a product. -/
def unitsOf (productId key : Uuid) : ℕ →+ ℕ :=
  if key = productId then AddMonoidHom.id ℕ else 0

theorem unitsOf_apply (productId key : Uuid) (quantity : ℕ) :
    unitsOf productId key quantity = if key = productId then quantity else 0 := by
  unfold unitsOf
  split_ifs <;> rfl

/-- In a dictionary the entry of a key is all there is for it. -/
theorem sum_unitsOf {lines : List (Uuid × ℕ)} (hn : (lines.map Prod.fst).Nodup) {l : Uuid × ℕ}
    (hl : l ∈ lines) : (lines.map fun e => unitsOf l.1 e.1 e.2).sum = l.2 := by
  have habsent {ls : List (Uuid × ℕ)} (h : l.1 ∉ ls.map Prod.fst) :
      (ls.map fun e => unitsOf l.1 e.1 e.2).sum = 0 := by
    refine List.sum_eq_zero fun x hx => ?_
    obtain ⟨e, he, rfl⟩ := List.mem_map.mp hx
    rw [unitsOf_apply, if_neg]
    intro hkey
    exact h (hkey ▸ List.mem_map_of_mem he)
  induction lines with
  | nil => cases hl
  | cons e lines ih =>
    obtain ⟨hnot, hn⟩ := List.nodup_cons.mp hn
    rw [List.map_cons, List.sum_cons, unitsOf_apply]
    rcases List.mem_cons.mp hl with rfl | hl
    · rw [if_pos rfl, habsent hnot, Nat.add_zero]
    · have hne : e.1 ≠ l.1 := fun h => hnot (h ▸ List.mem_map_of_mem hl)
      rw [if_neg hne, ih hn hl, Nat.zero_add]

theorem requestedByProduct_units {items : List OrderItemCreate} {l : Uuid × ℕ}
    (hl : l ∈ requestedByProduct items) : l.2 = requestedUnits items l.1 := by
  rw [← sum_unitsOf (requestedByProduct_nodup items) hl, requestedByProduct,
    Dict.sum_foldl_alter (unitsOf l.1) OrderItemCreate.productId OrderItemCreate.quantity,
    List.map_nil, List.sum_nil, Nat.zero_add]
  simp only [unitsOf_apply, requestedUnits]

/-- Of a product on one line, the line asks for all. -/
theorem requestedUnits_of_nodup {items : List OrderItemCreate}
    (hn : (items.map (·.productId)).Nodup) {i : OrderItemCreate} (hi : i ∈ items) :
    requestedUnits items i.productId = i.quantity := by
  have hkeys : ((items.map fun j => (j.productId, j.quantity)).map Prod.fst).Nodup := by
    rw [List.map_map]
    exact hn
  have hsum := sum_unitsOf hkeys (List.mem_map_of_mem hi)
  rw [List.map_map] at hsum
  refine Eq.trans ?_ hsum
  simp only [requestedUnits, Function.comp_def, unitsOf_apply]

/-- What `create_order` checks of the catalog: every product of the checkout is there, active and
in stock for the sum of its lines. -/
def FindsStock (products : List Product) (checkoutData : CheckoutRequest) : Prop :=
  let productIds := (checkoutData.items.map (·.productId)).dedup
  let rows := products.filter fun p => p.id ∈ productIds
  checkProducts rows productIds = .ok () ∧ ∃ items,
    priceLines rows (exchangeByProduct checkoutData.items)
      (requestedByProduct checkoutData.items) = .ok items

theorem checkProducts_eq_ok {products : List Product} {productIds : List Uuid} :
    checkProducts products productIds = .ok () ↔ ∀ productId ∈ productIds, ∃ p,
      Table.find Product.id productId products = some p ∧ p.isActive = true := by
  induction productIds with
  | nil => exact iff_of_true rfl fun _ h => (nomatch h)
  | cons productId productIds ih =>
    unfold checkProducts
    rw [List.forall_mem_cons, ← ih]
    cases hp : Table.find Product.id productId products with
    | none => simp
    | some p => cases hactive : p.isActive <;> simp [hactive]

theorem priceLine_isOk {products : List Product} {exchange : List (Uuid × Bool)} {l : Uuid × ℕ} :
    (∃ d, priceLine products exchange l = .ok d) ↔
      ∃ p, Table.find Product.id l.1 products = some p ∧ (l.2 : ℤ) ≤ p.stockQuantity := by
  unfold priceLine
  cases hp : Table.find Product.id l.1 products with
  | none => simp
  | some p =>
    by_cases hstock : p.stockQuantity < l.2
    · simp [hstock]
    · simp [hstock, not_lt.mp hstock]

theorem priceLines_isOk {products : List Product} {exchange : List (Uuid × Bool)}
    {lines : List (Uuid × ℕ)} : (∃ items, priceLines products exchange lines = .ok items) ↔
      ∀ l ∈ lines, ∃ p, Table.find Product.id l.1 products = some p ∧
        (l.2 : ℤ) ≤ p.stockQuantity := by
  induction lines with
  | nil => exact iff_of_true ⟨[], rfl⟩ fun _ h => (nomatch h)
  | cons l lines ih =>
    rw [List.forall_mem_cons, ← ih, ← priceLine_isOk]
    constructor
    · rintro ⟨items, h⟩
      obtain ⟨d, hd, h⟩ := Except.bind_eq_ok h
      obtain ⟨ds, hds, -⟩ := Except.bind_eq_ok h
      exact ⟨⟨d, hd⟩, ds, hds⟩
    · rintro ⟨⟨d, hd⟩, ds, hds⟩
      refine ⟨d :: ds, ?_⟩
      rw [priceLines, hd, hds]
      rfl

section
variable {products : List Product} {checkoutData : CheckoutRequest}

/-- Where the catalog has the products, only the sums of the lines matter. -/
theorem findsStock_iff (hn : (products.map Product.id).Nodup)
    (hknown : ∀ i ∈ checkoutData.items, ∃ p ∈ products, p.id = i.productId ∧ p.isActive = true) :
    FindsStock products checkoutData ↔ ∀ i ∈ checkoutData.items, ∀ p ∈ products,
      p.id = i.productId → (requestedUnits checkoutData.items p.id : ℤ) ≤ p.stockQuantity := by
  have hfind {productId : Uuid} (h : productId ∈ checkoutData.items.map (·.productId)) :
      ∃ p ∈ products, p.isActive = true ∧ p.id = productId ∧ Table.find Product.id productId
        (products.filter fun p => p.id ∈ (checkoutData.items.map (·.productId)).dedup) = some p := by
    obtain ⟨i, hi, rfl⟩ := List.mem_map.mp h
    obtain ⟨p, hp, hid, hactive⟩ := hknown i hi
    refine ⟨p, hp, hactive, hid, ?_⟩
    rw [Table.find_filter_key (List.mem_dedup.mpr h), ← hid, Table.find_of_mem hn hp]
  simp only [FindsStock]
  rw [checkProducts_eq_ok, priceLines_isOk]
  constructor
  · rintro ⟨-, hlines⟩ i hi p hp hid
    obtain ⟨l, hl, hkey⟩ := List.mem_map.mp
      ((mem_requestedByProduct _ _).mpr (List.mem_map_of_mem (f := (·.productId)) hi))
    obtain ⟨q, hq, hstock⟩ := hlines l hl
    obtain ⟨p', hp', -, hid', hfound⟩ := hfind (List.mem_map_of_mem (f := (·.productId)) hi)
    rw [hkey, hfound] at hq
    have hrow := Table.find_of_mem hn hp
    rw [hid, ← hid', Table.find_of_mem hn hp'] at hrow
    obtain rfl := Option.some.inj hrow
    obtain rfl := Option.some.inj hq
    rw [hid, ← hkey, ← requestedByProduct_units hl]
    exact hstock
  · intro hstock
    refine ⟨fun productId h => ?_, fun l hl => ?_⟩
    · obtain ⟨p, -, hactive, -, hfound⟩ := hfind (List.mem_dedup.mp h)
      exact ⟨p, hfound, hactive⟩
    · have hkey := (mem_requestedByProduct _ _).mp (List.mem_map_of_mem hl)
      obtain ⟨p, hp, -, hid, hfound⟩ := hfind hkey
      obtain ⟨i, hi, hline⟩ := List.mem_map.mp hkey
      refine ⟨p, hfound, ?_⟩
      rw [requestedByProduct_units hl, ← hid]
      exact hstock i hi p hp (hid.trans hline.symm)

end

/-- No order is created without it. -/
theorem findsStock_of_createOrder {coupons : Bool} {checkoutData : CheckoutRequest}
    {currentUser : Option User} {key : Uuid} {clock : Clock} {s t : Session} {o : Order}
    (hkey : Table.find Order.idempotencyKey key s.store.orders = none)
    (h : createOrder coupons checkoutData currentUser key clock s = .ok (o, t)) :
    FindsStock s.store.products checkoutData := by
  obtain ⟨s₁, hs₁, hplace⟩ := placeOrder_of_createOrder hkey h
  obtain ⟨products, items, -, -, -, -, -, -, rfl, hchecked, hpriced, -⟩ := placeOrder_stages hplace
  rw [hs₁] at hchecked hpriced
  exact ⟨hchecked, items, hpriced⟩

end Qiki.Orders
