import Qiki.Orders.Runs

/-! How many units of an order item its deliveries carry, and the allocation bound that
`create_delivery` checks. -/
namespace Qiki.Orders

/-- Units of one order item in a list of delivery lines. -/
def lineQuantity (lines : List DeliveryItem) (itemId : Uuid) : ℕ :=
  ((lines.filter fun l => l.orderItemId = itemId).map (·.quantity)).sum

/-- Units of one order item in the deliveries whose status counts. -/
def carried (counts : DeliveryStatus → Bool) (deliveries : List Delivery) (itemId : Uuid) : ℕ :=
  (deliveries.map fun d => if counts d.status then lineQuantity d.items itemId else 0).sum

theorem lineQuantity_cons (l : DeliveryItem) (ls : List DeliveryItem) (itemId : Uuid) :
    lineQuantity (l :: ls) itemId =
      (if l.orderItemId = itemId then l.quantity else 0) + lineQuantity ls itemId := by
  by_cases h : l.orderItemId = itemId <;> simp [lineQuantity, h]

theorem lineQuantity_eq_zero {lines : List DeliveryItem} {itemId : Uuid}
    (h : ∀ l ∈ lines, l.orderItemId ≠ itemId) : lineQuantity lines itemId = 0 := by
  have hnil : (lines.filter fun l => l.orderItemId = itemId) = [] := by
    rw [List.filter_eq_nil_iff]
    intro l hl
    simpa using h l hl
  rw [lineQuantity, hnil]
  rfl

@[simp] theorem carried_nil (counts : DeliveryStatus → Bool) (itemId : Uuid) :
    carried counts [] itemId = 0 := rfl

theorem carried_cons (counts : DeliveryStatus → Bool) (d : Delivery) (ds : List Delivery)
    (itemId : Uuid) :
    carried counts (d :: ds) itemId =
      (if counts d.status then lineQuantity d.items itemId else 0) + carried counts ds itemId := by
  simp [carried]

theorem carried_append (counts : DeliveryStatus → Bool) (ds es : List Delivery) (itemId : Uuid) :
    carried counts (ds ++ es) itemId = carried counts ds itemId + carried counts es itemId := by
  simp [carried]

theorem carried_mono {counts counts' : DeliveryStatus → Bool}
    (h : ∀ s, counts s = true → counts' s = true) (ds : List Delivery) (itemId : Uuid) :
    carried counts ds itemId ≤ carried counts' ds itemId := by
  induction ds with
  | nil => exact le_refl _
  | cons d ds ih =>
    rw [carried_cons, carried_cons]
    have hd := h d.status
    by_cases hc : counts d.status
    · simp only [hc, hd hc, if_true]
      omega
    · simp only [hc, Bool.false_eq_true, if_false]
      omega

theorem carried_eq_zero {counts : DeliveryStatus → Bool} {ds : List Delivery} {itemId : Uuid}
    (h : ∀ d ∈ ds, counts d.status = true → ∀ l ∈ d.items, l.orderItemId ≠ itemId) :
    carried counts ds itemId = 0 := by
  induction ds with
  | nil => rfl
  | cons d ds ih =>
    rw [carried_cons, ih fun d' hd' => h d' (List.mem_cons_of_mem _ hd')]
    split_ifs with hc
    · rw [lineQuantity_eq_zero (h d (List.mem_cons_self ..) hc)]
    · rfl

/-- Deliveries that do not carry the item can be left out of the sum. -/
theorem carried_filter {counts : DeliveryStatus → Bool} {ds : List Delivery} {itemId : Uuid}
    {p : Delivery → Bool} (h : ∀ d ∈ ds, p d = false → ∀ l ∈ d.items, l.orderItemId ≠ itemId) :
    carried counts (ds.filter p) itemId = carried counts ds itemId := by
  induction ds with
  | nil => rfl
  | cons d ds ih =>
    have ih' := ih fun d' hd' => h d' (List.mem_cons_of_mem _ hd')
    by_cases hp : p d
    · rw [List.filter_cons_of_pos hp, carried_cons, carried_cons, ih']
    · have hzero := lineQuantity_eq_zero (h d (List.mem_cons_self ..) (by simpa using hp))
      rw [List.filter_cons_of_neg hp, carried_cons, ih', hzero]
      simp

/-! The dictionaries of the source hold these sums. -/

theorem get_addLines (lines : List DeliveryItem) (d : List (Uuid × ℕ)) (itemId : Uuid) :
    (Dict.get itemId (lines.foldl
      (fun d i => Dict.alter i.orderItemId (fun q => q.getD 0 + i.quantity) d) d)).getD 0 =
      (Dict.get itemId d).getD 0 + lineQuantity lines itemId := by
  induction lines generalizing d with
  | nil => rfl
  | cons l ls ih =>
    rw [List.foldl_cons, ih, lineQuantity_cons]
    by_cases h : l.orderItemId = itemId
    · rw [h, Dict.get_alter_self, if_pos rfl, Option.getD_some]
      omega
    · rw [Dict.get_alter_ne (fun e => h e.symm), if_neg h]
      omega

theorem get_quantitiesBy_aux (counts : DeliveryStatus → Bool) (ds : List Delivery)
    (d : List (Uuid × ℕ)) (itemId : Uuid) :
    (Dict.get itemId (ds.foldl (fun d delivery =>
      if counts delivery.status then
        delivery.items.foldl
          (fun d i => Dict.alter i.orderItemId (fun q => q.getD 0 + i.quantity) d) d
      else d) d)).getD 0 = (Dict.get itemId d).getD 0 + carried counts ds itemId := by
  induction ds generalizing d with
  | nil => rfl
  | cons delivery ds ih =>
    rw [List.foldl_cons, ih, carried_cons]
    by_cases hc : counts delivery.status
    · rw [if_pos hc, get_addLines, if_pos hc]
      omega
    · rw [if_neg hc, if_neg hc]
      omega

/-- The value of a quantity dictionary at an item. -/
theorem get_quantitiesBy (counts : DeliveryStatus → Bool) (ds : List Delivery) (itemId : Uuid) :
    (Dict.get itemId (quantitiesBy counts ds)).getD 0 = carried counts ds itemId := by
  have h := get_quantitiesBy_aux counts ds [] itemId
  simpa [quantitiesBy, Dict.get] using h

/-- Lines that pass the check name each item at most once, and only items that are not in
`seen`. -/
theorem checkDeliveryLines_fresh {items : List OrderItem} {allocated : List (Uuid × ℕ)}
    {seen : List Uuid} {lines : List DeliveryItem}
    (h : checkDeliveryLines items allocated seen lines = .ok ()) :
    ∀ l ∈ lines, l.orderItemId ∉ seen := by
  induction lines generalizing seen with
  | nil => intro l hl; cases hl
  | cons line lines ih =>
    unfold checkDeliveryLines at h
    by_cases hs : line.orderItemId ∈ seen
    · simp [hs] at h
    · rw [if_neg hs] at h
      cases hi : Table.find OrderItem.id line.orderItemId items with
      | none => simp [hi] at h
      | some item =>
        simp only [hi] at h
        split_ifs at h
        intro l hl
        rcases List.mem_cons.mp hl with rfl | hl
        · exact hs
        · exact fun hmem => ih h l hl (List.mem_cons_of_mem _ hmem)

theorem checkDeliveryLines_item {items : List OrderItem} {allocated : List (Uuid × ℕ)}
    {seen : List Uuid} {lines : List DeliveryItem}
    (h : checkDeliveryLines items allocated seen lines = .ok ()) :
    ∀ l ∈ lines, ∃ i ∈ items, i.id = l.orderItemId := by
  induction lines generalizing seen with
  | nil => intro l hl; cases hl
  | cons line lines ih =>
    unfold checkDeliveryLines at h
    by_cases hs : line.orderItemId ∈ seen
    · simp [hs] at h
    · rw [if_neg hs] at h
      cases hi : Table.find OrderItem.id line.orderItemId items with
      | none => simp [hi] at h
      | some item =>
        simp only [hi] at h
        split_ifs at h
        intro l hl
        rcases List.mem_cons.mp hl with rfl | hl
        · exact ⟨item, Table.mem_of_find hi, Table.key_of_find hi⟩
        · exact ih h l hl

/-- The allocation check: with the new lines an item is still not over-allocated. -/
theorem checkDeliveryLines_le {items : List OrderItem} {allocated : List (Uuid × ℕ)}
    {seen : List Uuid} {lines : List DeliveryItem} {item : OrderItem}
    (hn : (items.map OrderItem.id).Nodup) (hitem : item ∈ items)
    (hle : (Dict.get item.id allocated).getD 0 ≤ item.quantity)
    (h : checkDeliveryLines items allocated seen lines = .ok ()) :
    (Dict.get item.id allocated).getD 0 + lineQuantity lines item.id ≤ item.quantity := by
  induction lines generalizing seen with
  | nil => simpa [lineQuantity] using hle
  | cons line lines ih =>
    unfold checkDeliveryLines at h
    by_cases hs : line.orderItemId ∈ seen
    · simp [hs] at h
    · rw [if_neg hs] at h
      cases hi : Table.find OrderItem.id line.orderItemId items with
      | none => simp [hi] at h
      | some found =>
        simp only [hi] at h
        split_ifs at h with hremaining
        rw [lineQuantity_cons]
        by_cases hline : line.orderItemId = item.id
        · -- the remaining lines do not name this item again
          have hrest : lineQuantity lines item.id = 0 := by
            refine lineQuantity_eq_zero fun l hl he => ?_
            exact checkDeliveryLines_fresh h l hl (by rw [he, hline]; exact List.mem_cons_self ..)
          have hfound : found = item := by
            have hf := Table.find_of_mem hn hitem
            rw [← hline, hi] at hf
            exact Option.some.inj hf
          rw [hfound] at hremaining
          rw [if_pos hline, hrest]
          omega
        · rw [if_neg hline, Nat.zero_add]
          exact ih h

/-! Order items and deliveries over a run. -/

/-- What an update of a delivery's row never writes. -/
structure SameDelivery (d d' : Delivery) : Prop where
  id : d'.id = d.id
  orderId : d'.orderId = d.orderId
  items : d'.items = d.items
  code : d'.code = d.code

/-- Every delivery belongs to an order and carries items of that order, and no item is
allocated beyond its ordered quantity. -/
structure DeliveryTables (s : Store) : Prop where
  keys : OrderKeys s
  itemsUsed : ∀ o ∈ s.orders, ∀ i ∈ o.items, i.id < s.nextId
  itemIds : ∀ o ∈ s.orders, (o.items.map OrderItem.id).Nodup
  itemOrder : ∀ o ∈ s.orders, ∀ o' ∈ s.orders, ∀ i ∈ o.items, ∀ i' ∈ o'.items,
    i.id = i'.id → o.id = o'.id
  deliveryIds : (s.deliveries.map Delivery.id).Nodup
  deliveriesUsed : ∀ d ∈ s.deliveries, d.id < s.nextId
  ofOrder : ∀ d ∈ s.deliveries, ∃ o ∈ s.orders, o.id = d.orderId ∧
    ∀ l ∈ d.items, ∃ i ∈ o.items, i.id = l.orderItemId
  allocated : ∀ o ∈ s.orders, ∀ i ∈ o.items,
    carried DeliveryStatus.allocates s.deliveries i.id ≤ i.quantity

/-- An item is carried by its own order's deliveries only. -/
theorem DeliveryTables.carried_ofOrder {s : Store} (h : DeliveryTables s) {o : Order}
    (ho : o ∈ s.orders) {i : OrderItem} (hi : i ∈ o.items) (counts : DeliveryStatus → Bool) :
    carried counts (s.deliveriesOf o.id) i.id = carried counts s.deliveries i.id := by
  refine carried_filter fun d hd hp l hl he => ?_
  obtain ⟨o', ho', hid, hitems⟩ := h.ofOrder d hd
  obtain ⟨i', hi', hl'⟩ := hitems l hl
  have hsame := h.itemOrder o' ho' o ho i' hi' i hi (hl'.trans he)
  simp only [decide_eq_false_iff_not] at hp
  exact hp (hid.symm.trans hsame)

/-- No delivery names the id that the next order gets. -/
theorem DeliveryTables.deliveriesOf_unused {s : Store} (h : DeliveryTables s) {orderId : Uuid}
    (hid : orderId = s.nextId) : s.deliveriesOf orderId = [] := by
  rw [Store.deliveriesOf, List.filter_eq_nil_iff]
  intro d hd he
  obtain ⟨o, ho, hod, -⟩ := h.ofOrder d hd
  have hused := h.keys.used o ho
  rw [hod, of_decide_eq_true he, hid] at hused
  exact lt_irrefl _ hused

/-- Rows written in place, and nothing newly allocated. -/
structure UpdatedInPlace (s t : Store) : Prop where
  orders : ∃ orderId f, (∀ o, SameOrder o (f o)) ∧
    t.orders = Table.modify Order.id orderId f s.orders
  deliveries : ∃ deliveryId f, (∀ d, SameDelivery d (f d)) ∧
    t.deliveries = Table.modify Delivery.id deliveryId f s.deliveries
  nextId : t.nextId = s.nextId
  released : ∀ itemId, carried DeliveryStatus.allocates t.deliveries itemId ≤
    carried DeliveryStatus.allocates s.deliveries itemId

/-- The row an updated order comes from. -/
theorem sameOrder_of_mem_modify {orders : List Order} {orderId : Uuid} {f : Order → Order}
    (hf : ∀ o, SameOrder o (f o)) {o' : Order}
    (h : o' ∈ Table.modify Order.id orderId f orders) : ∃ o ∈ orders, SameOrder o o' := by
  obtain ⟨o, ho, rfl⟩ := Table.mem_modify.mp h
  refine ⟨o, ho, ?_⟩
  split_ifs
  · exact hf o
  · exact ⟨rfl, rfl, rfl, rfl⟩

theorem mem_modify_of_sameOrder {orders : List Order} {orderId : Uuid} {f : Order → Order}
    (hf : ∀ o, SameOrder o (f o)) {o : Order} (h : o ∈ orders) :
    ∃ o' ∈ Table.modify Order.id orderId f orders, SameOrder o o' := by
  refine ⟨_, Table.mem_modify.mpr ⟨o, h, rfl⟩, ?_⟩
  split_ifs
  · exact hf o
  · exact ⟨rfl, rfl, rfl, rfl⟩

theorem sameDelivery_of_mem_modify {ds : List Delivery} {deliveryId : Uuid}
    {f : Delivery → Delivery} (hf : ∀ d, SameDelivery d (f d)) {d' : Delivery}
    (h : d' ∈ Table.modify Delivery.id deliveryId f ds) : ∃ d ∈ ds, SameDelivery d d' := by
  obtain ⟨d, hd, rfl⟩ := Table.mem_modify.mp h
  refine ⟨d, hd, ?_⟩
  split_ifs
  · exact hf d
  · exact ⟨rfl, rfl, rfl, rfl⟩

theorem deliveryTables_updatedInPlace {s t : Store} (hs : DeliveryTables s) (hk : OrderKeys t)
    (h : UpdatedInPlace s t) : DeliveryTables t := by
  obtain ⟨orderId, f, hf, hto⟩ := h.orders
  obtain ⟨deliveryId, g, hg, htd⟩ := h.deliveries
  have hback : ∀ o' ∈ t.orders, ∃ o ∈ s.orders, SameOrder o o' := fun o' ho' =>
    sameOrder_of_mem_modify hf (hto ▸ ho')
  refine ⟨hk, ?_, ?_, ?_, ?_, ?_, ?_, ?_⟩
  · intro o' ho' i hi
    obtain ⟨o, ho, hsame⟩ := hback o' ho'
    rw [h.nextId]
    exact hs.itemsUsed o ho i (hsame.items ▸ hi)
  · intro o' ho'
    obtain ⟨o, ho, hsame⟩ := hback o' ho'
    rw [hsame.items]
    exact hs.itemIds o ho
  · intro o₁' ho₁' o₂' ho₂' i₁ hi₁ i₂ hi₂ he
    obtain ⟨o₁, ho₁, hsame₁⟩ := hback o₁' ho₁'
    obtain ⟨o₂, ho₂, hsame₂⟩ := hback o₂' ho₂'
    rw [hsame₁.id, hsame₂.id]
    exact hs.itemOrder o₁ ho₁ o₂ ho₂ i₁ (hsame₁.items ▸ hi₁) i₂ (hsame₂.items ▸ hi₂) he
  · rw [htd, Table.map_modify fun d _ => (hg d).id]
    exact hs.deliveryIds
  · intro d' hd'
    obtain ⟨d, hd, hsame⟩ := sameDelivery_of_mem_modify hg (htd ▸ hd')
    rw [hsame.id, h.nextId]
    exact hs.deliveriesUsed d hd
  · intro d' hd'
    obtain ⟨d, hd, hsame⟩ := sameDelivery_of_mem_modify hg (htd ▸ hd')
    obtain ⟨o, ho, hid, hitems⟩ := hs.ofOrder d hd
    obtain ⟨o', ho', hsame'⟩ := mem_modify_of_sameOrder hf ho
    refine ⟨o', hto ▸ ho', by rw [hsame'.id, hsame.orderId, hid], fun l hl => ?_⟩
    rw [hsame'.items]
    exact hitems l (hsame.items ▸ hl)
  · intro o' ho' i hi
    obtain ⟨o, ho, hsame⟩ := hback o' ho'
    exact (h.released i.id).trans (hs.allocated o ho i (hsame.items ▸ hi))

/-- A new order has new items, which no delivery carries yet. -/
theorem deliveryTables_created {data : CheckoutRequest} {key : Uuid} {day : ℕ} {s t : Store}
    {o : Order} (hs : DeliveryTables s) (hk : OrderKeys t) (h : Created data key day s t o) :
    DeliveryTables t := by
  have hlt : s.nextId < t.nextId := by rw [h.nextId]; grind
  have hmem : ∀ {o'}, o' ∈ t.orders → o' ∈ s.orders ∨ o' = o := by
    intro o' ho'
    rw [h.orders] at ho'
    simpa using ho'
  -- an old item's id is below every new item's id
  have hsep : ∀ o' ∈ s.orders, ∀ i' ∈ o'.items, ∀ i ∈ o.items, i'.id ≠ i.id := by
    intro o' ho' i' hi' i hi he
    have h₁ := hs.itemsUsed o' ho' i' hi'
    have h₂ := (h.itemIds i hi).1
    rw [he] at h₁
    exact absurd h₁ (not_lt.mpr h₂.le)
  refine ⟨hk, ?_, ?_, ?_, ?_, ?_, ?_, ?_⟩
  · intro o' ho' i hi
    rcases hmem ho' with ho' | rfl
    · exact (hs.itemsUsed o' ho' i hi).trans hlt
    · exact (h.itemIds i hi).2
  · intro o' ho'
    rcases hmem ho' with ho' | rfl
    · exact hs.itemIds o' ho'
    · exact h.itemsNodup
  · intro o₁ ho₁ o₂ ho₂ i₁ hi₁ i₂ hi₂ he
    rcases hmem ho₁ with ho₁ | rfl
    · rcases hmem ho₂ with ho₂ | rfl
      · exact hs.itemOrder o₁ ho₁ o₂ ho₂ i₁ hi₁ i₂ hi₂ he
      · exact absurd he (hsep o₁ ho₁ i₁ hi₁ i₂ hi₂)
    · rcases hmem ho₂ with ho₂ | rfl
      · exact absurd he.symm (hsep o₂ ho₂ i₂ hi₂ i₁ hi₁)
      · rfl
  · rw [h.deliveries]
    exact hs.deliveryIds
  · intro d hd
    rw [h.deliveries] at hd
    exact (hs.deliveriesUsed d hd).trans hlt
  · intro d hd
    rw [h.deliveries] at hd
    obtain ⟨o', ho', hrest⟩ := hs.ofOrder d hd
    exact ⟨o', by rw [h.orders]; exact List.mem_append_left _ ho', hrest⟩
  · intro o' ho' i hi
    rw [h.deliveries]
    rcases hmem ho' with ho' | rfl
    · exact hs.allocated o' ho' i hi
    · rw [carried_eq_zero]
      · exact Nat.zero_le _
      · intro d hd _ l hl he
        obtain ⟨o'', ho'', -, hitems⟩ := hs.ofOrder d hd
        obtain ⟨i'', hi'', hid⟩ := hitems l hl
        exact hsep o'' ho'' i'' hi'' i hi (hid.trans he)

/-- A new delivery passed the allocation check. -/
theorem deliveryTables_deliveryCreated {orderId : Uuid} {s t : Store} {d : Delivery}
    {order : Order} (hs : DeliveryTables s) (hk : OrderKeys t)
    (h : DeliveryCreated orderId s t d order) : DeliveryTables t := by
  obtain ⟨now, ht⟩ := h.written
  have horder : order ∈ s.orders := Table.mem_of_find h.found
  have hid : order.id = orderId := Table.key_of_find h.found
  have hto : t.orders = Table.modify Order.id orderId
      (Order.rollUp (s.deliveriesOf orderId) now) s.orders := by rw [ht]; rfl
  have htd : t.deliveries = s.deliveries ++ [d] := by rw [ht]; rfl
  have hnext : t.nextId = s.nextId + 1 := by rw [ht]; rfl
  have hlt : s.nextId < t.nextId := by rw [hnext]; exact Nat.lt_succ_self _
  have hback : ∀ o' ∈ t.orders, ∃ o ∈ s.orders, SameOrder o o' := fun o' ho' =>
    sameOrder_of_mem_modify (fun o => sameOrder_rollUp _ now o) (hto ▸ ho')
  have hforth : ∀ o ∈ s.orders, ∃ o' ∈ t.orders, SameOrder o o' := fun o ho => by
    rw [hto]
    exact mem_modify_of_sameOrder (fun o => sameOrder_rollUp _ now o) ho
  have hmem : ∀ {d'}, d' ∈ t.deliveries → d' ∈ s.deliveries ∨ d' = d := by
    intro d' hd'
    rw [htd] at hd'
    simpa using hd'
  refine ⟨hk, ?_, ?_, ?_, ?_, ?_, ?_, ?_⟩
  · intro o' ho' i hi
    obtain ⟨o, ho, hsame⟩ := hback o' ho'
    exact (hs.itemsUsed o ho i (hsame.items ▸ hi)).trans hlt
  · intro o' ho'
    obtain ⟨o, ho, hsame⟩ := hback o' ho'
    rw [hsame.items]
    exact hs.itemIds o ho
  · intro o₁' ho₁' o₂' ho₂' i₁ hi₁ i₂ hi₂ he
    obtain ⟨o₁, ho₁, hsame₁⟩ := hback o₁' ho₁'
    obtain ⟨o₂, ho₂, hsame₂⟩ := hback o₂' ho₂'
    rw [hsame₁.id, hsame₂.id]
    exact hs.itemOrder o₁ ho₁ o₂ ho₂ i₁ (hsame₁.items ▸ hi₁) i₂ (hsame₂.items ▸ hi₂) he
  · rw [htd]
    refine nodup_map_append hs.deliveryIds fun d' hd' he => ?_
    have hused := hs.deliveriesUsed d' hd'
    rw [he, h.id] at hused
    exact lt_irrefl _ hused
  · intro d' hd'
    rcases hmem hd' with hd' | rfl
    · exact (hs.deliveriesUsed d' hd').trans hlt
    · rw [h.id]
      exact hlt
  · intro d' hd'
    rcases hmem hd' with hd' | rfl
    · obtain ⟨o, ho, hoid, hitems⟩ := hs.ofOrder d' hd'
      obtain ⟨o', ho', hsame⟩ := hforth o ho
      refine ⟨o', ho', by rw [hsame.id, hoid], ?_⟩
      rw [hsame.items]
      exact hitems
    · obtain ⟨o', ho', hsame⟩ := hforth order horder
      refine ⟨o', ho', by rw [hsame.id, hid, h.ofOrder], ?_⟩
      rw [hsame.items]
      exact checkDeliveryLines_item h.lines
  · intro o' ho' i hi
    obtain ⟨o, ho, hsame⟩ := hback o' ho'
    have hi' : i ∈ o.items := hsame.items ▸ hi
    have hold := hs.allocated o ho i hi'
    rw [htd, carried_append, carried_cons, carried_nil, h.status]
    simp only [DeliveryStatus.allocates, ne_eq, reduceCtorEq, not_false_eq_true, decide_true,
      Bool.and_self, if_true]
    by_cases ho_eq : o.id = orderId
    · -- the order of the new delivery: its allocation was checked
      have hsame_order : o = order := by
        have hfind := Table.find_of_mem hs.keys.ids ho
        rw [ho_eq, h.found] at hfind
        exact (Option.some.inj hfind).symm
      have hcheck := checkDeliveryLines_le (hs.itemIds order horder) (hsame_order ▸ hi')
        (by rw [allocatedQuantities, get_quantitiesBy, ← hid,
              hs.carried_ofOrder horder (hsame_order ▸ hi')]; exact hold) h.lines
      rw [allocatedQuantities, get_quantitiesBy, ← hid,
        hs.carried_ofOrder horder (hsame_order ▸ hi')] at hcheck
      exact hcheck
    · -- another order's items are not in the new delivery
      have hzero : lineQuantity d.items i.id = 0 := by
        refine lineQuantity_eq_zero fun l hl he => ho_eq ?_
        obtain ⟨i₂, hi₂, hid₂⟩ := checkDeliveryLines_item h.lines l hl
        rw [← hid]
        exact hs.itemOrder o ho order horder i hi' i₂ hi₂ (by rw [hid₂, he])
      rw [hzero]
      exact hold

end Qiki.Orders
