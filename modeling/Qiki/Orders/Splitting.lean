import Qiki.Orders.DeliveredUnits

/-! How an order is split into deliveries: nothing is allocated twice, and every delivery
keeps a code of its own. -/
namespace Qiki.Orders

/-- The quantities, lines and codes of an order's deliveries fit the order. -/
structure WellSplit (s : Store) (o : Order) : Prop where
  allocated : ∀ i ∈ o.items,
    carried DeliveryStatus.allocates (s.deliveriesOf o.id) i.id ≤ i.quantity
  ofOrder : ∀ d ∈ s.deliveriesOf o.id, ∀ l ∈ d.items, ∃ i ∈ o.items, i.id = l.orderItemId
  linesOnce : ∀ d ∈ s.deliveriesOf o.id, (d.items.map DeliveryItem.orderItemId).Nodup
  codes : ((s.deliveriesOf o.id).map Delivery.codeText).Nodup

/-- The codes that an order's first `n` deliveries get. -/
def firstCodes (o : Order) (n : ℕ) : List (OrderNumber × ℕ) :=
  (List.range n).map fun k => (o.orderNumber, k + 1)

theorem firstCodes_succ (o : Order) (n : ℕ) :
    firstCodes o (n + 1) = firstCodes o n ++ [(o.orderNumber, n + 1)] := by
  simp [firstCodes, List.range_succ]

/-- The codes of an order's deliveries are numbered in the order of their creation, and no
delivery has two lines for one item. -/
structure CodeTables (s : Store) : Prop where
  codes : ∀ o ∈ s.orders, (s.deliveriesOf o.id).map Delivery.code =
    firstCodes o (s.deliveriesOf o.id).length
  linesOnce : ∀ d ∈ s.deliveries, (d.items.map DeliveryItem.orderItemId).Nodup

theorem checkDeliveryLines_nodup {items : List OrderItem} {allocated : List (Uuid × ℕ)}
    {seen : List Uuid} {lines : List DeliveryItem}
    (h : checkDeliveryLines items allocated seen lines = .ok ()) :
    (lines.map DeliveryItem.orderItemId).Nodup := by
  induction lines generalizing seen with
  | nil => exact List.nodup_nil
  | cons line lines ih =>
    unfold checkDeliveryLines at h
    by_cases hs : line.orderItemId ∈ seen
    · simp [hs] at h
    · rw [if_neg hs] at h
      cases hi : Table.find OrderItem.id line.orderItemId items with
      | none => simp [hi] at h
      | some item =>
        simp only [hi] at h
        split_ifs at h
        rw [List.map_cons, List.nodup_cons]
        refine ⟨fun hmem => ?_, ih h⟩
        obtain ⟨l, hl, he⟩ := List.mem_map.mp hmem
        exact checkDeliveryLines_fresh h l hl (he ▸ List.mem_cons_self ..)

/-- An update in place keeps which deliveries an order has, and their codes. -/
theorem codes_updatedInPlace {s t : Store} (h : UpdatedInPlace s t) (orderId : Uuid) :
    (t.deliveriesOf orderId).map Delivery.code = (s.deliveriesOf orderId).map Delivery.code := by
  obtain ⟨deliveryId, f, hf, ht⟩ := h.deliveries
  rw [Store.deliveriesOf, ht, Table.filter_modify fun d _ => by rw [(hf d).orderId],
    Table.map_modify fun d _ => (hf d).code]
  rfl

theorem codeTables_updatedInPlace {s t : Store} (hs : CodeTables s) (h : UpdatedInPlace s t) :
    CodeTables t := by
  obtain ⟨orderId, f, hf, hto⟩ := h.orders
  obtain ⟨deliveryId, g, hg, htd⟩ := h.deliveries
  constructor
  · intro o' ho'
    obtain ⟨o, ho, hsame⟩ := sameOrder_of_mem_modify hf (hto ▸ ho')
    have hcodes := codes_updatedInPlace h o.id
    have hlength := congrArg List.length hcodes
    rw [List.length_map, List.length_map] at hlength
    rw [hsame.id, hcodes, hs.codes o ho, firstCodes, firstCodes, hsame.orderNumber, hlength]
  · intro d' hd'
    obtain ⟨d, hd, hsame⟩ := sameDelivery_of_mem_modify hg (htd ▸ hd')
    rw [hsame.items]
    exact hs.linesOnce d hd

theorem codeTables_created {data : CheckoutRequest} {key : Uuid} {day : ℕ} {s t : Store}
    {o : Order} (hd : DeliveryTables s) (hs : CodeTables s) (h : Created data key day s t o) :
    CodeTables t := by
  have hof : ∀ orderId, t.deliveriesOf orderId = s.deliveriesOf orderId := fun orderId => by
    rw [Store.deliveriesOf, h.deliveries]
    rfl
  constructor
  · intro o' ho'
    rw [h.orders] at ho'
    rcases List.mem_append.mp ho' with ho' | ho'
    · rw [hof]
      exact hs.codes o' ho'
    · -- no delivery names the id that the new order gets
      obtain rfl : o' = o := by simpa using ho'
      rw [hof, hd.deliveriesOf_unused h.id]
      rfl
  · rw [h.deliveries]
    exact hs.linesOnce

theorem codeTables_deliveryCreated {orderId : Uuid} {s t : Store} {d : Delivery} {order : Order}
    (hd : DeliveryTables s) (hs : CodeTables s) (h : DeliveryCreated orderId s t d order) :
    CodeTables t := by
  obtain ⟨now, ht⟩ := h.written
  have horder : order ∈ s.orders := Table.mem_of_find h.found
  have htd : t.deliveries = s.deliveries ++ [d] := by rw [ht]; rfl
  constructor
  · intro o' ho'
    rw [ht] at ho'
    obtain ⟨o, ho, hsame⟩ := sameOrder_of_mem_modify (fun o => sameOrder_rollUp _ now o) ho'
    have hcodes : firstCodes o' = firstCodes o := by
      funext n
      rw [firstCodes, firstCodes, hsame.orderNumber]
    rw [hsame.id, hcodes, Store.deliveriesOf, htd, List.filter_append]
    by_cases ho_eq : o.id = orderId
    · -- the order of the new delivery: its code is the next one
      have hsame_order : o = order := by
        have hfind := Table.find_of_mem hd.keys.ids ho
        rw [ho_eq, h.found] at hfind
        exact (Option.some.inj hfind).symm
      have hnew : [d].filter (fun d' => decide (d'.orderId = o.id)) = [d] := by
        simp [h.ofOrder, ho_eq]
      have hold := hs.codes o ho
      rw [Store.deliveriesOf] at hold
      rw [hnew, List.map_append, hold, List.length_append, List.length_singleton,
        firstCodes_succ, List.map_singleton, h.code, ← hsame_order, ← ho_eq]
      rfl
    · have hnew : [d].filter (fun d' => decide (d'.orderId = o.id)) = [] := by
        simp [h.ofOrder, Ne.symm ho_eq]
      rw [hnew, List.append_nil]
      exact hs.codes o ho
  · intro d' hd'
    rw [htd] at hd'
    rcases List.mem_append.mp hd' with hd' | hd'
    · exact hs.linesOnce d' hd'
    · obtain rfl : d' = d := by simpa using hd'
      exact checkDeliveryLines_nodup h.lines

theorem codeTables_effect {r : Request} {s t : Store} (hd : DeliveryTables s) (hs : CodeTables s)
    (h : Effect r s t) : CodeTables t := by
  cases h with
  | unchanged same => rw [same]; exact hs
  | created coupons data user key o op absent created nonneg =>
    exact codeTables_created hd hs created
  | cancelled orderId user reason phone old op canView cancellable changed =>
    exact codeTables_updatedInPlace hs (updatedInPlace_statusChanged changed)
  | statusUpdated orderId newStatus admin notes old op staff changed =>
    exact codeTables_updatedInPlace hs (updatedInPlace_statusChanged changed)
  | deliveryCreated orderId payload d order op created =>
    exact codeTables_deliveryCreated hd hs created
  | deliveryUpdated orderId deliveryId newStatus notes old op ofOrder changed =>
    exact codeTables_updatedInPlace hs (updatedInPlace_deliveryChanged hd.deliveryIds changed)
  | driverUpdated deliveryId actorId isAdmin outcome notes lat lng old op mayTouch changed =>
    exact codeTables_updatedInPlace hs (updatedInPlace_deliveryChanged hd.deliveryIds changed)
  | driverAssigned deliveryId driverId op written =>
    rw [written]
    exact codeTables_updatedInPlace hs updatedInPlace_driverAssigned

theorem codeTables_catalog (c : Catalog) : CodeTables c.store where
  codes := fun _ h => nomatch h
  linesOnce := fun _ h => nomatch h

theorem serveAll_tables (c : Catalog) (rs : List Request) :
    DeliveryTables (serveAll c.store rs) ∧ CodeTables (serveAll c.store rs) := by
  have hstep : ∀ s r, DeliveryTables s ∧ CodeTables s →
      DeliveryTables (serve s r).1 ∧ CodeTables (serve s r).1 := fun s r hs =>
    ⟨deliveryTables_effect hs.1 (serve_effect s r), codeTables_effect hs.1 hs.2 (serve_effect s r)⟩
  exact serveAll_invariant hstep rs ⟨deliveryTables_catalog c, codeTables_catalog c⟩

/-- The decimal digits of a number determine it. -/
theorem toString_nat_injective {m n : ℕ} (h : toString m = toString n) : m = n := by
  have h' : Nat.repr m = Nat.repr n := h
  have hm := congrArg String.toNat? h'
  simpa using hm

/-- Two codes of one order have the same text only if they are the same. -/
theorem codeText_injective {d d' : Delivery} (hn : d.code.1 = d'.code.1)
    (h : d.codeText = d'.codeText) : d.code = d'.code := by
  unfold Delivery.codeText at h
  rw [hn] at h
  have htail := String.append_right_inj _ |>.mp h
  exact Prod.ext hn (toString_nat_injective htail)

theorem codes_nodup {s : Store} (hs : CodeTables s) {o : Order} (ho : o ∈ s.orders) :
    ((s.deliveriesOf o.id).map Delivery.codeText).Nodup := by
  have hcodes := hs.codes o ho
  have hfirst : ((s.deliveriesOf o.id).map Delivery.code).Nodup := by
    rw [hcodes, firstCodes]
    refine List.nodup_range.map fun m n he => ?_
    simpa using he
  have hnumber : ∀ d ∈ s.deliveriesOf o.id, d.code.1 = o.orderNumber := by
    intro d hd
    have hmem := List.mem_map_of_mem (f := Delivery.code) hd
    rw [hcodes, firstCodes] at hmem
    obtain ⟨k, -, hk⟩ := List.mem_map.mp hmem
    rw [← hk]
  rw [List.nodup_map_iff_inj_on hfirst.of_map]
  intro d hd d' hd' he
  have hcode := codeText_injective ((hnumber d hd).trans (hnumber d' hd').symm) he
  exact List.inj_on_of_nodup_map hfirst hd hd' hcode

/-- Every order is well split. -/
def AllWellSplit (s : Store) : Prop := ∀ o ∈ s.orders, WellSplit s o

/-- So it is after every run of order and delivery requests. -/
theorem orders_wellSplit (c : Catalog) (rs : List Request) :
    AllWellSplit (serveAll c.store rs) := by
  intro o ho
  obtain ⟨hd, hs⟩ := serveAll_tables c rs
  refine ⟨fun i hi => ?_, fun d hdel l hl => ?_, fun d hdel => ?_, codes_nodup hs ho⟩
  · rw [hd.carried_ofOrder ho hi]
    exact hd.allocated o ho i hi
  · obtain ⟨hmem, hof⟩ := List.mem_filter.mp hdel
    obtain ⟨o', ho', hid, hitems⟩ := hd.ofOrder d hmem
    have hsame : o' = o := List.inj_on_of_nodup_map hd.keys.ids ho' ho
      (hid.trans (of_decide_eq_true hof))
    exact hsame ▸ hitems l hl
  · exact hs.linesOnce d (List.mem_filter.mp hdel).1

end Qiki.Orders
