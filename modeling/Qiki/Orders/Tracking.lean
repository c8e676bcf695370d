import Qiki.Chat.PhoneNumber
import Qiki.Orders.Books
import Qiki.Orders.Splitting
import Qiki.Text.Decimal

/-! Order numbers, and how a guest finds an order by its number and phone. -/
namespace Qiki.Orders

/-- What the lookup endpoint answers; `multiple` is the error of `scalar_one_or_none`. -/
inductive LookupResult
  | invalid
  | notFound
  | found (o : Order)
  | multiple
  deriving DecidableEq

/-- `lookup_guest_order` on the payload of `GuestOrderLookup`. -/
def lookupGuestOrder (db : Unicode.Database) (orders : List Order) (orderNumber : String)
    (phone : Text) : LookupResult :=
  if orderNumber.length < 8 ∨ 20 < orderNumber.length then .invalid
  else match Chat.validatePhone db phone with
    | none => .invalid
    | some normalized =>
      match orders.filter fun o =>
          o.orderNumber.render = orderNumber ∧ o.customerPhone.toList = normalized with
      | [] => .notFound
      | [o] => .found o
      | _ => .multiple

/-! The texts of numbers and codes. -/

theorem toList_toString (n : ℕ) : (toString n).toList = Text.ofNat n := Nat.toList_repr

theorem toList_zeroPad (width n : ℕ) :
    (zeroPad width (toString n)).toList = Text.padZeros width (Text.ofNat n) := by
  rw [zeroPad, String.toList_append, String.toList_ofList, toList_toString, ← String.length_toList,
    toList_toString]
  rfl

theorem toList_render (n : OrderNumber) : n.render.toList =
    "GB-".toList ++ (Text.ofNat n.day ++ '-' :: Text.padZeros 3 (Text.ofNat n.counter)) := by
  rw [OrderNumber.render, String.toList_append, String.toList_append, String.toList_append,
    toList_toString, toList_zeroPad]
  simp

/-- A separator that the first part does not contain splits a text in one way. -/
theorem append_cons_inj {sep : Char} {a b c d : Text} (ha : sep ∉ a) (hc : sep ∉ c)
    (h : a ++ sep :: b = c ++ sep :: d) : a = c ∧ b = d := by
  induction a generalizing c with
  | nil =>
    cases c with
    | nil => exact ⟨rfl, (List.cons.inj h).2⟩
    | cons x c =>
      obtain ⟨rfl, -⟩ := List.cons.inj h
      exact absurd List.mem_cons_self hc
  | cons y a ih =>
    cases c with
    | nil =>
      obtain ⟨rfl, -⟩ := List.cons.inj h
      exact absurd List.mem_cons_self ha
    | cons x c =>
      obtain ⟨rfl, htail⟩ := List.cons.inj h
      obtain ⟨rfl, rfl⟩ := ih (fun hm => ha (List.mem_cons_of_mem _ hm))
        (fun hm => hc (List.mem_cons_of_mem _ hm)) htail
      exact ⟨rfl, rfl⟩

theorem not_mem_ofNat {c : Char} (hc : c.isDigit = false) (n : ℕ) : c ∉ Text.ofNat n := fun h => by
  rw [Text.isDigit_of_mem_ofNat h] at hc
  cases hc

theorem not_mem_padZeros {c : Char} (hc : c.isDigit = false) (width n : ℕ) :
    c ∉ Text.padZeros width (Text.ofNat n) := fun h => by
  rw [Text.isDigit_of_mem_padZeros h] at hc
  cases hc

theorem padZeros_injective {width m n : ℕ}
    (h : Text.padZeros width (Text.ofNat m) = Text.padZeros width (Text.ofNat n)) : m = n := by
  have hm := Text.toNat_padZeros width m
  rw [h, Text.toNat_padZeros] at hm
  exact (Option.some.inj hm).symm

/-- The text of an order number determines it. -/
theorem render_injective {m n : OrderNumber} (h : m.render = n.render) : m = n := by
  have hlist := congrArg String.toList h
  rw [toList_render, toList_render] at hlist
  obtain ⟨hday, hcounter⟩ := append_cons_inj (not_mem_ofNat (by decide) _)
    (not_mem_ofNat (by decide) _) (List.append_cancel_left hlist)
  cases m
  cases n
  simp only [OrderNumber.mk.injEq]
  exact ⟨Text.ofNat_injective hday, padZeros_injective hcounter⟩

theorem not_mem_render (n : OrderNumber) : 'D' ∉ n.render.toList ++ ['-'] := by
  rw [toList_render]
  simp only [List.mem_append, List.mem_cons, List.not_mem_nil, or_false, not_or]
  exact ⟨⟨by decide, not_mem_ofNat (by decide) _, by decide, not_mem_padZeros (by decide) _ _⟩,
    by decide⟩

/-- So does the text of a delivery code. -/
theorem code_of_codeText {d d' : Delivery} (h : d.codeText = d'.codeText) : d.code = d'.code := by
  have hlist := congrArg String.toList h
  have htext (d : Delivery) : d.codeText.toList =
      (d.code.1.render.toList ++ ['-']) ++ 'D' :: Text.ofNat d.code.2 := by
    rw [Delivery.codeText, String.toList_append, String.toList_append, toList_toString]
    simp
  rw [htext, htext] at hlist
  obtain ⟨hnumber, hindex⟩ := append_cons_inj (not_mem_render _) (not_mem_render _) hlist
  have hrender := String.toList_injective (List.append_cancel_right hnumber)
  exact Prod.ext (render_injective hrender) (Text.ofNat_injective hindex)

theorem length_render (n : OrderNumber) : 8 ≤ n.render.length := by
  have hday := List.length_pos_iff.mpr (Text.ofNat_ne_nil n.day)
  have hcounter : 3 ≤ (Text.padZeros 3 (Text.ofNat n.counter)).length := by
    rw [Text.padZeros, List.length_append, List.length_replicate]
    omega
  have hprefix : "GB-".toList.length = 3 := rfl
  rw [← String.length_toList, toList_render, List.length_append, List.length_append,
    List.length_cons]
  omega

/-! The numbers of a day. -/

/-- The counters of a day, in the order in which its orders were placed. -/
def countersOf (orders : List Order) (day : ℕ) : List ℕ :=
  (orders.filter fun o => o.orderNumber.day = day).map (·.orderNumber.counter)

theorem countersOf_append (orders : List Order) (o : Order) (day : ℕ) :
    countersOf (orders ++ [o]) day =
      countersOf orders day ++ if o.orderNumber.day = day then [o.orderNumber.counter] else [] := by
  rw [countersOf, List.filter_append, List.map_append]
  by_cases hday : o.orderNumber.day = day <;> simp [countersOf, hday]

theorem foldr_max_of_le {l : List ℕ} {m : ℕ} (h : ∀ x ∈ l, x ≤ m) : l.foldr max m = m := by
  induction l with
  | nil => rfl
  | cons x l ih =>
    rw [List.foldr_cons, ih fun y hy => h y (List.mem_cons_of_mem x hy)]
    exact max_eq_right (h x List.mem_cons_self)

theorem foldr_max_range' (n : ℕ) : (List.range' 1 n).foldr max 0 = n := by
  cases n with
  | zero => rfl
  | succ n =>
    have hle : ∀ x ∈ List.range' 1 n, x ≤ 1 + n := fun x hx =>
      (List.mem_range'_1.mp hx).2.le
    rw [List.range'_1_concat, List.foldr_append, List.foldr_cons, List.foldr_nil, max_eq_left
      (Nat.zero_le _), foldr_max_of_le hle, Nat.add_comm]

/-- The numbers of the stored orders. -/
structure Numbered (s : Store) : Prop where
  counters : ∀ day, countersOf s.orders day = List.range' 1 (countersOf s.orders day).length
  distinct : (s.orders.map Order.orderNumber).Nodup
  length : ∀ o ∈ s.orders, o.orderNumber.render.length ≤ 20

theorem numbered_booked {s t : Store} (h : Booked s t) (hs : Numbered s) : Numbered t := by
  cases h with
  | updated orderId f money rows orders coupons redemptions =>
    have hnumbers : t.orders.map Order.orderNumber = s.orders.map Order.orderNumber := by
      rw [orders]
      exact Table.map_modify fun o _ => (money o).orderNumber
    have hcounters (orders : List Order) (day : ℕ) : countersOf orders day =
        ((orders.map Order.orderNumber).filter (·.day = day)).map (·.counter) := by
      rw [countersOf, List.filter_map, List.map_map]
      rfl
    refine ⟨fun day => ?_, ?_, fun o ho => ?_⟩
    · rw [hcounters, hnumbers, ← hcounters]
      exact hs.counters day
    · rw [hnumbers]
      exact hs.distinct
    · have hmem := List.mem_map_of_mem (f := Order.orderNumber) ho
      rw [hnumbers] at hmem
      obtain ⟨old, hold, heq⟩ := List.mem_map.mp hmem
      rw [← heq]
      exact hs.length old hold
  | placed o placed =>
    obtain ⟨day, hnumber⟩ := placed.number
    have hnext : nextCounter s.orders day = (countersOf s.orders day).length + 1 := by
      rw [nextCounter]
      change (countersOf s.orders day).foldr max 0 + 1 = _
      rw [hs.counters day, foldr_max_range', List.length_range']
    refine ⟨fun day' => ?_, ?_, fun o' ho' => ?_⟩
    · rw [placed.orders, countersOf_append, hnumber]
      split_ifs with hday
      · obtain rfl : day = day' := hday
        rw [List.length_append, List.length_singleton, List.range'_1_concat, ← hs.counters day,
          hnext, Nat.add_comm]
      · rw [List.append_nil]
        exact hs.counters day'
    · rw [placed.orders]
      refine nodup_map_append hs.distinct fun o' ho' heq => ?_
      have hlt := counter_lt_nextCounter ho'
      rw [heq, hnumber] at hlt
      exact lt_irrefl _ hlt
    · rw [placed.orders] at ho'
      rcases List.mem_append.mp ho' with ho' | ho'
      · exact hs.length o' ho'
      · obtain rfl := List.mem_singleton.mp ho'
        exact placed.numberLength

theorem numbered_serveAll (c : Catalog) (rs : List Request) : Numbered (serveAll c.store rs) := by
  refine serveAll_booked c (fun s t _ ht => numbered_booked ht) rs ⟨fun day => rfl, ?_, ?_⟩
  · exact List.nodup_nil
  · intro o ho
    cases ho

theorem code_number {s : Store} (hs : CodeTables s) {o : Order} (ho : o ∈ s.orders) {d : Delivery}
    (hd : d ∈ s.deliveriesOf o.id) : d.code.1 = o.orderNumber := by
  have hmem := List.mem_map_of_mem (f := Delivery.code) hd
  rw [hs.codes o ho, firstCodes] at hmem
  obtain ⟨k, -, hk⟩ := List.mem_map.mp hmem
  rw [← hk]

/-- Two deliveries never share a code, also across orders. -/
theorem deliveryCodes_nodup {s : Store} (hn : Numbered s) (hd : DeliveryTables s)
    (hs : CodeTables s) : (s.deliveries.map Delivery.codeText).Nodup := by
  rw [List.nodup_map_iff_inj_on hd.deliveryIds.of_map]
  intro d hmem d' hmem' htext
  obtain ⟨o, ho, hid, -⟩ := hd.ofOrder d hmem
  obtain ⟨o', ho', hid', -⟩ := hd.ofOrder d' hmem'
  have hof : d ∈ s.deliveriesOf o.id := List.mem_filter.mpr ⟨hmem, decide_eq_true hid.symm⟩
  have hof' : d' ∈ s.deliveriesOf o'.id := List.mem_filter.mpr ⟨hmem', decide_eq_true hid'.symm⟩
  have hnumber : o.orderNumber = o'.orderNumber := by
    rw [← code_number hs ho hof, ← code_number hs ho' hof', code_of_codeText htext]
  obtain rfl := List.inj_on_of_nodup_map hn.distinct ho ho' hnumber
  exact List.inj_on_of_nodup_map (codes_nodup hs ho) hof hof' htext

/-! Lookup. -/

theorem filter_number {s : Store} (hs : Numbered s) {o : Order} (ho : o ∈ s.orders) :
    (s.orders.filter fun o' => o'.orderNumber.render = o.orderNumber.render ∧
      o'.customerPhone.toList = o.customerPhone.toList) = [o] := by
  have hsame : ∀ o' ∈ s.orders, (decide (o'.orderNumber.render = o.orderNumber.render ∧
      o'.customerPhone.toList = o.customerPhone.toList)) = decide (o' = o) := by
    intro o' ho'
    refine decide_eq_decide.mpr ⟨fun h => ?_, fun h => h ▸ ⟨rfl, rfl⟩⟩
    exact List.inj_on_of_nodup_map hs.distinct ho' ho (render_injective h.1)
  rw [List.filter_congr hsame, List.filter_eq, List.count_eq_one_of_mem hs.distinct.of_map ho]
  rfl

theorem lookup_found {db : Unicode.Database} {s : Store} (hs : Numbered s) {o : Order}
    (ho : o ∈ s.orders) {phone : Text}
    (hphone : Chat.validatePhone db phone = some o.customerPhone.toList) :
    lookupGuestOrder db s.orders o.orderNumber.render phone = .found o := by
  have hlength : ¬(o.orderNumber.render.length < 8 ∨ 20 < o.orderNumber.render.length) := by
    rw [not_or, Nat.not_lt, Nat.not_lt]
    exact ⟨length_render _, hs.length o ho⟩
  rw [lookupGuestOrder, if_neg hlength, hphone]
  dsimp only
  rw [filter_number hs ho]

/-- Only who knows both the number and the phone of an order finds it. -/
theorem found_lookup {db : Unicode.Database} {orders : List Order} {orderNumber : String}
    {phone : Text} {o : Order} (h : lookupGuestOrder db orders orderNumber phone = .found o) :
    o ∈ orders ∧ o.orderNumber.render = orderNumber ∧
      Chat.validatePhone db phone = some o.customerPhone.toList := by
  unfold lookupGuestOrder at h
  split_ifs at h
  cases hphone : Chat.validatePhone db phone with
  | none => simp [hphone] at h
  | some normalized =>
    simp only [hphone] at h
    split at h
    · cases h
    · rename_i o' hfilter
      obtain rfl := LookupResult.found.inj h
      have hmem : o' ∈ [o'] := List.mem_singleton_self o'
      rw [← hfilter, List.mem_filter, decide_eq_true_eq] at hmem
      exact ⟨hmem.1, hmem.2.1, congrArg some hmem.2.2.symm⟩
    · cases h

/-- Numbers are distinct, so a lookup is never ambiguous. -/
theorem lookup_ne_multiple {db : Unicode.Database} {s : Store} (hs : Numbered s)
    (orderNumber : String) (phone : Text) :
    lookupGuestOrder db s.orders orderNumber phone ≠ .multiple := by
  intro h
  unfold lookupGuestOrder at h
  split_ifs at h
  cases hphone : Chat.validatePhone db phone with
  | none => simp [hphone] at h
  | some normalized =>
    simp only [hphone] at h
    cases hfilter : s.orders.filter fun o =>
        o.orderNumber.render = orderNumber ∧ o.customerPhone.toList = normalized with
    | nil =>
      rw [hfilter] at h
      cases h
    | cons o rest =>
      have hmem : o ∈ s.orders.filter fun o =>
          o.orderNumber.render = orderNumber ∧ o.customerPhone.toList = normalized := by
        rw [hfilter]
        exact List.mem_cons_self
      rw [List.mem_filter, decide_eq_true_eq] at hmem
      obtain ⟨ho, rfl, rfl⟩ := hmem
      rw [filter_number hs ho] at h
      cases h

/-- What numbers, codes and lookups promise in a store. -/
structure Tracked (db : Unicode.Database) (s : Store) : Prop where
  counters : ∀ day, countersOf s.orders day = List.range' 1 (countersOf s.orders day).length
  numbers : (s.orders.map (·.orderNumber.render)).Nodup
  deliveryCodes : (s.deliveries.map Delivery.codeText).Nodup
  lookup : ∀ o ∈ s.orders, ∀ phone, Chat.validatePhone db phone = some o.customerPhone.toList →
    lookupGuestOrder db s.orders o.orderNumber.render phone = .found o
  onlyOwn : ∀ orderNumber phone o,
    lookupGuestOrder db s.orders orderNumber phone = .found o →
      o ∈ s.orders ∧ o.orderNumber.render = orderNumber ∧
        Chat.validatePhone db phone = some o.customerPhone.toList
  unambiguous : ∀ orderNumber phone, lookupGuestOrder db s.orders orderNumber phone ≠ .multiple

/-- In every store that requests reach, the orders of a day are numbered from one without gaps,
no two orders or deliveries share a number or code, and a guest finds an order by its number and
any spelling of its phone, and no order otherwise. -/
theorem orders_tracked (db : Unicode.Database) (c : Catalog) (rs : List Request) :
    Tracked db (serveAll c.store rs) := by
  have hs := numbered_serveAll c rs
  obtain ⟨hd, hcodes⟩ := serveAll_tables c rs
  refine ⟨hs.counters, ?_, deliveryCodes_nodup hs hd hcodes, fun o ho phone => lookup_found hs ho,
    fun _ _ _ => found_lookup, lookup_ne_multiple hs⟩
  have hrender := hs.distinct.map (f := OrderNumber.render) fun m n => render_injective
  rwa [List.map_map] at hrender

end Qiki.Orders
