import Qiki.Chat.PlainYes
import Qiki.Chat.SummaryAmounts
import Qiki.Orders.Availability

/-! A plain yes to a shown summary, from the order that is ready to the checkout. -/
namespace Qiki.Chat

open Unicode Orders AddressLookup

/-! Stages that pass. -/

section
variable {rt : Runtime} {turn : OrderTurn} {r : TurnReading} {slots : ChatOrderSlots}

theorem checkItems_of_specific
    (hspecific : ∀ item ∈ slots.items, isBareCategoryQuery rt.db item.product = false)
    (hmatched : ∀ m ∈ matchOrderItems rt.db slots.items turn.products, m.2 ≠ none) :
    checkItems rt turn slots = .ok (matchOrderItems rt.db slots.items turn.products) := by
  have hnone : (slots.items.find? fun item => isBareCategoryQuery rt.db item.product) = none :=
    List.find?_eq_none.mpr fun item hitem => Bool.eq_false_iff.mp (hspecific item hitem)
  have hfound : ((matchOrderItems rt.db slots.items turn.products).any fun m =>
      present m.1.product && m.2.isNone) = false := by
    refine List.any_eq_false.mpr fun m hm => ?_
    rw [Bool.and_eq_true, Option.isNone_iff_eq_none]
    exact fun hnot => hmatched m hm hnot.2
  simp only [checkItems, hnone, hfound, Bool.false_eq_true, if_false]

/-- While a state is stored, no contact data are asked about. -/
theorem checkContact_of_state {matched : List (ChatOrderItem × Option Product)}
    (hstate : r.orderState.isSome = true) :
    checkContact rt turn r slots matched = .ok (withAccount rt turn slots) := by
  have hnone : r.orderState.isNone = false := by
    rw [← Option.not_isSome, hstate]
    rfl
  simp only [checkContact, shouldConfirmReusableContact, shouldConfirmAccountContact, hnone,
    Bool.false_and, Bool.false_eq_true, if_false]
  rfl

/-- The stages of `checkOrder`, one after the other. -/
theorem checkOrder_of_stages {matched : List (ChatOrderItem × Option Product)}
    {full : ChatOrderSlots} {phone : Text} {zone : WardDeliveryZoneMatch} {method : PaymentMethod}
    (hitems : checkItems rt turn slots = .ok matched)
    (hcontact : checkContact rt turn r slots matched = .ok full)
    (hcomplete : checkComplete rt turn r full matched = .ok phone)
    (hdelivery : checkDelivery rt turn full = .ok zone)
    (hstock : checkStock full (matchedOrderProducts matched) = .ok ())
    (hpayment : normalizePaymentMethod rt.db (full.paymentMethod.getD []) = some method) :
    checkOrder rt turn r slots = .ok ⟨full, matchedOrderProducts matched, phone, zone, method⟩ := by
  simp only [checkOrder, hitems, hcontact, hcomplete, hdelivery, hstock, hpayment, bind,
    Except.bind]
  rfl

theorem withAccount_items : (withAccount rt turn slots).items = slots.items :=
  items_mergeOrderSlots_right items_accountContact

/-- The account fills only what the slots leave open. -/
theorem withAccount_of_present (field : ChatOrderSlots → Option Text)
    (hfield : field = (·.customerPhone) ∨ field = (·.deliveryAddress) ∨ field = (·.paymentMethod))
    (hpresent : present (field slots) = true) :
    field (withAccount rt turn slots) = field slots := by
  unfold withAccount
  cases accountDefaultContactSlots turn.user with
  | none => rcases hfield with rfl | rfl | rfl <;> exact orElse_of_present hpresent
  | some account => rcases hfield with rfl | rfl | rfl <;> exact orElse_of_present hpresent

end

/-! Wards and zones. -/

/-- The entries of the map are short. -/
theorem zone_length {db : Database} {text : Text} {zone : WardDeliveryZoneMatch}
    (h : resolveWardDeliveryZone db text = some zone) :
    zone.ward.length ≤ 100 ∧ zone.deliveryZone.length ≤ 100 := by
  have hlist : ∀ entry ∈ hcmcWardDistrict, entry.1.length ≤ 100 ∧ entry.2.length ≤ 100 := by
    decide +kernel
  have hmap : ∀ e ∈ loadWardDeliveryZoneMap db,
      e.2.ward.length ≤ 100 ∧ e.2.deliveryZone.length ≤ 100 := by
    unfold loadWardDeliveryZoneMap
    refine Dict.forall_values_foldl (P := fun z : WardDeliveryZoneMatch =>
      z.ward.length ≤ 100 ∧ z.deliveryZone.length ≤ 100) _ _ hcmcWardDistrict
        (fun entry hentry _ _ => hlist entry hentry) fun e he => ?_
    cases he
  have hlookup {key : Text} (hkey : (loadWardDeliveryZoneMap db).lookup key = some zone) :
      zone.ward.length ≤ 100 ∧ zone.deliveryZone.length ≤ 100 := by
    obtain ⟨before, after, hsplit, -⟩ := List.lookup_eq_some_iff.mp hkey
    exact hmap _ (hsplit ▸ List.mem_append_right _ List.mem_cons_self)
  have hguard {p : Prop} [Decidable p] {direct : WardDeliveryZoneMatch}
      (hsome : (if p then none else some direct) = some zone) : direct = zone := by
    split_ifs at hsome
    exact Option.some.inj hsome
  simp only [resolveWardDeliveryZone] at h
  by_cases hempty : (normalizeLookupKey db text).isEmpty = true
  · rw [if_pos hempty] at h
    cases h
  rw [if_neg hempty] at h
  cases hdirect : (loadWardDeliveryZoneMap db).lookup (normalizeLookupKey db text) with
  | some direct =>
    simp only [hdirect] at h
    exact hlookup (hguard h ▸ hdirect)
  | none =>
    simp only [hdirect] at h
    cases hbare : (loadWardDeliveryZoneMap db).lookup
        (stripWardPrefixes db (normalizeLookupKey db text)) with
    | some direct =>
      simp only [hbare] at h
      exact hlookup (hguard h ▸ hbare)
    | none =>
      simp only [hbare] at h
      obtain ⟨e, he, rfl⟩ := Option.map_eq_some_iff.mp h
      refine hmap e ((List.mem_insertionSort (r := fun a b : Text × WardDeliveryZoneMatch =>
        b.1.length ≤ a.1.length)).mp ?_)
      rcases Option.or_eq_some_iff.mp he with he | ⟨-, he⟩
      · exact List.mem_of_find?_eq_some he
      · exact List.mem_of_find?_eq_some he

/-! The order that is ready. -/

theorem rereadItem_quantity (db : Database) (item : ChatOrderItem) :
    (rereadItem db item).quantity.getD 0 = item.quantity.getD 0 := by
  cases hq : item.quantity with
  | none => simp [rereadItem, hq]
  | some n =>
    by_cases hn : 0 < n
    · simp [rereadItem, hq, Option.filter, hn]
    · simp [rereadItem, hq, Option.filter, hn]
      omega

theorem rereadItem_quantity_ne_none {db : Database} {item : ChatOrderItem} :
    (rereadItem db item).quantity ≠ none ↔ 1 ≤ item.quantity.getD 0 := by
  cases hq : item.quantity with
  | none => simp [rereadItem, hq]
  | some n => by_cases hn : 0 < n <;> simp [rereadItem, hq, Option.filter, hn] <;> omega

section
variable {rt : Runtime} {turn : OrderTurn} {o : ReadyOrder} (hblanks : PlainBlanks rt.db)
  (h : Complete rt turn.products o)
include hblanks h

theorem Complete.onYes_items : (o.onYes rt turn).slots.items =
    (o.items.map fun i => (rereadItem rt.db i.1, i.2)).map Prod.fst :=
  withAccount_items.trans (h.reread_items hblanks)

omit hblanks in
theorem Complete.onYes_phone : (o.onYes rt turn).slots.customerPhone =
    some (Text.strip rt.db.space (o.slots.customerPhone.getD [])) := by
  refine (withAccount_of_present (·.customerPhone) (Or.inl rfl) ?_).trans h.reread_phone
  exact h.reread_phone ▸ present_of_ne (strip_ne_nil_of_phone h.phone)

theorem Complete.onYes_address : (o.onYes rt turn).slots.deliveryAddress =
    some (Text.strip rt.db.space (o.slots.deliveryAddress.getD [])) := by
  refine (withAccount_of_present (·.deliveryAddress) (Or.inr (Or.inl rfl)) ?_).trans
    (h.reread_address hblanks)
  exact h.reread_address hblanks ▸ present_of_ne (strip_ne_nil_of_zone hblanks h.zone)

theorem Complete.onYes_payment : (o.onYes rt turn).slots.paymentMethod =
    some (Text.strip rt.db.space (o.slots.paymentMethod.getD [])) := by
  refine (withAccount_of_present (·.paymentMethod) (Or.inr (Or.inr rfl)) ?_).trans
    (h.reread_payment hblanks)
  exact h.reread_payment hblanks ▸
    present_of_ne (strip_ne_nil_of_payment hblanks.separate h.payment)

/-- Only a quantity of zero or a missing name is asked for again. -/
theorem Complete.onYes_missing : missingOrderSlots (o.onYes rt turn).slots
      ((o.onYes rt turn).items.map fun i => (i.1, some i.2)) = [] ↔
    (∀ i ∈ o.items, 1 ≤ i.1.quantity.getD 0) ∧
      present (o.onYes rt turn).slots.customerName = true := by
  have hnonempty : (o.onYes rt turn).slots.items ≠ [] := by
    have hitems := h.nonempty
    rw [h.items_eq] at hitems
    rw [h.onYes_items hblanks]
    intro hempty
    exact hitems (by simpa using hempty)
  have hquantities : (∀ item ∈ (o.onYes rt turn).slots.items, item.quantity ≠ none) ↔
      ∀ i ∈ o.items, 1 ≤ i.1.quantity.getD 0 := by
    rw [h.onYes_items hblanks, List.map_map, List.forall_mem_map]
    exact forall₂_congr fun i _ => rereadItem_quantity_ne_none
  rw [missingOrderSlots_eq_nil, hquantities, h.onYes_phone, h.onYes_address hblanks,
    h.onYes_payment hblanks]
  constructor
  · rintro ⟨-, hpositive, hname, -⟩
    exact ⟨hpositive, hname⟩
  · rintro ⟨hpositive, hname⟩
    refine ⟨⟨hnonempty, fun m hm => ?_⟩, hpositive, hname,
      present_of_ne (strip_ne_nil_of_phone h.phone),
      present_of_ne (strip_ne_nil_of_zone hblanks h.zone),
      present_of_ne (strip_ne_nil_of_payment hblanks.separate h.payment)⟩
    obtain ⟨i, -, rfl⟩ := List.mem_map.mp hm
    exact Option.some_ne_none _

/-- With something to deliver, a name and stock for each line, the yes makes the order ready. -/
theorem Complete.checkOrder_onYes {r : TurnReading} (hstate : r.orderState.isSome = true)
    (hpositive : ∀ i ∈ o.items, 1 ≤ i.1.quantity.getD 0)
    (hname : present (o.onYes rt turn).slots.customerName = true)
    (hstock : ∀ i ∈ o.items, ((i.1.quantity.getD 0 : ℕ) : ℤ) ≤ i.2.stockQuantity) :
    checkOrder rt turn r (yesSlots rt turn (rereadSlots rt.db o.slots)) =
      .ok (o.onYes rt turn) := by
  have hmatched := h.reread_matched hblanks turn
  have hspecific : ∀ item ∈ (rereadSlots rt.db o.slots).items,
      isBareCategoryQuery rt.db item.product = false := by
    rw [h.reread_items hblanks, List.map_map, List.forall_mem_map]
    intro i hi
    exact isBareCategoryQuery_reread hblanks.separate
      (h.specific i.1 (h.items_eq ▸ List.mem_map_of_mem hi))
  have hitems : checkItems rt turn (yesSlots rt turn (rereadSlots rt.db o.slots)) =
      .ok ((o.onYes rt turn).items.map fun i => (i.1, some i.2)) := by
    refine (@checkItems_of_specific rt turn (yesSlots rt turn (rereadSlots rt.db o.slots))
      hspecific ?_).trans (congrArg Except.ok hmatched)
    change ∀ m ∈ matchOrderItems rt.db (rereadSlots rt.db o.slots).items turn.products, m.2 ≠ none
    rw [hmatched, List.forall_mem_map]
    exact fun _ _ => Option.some_ne_none _
  have hcomplete : checkComplete rt turn r (o.onYes rt turn).slots
      ((o.onYes rt turn).items.map fun i => (i.1, some i.2)) = .ok o.phone := by
    have hmissing := (h.onYes_missing hblanks).mpr ⟨hpositive, hname⟩
    simp only [checkComplete]
    rw [h.onYes_phone, Option.getD_some, validatePhone_strip, h.phone]
    simp only [hmissing, List.isEmpty_nil, if_true]
  have hdelivery : checkDelivery rt turn (o.onYes rt turn).slots = .ok o.zone := by
    rw [checkDelivery_eq_ok, h.onYes_address hblanks, Option.getD_some,
      resolveWardDeliveryZone_strip hblanks, validateKhuPho_strip hblanks]
    exact ⟨h.zone, h.khuPho⟩
  have hlines : matchedOrderProducts ((o.onYes rt turn).items.map fun i => (i.1, some i.2)) =
      (o.onYes rt turn).items := by
    unfold matchedOrderProducts
    rw [List.filterMap_map]
    exact List.filterMap_some
  have hstocked : checkStock (o.onYes rt turn).slots (matchedOrderProducts
      ((o.onYes rt turn).items.map fun i => (i.1, some i.2))) = .ok () := by
    rw [hlines]
    refine checkStock_eq_ok.mpr ?_
    change ∀ i ∈ o.items.map fun i => (rereadItem rt.db i.1, i.2), _
    rw [List.forall_mem_map]
    intro i hi
    rw [rereadItem_quantity]
    exact hstock i hi
  have hpayment : normalizePaymentMethod rt.db ((o.onYes rt turn).slots.paymentMethod.getD []) =
      some o.paymentMethod := by
    rw [h.onYes_payment hblanks, Option.getD_some, normalizePaymentMethod_strip hblanks.separate,
      h.payment]
  have hstages := checkOrder_of_stages hitems (checkContact_of_state hstate) hcomplete hdelivery
    hstocked hpayment
  rw [hstages, hlines]
  rfl

/-- And it makes no other order ready. -/
theorem Complete.eq_onYes {r : TurnReading} {placed : ReadyOrder}
    (hplaced : checkOrder rt turn r (yesSlots rt turn (rereadSlots rt.db o.slots)) = .ok placed) :
    placed = o.onYes rt turn ∧
      ∀ i ∈ o.items, ((i.1.quantity.getD 0 : ℕ) : ℤ) ≤ i.2.stockQuantity := by
  have hpassed := checkOrder_eq_ok hplaced
  have hslots : placed.slots = (o.onYes rt turn).slots := hpassed.slots_eq
  have hmatched : matchOrderItems rt.db (yesSlots rt turn (rereadSlots rt.db o.slots)).items
      turn.products = (o.onYes rt turn).items.map fun i => (i.1, some i.2) :=
    h.reread_matched hblanks turn
  have hitems : placed.items = (o.onYes rt turn).items := by
    rw [hpassed.items_eq, hmatched, matchedOrderProducts, List.filterMap_map]
    exact List.filterMap_some
  have hphone : placed.phone = o.phone := by
    have hvalid := hpassed.phone_valid
    rw [hslots, h.onYes_phone, Option.getD_some, validatePhone_strip, h.phone] at hvalid
    exact (Option.some.inj hvalid).symm
  have hzone : placed.zone = o.zone := by
    have hresolved := (checkDelivery_eq_ok.mp hpassed.zone).1
    rw [hslots, h.onYes_address hblanks, Option.getD_some, resolveWardDeliveryZone_strip hblanks,
      h.zone] at hresolved
    exact (Option.some.inj hresolved).symm
  have hpayment : placed.paymentMethod = o.paymentMethod := by
    have hnormal := hpassed.payment
    rw [hslots, h.onYes_payment hblanks, Option.getD_some,
      normalizePaymentMethod_strip hblanks.separate, h.payment] at hnormal
    exact (Option.some.inj hnormal).symm
  have hstock := checkStock_eq_ok.mp hpassed.stock
  rw [hitems] at hstock
  change ∀ i ∈ o.items.map fun i => (rereadItem rt.db i.1, i.2), _ at hstock
  rw [List.forall_mem_map] at hstock
  refine ⟨?_, fun i hi => rereadItem_quantity rt.db i.1 ▸ hstock i hi⟩
  obtain ⟨slots, items, phone, zone, paymentMethod⟩ := placed
  subst hslots hitems hphone hzone hpayment
  rfl

end

end Qiki.Chat
