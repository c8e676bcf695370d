import Qiki.Chat.CartIdentity
import Qiki.Chat.Prepared
import Qiki.Chat.Revalidated

/-! An order that is ready, and what a later turn reads of it. -/
namespace Qiki.Chat

open Unicode Orders AddressLookup

section
variable (rt : Runtime) (products : List Product)

/-- What a ready order has been checked for, against the catalog that it was matched with. -/
structure Complete (o : ReadyOrder) : Prop where
  matched : matchOrderItems rt.db o.slots.items products = o.items.map fun i => (i.1, some i.2)
  specific : ∀ item ∈ o.slots.items, isBareCategoryQuery rt.db item.product = false
  nonempty : o.slots.items ≠ []
  quantities : ∀ item ∈ o.slots.items, item.quantity ≠ none
  name : present o.slots.customerName = true
  phone : validatePhone rt.db (o.slots.customerPhone.getD []) = some o.phone
  zone : resolveWardDeliveryZone rt.db (o.slots.deliveryAddress.getD []) = some o.zone
  khuPho : (validateKhuPho rt.db (o.slots.deliveryAddress.getD [])).status = .ok
  payment : normalizePaymentMethod rt.db (o.slots.paymentMethod.getD []) = some o.paymentMethod

end

section
variable {rt : Runtime} {turn : OrderTurn}

theorem checkItems_specific {slots : ChatOrderSlots} {matched : List (ChatOrderItem × Option Product)}
    (h : checkItems rt turn slots = .ok matched) :
    ∀ item ∈ slots.items, isBareCategoryQuery rt.db item.product = false := by
  simp only [checkItems] at h
  split at h
  · split at h <;> cases h
  case h_2 hnone =>
    exact fun item hitem => Bool.eq_false_iff.mpr (List.find?_eq_none.mp hnone item hitem)

theorem askAgain_ne_ok {α : Type} {content status : Text} {slots : ChatOrderSlots} {a : α} :
    (askAgain content status slots : Except Reply α) ≠ .ok a := by
  intro h
  cases h

theorem checkDelivery_eq_ok {slots : ChatOrderSlots} {zone : WardDeliveryZoneMatch} :
    checkDelivery rt turn slots = .ok zone ↔
      resolveWardDeliveryZone rt.db (slots.deliveryAddress.getD []) = some zone ∧
        (validateKhuPho rt.db (slots.deliveryAddress.getD [])).status = .ok := by
  simp only [checkDelivery]
  cases resolveWardDeliveryZone rt.db (slots.deliveryAddress.getD []) with
  | none => exact iff_of_false askAgain_ne_ok (by simp)
  | some found =>
    dsimp only
    cases (validateKhuPho rt.db (slots.deliveryAddress.getD [])).status with
    | missing => exact iff_of_false askAgain_ne_ok (by simp)
    | outOfRange => exact iff_of_false askAgain_ne_ok (by simp)
    | ok =>
      exact ⟨fun h => ⟨congrArg some (Except.ok.inj h), rfl⟩,
        fun h => congrArg Except.ok (Option.some.inj h.1)⟩

/-- Lines that were all matched keep their items. -/
theorem matchedOrderProducts_of_matched {matched : List (ChatOrderItem × Option Product)}
    (h : ∀ m ∈ matched, m.2 ≠ none) :
    matched = (matchedOrderProducts matched).map fun i => (i.1, some i.2) := by
  induction matched with
  | nil => rfl
  | cons m matched ih =>
    obtain ⟨item, product⟩ := m
    cases product with
    | none => exact absurd rfl (h _ List.mem_cons_self)
    | some p =>
      have hrest := ih fun m hm => h m (List.mem_cons_of_mem _ hm)
      simp only [matchedOrderProducts, List.filterMap_cons, Option.map_some, List.map_cons] at hrest ⊢
      rw [← hrest]

theorem PassedChecks.complete_order {slots : ChatOrderSlots} {o : ReadyOrder}
    (h : PassedChecks rt turn slots o) (hitems : o.slots.items = slots.items) :
    Complete rt turn.products o := by
  obtain ⟨⟨hnonempty, hmatched⟩, hquantities, hname, -, -, -⟩ := missingOrderSlots_eq_nil.mp h.complete
  obtain ⟨hzone, hkhuPho⟩ := checkDelivery_eq_ok.mp h.zone
  refine ⟨?_, ?_, hnonempty, hquantities, hname, h.phone_valid, hzone, hkhuPho, h.payment⟩
  · rw [hitems, h.items_eq]
    exact matchedOrderProducts_of_matched hmatched
  · rw [hitems]
    exact checkItems_specific h.matched

end

/-! The order after it was stored. -/

section
variable {rt : Runtime} {products : List Product} {o : ReadyOrder} (h : Complete rt products o)
include h

theorem Complete.items_eq : o.slots.items = o.items.map Prod.fst := by
  have hitems := congrArg (List.map Prod.fst) h.matched
  simpa only [matchOrderItems, List.map_map, Function.comp_def, List.map_id'] using hitems

theorem Complete.product {i : ChatOrderItem × Product} (hi : i ∈ o.items) :
    matchProduct rt.db i.1.product products = some i.2 := by
  have hmem : (i.1, some i.2) ∈ matchOrderItems rt.db o.slots.items products :=
    h.matched ▸ List.mem_map_of_mem hi
  obtain ⟨item, -, heq⟩ := List.mem_map.mp hmem
  obtain ⟨rfl, hproduct⟩ := Prod.mk.inj heq
  exact hproduct

theorem Complete.mem_products {i : ChatOrderItem × Product} (hi : i ∈ o.items) : i.2 ∈ products :=
  matchProduct_mem (h.product hi)

end

section
variable {db : Database} (h : BlanksSeparate db)
include h

/-- A text that means a product does so after it was stored. -/
theorem matchProduct_reread {text : Option Text} {products : List Product} {p : Product}
    (hp : matchProduct db text products = some p) :
    present (reread db text) = true ∧ matchProduct db (reread db text) products = some p := by
  cases text with
  | none =>
    rw [matchProduct, if_neg (by decide)] at hp
    cases hp
  | some t =>
    have hne : Text.strip db.space t ≠ [] := by
      intro hempty
      rw [← matchProduct_strip h, hempty, matchProduct, if_neg (by decide)] at hp
      cases hp
    have hreread : reread db (some t) = some (Text.strip db.space t) := by
      simp [reread, nonEmpty, hne]
    rw [hreread]
    exact ⟨by simp [present, hne], by rwa [matchProduct_strip h]⟩

theorem isBareCategoryQuery_reread {text : Option Text}
    (hspecific : isBareCategoryQuery db text = false) :
    isBareCategoryQuery db (reread db text) = false := by
  cases text with
  | none => rfl
  | some t =>
    by_cases hempty : Text.strip db.space t = []
    · simp [reread, nonEmpty, hempty, isBareCategoryQuery, present]
    · have hne : t ≠ [] := by
        rintro rfl
        exact hempty rfl
      have hreread : reread db (some t) = some (Text.strip db.space t) := by
        simp [reread, nonEmpty, hempty]
      rw [hreread]
      simp only [isBareCategoryQuery, Option.getD_some, normalizeMatchText_strip h] at hspecific ⊢
      simpa [present, hempty, hne] using hspecific

end

end Qiki.Chat
