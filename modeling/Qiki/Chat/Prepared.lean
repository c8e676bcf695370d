import Qiki.Chat.Plan
import Qiki.Data.Stages

/-! What an order went through that is ready to be shown or placed. -/
namespace Qiki.Chat

open Unicode Orders AddressLookup

section
variable {rt : Runtime} {turn : OrderTurn}

/-- The slots of a message completed from the account. -/
def withAccount (rt : Runtime) (turn : OrderTurn) (slots : ChatOrderSlots) : ChatOrderSlots :=
  mergeOrderSlots rt.db (accountDefaultContactSlots turn.user) (some slots)

theorem checkContact_eq_ok {r : TurnReading} {slots slots' : ChatOrderSlots}
    {matched : List (ChatOrderItem × Option Product)}
    (h : checkContact rt turn r slots matched = .ok slots') : slots' = withAccount rt turn slots := by
  simp only [checkContact] at h
  split_ifs at h
  · cases h
  · cases h
  · exact (Except.ok.inj h).symm

theorem checkComplete_eq_ok {r : TurnReading} {slots : ChatOrderSlots}
    {matched : List (ChatOrderItem × Option Product)} {phone : Text}
    (h : checkComplete rt turn r slots matched = .ok phone) :
    validatePhone rt.db (slots.customerPhone.getD []) = some phone ∧
      missingOrderSlots slots matched = [] := by
  simp only [checkComplete] at h
  split at h
  · split_ifs at h <;> simp [checkComplete.askMissing, askAgain] at h
  case h_2 hphone =>
    split_ifs at h with hmissing
    · exact ⟨Except.ok.inj h ▸ hphone, List.isEmpty_iff.mp hmissing⟩
    · simp [checkComplete.askMissing, askAgain] at h

/-- Nothing is asked for when every slot is filled. -/
theorem missingOrderSlots_eq_nil {slots : ChatOrderSlots}
    {matched : List (ChatOrderItem × Option Product)} : missingOrderSlots slots matched = [] ↔
      (slots.items ≠ [] ∧ ∀ m ∈ matched, m.2 ≠ none) ∧
      (∀ item ∈ slots.items, item.quantity ≠ none) ∧ present slots.customerName = true ∧
      present slots.customerPhone = true ∧ present slots.deliveryAddress = true ∧
      present slots.paymentMethod = true := by
  have hlist (names : List String) : names.flatMap (fun a => [a.toList]) = [] ↔ names = [] := by
    cases names <;> simp
  have hpart (p : Bool) (name : String) : (if p then [name] else []) = [] ↔ p = false := by
    cases p <;> simp
  have habsent (value : Option Text) : (!present value) = false ↔ present value = true := by
    simp only [Bool.not_eq_eq_eq_not, Bool.not_false]
  have hitems : (slots.items.isEmpty || matched.any (·.2.isNone)) = false ↔
      slots.items ≠ [] ∧ ∀ m ∈ matched, m.2 ≠ none := by
    rw [Bool.or_eq_false_iff, List.any_eq_false]
    simp only [List.isEmpty_eq_false_iff, Option.isNone_iff_eq_none]
  have hquantities : (slots.items.any (·.quantity.isNone)) = false ↔
      ∀ item ∈ slots.items, item.quantity ≠ none := by
    simp only [List.any_eq_false, Option.isNone_iff_eq_none]
  unfold missingOrderSlots
  simp only [List.bind_eq_flatMap, List.pure_def, hlist, List.append_eq_nil_iff, hpart, habsent,
    hitems, hquantities]

/-- The checks that a ready order passed, from the slots of its message. -/
structure PassedChecks (rt : Runtime) (turn : OrderTurn) (slots : ChatOrderSlots)
    (o : ReadyOrder) : Prop where
  slots_eq : o.slots = withAccount rt turn slots
  matched : checkItems rt turn slots = .ok (matchOrderItems rt.db slots.items turn.products)
  items_eq : o.items = matchedOrderProducts (matchOrderItems rt.db slots.items turn.products)
  phone_valid : validatePhone rt.db (o.slots.customerPhone.getD []) = some o.phone
  complete : missingOrderSlots o.slots (matchOrderItems rt.db slots.items turn.products) = []
  zone : checkDelivery rt turn o.slots = .ok o.zone
  stock : checkStock o.slots o.items = .ok ()
  payment : normalizePaymentMethod rt.db (o.slots.paymentMethod.getD []) = some o.paymentMethod

theorem checkItems_eq_ok {slots : ChatOrderSlots} {matched : List (ChatOrderItem × Option Product)}
    (h : checkItems rt turn slots = .ok matched) :
    matched = matchOrderItems rt.db slots.items turn.products := by
  simp only [checkItems] at h
  split at h
  · split at h <;> cases h
  · split_ifs at h
    · cases h
    · exact (Except.ok.inj h).symm

/-- Each line alone is in stock. -/
theorem checkStock_eq_ok {slots : ChatOrderSlots} {items : List (ChatOrderItem × Product)} :
    checkStock slots items = .ok () ↔
      ∀ i ∈ items, ((i.1.quantity.getD 0 : ℕ) : ℤ) ≤ i.2.stockQuantity := by
  have hnone : (items.find? fun i => decide (i.2.stockQuantity < ((i.1.quantity.getD 0 : ℕ) : ℤ))) =
      none ↔ ∀ i ∈ items, ((i.1.quantity.getD 0 : ℕ) : ℤ) ≤ i.2.stockQuantity := by
    rw [List.find?_eq_none]
    exact forall₂_congr fun i _ => by rw [decide_eq_true_eq, not_lt]
  rw [← hnone]
  unfold checkStock
  cases items.find? fun i => decide (i.2.stockQuantity < ((i.1.quantity.getD 0 : ℕ) : ℤ)) with
  | none => exact iff_of_true rfl rfl
  | some i => exact iff_of_false (fun h => (by cases h)) fun h => (by cases h)

theorem checkOrder_eq_ok {r : TurnReading} {slots : ChatOrderSlots} {o : ReadyOrder}
    (h : checkOrder rt turn r slots = .ok o) : PassedChecks rt turn slots o := by
  simp only [checkOrder] at h
  obtain ⟨matched, hmatched, h⟩ := Except.bind_eq_ok h
  obtain ⟨full, hfull, h⟩ := Except.bind_eq_ok h
  obtain ⟨phone, hphone, h⟩ := Except.bind_eq_ok h
  obtain ⟨zone, hzone, h⟩ := Except.bind_eq_ok h
  obtain ⟨_, hstock, h⟩ := Except.bind_eq_ok h
  split at h
  · cases h
  case h_2 payment hpayment =>
    obtain rfl := Except.ok.inj h
    obtain rfl := checkItems_eq_ok hmatched
    obtain rfl := checkContact_eq_ok hfull
    obtain ⟨hvalid, hmissing⟩ := checkComplete_eq_ok hphone
    exact ⟨rfl, hmatched, rfl, hvalid, hmissing, hzone, hstock, hpayment⟩

theorem prepareOrder_eq_ok {o : ReadyOrder} (h : prepareOrder rt turn = .ok o) :
    ∃ merged, interrupt rt turn (readTurn rt turn) = .ok () ∧
      mergeTurn rt turn (readTurn rt turn) = .ok merged ∧
      PassedChecks rt turn (completeSlots rt turn (readTurn rt turn) merged) o := by
  simp only [prepareOrder] at h
  obtain ⟨_, hinterrupt, h⟩ := Except.bind_eq_ok h
  obtain ⟨merged, hmerged, h⟩ := Except.bind_eq_ok h
  exact ⟨merged, hinterrupt, hmerged, checkOrder_eq_ok h⟩

@[simp] theorem withAccount_confirmed (slots : ChatOrderSlots) :
    (withAccount rt turn slots).confirmed = slots.confirmed := by
  cases huser : turn.user <;>
    simp [withAccount, mergeOrderSlots, mergeSource, accountDefaultContactSlots, huser]

@[simp] theorem completeSlots_confirmed (r : TurnReading) (merged : ChatOrderSlots × Bool) :
    (completeSlots rt turn r merged).confirmed = confirms rt turn r merged.2 := rfl

/-- Only a resolved product choice confirms while the message is merged. -/
theorem mergeTurn_confirms {r : TurnReading} {merged : ChatOrderSlots × Bool}
    (hchoice : r.status ≠ "awaiting_product_choice") (h : mergeTurn rt turn r = .ok merged) :
    merged.2 = false := by
  simp only [mergeTurn, hchoice, if_false, bind, Except.bind] at h
  split_ifs at h
  all_goals
    split at h
    · cases h
    · obtain rfl := Except.ok.inj h
      rfl

/-- Outside the states with a question of their own, and where a product choice stays open, the
items that the message names are applied. -/
theorem mergeTurn_applies {r : TurnReading} (hchoice : r.status = "awaiting_product_choice" →
      resolveProductChoice rt turn r = .ok none)
    (hchange : r.status ≠ "awaiting_product_change_confirmation")
    (hadd : r.status ≠ "awaiting_add_or_replace") :
    mergeTurn rt turn r =
      (applyItems rt turn r (mergeOrderSlots rt.db r.previousSlots (some r.contact))).map
        fun slots => (slots, false) := by
  simp only [mergeTurn, if_neg hchange, if_neg hadd]
  split_ifs with hstatus
  · rw [hchoice hstatus]
    cases applyItems rt turn r (mergeOrderSlots rt.db r.previousSlots (some r.contact)) <;> rfl
  · cases applyItems rt turn r (mergeOrderSlots rt.db r.previousSlots (some r.contact)) <;> rfl

theorem confirms_unresolved (r : TurnReading) :
    confirms rt turn r false =
      (r.status = "awaiting_confirmation" && isAffirmation rt.db turn.content) := by
  have hother : ∀ other ∈ ([ "awaiting_reused_contact_confirmation",
      "awaiting_account_contact_confirmation"] : List Text), other ≠ "awaiting_confirmation" := by
    decide
  unfold confirms
  split_ifs with hcontact hstatus
  · have hne : r.status ≠ "awaiting_confirmation" :=
      hother r.status (by simpa only [Bool.or_eq_true, decide_eq_true_eq, List.mem_cons,
        List.not_mem_nil, or_false] using hcontact)
    rw [decide_eq_false hne, Bool.false_and]
  · rw [decide_eq_true hstatus, Bool.true_and, Bool.or_false]
  · rw [decide_eq_false hstatus, Bool.false_and]

/-- Outside a product choice an order is confirmed by a yes to its summary. -/
theorem confirmed_of_prepareOrder {o : ReadyOrder}
    (hchoice : (readTurn rt turn).status ≠ "awaiting_product_choice")
    (h : prepareOrder rt turn = .ok o) :
    o.slots.confirmed = ((readTurn rt turn).status = "awaiting_confirmation" &&
      isAffirmation rt.db turn.content) := by
  obtain ⟨merged, -, hmerged, hpassed⟩ := prepareOrder_eq_ok h
  rw [hpassed.slots_eq, withAccount_confirmed, completeSlots_confirmed,
    mergeTurn_confirms hchoice hmerged, confirms_unresolved]

end

end Qiki.Chat
