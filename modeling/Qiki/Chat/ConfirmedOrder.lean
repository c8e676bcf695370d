import Qiki.Chat.CartProducts
import Qiki.Chat.Conversation

/-! What a yes orders, against what the last summary showed. -/
namespace Qiki.Chat

open Unicode Orders AddressLookup Transition

/-! Lines of a cart. -/

/-- The lines of a checkout for the items of a cart. -/
def cartLines (db : Database) (products : List Product) (items : List ChatOrderItem) :
    List OrderItemCreate :=
  (matchedOrderProducts (matchOrderItems db items products)).map checkoutLine

section
variable {db : Database}

/-- What is left in stock does not decide what a text means. -/
theorem meant_goods (text : Option Text) (products : List Product) :
    meant db (goods products) text = meant db products text := by
  have hscore (query : Text) (best : Option Product × ℕ) (p : Product) :
      betterMatch db query (best.1.map fun p => { p with stockQuantity := 0 }, best.2)
          { p with stockQuantity := 0 } =
        ((betterMatch db query best p).1.map fun p => { p with stockQuantity := 0 },
          (betterMatch db query best p).2) := by
    have hhaystack : haystack db { p with stockQuantity := 0 } = haystack db p := rfl
    simp only [betterMatch, hhaystack]
    split_ifs <;> rfl
  have hfold (query : Text) (best : Option Product × ℕ) :
      (goods products).foldl (betterMatch db query)
          (best.1.map fun p => { p with stockQuantity := 0 }, best.2) =
        ((products.foldl (betterMatch db query) best).1.map fun p => { p with stockQuantity := 0 },
          (products.foldl (betterMatch db query) best).2) := by
    unfold goods
    induction products generalizing best with
    | nil => rfl
    | cons p products ih =>
      rw [List.map_cons, List.foldl_cons, List.foldl_cons, hscore]
      exact ih _
  unfold meant matchProduct
  split_ifs
  · have hfound := hfold (normalizeMatchText db (text.getD [])) (none, 0)
    rw [Option.map_none] at hfound
    rw [hfound, Option.map_map]
    rfl
  · rfl

theorem cartLines_eq (products : List Product) (items : List ChatOrderItem) :
    cartLines db products items = items.filterMap fun item =>
      (meant db products item.product).map fun productId =>
        { productId := productId, quantity := item.quantity.getD 0 } := by
  unfold cartLines matchedOrderProducts matchOrderItems meant
  rw [List.filterMap_map, List.map_filterMap]
  refine List.filterMap_congr fun item _ => ?_
  simp only [Function.comp_apply, Option.map_map]
  rfl

theorem cartLines_congr {products products' : List Product} (h : goods products = goods products')
    (items : List ChatOrderItem) : cartLines db products items = cartLines db products' items := by
  have hmeant (text : Option Text) : meant db products text = meant db products' text := by
    rw [← meant_goods, h, meant_goods]
  simp only [cartLines_eq, hmeant]

end

theorem orElse_assoc (a b c : Option Text) : orElse (orElse a b) c = orElse a (orElse b c) := by
  unfold orElse
  split_ifs <;> simp_all

theorem present_orElse_right {a b : Option Text} (h : present b = true) :
    present (orElse a b) = true := by
  unfold orElse
  split_ifs with ha
  · exact ha
  · exact h

/-! The confirming message. -/

/-- The checkout orders what the summary showed. -/
structure AsShown (o : ReadyOrder) (checkout : CheckoutRequest) : Prop where
  lines : checkout.items = o.lines
  name : checkout.customerName = String.ofList o.summary.customerName
  phone : checkout.customerPhone = some (String.ofList o.summary.phone)
  address : checkout.deliveryAddress = String.ofList o.summary.address
  payment : checkout.paymentMethod = o.summary.paymentMethod

section
variable (rt : Runtime) (turn : OrderTurn)

/-- The items of the order after the ones that the message names were applied to them; `none` where
the customer is asked about them first. -/
def itemsAfter : Option (List ChatOrderItem) :=
  let r := readTurn rt turn
  match detectOrderItemsOperation rt.db turn.content r.previousSlots r.candidates turn.products with
  | some .set | none => some r.candidates
  | some .add => some (appendOrderItems rt.db r.base r.candidates turn.products).items
  | some .remove => r.candidates.head?.map fun candidate =>
      (removeOrderItem rt.db r.base candidate turn.products).items
  | some .mergeExisting =>
    some (r.candidates.foldl (mergeExistingItem rt.db turn.products) r.base).items
  | some .replace | some .ambiguous => none

/-- The name in the text of the message, or else the extracted one. -/
def readName (paymentMethod : Option Text) : Option Text :=
  orElse (extractNameCandidate rt.db turn.content paymentMethod)
    (readTurn rt turn).contact.customerName

/-- The extracted number, or the one in the text where that is not valid. -/
def readPhone : Option Text :=
  (withPhoneCandidate rt.db (readTurn rt turn).contact turn.content).customerPhone

/-- The yes to a summary says nothing else: what is read from it is what was shown, or nothing, and
what was shown has no blanks around it, which it would lose. -/
structure RepeatsShown (o : ReadyOrder) : Prop where
  items : (readTurn rt turn).candidates ≠ [] →
    ∀ items ∈ itemsAfter rt turn, cartLines rt.db turn.products items = o.lines
  name : (orElse (readName rt turn o.slots.paymentMethod) (orElse (reread rt.db o.slots.customerName)
    ((accountDefaultContactSlots turn.user).bind (·.customerName)))).getD [] = o.summary.customerName
  phone : ∃ phone, validatePhone rt.db ((if present (readTurn rt turn).contact.customerPhone then
    readPhone rt turn else o.slots.customerPhone).getD []) = some phone ∧
      Text.strip rt.db.space phone = o.phone
  address : (orElse (readTurn rt turn).contact.deliveryAddress
    (reread rt.db o.slots.deliveryAddress)).getD [] = o.summary.address
  payment : present (readTurn rt turn).contact.paymentMethod = true →
    normalizePaymentMethod rt.db ((readTurn rt turn).contact.paymentMethod.getD []) =
      some o.paymentMethod

/-- The order that is stored with the question of a product choice, without the open item and
completed from the message and the account. -/
def choiceSlots : ChatOrderSlots :=
  let r := readTurn rt turn
  withAccount rt turn (withOrderCues rt.db (withPhoneCandidate rt.db
    (mergeOrderSlots rt.db (some (dropIncompleteAddItems rt.db r.base)) (some r.contact))
    turn.content) turn.content)

/-- An order with these slots is the one that was shown. -/
structure ShowsSame (slots : ChatOrderSlots) (o : ReadyOrder) : Prop where
  items : cartLines rt.db turn.products slots.items = o.lines
  name : slots.customerName.getD [] = o.summary.customerName
  phone : ∃ phone, validatePhone rt.db (slots.customerPhone.getD []) = some phone ∧
    Text.strip rt.db.space phone = o.phone
  address : slots.deliveryAddress.getD [] = o.summary.address
  payment : normalizePaymentMethod rt.db (slots.paymentMethod.getD []) = some o.paymentMethod

/-- What is read from the message and the stored order is what was shown: the yes to a summary
repeats it at most, and the yes to a product choice finds the order of the summary. -/
structure ReadsShown (shown : Option ReadyOrder) : Prop where
  summary : (readTurn rt turn).status = "awaiting_confirmation" →
    ∀ o ∈ shown, RepeatsShown rt turn o
  choice : (readTurn rt turn).status = "awaiting_product_choice" →
    ∃ o ∈ shown, ShowsSame rt turn (choiceSlots rt turn) o

end

section
variable {rt : Runtime} {turn : OrderTurn} {placed o : ReadyOrder} {checkout : CheckoutRequest}

/-- What `create_order` is called with went through the whole turn. -/
theorem merged_of_createOrder {key : Uuid}
    (h : handleChatOrder rt turn = .createOrder placed checkout key) :
    ∃ merged, mergeTurn rt turn (readTurn rt turn) = .ok merged ∧
      confirms rt turn (readTurn rt turn) merged.2 = true ∧
      PassedChecks rt turn (completeSlots rt turn (readTurn rt turn) merged) placed ∧
      placed.checkout rt turn.conversationId = some checkout := by
  obtain ⟨-, hready, hconfirmed, hcheckout, -⟩ := handleChatOrder_createOrder.mp h
  obtain ⟨merged, -, hmerged, hpassed⟩ := prepareOrder_eq_ok hready
  rw [hpassed.slots_eq, withAccount_confirmed, completeSlots_confirmed] at hconfirmed
  exact ⟨merged, hmerged, hconfirmed, hpassed, hcheckout⟩

theorem PassedChecks.lines {slots : ChatOrderSlots} (h : PassedChecks rt turn slots placed) :
    placed.lines = cartLines rt.db turn.products placed.slots.items := by
  unfold ReadyOrder.lines cartLines
  rw [items_passedChecks h, h.items_eq]

/-- The checkout is the order that is ready, with the number stripped once more. -/
theorem asShown_iff (hblanks : PlainBlanks rt.db) {slots : ChatOrderSlots} {conversationId : Uuid}
    (hpassed : PassedChecks rt turn slots placed)
    (hcheckout : placed.checkout rt conversationId = some checkout) :
    AsShown o checkout ↔ ShowsSame rt turn placed.slots o := by
  have hphone := validatePhone_again hblanks hpassed.phone_valid
  simp only [ReadyOrder.checkout] at hcheckout
  split_ifs at hcheckout
  rw [hphone, Option.map_some] at hcheckout
  obtain rfl := Option.some.inj hcheckout
  constructor
  · rintro ⟨hlines, hname, hnumber, haddress, hpayment⟩
    refine ⟨hpassed.lines.symm.trans hlines, String.ofList_injective hname, ?_,
      String.ofList_injective haddress, ?_⟩
    · exact ⟨_, hpassed.phone_valid, String.ofList_injective (Option.some.inj hnumber)⟩
    · rw [hpassed.payment]
      exact congrArg some hpayment
  · rintro ⟨hlines, hname, ⟨phone, hvalid, hstrip⟩, haddress, hpayment⟩
    rw [hpassed.phone_valid] at hvalid
    rw [hpassed.payment] at hpayment
    obtain rfl := Option.some.inj hvalid
    exact ⟨hpassed.lines.trans hlines, congrArg String.ofList hname,
      congrArg (fun phone => some (String.ofList phone)) hstrip, congrArg String.ofList haddress,
      Option.some.inj hpayment⟩

end

/-! The slots of the order, field by field. -/

/-- A field of the contact data. -/
inductive ContactField
  | name | phone | address | payment
  deriving DecidableEq, Repr

def ContactField.get (slots : ChatOrderSlots) : ContactField → Option Text
  | .name => slots.customerName
  | .phone => slots.customerPhone
  | .address => slots.deliveryAddress
  | .payment => slots.paymentMethod

theorem getD_of_not_present {value : Option Text} (h : present value = false) :
    value.getD [] = [] := by
  cases value with
  | none => rfl
  | some t =>
    cases t with
    | nil => rfl
    | cons c t => cases h

theorem getD_orElse (a b : Option Text) :
    (orElse a b).getD [] = if present a then a.getD [] else b.getD [] := by
  unfold orElse
  split_ifs <;> rfl

theorem getD_orElse_congr {a b b' : Option Text} (h : b.getD [] = b'.getD []) :
    (orElse a b).getD [] = (orElse a b').getD [] := by
  rw [getD_orElse, getD_orElse, h]

section
variable {rt : Runtime} {turn : OrderTurn}

theorem mergeOrderSlots_get (db : Database) (first second : ChatOrderSlots) (field : ContactField) :
    (field.get (mergeOrderSlots db (some first) (some second))).getD [] =
      (orElse (field.get second) (field.get first)).getD [] := by
  have hnone (a : Option Text) : (orElse a none).getD [] = a.getD [] := by
    rw [getD_orElse]
    split_ifs with h
    · rfl
    · exact (getD_of_not_present (Bool.not_eq_true _ ▸ h)).symm
  cases field <;> exact getD_orElse_congr (hnone _)

/-- The account fills what the slots leave open. -/
theorem withAccount_get (slots : ChatOrderSlots) (field : ContactField) :
    (field.get (withAccount rt turn slots)).getD [] = (orElse (field.get slots)
      ((accountDefaultContactSlots turn.user).bind field.get)).getD [] := by
  unfold withAccount
  cases accountDefaultContactSlots turn.user with
  | none => cases field <;> rfl
  | some account => exact mergeOrderSlots_get rt.db account slots field

theorem showsSame_congr {slots slots' : ChatOrderSlots} (hitems : slots.items = slots'.items)
    (hfields : ∀ field : ContactField, (field.get slots).getD [] = (field.get slots').getD [])
    (o : ReadyOrder) : ShowsSame rt turn slots o ↔ ShowsSame rt turn slots' o := by
  have hname : slots.customerName.getD [] = slots'.customerName.getD [] := hfields .name
  have hphone : slots.customerPhone.getD [] = slots'.customerPhone.getD [] := hfields .phone
  have haddress : slots.deliveryAddress.getD [] = slots'.deliveryAddress.getD [] := hfields .address
  have hpayment : slots.paymentMethod.getD [] = slots'.paymentMethod.getD [] := hfields .payment
  constructor
  · rintro ⟨h₁, h₂, h₃, h₄, h₅⟩
    exact ⟨hitems ▸ h₁, hname ▸ h₂, hphone ▸ h₃, haddress ▸ h₄, hpayment ▸ h₅⟩
  · rintro ⟨h₁, h₂, h₃, h₄, h₅⟩
    exact ⟨hitems ▸ h₁, hname ▸ h₂, hphone ▸ h₃, haddress ▸ h₄, hpayment ▸ h₅⟩

/-! A yes to a product choice. -/

/-- A product choice confirms when its open item is dropped on a yes. -/
theorem resolveProductChoice_confirms {r : TurnReading} {slots : ChatOrderSlots}
    (h : resolveProductChoice rt turn r = .ok (some (slots, true))) :
    slots = dropIncompleteAddItems rt.db r.base := by
  simp only [resolveProductChoice] at h
  split at h
  · cases h
  · split_ifs at h
    · cases h
    · cases h
    · exact (congrArg Prod.fst (Option.some.inj (Except.ok.inj h))).symm
    all_goals
      split at h <;> cases h

theorem mergeTurn_confirmed {r : TurnReading} {slots : ChatOrderSlots}
    (h : mergeTurn rt turn r = .ok (slots, true)) : r.status = "awaiting_product_choice" ∧
      slots = mergeOrderSlots rt.db (some (dropIncompleteAddItems rt.db r.base)) (some r.contact) := by
  by_cases hstatus : r.status = "awaiting_product_choice"
  · refine ⟨hstatus, ?_⟩
    have hother : ∀ status ∈ ([ "awaiting_product_change_confirmation",
        "awaiting_add_or_replace"] : List Text), r.status ≠ status := by
      rw [hstatus]
      decide
    cases hchoice : resolveProductChoice rt turn r with
    | error reply =>
      simp only [mergeTurn, hstatus, if_true, hchoice] at h
      cases h
    | ok choice =>
      cases choice with
      | none =>
        rw [mergeTurn_applies (fun _ => hchoice) (hother _ (by simp)) (hother _ (by simp))] at h
        cases happlied : applyItems rt turn r (mergeOrderSlots rt.db r.previousSlots (some r.contact)) with
        | error reply =>
          rw [happlied] at h
          cases h
        | ok slots' =>
          rw [happlied] at h
          cases h
      | some resolved =>
        simp only [mergeTurn, hstatus, if_true, hchoice] at h
        obtain ⟨hslots, hconfirm⟩ := Prod.mk.inj (Except.ok.inj h)
        obtain ⟨kept, confirm⟩ := resolved
        subst hslots hconfirm
        rw [resolveProductChoice_confirms hchoice]
  · cases mergeTurn_confirms hstatus h

/-- Only the number is read from the text where a number stands in it. -/
theorem withPhoneCandidate_eq (db : Database) (slots : ChatOrderSlots) (content : Text) :
    withPhoneCandidate db slots content =
      { slots with customerPhone := (withPhoneCandidate db slots content).customerPhone } := by
  unfold withPhoneCandidate
  split
  · rfl
  · split_ifs <;> rfl

/-- What the cues of the text make of the slots. -/
theorem completeSlots_eq (r : TurnReading) (slots : ChatOrderSlots) (confirm : Bool) :
    completeSlots rt turn r (slots, confirm) =
      let paymentMethod := orElse slots.paymentMethod (extractPaymentCandidate rt.db turn.content)
      { slots with
        customerName := orElse (extractNameCandidate rt.db turn.content paymentMethod)
          slots.customerName
        customerPhone := (withPhoneCandidate rt.db slots turn.content).customerPhone
        deliveryNotes := orElse slots.deliveryNotes (extractDeliveryTimeCandidate rt.db turn.content)
        paymentMethod := paymentMethod
        confirmed := confirms rt turn r confirm } := by
  unfold completeSlots
  rw [withPhoneCandidate_eq]
  rfl

/-- The yes to a product choice orders what was stored with the question. -/
theorem showsSame_choice {slots : ChatOrderSlots} {placed : ReadyOrder}
    (hmerged : mergeTurn rt turn (readTurn rt turn) = .ok (slots, true))
    (hpassed : PassedChecks rt turn (completeSlots rt turn (readTurn rt turn) (slots, true)) placed)
    (o : ReadyOrder) :
    ShowsSame rt turn placed.slots o ↔ ShowsSame rt turn (choiceSlots rt turn) o := by
  obtain ⟨-, rfl⟩ := mergeTurn_confirmed hmerged
  rw [hpassed.slots_eq]
  refine showsSame_congr ?_ (fun field => ?_) o
  · unfold choiceSlots
    rw [withAccount_items, withAccount_items]
    rfl
  · unfold choiceSlots
    rw [withAccount_get, withAccount_get]
    cases field <;> rfl

/-! A yes to the summary. -/

/-- Slots without their items. -/
def withoutItems (slots : ChatOrderSlots) : ChatOrderSlots := { slots with items := [], confirmed := false }

theorem mergeExistingItem_contact (db : Database) (products : List Product) (slots : ChatOrderSlots)
    (candidate : ChatOrderItem) :
    withoutItems (mergeExistingItem db products slots candidate) = withoutItems slots := by
  unfold mergeExistingItem
  split <;> rfl

theorem mergeExistingItem_items (db : Database) (products : List Product)
    {slots slots' : ChatOrderSlots} (h : slots.items = slots'.items) (candidate : ChatOrderItem) :
    (mergeExistingItem db products slots candidate).items =
      (mergeExistingItem db products slots' candidate).items := by
  unfold mergeExistingItem
  rw [h]
  split <;> rfl

/-- The items that a message names change the items of the order only. -/
theorem applyItems_contact {r : TurnReading} {slots slots' : ChatOrderSlots}
    (h : applyItems rt turn r slots = .ok slots') : withoutItems slots' = withoutItems slots := by
  unfold applyItems at h
  split at h
  · rw [Except.ok.inj h]
  case h_2 candidate rest hcandidates =>
    split at h
    · exact Except.ok.inj h ▸ rfl
    · exact Except.ok.inj h ▸ rfl
    · exact Except.ok.inj h ▸ rfl
    · split_ifs at h
      · exact Except.ok.inj h ▸ rfl
      · cases h
    · obtain rfl := Except.ok.inj h
      unfold removeOrderItem
      split <;> rfl
    · obtain rfl := Except.ok.inj h
      induction r.candidates using List.reverseRecOn with
      | nil => rfl
      | append_singleton candidates c ih =>
        rw [List.foldl_append]
        exact (mergeExistingItem_contact ..).trans ih
    · cases h

theorem foldl_mergeExistingItem_items (db : Database) (products : List Product)
    {slots slots' : ChatOrderSlots} (h : slots.items = slots'.items) (candidates : List ChatOrderItem) :
    (candidates.foldl (mergeExistingItem db products) slots).items =
      (candidates.foldl (mergeExistingItem db products) slots').items := by
  induction candidates generalizing slots slots' with
  | nil => exact h
  | cons candidate candidates ih => exact ih (mergeExistingItem_items db products h candidate)

/-- Items that are applied to a cart leave the ones that `itemsAfter` says. -/
theorem applyItems_items {slots slots' : ChatOrderSlots}
    (h : applyItems rt turn (readTurn rt turn) slots = .ok slots')
    (hitems : slots.items = (readTurn rt turn).base.items)
    (hcart : (readTurn rt turn).base.items ≠ []) :
    if (readTurn rt turn).candidates = [] then slots'.items = (readTurn rt turn).base.items
    else itemsAfter rt turn = some slots'.items := by
  unfold applyItems at h
  unfold itemsAfter
  cases hcandidates : (readTurn rt turn).candidates with
  | nil =>
    rw [hcandidates] at h
    rw [if_pos rfl, ← hitems, Except.ok.inj h]
  | cons candidate rest =>
    rw [if_neg (List.cons_ne_nil _ _)]
    simp only [hcandidates] at h ⊢
    cases hop : detectOrderItemsOperation rt.db turn.content (readTurn rt turn).previousSlots
        (candidate :: rest) turn.products with
    | none =>
      rw [hop] at h
      exact Except.ok.inj h ▸ rfl
    | some op =>
      rw [hop] at h
      cases op with
      | set => exact Except.ok.inj h ▸ rfl
      | add =>
        obtain rfl := Except.ok.inj h
        simp only [appendOrderItems, withOrderItems, hitems]
      | replace =>
        have hsome : slots.items.isEmpty = false := by
          rw [hitems]
          exact List.isEmpty_eq_false_iff.mpr hcart
        simp only [hsome, if_neg Bool.false_ne_true] at h
        cases h
      | remove =>
        obtain rfl := Except.ok.inj h
        simp only [List.head?_cons, Option.map_some, removeOrderItem, hitems]
        split
        · rw [hitems]
        · rfl
      | mergeExisting =>
        obtain rfl := Except.ok.inj h
        exact congrArg some (foldl_mergeExistingItem_items rt.db turn.products hitems.symm _)
      | ambiguous => cases h

theorem extractNameCandidate_congr (db : Database) (content : Text) {a b : Option Text}
    (h : a.isNone = b.isNone) : extractNameCandidate db content a = extractNameCandidate db content b := by
  unfold extractNameCandidate
  rw [h]

theorem extractPhoneCandidate_ne_nil {db : Database} {content candidate : Text}
    (h : extractPhoneCandidate db content = some candidate) : candidate ≠ [] := by
  unfold extractPhoneCandidate at h
  obtain ⟨found, -, hfound⟩ := List.exists_of_findSome?_eq_some h
  dsimp only at hfound
  split_ifs at hfound with hdigits hplus
  · rw [← Option.some.inj hfound]
    exact List.cons_ne_nil _ _
  · rw [← Option.some.inj hfound]
    rintro hnil
    rw [hnil] at hdigits
    exact absurd hdigits (by decide)

/-- Only the number of the slots decides whether the one in the text takes its place. -/
theorem withPhoneCandidate_phone {db : Database} {slots slots' : ChatOrderSlots} (content : Text)
    (h : slots.customerPhone = slots'.customerPhone) :
    (withPhoneCandidate db slots content).customerPhone =
      (withPhoneCandidate db slots' content).customerPhone := by
  unfold withPhoneCandidate
  rw [h]
  split
  · exact h
  · split_ifs
    · exact h
    · rfl

theorem present_withPhoneCandidate {db : Database} {slots : ChatOrderSlots} {content : Text}
    (h : present slots.customerPhone = true) :
    present (withPhoneCandidate db slots content).customerPhone = true := by
  unfold withPhoneCandidate
  cases hcandidate : extractPhoneCandidate db content with
  | none => exact h
  | some candidate =>
    dsimp only
    split_ifs
    · exact h
    · exact present_of_ne (extractPhoneCandidate_ne_nil hcandidate)

section
variable {catalog : List Product} {o placed : ReadyOrder} {slots : ChatOrderSlots}
  (hblanks : PlainBlanks rt.db) (h : Complete rt catalog o)
include hblanks h

/-- Stored and read again, the shown items are the shown lines. -/
theorem Complete.reread_lines (hgoods : goods catalog = goods turn.products) :
    cartLines rt.db turn.products (rereadSlots rt.db o.slots).items = o.lines ∧
      (rereadSlots rt.db o.slots).items ≠ [] := by
  have hmatched := h.reread_matched hblanks turn
  have hlines : cartLines rt.db catalog (rereadSlots rt.db o.slots).items = o.lines := by
    unfold cartLines
    rw [hmatched, matchedOrderProducts, List.filterMap_map]
    refine Eq.trans (congrArg (List.map checkoutLine) List.filterMap_some) ?_
    exact onYes_lines
  refine ⟨(cartLines_congr hgoods _).symm.trans hlines, ?_⟩
  rw [h.reread_items hblanks]
  intro hempty
  have hitems := h.nonempty
  rw [h.items_eq] at hitems
  exact hitems (by simpa using hempty)

variable (hstate : (readTurn rt turn).orderState =
    some (orderStateMetadata "awaiting_confirmation" (some o.slots) []))
include hstate

omit hblanks in
/-- A summary is read back as it was stored, and the message merged into it. -/
theorem Complete.merged_summary (hmerged : mergeTurn rt turn (readTurn rt turn) = .ok (slots, false)) :
    (readTurn rt turn).base = rereadSlots rt.db o.slots ∧
      applyItems rt turn (readTurn rt turn) (mergeOrderSlots rt.db (some (rereadSlots rt.db o.slots))
        (some (readTurn rt turn).contact)) = .ok slots := by
  have hprevious : (readTurn rt turn).previousSlots = some (rereadSlots rt.db o.slots) := by
    change slotsFromOrderState rt (readTurn rt turn).orderState = _
    rw [hstate, slotsFromOrderState_stored h.name]
  have hstatus : (readTurn rt turn).status = "awaiting_confirmation" := by
    change orderStateStatus rt (readTurn rt turn).orderState = _
    rw [hstate, orderStateStatus_orderStateMetadata]
  have hother : ∀ other ∈ ([ "awaiting_product_choice", "awaiting_product_change_confirmation",
      "awaiting_add_or_replace"] : List Text), (readTurn rt turn).status ≠ other := by
    rw [hstatus]
    decide
  refine ⟨by rw [TurnReading.base, hprevious]; rfl, ?_⟩
  rw [mergeTurn_applies (fun hchoice => absurd hchoice (hother _ (by simp))) (hother _ (by simp))
    (hother _ (by simp)), hprevious] at hmerged
  cases happlied : applyItems rt turn (readTurn rt turn) (mergeOrderSlots rt.db
      (some (rereadSlots rt.db o.slots)) (some (readTurn rt turn).contact)) with
  | error reply =>
    rw [happlied] at hmerged
    cases hmerged
  | ok slots' =>
    rw [happlied] at hmerged
    exact congrArg Except.ok (congrArg Prod.fst (Except.ok.inj hmerged))

omit hblanks in
/-- The contact data of the message take the place of the stored ones. -/
theorem Complete.summary_get (hmerged : mergeTurn rt turn (readTurn rt turn) = .ok (slots, false))
    (field : ContactField) : field.get slots = orElse (field.get (readTurn rt turn).contact)
      (orElse (field.get (rereadSlots rt.db o.slots)) none) := by
  have hcontact := applyItems_contact (h.merged_summary hstate hmerged).2
  have hfield : field.get (withoutItems slots) = field.get (withoutItems (mergeOrderSlots rt.db
      (some (rereadSlots rt.db o.slots)) (some (readTurn rt turn).contact))) :=
    congrArg field.get hcontact
  cases field <;> exact hfield

omit hstate in
/-- The stored number, address and payment method are never empty. -/
theorem Complete.present_reread (field : ContactField) (hfield : field ≠ .name) :
    present (field.get (rereadSlots rt.db o.slots)) = true := by
  cases field with
  | name => exact absurd rfl hfield
  | phone =>
    change present (rereadSlots rt.db o.slots).customerPhone = true
    rw [h.reread_phone]
    exact present_of_ne (strip_ne_nil_of_phone h.phone)
  | address =>
    change present (rereadSlots rt.db o.slots).deliveryAddress = true
    rw [h.reread_address hblanks]
    exact present_of_ne (strip_ne_nil_of_zone hblanks h.zone)
  | payment =>
    change present (rereadSlots rt.db o.slots).paymentMethod = true
    rw [h.reread_payment hblanks]
    exact present_of_ne (strip_ne_nil_of_payment hblanks.separate h.payment)

omit hstate in
theorem Complete.orElse_reread {field : ContactField} (hfield : field ≠ .name) (other : Option Text) :
    orElse (field.get (rereadSlots rt.db o.slots)) other = field.get (rereadSlots rt.db o.slots) :=
  orElse_of_present (h.present_reread hblanks _ hfield)

section
variable (hmerged : mergeTurn rt turn (readTurn rt turn) = .ok (slots, false))
  (hpassed : PassedChecks rt turn (completeSlots rt turn (readTurn rt turn) (slots, false)) placed)
include hmerged

/-- A field that is stored is not looked for elsewhere. -/
theorem Complete.summary_filled (field : ContactField) (hfield : field ≠ .name) :
    field.get slots = orElse (field.get (readTurn rt turn).contact)
        (field.get (rereadSlots rt.db o.slots)) ∧ present (field.get slots) = true := by
  have hget := h.summary_get hstate hmerged field
  rw [h.orElse_reread hblanks hfield] at hget
  rw [hget]
  exact ⟨rfl, present_orElse_right (h.present_reread hblanks _ hfield)⟩

include hpassed

omit hblanks h hstate hmerged in
theorem placed_get (field : ContactField) : (field.get placed.slots).getD [] =
    (orElse (field.get (completeSlots rt turn (readTurn rt turn) (slots, false)))
      ((accountDefaultContactSlots turn.user).bind field.get)).getD [] := by
  rw [hpassed.slots_eq, withAccount_get]

theorem Complete.summary_payment : normalizePaymentMethod rt.db (placed.slots.paymentMethod.getD []) =
      some o.paymentMethod ↔ (present (readTurn rt turn).contact.paymentMethod = true →
        normalizePaymentMethod rt.db ((readTurn rt turn).contact.paymentMethod.getD []) =
          some o.paymentMethod) := by
  obtain ⟨hget, hpresent⟩ := h.summary_filled hblanks hstate hmerged .payment (by decide)
  have hplaced := placed_get hpassed .payment
  rw [completeSlots_eq] at hplaced
  dsimp only [ContactField.get] at hget hpresent hplaced
  rw [orElse_of_present hpresent, orElse_of_present hpresent, hget, getD_orElse] at hplaced
  rw [hplaced]
  split_ifs with hread
  · exact ⟨fun heq _ => heq, fun heq => heq hread⟩
  · refine iff_of_true ?_ fun heq => absurd heq hread
    rw [h.reread_payment hblanks, Option.getD_some, normalizePaymentMethod_strip hblanks.separate,
      h.payment]

theorem Complete.summary_address : placed.slots.deliveryAddress.getD [] =
    (orElse (readTurn rt turn).contact.deliveryAddress
      (reread rt.db o.slots.deliveryAddress)).getD [] := by
  obtain ⟨hget, hpresent⟩ := h.summary_filled hblanks hstate hmerged .address (by decide)
  have hplaced := placed_get hpassed .address
  rw [completeSlots_eq] at hplaced
  dsimp only [ContactField.get] at hget hpresent hplaced
  rw [orElse_of_present hpresent, hget] at hplaced
  exact hplaced

theorem Complete.summary_phone : validatePhone rt.db (placed.slots.customerPhone.getD []) =
    validatePhone rt.db ((if present (readTurn rt turn).contact.customerPhone then readPhone rt turn
      else o.slots.customerPhone).getD []) := by
  obtain ⟨hget, hpresent⟩ := h.summary_filled hblanks hstate hmerged .phone (by decide)
  have hplaced := placed_get hpassed .phone
  rw [completeSlots_eq] at hplaced
  dsimp only [ContactField.get] at hget hpresent hplaced
  rw [orElse_of_present (present_withPhoneCandidate hpresent)] at hplaced
  rw [hplaced]
  split_ifs with hread
  · rw [orElse_of_present hread] at hget
    rw [withPhoneCandidate_phone turn.content hget]
    rfl
  · rw [orElse_of_not_present (Bool.not_eq_true _ ▸ hread)] at hget
    have hstored : (validatePhone rt.db (slots.customerPhone.getD [])) = some o.phone := by
      rw [hget, h.reread_phone, Option.getD_some, validatePhone_strip, h.phone]
    rw [withPhoneCandidate_of_valid hpresent (by rw [hstored]; rfl), hstored, h.phone]

theorem Complete.summary_name : placed.slots.customerName.getD [] =
    (orElse (readName rt turn o.slots.paymentMethod) (orElse (reread rt.db o.slots.customerName)
      ((accountDefaultContactSlots turn.user).bind (·.customerName)))).getD [] := by
  have hget := h.summary_get hstate hmerged .name
  obtain ⟨-, hpresent⟩ := h.summary_filled hblanks hstate hmerged .payment (by decide)
  have hplaced := placed_get hpassed .name
  rw [completeSlots_eq] at hplaced
  dsimp only [ContactField.get] at hget hpresent hplaced
  have hpayment : present o.slots.paymentMethod = true :=
    present_of_reread (h.present_reread hblanks .payment (by decide))
  have hsome {value : Option Text} (hvalue : present value = true) : value.isNone = false := by
    cases value with
    | none => cases hvalue
    | some t => rfl
  have hcue : extractNameCandidate rt.db turn.content slots.paymentMethod =
      extractNameCandidate rt.db turn.content o.slots.paymentMethod :=
    extractNameCandidate_congr rt.db turn.content ((hsome hpresent).trans (hsome hpayment).symm)
  rw [orElse_of_present hpresent, hcue, hget] at hplaced
  rw [hplaced, readName, orElse_assoc, orElse_assoc, orElse_assoc, orElse_assoc]
  rfl

theorem Complete.summary_items (hgoods : goods catalog = goods turn.products) :
    cartLines rt.db turn.products placed.slots.items = o.lines ↔
      ((readTurn rt turn).candidates ≠ [] →
        ∀ items ∈ itemsAfter rt turn, cartLines rt.db turn.products items = o.lines) := by
  obtain ⟨hbase, happlied⟩ := h.merged_summary hstate hmerged
  obtain ⟨hlines, hcart⟩ := h.reread_lines hblanks hgoods
  have hplaced : placed.slots.items = slots.items :=
    (items_passedChecks hpassed).trans (items_completeSlots _ _)
  have hcontact : ∀ s ∈ some (readTurn rt turn).contact, s.items = [] :=
    fun s hs => Option.some.inj hs ▸ rfl
  have hmergedItems : (mergeOrderSlots rt.db (some (rereadSlots rt.db o.slots))
      (some (readTurn rt turn).contact)).items = (readTurn rt turn).base.items := by
    rw [items_mergeOrderSlots_left hcontact, hbase]
  have hitems := applyItems_items happlied hmergedItems (hbase ▸ hcart)
  rw [hplaced]
  split_ifs at hitems with hnone
  · rw [hitems, hbase]
    exact iff_of_true hlines fun hsome => absurd hnone hsome
  · rw [hitems]
    exact ⟨fun heq _ items hsame => Option.some.inj hsame ▸ heq, fun heq => heq hnone _ rfl⟩

/-- The yes to a summary orders what was shown exactly when it says nothing else. -/
theorem Complete.showsSame_summary (hgoods : goods catalog = goods turn.products) :
    ShowsSame rt turn placed.slots o ↔ RepeatsShown rt turn o := by
  have hitems := h.summary_items hblanks hstate hmerged hpassed hgoods
  have hname := h.summary_name hblanks hstate hmerged hpassed
  have hphone := h.summary_phone hblanks hstate hmerged hpassed
  have haddress := h.summary_address hblanks hstate hmerged hpassed
  have hpayment := h.summary_payment hblanks hstate hmerged hpassed
  constructor
  · intro h
    refine ⟨hitems.mp h.items, hname.symm.trans h.name, ?_, haddress.symm.trans h.address,
      hpayment.mp h.payment⟩
    rw [← hphone]
    exact h.phone
  · intro h
    refine ⟨hitems.mpr h.items, hname.trans h.name, ?_, haddress.trans h.address,
      hpayment.mpr h.payment⟩
    rw [hphone]
    exact h.phone

end

end

/-! Over a conversation. -/

/-- The yes that confirms is one to the summary or to a product choice. -/
theorem status_of_confirms {merged : ChatOrderSlots × Bool}
    (hmerged : mergeTurn rt turn (readTurn rt turn) = .ok merged)
    (hconfirms : confirms rt turn (readTurn rt turn) merged.2 = true) :
    ((readTurn rt turn).status = "awaiting_confirmation" ∧ merged.2 = false) ∨
      ((readTurn rt turn).status = "awaiting_product_choice" ∧ merged.2 = true) := by
  cases hresolved : merged.2 with
  | true => exact Or.inr ⟨(mergeTurn_confirmed (hmerged.trans (by rw [← hresolved]))).1, rfl⟩
  | false =>
    rw [hresolved, confirms_unresolved, Bool.and_eq_true, decide_eq_true_eq] at hconfirms
    exact Or.inl ⟨hconfirms.1, rfl⟩

end

section
variable {rt : Runtime} {wares : List Product}

/-- A turn that calls `create_order` orders what the last summary showed exactly when it reads
that. -/
theorem asShown_iff_readsShown (hblanks : PlainBlanks rt.db) {id : Uuid}
    {events : List ConversationEvent} {c : Conversation}
    (hrun : exec (converse rt wares) { id := id } events = some c) (turn : ChatTurn)
    (hgoods : goods turn.catalog = wares) {placed : ReadyOrder} {checkout : CheckoutRequest} {key : Uuid}
    (hplaced : handleChatOrder rt (c.turn turn).orderTurn = .createOrder placed checkout key) :
    (∃ o ∈ c.shown, AsShown o checkout) ↔ ReadsShown rt (c.turn turn).orderTurn c.shown := by
  obtain ⟨merged, hmerged, hconfirms, hpassed, hcheckout⟩ := merged_of_createOrder hplaced
  obtain ⟨slots, confirm⟩ := merged
  have hiff (o : ReadyOrder) := @asShown_iff rt _ placed o checkout hblanks _ _ hpassed hcheckout
  rcases status_of_confirms hmerged hconfirms with ⟨hstatus, hresolved⟩ | ⟨hstatus, hresolved⟩
  · obtain rfl : confirm = false := hresolved
    have hother : (readTurn rt (c.turn turn).orderTurn).status ≠ "awaiting_product_choice" := by
      rw [hstatus]
      decide
    cases hstate : (readTurn rt (c.turn turn).orderTurn).orderState with
    | none =>
      have hempty : (readTurn rt (c.turn turn).orderTurn).status = [] :=
        congrArg (orderStateStatus rt) hstate
      rw [hempty] at hstatus
      cases hstatus
    | some state =>
      have hlatest : latestState c.messages.reverse = some state :=
        latestState_getRecent (orderStateFrom_eq hstate)
      have hsummary : orderStateStatus rt (some state) = "awaiting_confirmation" :=
        (congrArg (orderStateStatus rt) hstate).symm.trans hstatus
      obtain ⟨o, catalog, hshown, rfl, hcatalog, hcomplete⟩ :=
        keepsShown_of_exec hrun state hlatest hsummary
      have hsame := hcomplete.showsSame_summary hblanks hstate hmerged hpassed
        (hcatalog.trans hgoods.symm)
      rw [hshown]
      constructor
      · rintro ⟨o', ho', hasShown⟩
        obtain rfl := Option.some.inj ho'
        refine ⟨fun _ o' ho' => ?_, fun h => absurd h hother⟩
        obtain rfl := Option.some.inj ho'
        exact hsame.mp ((hiff o).mp hasShown)
      · intro h
        exact ⟨o, rfl, (hiff o).mpr (hsame.mpr (h.summary hstatus o rfl))⟩
  · obtain rfl : confirm = true := hresolved
    have hother : (readTurn rt (c.turn turn).orderTurn).status ≠ "awaiting_confirmation" := by
      rw [hstatus]
      decide
    constructor
    · rintro ⟨o, ho, hshown⟩
      refine ⟨fun h => absurd h hother, fun _ => ⟨o, ho, ?_⟩⟩
      exact (showsSame_choice hmerged hpassed o).mp ((hiff o).mp hshown)
    · intro h
      obtain ⟨o, ho, hsame⟩ := h.choice hstatus
      exact ⟨o, ho, (hiff o).mpr ((showsSame_choice hmerged hpassed o).mpr hsame)⟩

end

end Qiki.Chat
