import Qiki.Chat.ConfirmedCheckout
import Qiki.Chat.OrderInProgress

/-! When the order of a shown summary can be checked out. -/
namespace Qiki.Chat

open Unicode Orders AddressLookup

section
variable (rt : Runtime)

/-- The turn calls `create_order` with an accepted checkout, and the products are in stock. -/
def ChecksOut (turn : ChatTurn) (store : Store) : Prop :=
  selectBranch rt turn = .order ∧ ∃ placed checkout key,
    handleChatOrder rt turn.orderTurn = .createOrder placed checkout key ∧
      FindsStock store.products checkout

/-- The lines of the checkout for the items of an order. -/
def ReadyOrder.lines (o : ReadyOrder) : List OrderItemCreate := o.items.map checkoutLine

/-- The values of the order that a yes makes ready keep the bounds of `CheckoutRequest`. -/
structure KeepsBounds (turn : OrderTurn) (o : ReadyOrder) : Prop where
  quantities : ∀ i ∈ o.items, 1 ≤ i.1.quantity.getD 0 ∧ i.1.quantity.getD 0 ≤ 100
  name : 2 ≤ ((o.onYes rt turn).slots.customerName.getD []).length ∧
    ((o.onYes rt turn).slots.customerName.getD []).length ≤ 255
  address : 5 ≤ (Text.strip rt.db.space (o.slots.deliveryAddress.getD [])).length ∧
    (Text.strip rt.db.space (o.slots.deliveryAddress.getD [])).length ≤ 500
  notes : ∀ notes ∈ deliveryNotesWithWaterFee rt.db (o.onYes rt turn).slots.deliveryNotes o.items,
    notes.length ≤ 1000

/-- A summary shown at this time can be checked out with the yes of this turn. -/
structure CanCheckOut (turn : ChatTurn) (o : ReadyOrder) (shownAt : Timestamp) : Prop
    extends KeepsBounds rt turn.orderTurn o where
  calm : turn.classified.category ≠ .safetyEmergency
  fresh : turn.now - shownAt ≤ orderStateTtl
  stock : ∀ i ∈ o.items, (requestedUnits o.lines i.2.id : ℤ) ≤ i.2.stockQuantity

end

/-! One turn. -/

section
variable {rt : Runtime} {turn : OrderTurn} {o : ReadyOrder}

theorem handleChatOrder_showSummary (h : handleChatOrder rt turn = .showSummary o) :
    prepareOrder rt turn = .ok o := by
  unfold handleChatOrder at h
  split at h
  · cases h
  · split at h
    · cases h
    case h_2 ready hready =>
      unfold ReadyOrder.decide at h
      split_ifs at h
      · rw [hready, OrderOutcome.showSummary.inj h]
      · split at h <;> cases h

theorem handleChatOrder_createOrder {checkout : CheckoutRequest} {key : Uuid} :
    handleChatOrder rt turn = .createOrder o checkout key ↔
      asksPostOrderChange rt turn = none ∧ prepareOrder rt turn = .ok o ∧
        o.slots.confirmed = true ∧ o.checkout rt turn.conversationId = some checkout ∧
          key = chatOrderIdempotencyKey rt turn.conversationId o.slots := by
  unfold handleChatOrder
  constructor
  · intro h
    split at h
    · cases h
    case h_2 hpost =>
      split at h
      · cases h
      case h_2 ready hready =>
        unfold ReadyOrder.decide at h
        split_ifs at h with hconfirmed
        split at h
        · cases h
        case h_2 found hfound =>
          obtain ⟨rfl, rfl, rfl⟩ := OrderOutcome.createOrder.inj h
          exact ⟨hpost, hready, by simpa using hconfirmed, hfound, rfl⟩
  · rintro ⟨hpost, hready, hconfirmed, hcheckout, rfl⟩
    rw [hpost, hready]
    simp only [ReadyOrder.decide, hconfirmed, hcheckout, Bool.not_true, Bool.false_eq_true, if_false]

theorem complete_of_showSummary (h : handleChatOrder rt turn = .showSummary o) :
    Complete rt turn.products o := by
  obtain ⟨merged, -, -, hpassed⟩ := prepareOrder_eq_ok (handleChatOrder_showSummary h)
  exact hpassed.complete_order (items_passedChecks hpassed)

/-- The request is accepted when its values keep the bounds; the phone is valid already. -/
theorem checkout_isSome (o : ReadyOrder) (conversationId : Uuid) :
    (o.checkout rt conversationId).isSome = true ↔
      o.acceptable (deliveryNotesWithWaterFee rt.db o.slots.deliveryNotes o.items) = true ∧
        (validatePhone rt.db o.phone).isSome = true := by
  simp only [ReadyOrder.checkout]
  split_ifs with h
  · simp [h]
  · simp [h]

theorem getRecent_concat (messages : List Message) (m : Message) :
    ∃ history, getRecent (messages ++ [m]) = history ++ [m] := by
  refine ⟨messages.drop ((messages ++ [m]).length - 10), ?_⟩
  rw [getRecent, List.drop_append_of_le_length]
  rw [List.length_append, List.length_singleton]
  omega

end

section
variable {rt : Runtime} {turn : OrderTurn} {o : ReadyOrder} (hblanks : PlainBlanks rt.db)
  (h : Complete rt turn.products o)

theorem onYes_lines : (o.onYes rt turn).lines = o.lines := by
  unfold ReadyOrder.lines ReadyOrder.onYes
  rw [List.map_map]
  refine List.map_congr_left fun i _ => ?_
  simp only [Function.comp_apply, checkoutLine, rereadItem_quantity]

theorem onYes_notes (notes : Option Text) :
    deliveryNotesWithWaterFee rt.db notes (o.onYes rt turn).items =
      deliveryNotesWithWaterFee rt.db notes o.items := by
  have hfee : waterDeliveryFee (o.onYes rt turn).items = waterDeliveryFee o.items := by
    rw [waterDeliveryFee_eq, waterDeliveryFee_eq, ReadyOrder.onYes, List.map_map]
    refine congrArg List.sum (List.map_congr_left fun i _ => ?_)
    simp only [Function.comp_apply, rereadItem_quantity]
  unfold deliveryNotesWithWaterFee
  rw [hfee]

include hblanks h

/-- The bounds of `CheckoutRequest` on the order that a plain yes makes ready. -/
theorem Complete.checkout_onYes (conversationId : Uuid) :
    ((o.onYes rt turn).checkout rt conversationId).isSome = true ↔ KeepsBounds rt turn o := by
  have hvalid : (validatePhone rt.db (o.onYes rt turn).phone).isSome = true := by
    change (validatePhone rt.db o.phone).isSome = true
    rw [validatePhone_again hblanks h.phone]
    rfl
  have hnonempty : (o.onYes rt turn).items.isEmpty = false := by
    have hitems := h.nonempty
    rw [h.items_eq] at hitems
    rw [List.isEmpty_eq_false_iff]
    intro hempty
    refine hitems ?_
    rw [List.map_eq_nil_iff.mp hempty, List.map_nil]
  have hquantities : ((o.onYes rt turn).items.all fun i =>
      1 ≤ i.1.quantity.getD 0 && i.1.quantity.getD 0 ≤ 100) = true ↔
      ∀ i ∈ o.items, 1 ≤ i.1.quantity.getD 0 ∧ i.1.quantity.getD 0 ≤ 100 := by
    change ((o.items.map fun i => (rereadItem rt.db i.1, i.2)).all _) = true ↔ _
    rw [List.all_eq_true, List.forall_mem_map]
    simp only [rereadItem_quantity, Bool.and_eq_true, decide_eq_true_eq]
  obtain ⟨hward, hzone⟩ := zone_length h.zone
  have hward : (o.onYes rt turn).zone.ward.length ≤ 100 := hward
  have hzone : (o.onYes rt turn).zone.deliveryZone.length ≤ 100 := hzone
  rw [checkout_isSome, onYes_notes]
  simp only [ReadyOrder.acceptable, hvalid, hnonempty, h.onYes_address hblanks, Option.getD_some,
    hward, hzone, decide_true, Bool.not_false, Bool.true_and, Bool.and_true, and_true,
    Bool.and_eq_true, hquantities, decide_eq_true_eq, Option.all_eq_true]
  constructor
  · rintro ⟨⟨⟨⟨⟨hq, hlow⟩, hhigh⟩, halow⟩, hahigh⟩, hnotes⟩
    exact ⟨hq, ⟨hlow, hhigh⟩, ⟨halow, hahigh⟩, hnotes⟩
  · rintro ⟨hq, ⟨hlow, hhigh⟩, ⟨halow, hahigh⟩, hnotes⟩
    exact ⟨⟨⟨⟨⟨hq, hlow⟩, hhigh⟩, halow⟩, hahigh⟩, hnotes⟩

omit hblanks h in
theorem KeepsBounds.present_name (h : KeepsBounds rt turn o) :
    present (o.onYes rt turn).slots.customerName = true := by
  have hname := h.name.1
  cases hvalue : (o.onYes rt turn).slots.customerName with
  | none =>
    rw [hvalue] at hname
    exact absurd hname (by decide)
  | some name =>
    refine present_of_ne ?_
    rintro rfl
    rw [hvalue] at hname
    exact absurd hname (by decide)

end

/-! The yes after the summary. -/

section
variable {rt : Runtime} {turn next : ChatTurn} {o : ReadyOrder} {store : Store}
  (hblanks : PlainBlanks rt.db)
  (hshow : handleChatOrder rt turn.orderTurn = .showSummary o)
  (hnext : next.messages = turn.messages ++
    [turn.userMessage, (summaryReply o turn.language).toMessage turn.now])
include hnext

theorem history_afterSummary : ∃ history, next.orderTurn.history =
    history ++ [(summaryReply o turn.language).toMessage turn.now] := by
  obtain ⟨history, hhistory⟩ := getRecent_concat (turn.messages ++ [turn.userMessage])
    ((summaryReply o turn.language).toMessage turn.now)
  refine ⟨history, ?_⟩
  change getRecent next.messages = _
  rw [hnext, ← hhistory, List.append_assoc]
  rfl

/-- Too late, a yes finds nothing that it could confirm. -/
theorem not_checksOut_of_stale (hstale : ¬ next.now - turn.now ≤ orderStateTtl) :
    ¬ ChecksOut rt next store := by
  rintro ⟨-, placed, checkout, key, hplaced, -⟩
  obtain ⟨history, hhistory⟩ := history_afterSummary hnext
  obtain ⟨-, hready, hconfirmed, -⟩ := handleChatOrder_createOrder.mp hplaced
  have hstatus : (readTurn rt next.orderTurn).status = [] := by
    change orderStateStatus rt (readTurn rt next.orderTurn).orderState = _
    rw [orderState_afterStaleSummary hhistory hstale]
    rfl
  have hother : ∀ status ∈ ([ "awaiting_product_choice", "awaiting_confirmation"] : List Text),
      (readTurn rt next.orderTurn).status ≠ status := by
    rw [hstatus]
    decide
  rw [confirmed_of_prepareOrder (hother _ (by simp)) hready,
    decide_eq_false (hother _ (by simp)), Bool.false_and] at hconfirmed
  cases hconfirmed

/-- While the summary is fresh, only an emergency keeps a yes from the order. -/
theorem branch_afterSummary (hyes : PlainYes rt next.orderTurn (rereadSlots rt.db o.slots))
    (hfresh : next.now - turn.now ≤ orderStateTtl) :
    selectBranch rt next = .order ↔ next.classified.category ≠ .safetyEmergency := by
  obtain ⟨history, hhistory⟩ := history_afterSummary hnext
  have hprogress : isOrderInProgress next.now next.history = true := by
    refine isOrderInProgress_iff.mpr ⟨(summaryReply o turn.language).toMessage turn.now,
      (summaryReply o turn.language).metadata, ?_, rfl, ?_, ?_, decide_eq_true hfresh⟩
    · change (next.orderTurn.history.reverse.find? _) = _
      rw [hhistory, List.reverse_append, List.reverse_singleton, List.singleton_append]
      exact List.find?_cons_of_pos (by rfl)
    all_goals
      change hasMetadataType [orderStateMetadata "awaiting_confirmation" (some o.slots) []] _ = _
      rw [hasMetadataType, List.any_cons, hasType_orderStateMetadata]
      decide
  obtain ⟨hhuman, hasks⟩ := hyes.asks_nothing next.catalog
  rw [branch_order_iff]
  unfold takenByOrder
  change isExplicitHumanRequest rt.db next.content = false at hhuman
  change asksAboutProduct rt.db next.content next.catalog = false at hasks
  simp [hprogress, hhuman, hasks]

include hblanks hshow

/-- While it is fresh, a shown summary makes the same order ready again. -/
theorem prepareOrder_next (hcatalog : next.catalog = turn.catalog)
    (hyes : PlainYes rt next.orderTurn (rereadSlots rt.db o.slots))
    (hfresh : next.now - turn.now ≤ orderStateTtl) :
    Complete rt next.orderTurn.products o ∧
      (readTurn rt next.orderTurn).orderState.isSome = true ∧
      prepareOrder rt next.orderTurn = checkOrder rt next.orderTurn (readTurn rt next.orderTurn)
        (yesSlots rt next.orderTurn (rereadSlots rt.db o.slots)) := by
  obtain ⟨history, hhistory⟩ := history_afterSummary hnext
  have hcomplete : Complete rt next.orderTurn.products o := by
    change Complete rt next.catalog o
    rw [hcatalog]
    exact complete_of_showSummary hshow
  have hstate : (readTurn rt next.orderTurn).orderState =
      some (orderStateMetadata "awaiting_confirmation" (some o.slots) []) :=
    orderState_afterSummary hhistory hfresh
  exact ⟨hcomplete, by rw [hstate]; rfl,
    hcomplete.merged_yes hblanks hyes.toPlainAnswer hyes.isAffirmation hyes.interrupt hstate⟩

end

/-! Two answers to Lan's summary. -/

deriving instance DecidableEq for ReadyOrder

/-- The order of `lanSlots`. -/
def lanOrder : ReadyOrder where
  slots := lanSlots
  items := [(⟨some "Gas Elf đỏ 12 kg", some 2⟩, elfGas)]
  phone := "+84912345678"
  zone := ⟨"bình thọ", "Thủ Đức"⟩
  paymentMethod := .cod

/-- A turn that shows the summary of `lanOrder`. -/
def showLan : ChatTurn := answerToSummary "tên Lan"

/-- The customer's answer to it. -/
def answerToLan (content : Text) : ChatTurn :=
  { showLan with
    content := content
    messages := showLan.messages ++
      [showLan.userMessage, (summaryReply lanOrder showLan.language).toMessage showLan.now] }

/-- The shop that has the cylinders. -/
def elfStore : Store := ⟨[elfGas], [], [], [], [], [], 10⟩

theorem showLan_shows : handleChatOrder plainRuntime showLan.orderTurn = .showSummary lanOrder := by
  have hpost : asksPostOrderChange plainRuntime showLan.orderTurn = none := by decide +kernel
  have hready : (prepareOrder plainRuntime showLan.orderTurn).toOption = some lanOrder := by
    decide +kernel
  cases hprepare : prepareOrder plainRuntime showLan.orderTurn with
  | error r =>
    rw [hprepare] at hready
    cases hready
  | ok o =>
    rw [hprepare] at hready
    obtain rfl : o = lanOrder := Option.some.inj hready
    simp only [handleChatOrder, hpost, hprepare]
    rfl

/-- Nothing at all is read from the answer. -/
theorem plainYes_of_nothing {rt : Runtime} {turn : OrderTurn} {slots : ChatOrderSlots}
    (hshort : normalizeMatchText rt.db turn.content ∈ affirmations ++ affirmativePhrases)
    (hhour : extractAmbiguousDeliveryTimeWindow rt.db turn.content = none)
    (hnothing : combineCurrentMessageSlots rt.db (inferOrderSlots rt.db turn.content turn.products)
      (extractOrderSlots rt turn.response) turn.content turn.products = {}) :
    PlainYes rt turn slots := by
  have hcandidates : (readTurn rt turn).candidates = [] := congrArg ChatOrderSlots.items hnothing
  have hcontact : (readTurn rt turn).contact = {} :=
    congrArg (fun s : ChatOrderSlots => { s with items := [] }) hnothing
  have hnone (stored : Option Text) : Repeats none stored := fun h => (Bool.false_ne_true h).elim
  refine ⟨⟨hcandidates, ?_, ?_, ?_, ?_, ?_⟩, hshort, hhour⟩
  all_goals
    rw [hcontact]
    exact hnone _

end Qiki.Chat
