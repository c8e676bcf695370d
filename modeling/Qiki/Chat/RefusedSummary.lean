import Qiki.Chat.ConfirmedWords

/-! A refusal of a summary that is taken for a yes. -/
namespace Qiki.Chat

open Unicode Orders

/-! The summary that a yes finds. -/

/-- The message has an order state and stands for no order that was created. -/
def carriesState (message : Message) : Bool :=
  let documents := message.documents.getD []
  message.role = .assistant && !hasMetadataType documents chatOrderMetadataType &&
    hasMetadataType documents chatOrderStateMetadataType

/-- The newest order state stands among the last ten messages and is not too old. -/
def summaryInForce (turn : ChatTurn) : Bool :=
  (turn.history.reverse.find? carriesState).any (isOrderStateFresh turn.now)

theorem latestState_eq (messages : List Message) :
    latestState messages = (messages.find? carriesState).bind fun message =>
      (message.documents.getD []).find? (hasType chatOrderStateMetadataType) := by
  induction messages with
  | nil => rfl
  | cons message older ih =>
    rw [latestState, ih, List.find?_cons, carriesState]
    cases decide (message.role = .assistant) &&
        !hasMetadataType (message.documents.getD []) chatOrderMetadataType with
    | false => rfl
    | true =>
      rw [if_pos rfl, Bool.true_and]
      cases hstate : hasMetadataType (message.documents.getD []) chatOrderStateMetadataType with
      | true =>
        obtain ⟨state, hfound⟩ := Option.isSome_iff_exists.mp
          (List.find?_isSome.mpr (List.any_eq_true.mp hstate))
        simp [hfound]
      | false =>
        have hnone : (message.documents.getD []).find? (hasType chatOrderStateMetadataType) = none :=
          List.find?_eq_none.mpr fun d hd => List.any_eq_false.mp hstate d hd
        rw [hnone, Option.none_or]

/-- For a yes the scan passes over created orders. -/
theorem orderStateFrom_yes {db : Database} {content : Text} (hyes : isAffirmation db content = true)
    (now : Timestamp) (messages : List Message) : orderStateFrom db now content messages =
      ((messages.find? carriesState).filter (isOrderStateFresh now)).bind fun message =>
        ((message.documents.getD []).find? (hasType chatOrderStateMetadataType)).filter
          fun state => state.get "status" ≠ some (.str "order_cancelled") := by
  induction messages with
  | nil => rfl
  | cons message older ih =>
    rw [orderStateFrom, ih, List.find?_cons, carriesState]
    by_cases hrole : message.role = .assistant
    · rw [if_neg (not_not.mpr hrole), decide_eq_true hrole, Bool.true_and]
      cases hdocuments : message.documents with
      | none => rfl
      | some documents =>
        dsimp only [Option.getD_some]
        cases horder : hasMetadataType documents chatOrderMetadataType with
        | true =>
          rw [if_pos rfl, hyes, if_pos rfl]
          rfl
        | false =>
          rw [if_neg Bool.false_ne_true, Bool.not_false, Bool.true_and]
          cases hstate : hasMetadataType documents chatOrderStateMetadataType with
          | false =>
            have hnone : documents.find? (hasType chatOrderStateMetadataType) = none :=
              List.find?_eq_none.mpr fun d hd => List.any_eq_false.mp hstate d hd
            rw [hnone]
          | true =>
            obtain ⟨state, hfound⟩ := Option.isSome_iff_exists.mp
              (List.find?_isSome.mpr (List.any_eq_true.mp hstate))
            rw [hfound]
            cases hfresh : isOrderStateFresh now message with
            | false =>
              rw [Option.filter_some, hfresh, if_neg Bool.false_ne_true]
              rfl
            | true =>
              rw [Option.filter_some, hfresh, if_pos rfl, Option.bind_some, hdocuments,
                Option.getD_some, hfound, Option.filter_some]
              dsimp only
              rw [Bool.not_true, if_neg Bool.false_ne_true]
              by_cases hlive : state.get "status" = some (.str "order_cancelled")
              · rw [if_pos hlive, decide_eq_false (not_not.mpr hlive), if_neg Bool.false_ne_true]
              · rw [if_neg hlive, decide_eq_true hlive, if_pos rfl]
    · rw [if_pos hrole, decide_eq_false hrole]
      rfl

section
variable {rt : Runtime} {turn : ChatTurn}

/-- A yes finds the newest summary as long as it is in force. -/
theorem findOrderState_yes (hyes : isAffirmation rt.db turn.content = true)
    (hstate : orderStateStatus rt (latestState turn.messages.reverse) = "awaiting_confirmation") :
    (readTurn rt turn.orderTurn).orderState =
      if summaryInForce turn then latestState turn.messages.reverse else none := by
  change orderStateFrom rt.db turn.now turn.content turn.history.reverse = _
  rw [orderStateFrom_yes hyes]
  unfold summaryInForce
  cases hfind : turn.history.reverse.find? carriesState with
  | none => rfl
  | some message =>
    have hcarries : carriesState message = true := List.find?_some hfind
    unfold carriesState at hcarries
    rw [Bool.and_eq_true] at hcarries
    obtain ⟨state, hfound⟩ := Option.isSome_iff_exists.mp
      (List.find?_isSome.mpr (List.any_eq_true.mp hcarries.2))
    have hlatest : latestState turn.messages.reverse = some state := by
      refine latestState_getRecent ?_
      change latestState turn.history.reverse = _
      rw [latestState_eq, hfind, Option.bind_some, hfound]
    have hlive : state.get "status" ≠ some (.str "order_cancelled") := by
      intro hcancelled
      rw [hlatest] at hstate
      simp only [orderStateStatus, Option.bind_some, hcancelled, Runtime.strOf] at hstate
      exact absurd hstate (by decide)
    rw [hlatest, Option.any_some]
    cases hfresh : isOrderStateFresh turn.now message with
    | false =>
      rw [Option.filter_some, hfresh, if_neg Bool.false_ne_true, if_neg Bool.false_ne_true]
      rfl
    | true =>
      rw [Option.filter_some, hfresh, if_pos rfl, if_pos rfl, Option.bind_some, hfound,
        Option.filter_some, decide_eq_true hlive, if_pos rfl]

end

/-! The refusal. -/

section
variable (rt : Runtime) (turn : ChatTurn)

/-- The negated answer counts as a yes to the summary: by its words, the state of the conversation
and the routing of the turn. -/
structure TakenForYes (answer : Text) : Prop where
  phrase : (normalizeMatchText rt.db answer).containsAny affirmativePhrases = true
  inForce : summaryInForce turn = true
  routed : takenByOrder rt turn = true
  noChange : (findExistingChatOrder turn.history).isSome = true →
    isPostOrderChangeRequest rt.db turn.content = false
  noCancel : isOrderCancelRequest (normalizeMatchText rt.db turn.content) = false
  noHour : extractAmbiguousDeliveryTimeWindow rt.db turn.content = none

/-- The newest order state is the summary of this order, with the products as they are now. -/
structure SummaryOf (o : ReadyOrder) : Prop where
  complete : Complete rt turn.catalog o
  stored : latestState turn.messages.reverse =
    some (orderStateMetadata "awaiting_confirmation" (some o.slots) [])

/-- Neither the text nor the extraction says anything besides the words of the answer. -/
structure SaysNoMore : Prop where
  text : BareText rt.db turn.content
  goods : NamesNoGoods rt.db turn.content
  extraction : { extractOrderSlots rt turn.response with confirmed := false } = {}

end

/-- Each line alone is in stock. -/
def ReadyOrder.InStock (o : ReadyOrder) : Prop :=
  ∀ i ∈ o.items, ((i.1.quantity.getD 0 : ℕ) : ℤ) ≤ i.2.stockQuantity

instance (o : ReadyOrder) : Decidable o.InStock := inferInstanceAs (Decidable (∀ i ∈ o.items, _))

section
variable {rt : Runtime} {turn : ChatTurn}

theorem SaysNoMore.plainAnswer (h : SaysNoMore rt turn) (slots : ChatOrderSlots) :
    PlainAnswer rt turn.orderTurn slots := by
  have hitems : (extractOrderSlots rt turn.response).items = [] :=
    congrArg ChatOrderSlots.items h.extraction
  have haddress : (extractOrderSlots rt turn.response).deliveryAddress = none :=
    congrArg ChatOrderSlots.deliveryAddress h.extraction
  have hrepeats {read : Option Text} (hnone : read = none) (stored : Option Text) :
      Repeats read stored := fun hread => by
    rw [hnone] at hread
    cases hread
  refine ⟨?_, hrepeats (congrArg ChatOrderSlots.customerName h.extraction) _,
    hrepeats (congrArg ChatOrderSlots.customerPhone h.extraction) _, hrepeats ?_ _,
    hrepeats (congrArg ChatOrderSlots.deliveryNotes h.extraction) _,
    hrepeats (congrArg ChatOrderSlots.paymentMethod h.extraction) _⟩
  · change (extractOrderSlots rt turn.response).items.foldl _
      (inferOrderSlots rt.db turn.content turn.catalog).items = []
    rw [hitems, inferOrderSlots_items h.goods]
    rfl
  · change sanitizeDeliveryAddress rt.db (selectDeliveryAddress rt.db
      (extractOrderSlots rt turn.response).deliveryAddress
      (extractDeliveryAddressCandidate rt.db turn.content)) turn.content = none
    rw [haddress, h.text.extractDeliveryAddressCandidate]
    rfl

theorem interrupt_eq_ok {turn : OrderTurn} {r : TurnReading} (hstate : r.orderState.isSome = true) :
    interrupt rt turn r = .ok () ↔ isOrderCancelRequest r.normalized = false ∧
      extractAmbiguousDeliveryTimeWindow rt.db turn.content = none := by
  obtain ⟨state, hstate⟩ := Option.isSome_iff_exists.mp hstate
  unfold interrupt
  rw [hstate, Option.isSome_some, Bool.true_and]
  cases isOrderCancelRequest r.normalized with
  | true => exact iff_of_false (fun h => (by cases h)) fun h => (by cases h.1)
  | false =>
    rw [if_neg Bool.false_ne_true, eq_self_iff_true, true_and]
    cases extractAmbiguousDeliveryTimeWindow rt.db turn.content with
    | none => exact iff_of_true rfl rfl
    | some window => exact iff_of_false (fun h => (by cases h)) fun h => (by cases h)

theorem asksPostOrderChange_eq_none {turn : OrderTurn} : asksPostOrderChange rt turn = none ↔
    ((findExistingChatOrder turn.history).isSome = true →
      isPostOrderChangeRequest rt.db turn.content = false) := by
  unfold asksPostOrderChange
  cases findExistingChatOrder turn.history with
  | none => simp
  | some order => simp [Option.filter]

section
variable {n a : Text} (hdb : Vietnamese.Extends rt.db) (hn : n ∈ negators)
  (hcontent : turn.content = n ++ ' ' :: a) (ha : isAffirmation rt.db a)
  (hstate : orderStateStatus rt (latestState turn.messages.reverse) = "awaiting_confirmation")
include hdb hn hcontent ha hstate

/-- Only a refusal that is taken for a yes calls `create_order`. -/
theorem takenForYes_of_callsCreateOrder (h : callsCreateOrder rt turn = true) :
    TakenForYes rt turn a := by
  obtain ⟨hrouted, placed, checkout, key, hplaced⟩ := (callsCreateOrder_iff rt turn).mp h
  obtain ⟨hchange, hready, hconfirmed, -⟩ := handleChatOrder_createOrder.mp hplaced
  have hchoice : (readTurn rt turn.orderTurn).status ≠ "awaiting_product_choice" := by
    intro hchoice
    cases hfind : (readTurn rt turn.orderTurn).orderState with
    | none =>
      have hempty : (readTurn rt turn.orderTurn).status = [] :=
        congrArg (orderStateStatus rt) hfind
      rw [hempty] at hchoice
      cases hchoice
    | some state =>
      have hlatest : latestState turn.messages.reverse = some state :=
        latestState_getRecent (orderStateFrom_eq hfind)
      have hstatus : (readTurn rt turn.orderTurn).status = "awaiting_confirmation" := by
        rw [← hstate, hlatest, ← hfind]
        rfl
      rw [hstatus] at hchoice
      exact absurd hchoice (by decide)
  rw [confirmed_of_prepareOrder hchoice hready, Bool.and_eq_true, decide_eq_true_eq] at hconfirmed
  have hyes : isAffirmation rt.db turn.content = true := hconfirmed.2
  have hfound := findOrderState_yes hyes hstate
  have hforce : summaryInForce turn = true := by
    by_contra hnot
    rw [if_neg hnot] at hfound
    have hempty : (readTurn rt turn.orderTurn).status = [] := congrArg (orderStateStatus rt) hfound
    rw [hempty] at hconfirmed
    exact absurd hconfirmed.1 (by decide)
  have hsome : (readTurn rt turn.orderTurn).orderState.isSome = true := by
    cases hnone : (readTurn rt turn.orderTurn).orderState with
    | some state => rfl
    | none =>
      have hempty : (readTurn rt turn.orderTurn).status = [] := congrArg (orderStateStatus rt) hnone
      rw [hempty] at hconfirmed
      exact absurd hconfirmed.1 (by decide)
  obtain ⟨-, hinterrupt, -⟩ := prepareOrder_eq_ok hready
  obtain ⟨hcancel, hhour⟩ := (interrupt_eq_ok hsome).mp hinterrupt
  rw [hcontent, isAffirmation_negated hdb hn ha] at hyes
  exact ⟨hyes, hforce, (branch_order_iff rt turn).mp hrouted,
    asksPostOrderChange_eq_none.mp hchange, hcancel, hhour⟩

/-- A refusal that is taken for a yes and says nothing else places the shown order, as far as the
stock and the bounds of the checkout let it. -/
theorem TakenForYes.callsCreateOrder_iff (hblanks : PlainBlanks rt.db) (h : TakenForYes rt turn a)
    {o : ReadyOrder} (ho : SummaryOf rt turn o) (hplain : SaysNoMore rt turn) :
    callsCreateOrder rt turn = true ↔ KeepsBounds rt turn.orderTurn o ∧ o.InStock := by
  have hyes : isAffirmation rt.db turn.content = true := by
    rw [hcontent, isAffirmation_negated hdb hn ha, h.phrase]
  have hfound : (readTurn rt turn.orderTurn).orderState =
      some (orderStateMetadata "awaiting_confirmation" (some o.slots) []) := by
    rw [findOrderState_yes hyes hstate, if_pos h.inForce, ho.stored]
  have hsome : (readTurn rt turn.orderTurn).orderState.isSome = true := by
    rw [hfound]
    rfl
  have hcomplete : Complete rt turn.orderTurn.products o := ho.complete
  have hprepare := hcomplete.merged_yes hblanks (hplain.plainAnswer _) hyes
    ((interrupt_eq_ok hsome).mpr ⟨h.noCancel, h.noHour⟩) hfound
  rw [Chat.callsCreateOrder_iff, branch_order_iff, and_iff_right h.routed]
  constructor
  · rintro ⟨placed, checkout, key, hplaced⟩
    obtain ⟨-, hready, -, hcheckout, -⟩ := handleChatOrder_createOrder.mp hplaced
    obtain ⟨rfl, hstock⟩ := hcomplete.eq_onYes hblanks
      (hprepare.symm.trans hready)
    exact ⟨(hcomplete.checkout_onYes hblanks _).mp
      (Option.isSome_of_eq_some hcheckout), hstock⟩
  · rintro ⟨hbounds, hstock⟩
    have hready := hcomplete.checkOrder_onYes hblanks hsome
      (fun i hi => (hbounds.quantities i hi).1) hbounds.present_name hstock
    obtain ⟨checkout, hcheckout⟩ := Option.isSome_iff_exists.mp
      ((hcomplete.checkout_onYes hblanks turn.conversationId).mpr hbounds)
    exact ⟨_, checkout, _, handleChatOrder_createOrder.mpr
      ⟨asksPostOrderChange_eq_none.mpr h.noChange, hprepare.trans hready, withAccount_confirmed _,
        hcheckout, rfl⟩⟩

end

end

/-! A refused summary. -/

/-- The last cylinder. -/
def lastElfGas : Product := { elfGas with stockQuantity := 1 }

/-- Lan's order of two cylinders when only one is left. -/
def lanShortOrder : ReadyOrder :=
  { lanOrder with items := [(⟨some "Gas Elf đỏ 12 kg", some 2⟩, lastElfGas)] }

/-- The customer's answer to the summary of `lanSlots` by then. -/
def answerWhenShort (content : Text) : ChatTurn :=
  { answerToSummary content with catalog := [lastElfGas] }

theorem saysNoMore_whenShort {content : Text} (htext : BareText Vietnamese.database content)
    (hgoods : NamesNoGoods Vietnamese.database content) :
    SaysNoMore plainRuntime (answerWhenShort content) := by
  refine ⟨htext, hgoods, ?_⟩
  change { extractOrderSlots plainRuntime "{}" with confirmed := false } = _
  rw [extractOrderSlots_nothing]

end Qiki.Chat
