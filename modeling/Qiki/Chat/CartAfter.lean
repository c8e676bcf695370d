import Qiki.Chat.CartProducts
import Qiki.Chat.TurnReplies

/-! The cart that a turn finds and the one it leaves. -/
namespace Qiki.Chat

open Unicode Orders AddressLookup

section
variable (rt : Runtime)

/-- The cart of an order state. While a change of a product waits for its answer, this is the cart
before the change. -/
def cartOf (state : Option Json) : List ChatOrderItem :=
  let slots := slotsFromOrderState rt state
  if orderStateStatus rt state = "awaiting_product_change_confirmation" then
    previousItemsFromState rt state slots
  else (slots.map (·.items)).getD []

/-- The state that the message after this reply goes on from. -/
def Reply.state (r : Reply) : Option Json :=
  if hasMetadataType r.metadata chatOrderMetadataType then none
  else (r.metadata.find? (hasType chatOrderStateMetadataType)).bind fun state =>
    if state.get "status" = some (.str "order_cancelled") then none else some state

/-- The cart that a turn leaves. -/
def cartAfter (turn : OrderTurn) : List ChatOrderItem :=
  match handleChatOrder rt turn with
  | .reply r => cartOf rt r.state
  | .showSummary order => cartOf rt (summaryReply order turn.language).state
  -- the items of the order that is placed
  | .createOrder order _ _ => order.slots.items
  -- the turn is rolled back
  | .invalidCheckout => cartOf rt (readTurn rt turn).orderState

/-- Every product in the cart before the turn is in the cart after it. -/
def KeepsProducts (turn : OrderTurn) : Prop :=
  cartProducts rt.db turn.products (cartOf rt (readTurn rt turn).orderState) ⊆
    cartProducts rt.db turn.products (cartAfter rt turn)

end

/-- While it is fresh, the state of a reply is what the next message finds; behind the record of an
order a bare confirmation looks further back. -/
theorem findOrderState_reply {db : Database} {r : Reply} {now sent : Timestamp} {content : Text}
    (history : List Message) (hfresh : now - sent ≤ orderStateTtl)
    (hstored : hasMetadataType r.metadata chatOrderMetadataType = true ∧
        isAffirmation db content = false ∨
      hasMetadataType r.metadata chatOrderMetadataType = false ∧
        hasMetadataType r.metadata chatOrderStateMetadataType = true) :
    findOrderState db now (history ++ [r.toMessage sent]) content = r.state := by
  unfold findOrderState Reply.state
  rw [List.reverse_append, List.reverse_singleton, List.singleton_append]
  rcases hstored with ⟨horder, hcontent⟩ | ⟨horder, hstate⟩
  · simp [orderStateFrom, Reply.toMessage, Message.documents, horder, hcontent]
  · obtain ⟨state, hfound⟩ := Option.isSome_iff_exists.mp
      (List.find?_isSome.mpr (List.any_eq_true.mp hstate))
    have hsent : isOrderStateFresh now (r.toMessage sent) = true := decide_eq_true hfresh
    have hdocuments : (r.toMessage sent).documents = some r.metadata := rfl
    have hrole : (r.toMessage sent).role = .assistant := rfl
    simp only [orderStateFrom, hdocuments, hrole, horder, hfound, hsent, ne_eq, not_true_eq_false,
      if_false, Bool.false_eq_true, Bool.not_true, Option.bind_some]

/-! The cart that a reply stores. -/

theorem state_orderStateMessage {status : Text} (hstatus : status ≠ "order_cancelled")
    (content : Text) (slots : Option ChatOrderSlots) (extra : List (Text × Json))
    (cards : List Product) : (orderStateMessage content status slots extra cards).state =
      some (orderStateMetadata status slots extra) := by
  have horder : hasType chatOrderMetadataType (orderStateMetadata status slots extra) = false := by
    rw [hasType_orderStateMetadata]
    decide
  have hstate : hasType chatOrderStateMetadataType (orderStateMetadata status slots extra) = true := by
    rw [hasType_orderStateMetadata]
    decide
  have hlive : ¬ (orderStateMetadata status slots extra).get "status" =
      some (.str "order_cancelled") := by
    rw [orderStateMetadata_status]
    exact fun h => hstatus (Json.str.inj (Option.some.inj h))
  change (if hasMetadataType [orderStateMetadata status slots extra] chatOrderMetadataType then none
    else ([orderStateMetadata status slots extra].find? (hasType chatOrderStateMetadataType)).bind
      fun state => _) = _
  rw [List.find?_cons_of_pos hstate, Option.bind_some, if_neg hlive, hasMetadataType, List.any_cons,
    horder]
  rfl

section
variable {rt : Runtime} {slots : ChatOrderSlots} {status : Text} {extra : List (Text × Json)}

theorem slotItems_stored (hextra : extra.lookup ("slots" : Text) = none) :
    ((slotsFromOrderState rt (some (orderStateMetadata status (some slots) extra))).map
      (·.items)).getD [] = (rereadSlots rt.db slots).items := by
  have hread := slotsFromMetadata_slotsToMetadata rt slots
  unfold slotsFromOrderState orderStateMetadata
  simp only [Option.bind_some, Json.getOrNull, Json.get]
  rw [List.lookup_cons, beq_false_of_ne (by decide)]
  simp only
  rw [List.lookup_cons, beq_false_of_ne (by decide)]
  simp only
  cases hempty : (slotsToMetadata (some slots)).isEmpty with
  | true =>
    rw [List.isEmpty_iff.mp hempty] at hread
    simp only [if_true, hextra, Option.getD_none, slotsFromMetadata, Option.map_none]
    rw [← Option.some.inj hread]
    rfl
  | false =>
    simp only [Bool.false_eq_true, if_false, List.lookup_cons_self, Option.getD_some, hread,
      Option.map_some]

theorem cartProducts_collecting (h : BlanksSeparate rt.db) (products : List Product)
    {items : List ChatOrderItem} {reply : Reply} (hreply : AsksAbout items reply) :
    cartProducts rt.db products (cartOf rt reply.state) = cartProducts rt.db products items := by
  obtain ⟨content, status, slots, extra, cards, hstatus, hextra, rfl⟩ := hreply
  simp only [isCollecting, Bool.not_eq_true', List.contains_eq_mem, decide_eq_false_iff_not,
    List.mem_cons, List.not_mem_nil, or_false, not_or] at hstatus
  rw [state_orderStateMessage hstatus.2.2, cartOf, orderStateStatus_orderStateMetadata,
    if_neg hstatus.2.1, slotItems_stored hextra]
  exact cartProducts_reread h slots.items

theorem cartProducts_summary (h : BlanksSeparate rt.db) (products : List Product) (o : ReadyOrder)
    (language : Language) : cartProducts rt.db products
      (cartOf rt (summaryReply o language).state) = cartProducts rt.db products o.slots.items := by
  unfold summaryReply
  rw [state_orderStateMessage (by decide), cartOf, orderStateStatus_orderStateMetadata,
    if_neg (by decide), slotItems_stored rfl]
  exact cartProducts_reread h o.slots.items

/-- A change that waits for its answer stores the cart before it. -/
theorem cartProducts_changing (h : BlanksSeparate rt.db) {products : List Product}
    {items pending : List ChatOrderItem} (hlive : cartProducts rt.db products items ≠ [])
    (content : Text) (slots : Option ChatOrderSlots) :
    cartProducts rt.db products (cartOf rt
      (orderStateMessage content "awaiting_product_change_confirmation" slots
        (("previous_items", .arr (itemsToMetadata items)) :: pendingItemField pending) []).state) =
      cartProducts rt.db products items := by
  have hstored : (orderStateMetadata "awaiting_product_change_confirmation" slots
      (("previous_items", .arr (itemsToMetadata items)) :: pendingItemField pending)).getOrNull
        "previous_items" = .arr (itemsToMetadata items) := by
    unfold orderStateMetadata
    simp only [Json.getOrNull, Json.get]
    split_ifs <;> simp (disch := decide) only [List.lookup_cons, beq_false_of_ne, beq_self_eq_true,
      Option.getD_some]
  have hitems := itemsFromMetadata_itemsToMetadata rt items
  have hne : (itemsFromMetadata rt (.arr (itemsToMetadata items))).isEmpty = false := by
    rw [hitems, Bool.eq_false_iff]
    intro hempty
    rw [← cartProducts_reread h, List.isEmpty_iff.mp hempty] at hlive
    exact hlive rfl
  rw [state_orderStateMessage (by decide), cartOf, orderStateStatus_orderStateMetadata, if_pos rfl,
    previousItemsFromState]
  simp only [hstored]
  rw [if_pos (by rw [hne]; rfl), hitems]
  exact cartProducts_reread h items

end

/-! The cart after the message was merged. -/

section
variable {rt : Runtime} {turn : OrderTurn}

theorem items_base (r : TurnReading) : r.base.items = (r.previousSlots.map (·.items)).getD [] := by
  unfold TurnReading.base
  cases r.previousSlots <;> rfl

theorem items_completeSlots (r : TurnReading) (merged : ChatOrderSlots × Bool) :
    (completeSlots rt turn r merged).items = merged.1.items := by
  simp only [completeSlots, withDeliveryTimeCandidate, withOrderCues, withPhoneCandidate]
  split
  · rfl
  · split_ifs <;> rfl

theorem items_passedChecks {slots : ChatOrderSlots} {o : ReadyOrder}
    (h : PassedChecks rt turn slots o) : o.slots.items = slots.items := by
  rw [h.slots_eq]
  exact items_mergeOrderSlots_right items_accountContact

theorem cartAfter_of_error {reply : Reply} (hpost : asksPostOrderChange rt turn = none)
    (h : prepareOrder rt turn = .error reply) : cartAfter rt turn = cartOf rt reply.state := by
  simp only [cartAfter, handleChatOrder, hpost, h]

/-- A turn that is not rolled back leaves the items of the merged slots. -/
theorem cartAfter_of_merged (hblanks : BlanksSeparate rt.db) {merged : ChatOrderSlots × Bool}
    (hpost : asksPostOrderChange rt turn = none)
    (hinterrupt : interrupt rt turn (readTurn rt turn) = .ok ())
    (hmerged : mergeTurn rt turn (readTurn rt turn) = .ok merged) :
    cartProducts rt.db turn.products (cartAfter rt turn) =
        cartProducts rt.db turn.products merged.1.items ∨
      cartAfter rt turn = cartOf rt (readTurn rt turn).orderState ∧ ∃ o,
        PassedChecks rt turn (completeSlots rt turn (readTurn rt turn) merged) o ∧
          o.slots.confirmed = true := by
  have hprepare : prepareOrder rt turn =
      checkOrder rt turn (readTurn rt turn) (completeSlots rt turn (readTurn rt turn) merged) := by
    simp only [prepareOrder, hinterrupt, hmerged]
    rfl
  cases hcheck : checkOrder rt turn (readTurn rt turn)
      (completeSlots rt turn (readTurn rt turn) merged) with
  | error reply =>
    left
    rw [cartAfter_of_error hpost (hprepare.trans hcheck),
      cartProducts_collecting hblanks _ (checkOrder_error hcheck), items_completeSlots]
  | ok o =>
    have hpassed := checkOrder_eq_ok hcheck
    have hitems : o.slots.items = merged.1.items :=
      (items_passedChecks hpassed).trans (items_completeSlots _ _)
    have hhandle : handleChatOrder rt turn = o.decide rt turn.conversationId := by
      simp only [handleChatOrder, hpost, hprepare.trans hcheck]
    cases hconfirmed : o.slots.confirmed with
    | false =>
      left
      have hshow : handleChatOrder rt turn = .showSummary o := by
        rw [hhandle, ReadyOrder.decide, hconfirmed]
        rfl
      simp only [cartAfter, hshow]
      rw [cartProducts_summary hblanks, hitems]
    | true =>
      cases hcheckout : o.checkout rt turn.conversationId with
      | none =>
        right
        have hinvalid : handleChatOrder rt turn = .invalidCheckout := by
          rw [hhandle, ReadyOrder.decide, hconfirmed, hcheckout]
          rfl
        exact ⟨by simp only [cartAfter, hinvalid], o, hpassed, hconfirmed⟩
      | some checkout =>
        left
        have hcreate : handleChatOrder rt turn = .createOrder o checkout
            (chatOrderIdempotencyKey rt turn.conversationId o.slots) := by
          rw [hhandle, ReadyOrder.decide, hconfirmed, hcheckout]
          rfl
        simp only [cartAfter, hcreate, hitems]

/-- What the merged slots keep, the turn keeps. -/
theorem keepsProducts_of_merged (hblanks : BlanksSeparate rt.db) {merged : ChatOrderSlots × Bool}
    (hpost : asksPostOrderChange rt turn = none)
    (hinterrupt : interrupt rt turn (readTurn rt turn) = .ok ())
    (hmerged : mergeTurn rt turn (readTurn rt turn) = .ok merged)
    (hsub : cartProducts rt.db turn.products (cartOf rt (readTurn rt turn).orderState) ⊆
      cartProducts rt.db turn.products merged.1.items) : KeepsProducts rt turn := by
  unfold KeepsProducts
  rcases cartAfter_of_merged hblanks hpost hinterrupt hmerged with h | ⟨h, -⟩
  · rw [h]
    exact hsub
  · rw [h]
    exact List.Subset.refl _

/-- A reply in the middle of the turn. -/
theorem keepsProducts_of_reply {reply : Reply} (hpost : asksPostOrderChange rt turn = none)
    (hprepare : prepareOrder rt turn = .error reply) : KeepsProducts rt turn ↔
      cartProducts rt.db turn.products (cartOf rt (readTurn rt turn).orderState) ⊆
        cartProducts rt.db turn.products (cartOf rt reply.state) := by
  rw [KeepsProducts, cartAfter_of_error hpost hprepare]

end

end Qiki.Chat
