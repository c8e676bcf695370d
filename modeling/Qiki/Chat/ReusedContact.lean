import Qiki.Chat.NegatedConfirmation
import Qiki.Chat.Prepared

/-! The contact data of an earlier message that an order turn offers to use again. -/
namespace Qiki.Chat

open Unicode Orders

section
variable (rt : Runtime)

/-- The contact data in the slots that a message carries, if these have any. -/
def contactOf (message : Message) : Option ChatOrderSlots := findReusableContactSlots rt [message]

/-- The contact data of the most recent message that carries some. -/
def latestContact (messages : List Message) : Option ChatOrderSlots :=
  messages.reverse.findSome? (contactOf rt)

/-- The slots of an order turn and the products they match, before the contact data are checked. -/
def matchedSlots (turn : OrderTurn) :
    Except Reply (ChatOrderSlots × List (ChatOrderItem × Option Product)) := do
  let r := readTurn rt turn
  interrupt rt turn r
  let merged ← mergeTurn rt turn r
  let slots := completeSlots rt turn r merged
  let matched ← checkItems rt turn slots
  return (slots, matched)

/-- The contact data that `_handle_chat_order` asks the customer to use again. -/
def proposedContact (turn : OrderTurn) : Option ChatOrderSlots :=
  if (asksPostOrderChange rt turn).isSome then none
  else match matchedSlots rt turn with
    | .error _ => none
    | .ok (slots, matched) =>
      let reusable := findReusableContactSlots rt turn.conversationHistory
      if shouldConfirmReusableContact (readTurn rt turn).orderState slots matched reusable then
        reusable
      else none

end

section
variable {rt : Runtime} {turn : OrderTurn} {contact : ChatOrderSlots}

/-- The reply that proposes the contact data. -/
theorem handleChatOrder_proposes (h : proposedContact rt turn = some contact) :
    ∃ slots, handleChatOrder rt turn = .reply (orderStateMessage
      (formatReusableContactQuestion (some contact)) "awaiting_reused_contact_confirmation"
      (some (mergeOrderSlots rt.db (some slots) (some contact))) [] []) := by
  unfold proposedContact at h
  split_ifs at h with hchange
  cases hmatched : matchedSlots rt turn with
  | error reply => simp [hmatched] at h
  | ok found =>
    obtain ⟨slots, matched⟩ := found
    simp only [hmatched] at h
    split_ifs at h with hconfirm
    rw [h] at hconfirm
    have hnone : asksPostOrderChange rt turn = none := by simpa using hchange
    -- the stages that lead to the question
    unfold matchedSlots at hmatched
    obtain ⟨_, hinterrupt, hmatched⟩ := Except.bind_eq_ok hmatched
    obtain ⟨merged, hmerged, hmatched⟩ := Except.bind_eq_ok hmatched
    obtain ⟨items, hitems, hmatched⟩ := Except.bind_eq_ok hmatched
    obtain ⟨rfl, rfl⟩ := Prod.mk.inj (Except.ok.inj hmatched)
    refine ⟨completeSlots rt turn (readTurn rt turn) merged, ?_⟩
    set asked := completeSlots rt turn (readTurn rt turn) merged with hasked
    have hcontact : checkContact rt turn (readTurn rt turn) asked items =
        .error (orderStateMessage (formatReusableContactQuestion (some contact))
          "awaiting_reused_contact_confirmation"
          (some (mergeOrderSlots rt.db (some asked) (some contact))) [] []) := by
      simp only [checkContact, h, hconfirm, if_true]
      rfl
    have hprepare : prepareOrder rt turn = .error (orderStateMessage
        (formatReusableContactQuestion (some contact)) "awaiting_reused_contact_confirmation"
        (some (mergeOrderSlots rt.db (some asked) (some contact))) [] []) := by
      unfold prepareOrder
      simp only [hinterrupt, hmerged, checkOrder, ← hasked, hitems, hcontact, bind, Except.bind]
    simp only [handleChatOrder, hnone, hprepare]

/-- The scan of the documents is the scan of the messages, newest first. -/
theorem findReusableContactSlots_eq (messages : List Message) :
    findReusableContactSlots rt messages = latestContact rt messages := by
  unfold latestContact
  induction messages using List.reverseRecOn with
  | nil => rfl
  | append_singleton messages message ih =>
    rw [List.reverse_append, List.reverse_singleton, List.singleton_append, List.findSome?_cons,
      ← ih]
    unfold contactOf findReusableContactSlots
    simp only [List.reverse_append, List.reverse_singleton, List.singleton_append,
      List.flatMap_cons, List.flatMap_nil, List.append_nil, List.findSome?_append]
    cases (message.documents.getD []).findSome? _ <;> rfl

theorem latestContact_append (older newer : List Message) :
    latestContact rt (older ++ newer) = (latestContact rt newer).or (latestContact rt older) := by
  unfold latestContact
  rw [List.reverse_append, List.findSome?_append]

/-- The message of the turn itself carries no slots. -/
theorem latestContact_userMessage (turn : ChatTurn) (messages : List Message) :
    latestContact rt (messages ++ [turn.userMessage]) = latestContact rt messages := by
  have hnone : contactOf rt turn.userMessage = none := rfl
  rw [latestContact_append, latestContact, List.reverse_singleton, List.findSome?_singleton, hnone,
    Option.none_or]

/-- What is proposed comes from the first two hundred messages. -/
theorem proposedContact_eq (h : proposedContact rt turn = some contact) :
    latestContact rt turn.conversationHistory = some contact := by
  rw [← findReusableContactSlots_eq]
  unfold proposedContact at h
  split_ifs at h
  split at h
  · cases h
  · simp only at h
    split_ifs at h
    exact h

theorem latestContact_listByConversation (turn : ChatTurn) :
    latestContact rt (listByConversation (turn.messages ++ [turn.userMessage])) =
      latestContact rt (turn.messages.take 200) := by
  unfold listByConversation
  rw [List.take_append]
  cases 200 - turn.messages.length with
  | zero => rw [List.take_zero, List.append_nil]
  | succ n =>
    rw [List.take_succ_cons, List.take_nil]
    exact latestContact_userMessage turn _

end

/-- The contact data that are proposed are those of the most recent message that has some exactly
where no message behind the first two hundred has any, or the last such message has the same. -/
theorem proposedContact_latest_iff (rt : Runtime) (turn : ChatTurn) {contact : ChatOrderSlots}
    (h : proposedContact rt turn.orderTurn = some contact) :
    latestContact rt (turn.messages ++ [turn.userMessage]) = some contact ↔
      latestContact rt (turn.messages.drop 200) = none ∨
      latestContact rt (turn.messages.drop 200) = latestContact rt (turn.messages.take 200) := by
  have hfirst : latestContact rt (turn.messages.take 200) = some contact :=
    (latestContact_listByConversation turn).symm.trans (proposedContact_eq h)
  have hall : latestContact rt (turn.messages ++ [turn.userMessage]) =
      (latestContact rt (turn.messages.drop 200)).or (some contact) := by
    rw [latestContact_userMessage]
    conv_lhs => rw [← List.take_append_drop 200 turn.messages]
    rw [latestContact_append, hfirst]
  rw [hall, hfirst]
  cases latestContact rt (turn.messages.drop 200) with
  | none => simp
  | some newer => simp

/-- A summary from long ago that was sent to a customer. -/
def oldSummary (customerName : Text) : Message where
  role := .assistant
  content := []
  retrievedDocuments := some (.arr [.obj [("type", .str chatOrderStateMetadataType),
    ("status", .str "awaiting_confirmation"),
    ("slots", .obj [("customer_name", .str customerName)])]])
  createdAt := 0

/-- Messages, after which two bottles are ordered. -/
def orderAfter (messages : List Message) : ChatTurn :=
  { guestTurn .placeOrder "2 bình gas elf" with
    messages := messages, catalog := [elfGas], now := 10000 }

def lanContact : ChatOrderSlots := { customerName := some "Lan" }

theorem proposes_lan : latestContact plainRuntime
    ((orderAfter [oldSummary "Lan"]).messages ++ [(orderAfter [oldSummary "Lan"]).userMessage]) =
      some lanContact :=
  (proposedContact_latest_iff plainRuntime (orderAfter [oldSummary "Lan"])
    (by decide +kernel)).mpr (.inl rfl)

/-- Two hundred messages behind each other, and then another contact. -/
def longConversation : List Message :=
  oldSummary "Lan" :: (List.replicate 199 { role := .user, content := "gas", createdAt := 0 } ++
    [oldSummary "Hoa"])

theorem proposes_older : proposedContact plainRuntime (orderAfter longConversation).orderTurn =
      some lanContact ∧
    latestContact plainRuntime
      (longConversation ++ [(orderAfter longConversation).userMessage]) ≠ some lanContact := by
  constructor
  · decide +kernel
  · decide +kernel

end Qiki.Chat
