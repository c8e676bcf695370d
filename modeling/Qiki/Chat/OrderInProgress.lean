import Qiki.Chat.Plan

/-! The two scans of a history: whether an order is under way, and the state it is in. -/
namespace Qiki.Chat

open Unicode Orders

/-- An order state that the next message can go on from. -/
def IsLive (state : Json) : Prop := state.get "status" ≠ some (.str "order_cancelled")

/-- The newest assistant message, the one that `_is_order_in_progress` looks at. -/
def newestAssistant (history : List Message) : Option Message :=
  history.reverse.find? fun message => message.role = .assistant

/-- The order state in the newest assistant message. -/
def newestState (history : List Message) : Option Json :=
  (newestAssistant history).bind fun message =>
    (message.documents.getD []).find? (hasType chatOrderStateMetadataType)

/-- The newest assistant message carries the state of a cancelled order. -/
def endsCancelled (history : List Message) : Bool :=
  (newestState history).any fun state => state.get "status" = some (.str "order_cancelled")

section
variable {db : Database} {now : Timestamp} {content : Text} {history : List Message}

/-- Messages that the assistant did not write are passed over. -/
theorem orderStateFrom_of_find {messages : List Message} {message : Message}
    (h : messages.find? (fun m => m.role = .assistant) = some message) :
    ∃ older, orderStateFrom db now content messages =
      orderStateFrom db now content (message :: older) := by
  induction messages with
  | nil => cases h
  | cons m messages ih =>
    by_cases hrole : m.role = .assistant
    · rw [List.find?_cons_of_pos (by simpa using hrole)] at h
      obtain rfl := Option.some.inj h
      exact ⟨messages, rfl⟩
    · rw [List.find?_cons_of_neg (by simpa using hrole)] at h
      obtain ⟨older, hold⟩ := ih h
      refine ⟨older, ?_⟩
      rw [← hold, orderStateFrom, if_pos hrole]

/-- An order is in progress when the newest assistant message carries a fresh order state and no
created order. -/
theorem isOrderInProgress_iff :
    isOrderInProgress now history = true ↔ ∃ message documents,
      newestAssistant history = some message ∧ message.documents = some documents ∧
        hasMetadataType documents chatOrderMetadataType = false ∧
        hasMetadataType documents chatOrderStateMetadataType = true ∧
        isOrderStateFresh now message = true := by
  unfold isOrderInProgress newestAssistant
  cases hfind : history.reverse.find? fun m => m.role = .assistant with
  | none => simp
  | some message =>
    cases hdocuments : message.documents with
    | none => simp [hdocuments]
    | some documents =>
      cases horder : hasMetadataType documents chatOrderMetadataType with
      | true => simp [hdocuments, horder]
      | false =>
        cases hstate : hasMetadataType documents chatOrderStateMetadataType <;>
          simp [hdocuments, horder, hstate]

/-- While an order is in progress its state is found, unless it was cancelled. -/
theorem findOrderState_of_inProgress (db : Database) (content : Text)
    (h : isOrderInProgress now history = true) :
    ∃ state, newestState history = some state ∧
      findOrderState db now history content =
        if state.get "status" = some (.str "order_cancelled") then none else some state := by
  obtain ⟨message, documents, hnewest, hdocuments, horder, hstate, hfresh⟩ :=
    isOrderInProgress_iff.mp h
  obtain ⟨older, hscan⟩ : ∃ older, orderStateFrom db now content history.reverse =
      orderStateFrom db now content (message :: older) := orderStateFrom_of_find hnewest
  have hrole : message.role = .assistant := by
    simpa using List.find?_some hnewest
  obtain ⟨state, hfound⟩ := Option.isSome_iff_exists.mp
    (List.find?_isSome.mpr (List.any_eq_true.mp hstate))
  refine ⟨state, ?_, ?_⟩
  · rw [newestState, hnewest, Option.bind_some, hdocuments, Option.getD_some, hfound]
  · rw [findOrderState, hscan]
    simp only [orderStateFrom, hrole, ne_eq, not_true_eq_false, if_false, hdocuments, horder,
      Bool.false_eq_true, hfound, hfresh, Bool.not_true]

/-- Nothing is affirmed by an empty message. -/
theorem isAffirmation_nil (db : Database) : isAffirmation db [] = false := by
  have hnormal : normalizeMatchText db [] = [] := rfl
  unfold isAffirmation
  rw [hnormal]
  decide

/-- An order in progress has a live state for every message that affirms nothing, exactly when
the newest assistant message does not carry the state of a cancelled order. -/
theorem inProgress_agrees_iff (db : Database) (now : Timestamp) (history : List Message) :
    (isOrderInProgress now history = true → ∀ content, isAffirmation db content = false →
        ∃ state, findOrderState db now history content = some state ∧ IsLive state) ↔
      (isOrderInProgress now history = true → endsCancelled history = false) := by
  refine imp_congr_right fun hprogress => ?_
  constructor
  · intro hlive
    obtain ⟨state, hnewest, hfind⟩ := findOrderState_of_inProgress db [] hprogress
    obtain ⟨found, hfound, -⟩ := hlive [] (isAffirmation_nil db)
    rw [hfind] at hfound
    rw [endsCancelled, hnewest, Option.any_some, decide_eq_false_iff_not]
    intro hcancelled
    rw [if_pos hcancelled] at hfound
    cases hfound
  · intro hends content _
    obtain ⟨state, hnewest, hfind⟩ := findOrderState_of_inProgress db content hprogress
    rw [endsCancelled, hnewest, Option.any_some, decide_eq_false_iff_not] at hends
    exact ⟨state, by rw [hfind, if_neg hends], hends⟩

end

/-- The answer to "hủy đơn" during an order. -/
def cancelledAnswer : Message where
  role := .assistant
  content := "Dạ Qiki đã huỷ đơn. Khi nào cần đặt lại bạn cứ nhắn Qiki nhé."
  retrievedDocuments := some (.arr [orderStateMetadata "order_cancelled" none []])
  createdAt := 0

/-- After a cancellation an order is still in progress, and no state is found for it. -/
theorem cancelled_in_progress :
    ¬ ∀ (db : Database) (now : Timestamp) (history : List Message),
      isOrderInProgress now history = true → ∀ content, isAffirmation db content = false →
        ∃ state, findOrderState db now history content = some state ∧ IsLive state := by
  intro h
  have hprogress : isOrderInProgress 0 [cancelledAnswer] = true := by decide
  obtain ⟨state, hfound, -⟩ := h Vietnamese.database 0 [cancelledAnswer] hprogress []
    (isAffirmation_nil _)
  have hnone : findOrderState Vietnamese.database 0 [cancelledAnswer] [] = none := by decide
  rw [hnone] at hfound
  cases hfound

end Qiki.Chat
