import Qiki.Chat.SummaryCheckout
import Qiki.Transition.Run

/-! A whole conversation: the messages that its turns store, and the summary that was shown last. -/
namespace Qiki.Chat

open Unicode Orders Transition

/-- The products of a catalog, whatever is left of them in stock. -/
def goods (catalog : List Product) : List Product :=
  catalog.map fun p => { p with stockQuantity := 0 }

/-- The stored messages, and the order of the most recent summary among them. -/
structure Conversation where
  id : Uuid
  messages : List Message := []
  shown : Option ReadyOrder := none

/-- A message of the customer, or one that another party or an interrupted turn leaves. -/
inductive ConversationEvent
  | turn (turn : ChatTurn) (service : OrderService) (streamed : Bool)
  | message (m : Message)

/-- The turn, in this conversation. -/
def Conversation.turn (c : Conversation) (turn : ChatTurn) : ChatTurn :=
  { turn with conversationId := c.id, messages := c.messages }

section
variable (rt : Runtime)

/-- The order whose summary the turn shows. -/
def shownBy (turn : ChatTurn) : Option ReadyOrder :=
  if selectBranch rt turn = .order then
    match handleChatOrder rt turn.orderTurn with
    | .showSummary o => some o
    | _ => none
  else none

/-- The assistant message that `send_message` or `stream_message` stores. -/
def storedReply (turn : ChatTurn) (service : OrderService) (streamed : Bool) : Option Reply :=
  if streamed then (streamMessage rt turn service).reply else (sendMessage rt turn service).reply

/-- What one event makes of the conversation, in a shop that always has the same products. -/
def converse (wares : List Product) (c : Conversation) : ConversationEvent → Option Conversation
  | .turn turn service streamed =>
    if goods turn.catalog = wares then
      let turn := c.turn turn
      match storedReply rt turn service streamed with
      | none => some { c with messages := c.messages ++ [turn.userMessage] }
      | some r => some { c with
          messages := c.messages ++ [turn.userMessage, r.toMessage turn.now]
          shown := (shownBy rt turn).or c.shown }
    else none
  | .message m =>
    if latestState [m] = none then some { c with messages := c.messages ++ [m] } else none

/-- A summary that is the newest order state is the one that was shown last. -/
def KeepsShown (wares : List Product) (c : Conversation) : Prop :=
  ∀ state, latestState c.messages.reverse = some state →
    orderStateStatus rt (some state) = "awaiting_confirmation" → ∃ o catalog,
      c.shown = some o ∧ state = orderStateMetadata "awaiting_confirmation" (some o.slots) [] ∧
        goods catalog = wares ∧ Complete rt catalog o

end

section
variable {rt : Runtime} {turn : ChatTurn} {service : OrderService}

theorem AsksFurther.latestState {r : Reply} (h : AsksFurther r) (now : Timestamp)
    (older : List Message) : ∃ state, latestState (r.toMessage now :: older) = some state ∧
      orderStateStatus rt (some state) ≠ "awaiting_confirmation" := by
  obtain ⟨content, status, slots, extra, cards, hstatus⟩ := h
  refine ⟨_, latestState_orderStateMessage content cards now older, ?_⟩
  rw [orderStateStatus_orderStateMetadata]
  exact hstatus

/-- The order branch stores a summary, a question, or nothing that is read as an order state. -/
theorem orderAnswer_reply {r : Reply} (h : (orderAnswer rt turn service).reply = some r) :
    KeepsState r ∨ AsksFurther r ∨
      ∃ o, handleChatOrder rt turn.orderTurn = .showSummary o ∧ r = summaryReply o turn.language := by
  change (handleChatOrder rt turn.orderTurn).toReply rt turn service = some r at h
  cases houtcome : handleChatOrder rt turn.orderTurn with
  | reply reply =>
    rw [houtcome] at h
    obtain rfl : reply = r := Option.some.inj h
    unfold handleChatOrder at houtcome
    cases hchange : asksPostOrderChange rt turn.orderTurn with
    | some existingOrder =>
      rw [hchange] at houtcome
      obtain rfl := OrderOutcome.reply.inj houtcome
      have hfound := List.find?_some (Option.filter_eq_some_iff.mp hchange).1
      exact Or.inl (keepsState_postOrderChangeReply rt (Bool.and_eq_true_iff.mp hfound).1)
    | none =>
      rw [hchange] at houtcome
      cases hprepare : prepareOrder rt turn.orderTurn with
      | error asked =>
        rw [hprepare] at houtcome
        obtain rfl := OrderOutcome.reply.inj houtcome
        exact Or.inr (Or.inl (prepareOrder_error hprepare))
      | ok o =>
        rw [hprepare] at houtcome
        dsimp only [ReadyOrder.decide] at houtcome
        split_ifs at houtcome
        split at houtcome <;> cases houtcome
  | showSummary o =>
    rw [houtcome] at h
    exact Or.inr (Or.inr ⟨o, rfl, (Option.some.inj h).symm⟩)
  | createOrder o checkout key =>
    rw [houtcome] at h
    obtain ⟨created, -, rfl⟩ := Option.map_eq_some_iff.mp h
    exact Or.inl (keepsState_orderCreatedReply rt o created.1 created.2 turn.now)
  | invalidCheckout =>
    rw [houtcome] at h
    cases h

theorem keepsState_answered (content : Text) (metadata : List Json)
    (h : ∀ d ∈ metadata, hasType chatOrderStateMetadataType d = false) {r : Reply}
    (hr : (answered content metadata).reply = some r) : KeepsState r := by
  obtain rfl := Option.some.inj hr
  exact keepsState_of_untyped h

/-- Only the order branch shows a summary; every other one leaves the order state alone. -/
theorem storedReply_cases {streamed : Bool} {r : Reply}
    (h : storedReply rt turn service streamed = some r) :
    KeepsState r ∨ AsksFurther r ∨ ∃ o, shownBy rt turn = some o ∧ r = summaryReply o turn.language := by
  have hfixed (content : Text) (hr : (answered content []).reply = some r) : KeepsState r :=
    keepsState_answered content [] (fun _ hd => by cases hd) hr
  have hrag (hr : (createRagAnswer rt turn).reply = some r) : KeepsState r := by
    obtain rfl := Option.some.inj hr
    exact keepsState_sources rt
  have hplan {result : TurnResult} (hresult : planResponse rt turn service = some result)
      (hr : result.reply = some r) : KeepsState r ∨ AsksFurther r ∨
        ∃ o, shownBy rt turn = some o ∧ r = summaryReply o turn.language := by
    unfold planResponse at hresult
    unfold shownBy
    cases hbranch : selectBranch rt turn with
    | safety =>
      rw [hbranch] at hresult
      obtain rfl := Option.some.inj hresult
      exact Or.inl (hrag hr)
    | followup note =>
      rw [hbranch] at hresult
      obtain rfl := Option.some.inj hresult
      refine Or.inl (keepsState_answered _ [note.toJson] (fun d hd => ?_) hr)
      rw [List.mem_singleton.mp hd]
      exact hasType_followupNote note
    | handoff =>
      rw [hbranch] at hresult
      obtain rfl := Option.some.inj hresult
      exact Or.inl (hfixed _ hr)
    | clarification =>
      rw [hbranch] at hresult
      obtain rfl := Option.some.inj hresult
      exact Or.inl (hfixed _ hr)
    | inquiry message =>
      rw [hbranch] at hresult
      obtain rfl := Option.some.inj hresult
      exact Or.inl (hfixed _ hr)
    | order =>
      rw [hbranch] at hresult
      obtain rfl := Option.some.inj hresult
      rcases orderAnswer_reply hr with hkeeps | hasks | ⟨o, hshow, hsummary⟩
      · exact Or.inl hkeeps
      · exact Or.inr (Or.inl hasks)
      · refine Or.inr (Or.inr ⟨o, ?_, hsummary⟩)
        rw [if_pos rfl, hshow]
    | rag =>
      rw [hbranch] at hresult
      cases hresult
  unfold storedReply sendMessage streamMessage at h
  cases hresult : planResponse rt turn service with
  | some result =>
    rw [hresult] at h
    refine hplan hresult ?_
    split_ifs at h <;> exact h
  | none =>
    rw [hresult] at h
    left
    split_ifs at h
    · dsimp only [Option.getD_none, streamRagAnswer] at h
      split_ifs at h
      obtain rfl := Option.some.inj h
      exact keepsState_sources rt
    · exact hrag h

theorem shownBy_eq_some {o : ReadyOrder} (h : shownBy rt turn = some o) :
    selectBranch rt turn = .order ∧ handleChatOrder rt turn.orderTurn = .showSummary o := by
  unfold shownBy at h
  split_ifs at h with hbranch
  split at h
  case h_1 shown hshow => exact ⟨hbranch, Option.some.inj h ▸ hshow⟩
  case h_2 => cases h

theorem storedReply_of_shownBy {streamed : Bool} {o : ReadyOrder} (h : shownBy rt turn = some o) :
    storedReply rt turn service streamed = some (summaryReply o turn.language) := by
  obtain ⟨hbranch, hshow⟩ := shownBy_eq_some h
  have hreply : (orderAnswer rt turn service).reply = some (summaryReply o turn.language) := by
    change (handleChatOrder rt turn.orderTurn).toReply rt turn service = _
    rw [hshow]
    rfl
  have hplan : planResponse rt turn service = some (orderAnswer rt turn service) := by
    unfold planResponse
    rw [hbranch]
  unfold storedReply sendMessage streamMessage
  rw [hplan, Option.getD_some, Option.getD_some, hreply, ite_self]

end

section
variable {rt : Runtime} {wares : List Product}

/-- One event keeps the summary that was shown last the newest one. -/
theorem keepsShown_converse {c c' : Conversation} {event : ConversationEvent}
    (h : KeepsShown rt wares c) (hnext : converse rt wares c event = some c') :
    KeepsShown rt wares c' := by
  cases event with
  | message m =>
    dsimp only [converse] at hnext
    split_ifs at hnext with hm
    obtain rfl := Option.some.inj hnext
    intro state hstate
    dsimp only at hstate
    rw [List.reverse_append, List.reverse_singleton, latestState_append, hm, Option.none_or] at hstate
    exact h state hstate
  | turn turn service streamed =>
    dsimp only [converse] at hnext
    split_ifs at hnext with hgoods
    have huser (older : List Message) :
        latestState ((c.turn turn).userMessage :: older) = latestState older :=
      latestState_of_role Role.noConfusion older
    cases hreply : storedReply rt (c.turn turn) service streamed with
    | none =>
      rw [hreply] at hnext
      obtain rfl := Option.some.inj hnext
      intro state hstate
      dsimp only at hstate
      rw [List.reverse_append, List.reverse_singleton, List.singleton_append, huser] at hstate
      exact h state hstate
    | some r =>
      rw [hreply] at hnext
      obtain rfl := Option.some.inj hnext
      intro state hstate hstatus
      have hlatest : latestState (r.toMessage (c.turn turn).now :: (c.turn turn).userMessage ::
          c.messages.reverse) = some state := by
        simpa using hstate
      cases hshown : shownBy rt (c.turn turn) with
      | some o =>
        obtain rfl := Option.some.inj ((storedReply_of_shownBy hshown).symm.trans hreply)
        obtain rfl := Option.some.inj ((latestState_orderStateMessage _ _ _ _).symm.trans hlatest)
        exact ⟨o, turn.catalog, rfl, rfl, hgoods, complete_of_showSummary (shownBy_eq_some hshown).2⟩
      | none =>
        rcases storedReply_cases hreply with hkeeps | hasks | ⟨o, ho, -⟩
        · rw [latestState_of_keepsState hkeeps, huser] at hlatest
          exact h state hlatest hstatus
        · obtain ⟨asked, hasked, hother⟩ := hasks.latestState (c.turn turn).now
            ((c.turn turn).userMessage :: c.messages.reverse)
          obtain rfl := Option.some.inj (hasked.symm.trans hlatest)
          exact absurd hstatus hother
        · cases hshown.symm.trans ho

theorem keepsShown_of_exec {id : Uuid} {events : List ConversationEvent} {c : Conversation}
    (hrun : exec (converse rt wares) { id := id } events = some c) : KeepsShown rt wares c := by
  have hstart : KeepsShown rt wares { id := id } := fun state hstate => nomatch hstate
  exact invariant_exec (fun _ _ _ => keepsShown_converse) hstart hrun

end

end Qiki.Chat
