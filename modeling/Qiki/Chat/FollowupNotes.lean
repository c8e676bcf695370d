import Qiki.Chat.Conversation

/-! The follow-up note of a conversation that the staff pages show. -/
namespace Qiki.Chat

open Unicode Orders Transition

inductive NoteType
  | callback | deliveryWindow
  deriving DecidableEq, Repr

def NoteType.text : NoteType → Text
  | .callback => "callback"
  | .deliveryWindow => "delivery_window"

/-- A `FollowupNote` of the storefront. -/
structure ShownNote where
  noteType : NoteType
  staffReminder : Text
  declinedCallback : Bool
  deriving DecidableEq, Repr

/-- The note that the page finds in a document. -/
def shownNote (document : Json) : Option ShownNote :=
  if hasType chatFollowupNoteMetadataType document then
    match document.get "staff_reminder" with
    | some (.str reminder) =>
      if reminder.isEmpty then none
      else some
        { noteType := if document.get "note_type" = some (.str NoteType.deliveryWindow.text)
            then .deliveryWindow else .callback
          staffReminder := reminder
          declinedCallback := document.get "declined_callback" = some (.bool true) }
    | _ => none
  else none

/-- The messages by `created_at`; those of one time stay in order. -/
def sortedMessages (messages : List Message) : List Message :=
  messages.mergeSort fun left right => left.createdAt ≤ right.createdAt

/-- The loop of `conversationFollowupNote` over the messages, newest first. -/
def firstShownNote (messages : List Message) : Option ShownNote :=
  (messages.flatMap fun message => message.documents.getD []).findSome? shownNote

def conversationFollowupNote (messages : List Message) : Option ShownNote :=
  firstShownNote (sortedMessages messages).reverse

/-- The page shows what was recorded. -/
structure ShownAs (note : FollowupNote) (shown : ShownNote) : Prop where
  noteType : shown.noteType.text = note.noteType
  staffReminder : shown.staffReminder = note.staffReminder
  declinedCallback : shown.declinedCallback = note.declinedCallback

/-! The notes that the backend builds. -/

theorem formatFollowupReminder_ne_nil (noteType : Text) (windowText : Option Text)
    (declined : Bool) : formatFollowupReminder noteType windowText declined ≠ [] := by
  unfold formatFollowupReminder
  dsimp only
  split_ifs <;> intro h <;> cases h

theorem shownAs_toJson {note : FollowupNote} {noteType : NoteType}
    (htype : note.noteType = noteType.text) (hreminder : note.staffReminder ≠ []) :
    ∃ shown, shownNote note.toJson = some shown ∧ ShownAs note shown := by
  have hkind : note.toJson.get "type" = some (.str chatFollowupNoteMetadataType) := by
    simp only [FollowupNote.toJson, Json.get]
    exact List.lookup_cons_self
  have hstored : note.toJson.get "staff_reminder" = some (.str note.staffReminder) := by
    simp only [FollowupNote.toJson, Json.get, List.concat_eq_append]
    simp (disch := decide) only [List.lookup_cons, List.lookup_append, beq_false_of_ne,
      lookup_textField_of_ne, Option.none_or, List.lookup_nil]
    rw [beq_self_eq_true]
  have hname : note.toJson.get "note_type" = some (.str note.noteType) := by
    simp only [FollowupNote.toJson, Json.get]
    rw [List.lookup_cons, beq_false_of_ne (by decide)]
    exact List.lookup_cons_self
  have hdeclined : note.toJson.get "declined_callback" = some (.bool note.declinedCallback) := by
    simp only [FollowupNote.toJson, Json.get]
    rw [List.lookup_cons, beq_false_of_ne (by decide), List.lookup_cons,
      beq_false_of_ne (by decide)]
    exact List.lookup_cons_self
  have hshown : shownNote note.toJson = some
      { noteType := if note.noteType = NoteType.deliveryWindow.text then .deliveryWindow
          else .callback
        staffReminder := note.staffReminder
        declinedCallback := note.declinedCallback } := by
    unfold shownNote
    rw [if_pos (show hasType _ _ = true by rw [hasType, hkind]; exact decide_eq_true rfl), hstored]
    dsimp only
    rw [if_neg (by simpa using hreminder), hname, hdeclined]
    simp
  refine ⟨_, hshown, ?_, rfl, rfl⟩
  rw [htype]
  cases noteType <;> rfl

/-- A note of one of the two types, with a reminder. -/
theorem exists_shown_buildFollowupNote (noteType : NoteType) (windowText period : Option Text)
    (declined : Bool) : ∃ shown,
      shownNote (buildFollowupNote noteType.text windowText period declined).toJson = some shown ∧
        ShownAs (buildFollowupNote noteType.text windowText period declined) shown :=
  shownAs_toJson rfl (formatFollowupReminder_ne_nil noteType.text windowText declined)

theorem exists_shown_detectFollowupRequest {db : Database} {content : Text} {placesOrder : Bool}
    {note : FollowupNote} (h : detectFollowupRequest db content placesOrder = some note) :
    ∃ shown, shownNote note.toJson = some shown ∧ ShownAs note shown := by
  simp only [detectFollowupRequest] at h
  split_ifs at h <;> cases h
  · exact exists_shown_buildFollowupNote .deliveryWindow ..
  · exact exists_shown_buildFollowupNote .callback ..
  · exact exists_shown_buildFollowupNote .callback ..
  · exact exists_shown_buildFollowupNote .deliveryWindow ..

theorem exists_shown_orderDeliveryFollowupNote {db : Database} {deliveryNotes : Option Text}
    {note : FollowupNote} (h : orderDeliveryFollowupNote db deliveryNotes = some note) :
    ∃ shown, shownNote note.toJson = some shown ∧ ShownAs note shown := by
  simp only [orderDeliveryFollowupNote] at h
  split_ifs at h
  cases h
  exact exists_shown_buildFollowupNote .deliveryWindow ..

/-! What a turn records, and what its reply shows. -/

section
variable {rt : Runtime} {turn : ChatTurn} {service : OrderService}

theorem shownNote_of_hasType {metadataType : Text} {document : Json}
    (h : hasType metadataType document = true) (hne : metadataType ≠ chatFollowupNoteMetadataType) :
    shownNote document = none := by
  have hother : hasType chatFollowupNoteMetadataType document = false := by
    rw [hasType, decide_eq_true_iff] at h
    rw [hasType, h]
    simpa using hne
  rw [shownNote, hother]
  rfl

theorem shownNote_orderStateMetadata (status : Text) (slots : Option ChatOrderSlots)
    (extra : List (Text × Json)) : shownNote (orderStateMetadata status slots extra) = none := by
  have hstate : hasType chatOrderStateMetadataType (orderStateMetadata status slots extra) = true := by
    rw [hasType_orderStateMetadata]
    exact decide_eq_true rfl
  exact shownNote_of_hasType hstate (by decide)

theorem findSome_orderStateMessage (content status : Text) (slots : Option ChatOrderSlots)
    (extra : List (Text × Json)) (cards : List Product) :
    (orderStateMessage content status slots extra cards).metadata.findSome? shownNote = none := by
  rw [orderStateMessage, List.findSome?_singleton, shownNote_orderStateMetadata]

theorem findSome_sources (sources : List RetrievedDocument) :
    (sources.map (RetrievedDocument.toJson rt)).findSome? shownNote = none := by
  rw [List.findSome?_eq_none_iff]
  intro document hmem
  obtain ⟨source, -, rfl⟩ := List.mem_map.mp hmem
  rw [shownNote, hasType_sourceToJson]
  rfl

theorem findSome_postOrderChangeReply {content : Text} {existingOrder : Json}
    (h : hasType chatOrderMetadataType existingOrder = true) :
    (postOrderChangeReply rt content existingOrder).metadata.findSome? shownNote = none := by
  have horder : hasMetadataType (postOrderChangeReply rt content existingOrder).metadata
      chatOrderMetadataType = true :=
    hasOrder_postOrderChangeReply rt h
  obtain ⟨document, hdocument⟩ : ∃ document,
      (postOrderChangeReply rt content existingOrder).metadata = [document] := ⟨_, rfl⟩
  rw [hdocument] at horder ⊢
  rw [hasMetadataType, List.any_cons, List.any_nil, Bool.or_false] at horder
  rw [List.findSome?_singleton, shownNote_of_hasType horder (by decide)]

/-- The order branch answers with a change of the order, or with a question. -/
theorem handleChatOrder_reply {t : OrderTurn} {r : Reply} (h : handleChatOrder rt t = .reply r) :
    (∃ existingOrder, hasType chatOrderMetadataType existingOrder = true ∧
      r = postOrderChangeReply rt t.content existingOrder) ∨ AsksFurther r := by
  unfold handleChatOrder at h
  cases hchange : asksPostOrderChange rt t with
  | some existingOrder =>
    rw [hchange] at h
    have hfound := List.find?_some (Option.filter_eq_some_iff.mp hchange).1
    exact Or.inl ⟨existingOrder, (Bool.and_eq_true_iff.mp hfound).1, (OrderOutcome.reply.inj h).symm⟩
  | none =>
    rw [hchange] at h
    cases hprepare : prepareOrder rt t with
    | error asked =>
      rw [hprepare] at h
      obtain rfl := OrderOutcome.reply.inj h
      exact Or.inr (prepareOrder_error hprepare)
    | ok o =>
      rw [hprepare] at h
      dsimp only [ReadyOrder.decide] at h
      split_ifs at h
      split at h <;> cases h

/-- The note that a turn records: a request of the customer, or when a created order should be
delivered. -/
def notedBy (rt : Runtime) (turn : ChatTurn) (service : OrderService) : Option FollowupNote :=
  match selectBranch rt turn with
  | .followup note => some note
  | .order =>
    match handleChatOrder rt turn.orderTurn with
    | .createOrder order checkout key =>
      (service checkout key).bind fun _ =>
        orderDeliveryFollowupNote rt.db order.slots.deliveryNotes
    | _ => none
  | _ => none

theorem exists_shown_followup {note : FollowupNote} (h : selectBranch rt turn = .followup note) :
    ∃ shown, shownNote note.toJson = some shown ∧ ShownAs note shown := by
  have hnote : followupNote rt turn = some note := by
    cases hfound : followupNote rt turn with
    | some found =>
      simp only [selectBranch, hfound] at h
      split_ifs at h
      rw [Branch.followup.inj h]
    | none =>
      simp only [selectBranch, hfound] at h
      split_ifs at h <;> split at h <;> cases h
  dsimp only [followupNote] at hnote
  split_ifs at hnote
  exact exists_shown_detectFollowupRequest hnote

theorem shown_orderCreatedReply (order : ReadyOrder) (orderId : Uuid) (orderNumber : Text) :
    Option.Rel ShownAs (orderDeliveryFollowupNote rt.db order.slots.deliveryNotes)
      ((orderCreatedReply rt order orderId orderNumber turn.now).metadata.findSome? shownNote) := by
  have hrecord (fields : List (Text × Json)) :
      shownNote (.obj (("type", .str chatOrderMetadataType) :: fields)) = none := by
    have horder : hasType chatOrderMetadataType
        (.obj (("type", .str chatOrderMetadataType) :: fields)) = true := by
      simp only [hasType, Json.get]
      exact decide_eq_true List.lookup_cons_self
    exact shownNote_of_hasType horder (by decide)
  obtain ⟨fields, hmetadata⟩ : ∃ fields : List (Text × Json),
      (orderCreatedReply rt order orderId orderNumber turn.now).metadata =
        .obj (("type", .str chatOrderMetadataType) :: fields) ::
          (orderDeliveryFollowupNote rt.db order.slots.deliveryNotes).toList.map FollowupNote.toJson :=
    ⟨_, rfl⟩
  rw [hmetadata, List.findSome?_cons, hrecord]
  dsimp only
  cases hnote : orderDeliveryFollowupNote rt.db order.slots.deliveryNotes with
  | none => exact .none
  | some note =>
    obtain ⟨shown, hshown, has⟩ := exists_shown_orderDeliveryFollowupNote hnote
    rw [Option.toList_some, List.map_singleton, List.findSome?_singleton, hshown]
    exact .some has

/-- The order branch shows the note that it records. -/
theorem shown_orderAnswer {r : Reply} (h : (orderAnswer rt turn service).reply = some r) :
    Option.Rel ShownAs
      (match handleChatOrder rt turn.orderTurn with
      | .createOrder order checkout key => (service checkout key).bind fun _ =>
          orderDeliveryFollowupNote rt.db order.slots.deliveryNotes
      | _ => none)
      (r.metadata.findSome? shownNote) := by
  change (handleChatOrder rt turn.orderTurn).toReply rt turn service = some r at h
  cases houtcome : handleChatOrder rt turn.orderTurn with
  | reply reply =>
    rw [houtcome] at h
    obtain rfl : reply = r := Option.some.inj h
    rcases handleChatOrder_reply houtcome with ⟨existingOrder, horder, rfl⟩ | hasks
    · rw [findSome_postOrderChangeReply horder]
      exact .none
    · obtain ⟨content, status, slots, extra, cards, -⟩ := hasks
      rw [findSome_orderStateMessage]
      exact .none
  | showSummary o =>
    rw [houtcome] at h
    obtain rfl := Option.some.inj h
    rw [summaryReply, findSome_orderStateMessage]
    exact .none
  | createOrder o checkout key =>
    rw [houtcome] at h
    obtain ⟨created, hcreated, rfl⟩ := Option.map_eq_some_iff.mp h
    dsimp only
    rw [hcreated, Option.bind_some]
    exact shown_orderCreatedReply o created.1 created.2
  | invalidCheckout =>
    rw [houtcome] at h
    cases h

/-- The reply of a turn shows the note that the turn records, and no other. -/
theorem shown_storedReply {streamed : Bool} {r : Reply}
    (h : storedReply rt turn service streamed = some r) :
    Option.Rel ShownAs (notedBy rt turn service) (r.metadata.findSome? shownNote) := by
  unfold storedReply sendMessage streamMessage planResponse at h
  unfold notedBy
  cases hbranch : selectBranch rt turn with
  | safety =>
    rw [hbranch] at h
    dsimp only [Option.getD_some] at h
    rw [ite_self] at h
    obtain rfl := Option.some.inj h
    rw [findSome_sources]
    exact .none
  | followup note =>
    rw [hbranch] at h
    dsimp only [Option.getD_some] at h
    rw [ite_self] at h
    obtain rfl := Option.some.inj h
    obtain ⟨shown, hshown, has⟩ := exists_shown_followup hbranch
    rw [List.findSome?_singleton, hshown]
    exact .some has
  | order =>
    rw [hbranch] at h
    dsimp only [Option.getD_some] at h
    rw [ite_self] at h
    exact shown_orderAnswer h
  | rag =>
    rw [hbranch] at h
    dsimp only [Option.getD_none] at h
    split_ifs at h
    · dsimp only [streamRagAnswer] at h
      split_ifs at h
      obtain rfl := Option.some.inj h
      rw [findSome_sources]
      exact .none
    · obtain rfl := Option.some.inj h
      rw [findSome_sources]
      exact .none
  | handoff | clarification | inquiry message =>
    rw [hbranch] at h
    dsimp only [Option.getD_some] at h
    rw [ite_self] at h
    obtain rfl := Option.some.inj h
    exact .none

end

/-! The conversation. -/

/-- The stored messages, and the note that was recorded last. -/
structure NotedConversation where
  messages : List Message := []
  noted : Option FollowupNote := none

/-- What one event makes of the conversation; time does not run backwards, and no other party
writes a note. -/
def takeNotes (rt : Runtime) (id : Uuid) (c : NotedConversation) :
    ConversationEvent → Option NotedConversation
  | .turn turn service streamed =>
    if ∀ m ∈ c.messages, m.createdAt ≤ turn.now then
      let turn := { turn with conversationId := id, messages := c.messages }
      match storedReply rt turn service streamed with
      | none => some { c with messages := c.messages ++ [turn.userMessage] }
      | some r => some
        { messages := c.messages ++ [turn.userMessage, r.toMessage turn.now]
          noted := (notedBy rt turn service).or c.noted }
    else none
  | .message m =>
    if (∀ m' ∈ c.messages, m'.createdAt ≤ m.createdAt) ∧ firstShownNote [m] = none then
      some { c with messages := c.messages ++ [m] }
    else none

/-- The messages are in order, and their newest note is the one that was recorded last. -/
structure NotesShown (c : NotedConversation) : Prop where
  sorted : c.messages.Pairwise fun m m' => m.createdAt ≤ m'.createdAt
  shown : Option.Rel ShownAs c.noted (firstShownNote c.messages.reverse)

theorem rel_or {α β : Type*} {r : α → β → Prop} {a a' : Option α} {b b' : Option β}
    (h : Option.Rel r a b) (h' : Option.Rel r a' b') : Option.Rel r (a.or a') (b.or b') := by
  cases h with
  | some h => exact .some h
  | none => exact h'

theorem firstShownNote_append (messages later : List Message) :
    firstShownNote (messages ++ later).reverse =
      (firstShownNote later.reverse).or (firstShownNote messages.reverse) := by
  rw [firstShownNote, List.reverse_append, List.flatMap_append, List.findSome?_append]
  rfl

/-- The newest note of a turn is the one in its reply. -/
theorem firstShownNote_reply {question : Message} (h : question.retrievedDocuments = none) (r : Reply)
    (now : Timestamp) : firstShownNote [question, r.toMessage now].reverse =
      r.metadata.findSome? shownNote := by
  simp [firstShownNote, Reply.toMessage, Message.documents, h]

theorem pairwise_append {messages later : List Message} {now : Timestamp}
    (h : messages.Pairwise fun m m' => m.createdAt ≤ m'.createdAt)
    (hnow : ∀ m ∈ messages, m.createdAt ≤ now) (hlater : ∀ m ∈ later, m.createdAt = now) :
    (messages ++ later).Pairwise fun m m' => m.createdAt ≤ m'.createdAt := by
  refine List.pairwise_append.mpr ⟨h, ?_, fun m hm m' hm' => ?_⟩
  · refine List.pairwise_of_forall_mem_list fun m hm m' hm' => ?_
    rw [hlater m hm, hlater m' hm']
  · rw [hlater m' hm']
    exact hnow m hm

theorem notesShown_takeNotes {rt : Runtime} {id : Uuid} {c c' : NotedConversation}
    {event : ConversationEvent} (h : NotesShown c) (hnext : takeNotes rt id c event = some c') :
    NotesShown c' := by
  cases event with
  | message m =>
    dsimp only [takeNotes] at hnext
    split_ifs at hnext with hm
    obtain rfl := Option.some.inj hnext
    refine ⟨pairwise_append h.sorted hm.1 fun m' hm' => ?_, ?_⟩
    · rw [List.mem_singleton.mp hm']
    · dsimp only
      rw [firstShownNote_append, List.reverse_singleton, hm.2, Option.none_or]
      exact h.shown
  | turn turn service streamed =>
    dsimp only [takeNotes] at hnext
    split_ifs at hnext with hnow
    split at hnext
    · obtain rfl := Option.some.inj hnext
      refine ⟨pairwise_append h.sorted hnow fun m' hm' => ?_, ?_⟩
      · rw [List.mem_singleton.mp hm']
        rfl
      · dsimp only
        rw [firstShownNote_append]
        exact h.shown
    · rename_i r hr
      obtain rfl := Option.some.inj hnext
      refine ⟨pairwise_append h.sorted hnow fun m' hm' => ?_, ?_⟩
      · rcases List.mem_pair.mp hm' with rfl | rfl
        · rfl
        · rfl
      · dsimp only
        rw [firstShownNote_append, firstShownNote_reply rfl]
        exact rel_or (shown_storedReply hr) h.shown

/-- In every conversation, the staff pages show the note that was recorded last: its type, its
reminder and whether the customer declined a call; and none as long as none was recorded. -/
theorem staff_sees_last_note (rt : Runtime) (id : Uuid) {events : List ConversationEvent}
    {c : NotedConversation} (h : exec (takeNotes rt id) {} events = some c) :
    Option.Rel ShownAs c.noted (conversationFollowupNote c.messages) := by
  have hshown : NotesShown c :=
    invariant_exec (fun _ _ _ => notesShown_takeNotes) ⟨List.Pairwise.nil, .none⟩ h
  rw [conversationFollowupNote, sortedMessages, List.mergeSort_of_pairwise]
  · exact hshown.shown
  · exact hshown.sorted.imp fun hle => decide_eq_true hle

/-- A guest asks to be called back, and then for a delivery without a call. -/
def callbackEvents : List ConversationEvent :=
  (["Gọi lại cho mình 7-8h sáng mai", "Khỏi gọi nhé, giao 9h sáng mai"] : List Text).map
    fun content => .turn (guestTurn .generalInfo content) (fun _ _ => none) false

theorem staff_sees_last_note_callback : ∃ c,
    exec (takeNotes plainRuntime 7) {} callbackEvents = some c ∧
      Option.Rel ShownAs c.noted (conversationFollowupNote c.messages) := by
  have hrun : (exec (takeNotes plainRuntime 7) {} callbackEvents).isSome = true := by
    decide +kernel
  obtain ⟨c, hc⟩ := Option.isSome_iff_exists.mp hrun
  exact ⟨c, hc, staff_sees_last_note plainRuntime 7 hc⟩

end Qiki.Chat
