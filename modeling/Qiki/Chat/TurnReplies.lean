import Qiki.Chat.Prepared

/-! What the replies of a turn store: only an order that is ready leaves a summary. -/
namespace Qiki.Chat

open Unicode Orders AddressLookup

/-- A reply that stores an order state other than a summary. -/
inductive AsksFurther : Reply → Prop
  | intro (content status : Text) (slots : Option ChatOrderSlots) (extra : List (Text × Json))
      (cards : List Product) (h : status ≠ "awaiting_confirmation") :
      AsksFurther (orderStateMessage content status slots extra cards)

theorem AsksFurther.of_error {α : Type} {content status : Text} {slots : Option ChatOrderSlots}
    {extra : List (Text × Json)} {cards : List Product} {r : Reply}
    (hs : status ≠ "awaiting_confirmation")
    (h : (.error (orderStateMessage content status slots extra cards) : Except Reply α) =
      .error r) : AsksFurther r := by
  obtain rfl := Except.error.inj h
  exact .intro content status slots extra cards hs

theorem AsksFurther.of_askAgain {α : Type} {content status : Text} {slots : ChatOrderSlots}
    {r : Reply} (hs : status ≠ "awaiting_confirmation")
    (h : (askAgain content status slots : Except Reply α) = .error r) : AsksFurther r :=
  .of_error hs h

/-- The states in which the items of an order are its cart and nothing is shown to be confirmed. -/
def isCollecting (status : Text) : Bool :=
  !([ "awaiting_confirmation", "awaiting_product_change_confirmation",
    "order_cancelled"] : List Text).contains status

/-- A reply that asks for something else and stores an order with these items. -/
inductive AsksAbout (items : List ChatOrderItem) : Reply → Prop
  | intro (content status : Text) (slots : ChatOrderSlots) (extra : List (Text × Json))
      (cards : List Product) (hstatus : isCollecting status = true)
      (hextra : extra.lookup ("slots" : Text) = none) (hitems : slots.items = items) :
      AsksAbout items (orderStateMessage content status (some slots) extra cards)

theorem AsksAbout.asksFurther {items : List ChatOrderItem} {r : Reply} (h : AsksAbout items r) :
    AsksFurther r := by
  obtain ⟨content, status, slots, extra, cards, hstatus, -, -⟩ := h
  refine .intro content status (some slots) extra cards ?_
  rintro rfl
  exact absurd hstatus (by decide)

theorem AsksAbout.of_error {α : Type} {content status : Text} {slots : ChatOrderSlots}
    {extra : List (Text × Json)} {cards : List Product} {r : Reply}
    (hs : isCollecting status = true) (he : extra.lookup ("slots" : Text) = none)
    (h : (.error (orderStateMessage content status (some slots) extra cards) : Except Reply α) =
      .error r) : AsksAbout slots.items r := by
  obtain rfl := Except.error.inj h
  exact .intro content status slots extra cards hs he rfl

theorem AsksAbout.of_askAgain {α : Type} {content status : Text} {slots : ChatOrderSlots}
    {r : Reply} (hs : isCollecting status = true)
    (h : (askAgain content status slots : Except Reply α) = .error r) : AsksAbout slots.items r :=
  .of_error hs rfl h

theorem lookup_pendingItemField (items : List ChatOrderItem) :
    (pendingItemField items).lookup ("slots" : Text) = none := by
  unfold pendingItemField
  rw [List.lookup_cons, beq_false_of_ne (by decide)]
  rfl

/-! The items of merged slots. -/

section
variable {db : Database} {slots : ChatOrderSlots} {other : Option ChatOrderSlots}

theorem items_mergeOrderSlots_left (h : ∀ s ∈ other, s.items = []) :
    (mergeOrderSlots db (some slots) other).items = slots.items := by
  cases other with
  | none => cases hitems : slots.items <;> simp [mergeOrderSlots, mergeSource, mergeOrderItems, hitems]
  | some s =>
    have hs : s.items = [] := h s rfl
    cases hitems : slots.items <;>
      simp [mergeOrderSlots, mergeSource, mergeOrderItems, hitems, hs]

theorem items_mergeOrderSlots_right (h : ∀ s ∈ other, s.items = []) :
    (mergeOrderSlots db other (some slots)).items = slots.items := by
  cases other with
  | none => cases hitems : slots.items <;> simp [mergeOrderSlots, mergeSource, mergeOrderItems, hitems]
  | some s =>
    have hs : s.items = [] := h s rfl
    cases hitems : slots.items <;>
      simp [mergeOrderSlots, mergeSource, mergeOrderItems, hitems, hs]

end

theorem items_reusableContact {rt : Runtime} {history : List Message} :
    ∀ s ∈ findReusableContactSlots rt history, s.items = [] := by
  intro s hs
  unfold findReusableContactSlots at hs
  obtain ⟨found, -, rfl⟩ := Option.map_eq_some_iff.mp hs
  rfl

theorem items_accountContact {user : Option User} :
    ∀ s ∈ accountDefaultContactSlots user, s.items = [] := by
  intro s hs
  unfold accountDefaultContactSlots at hs
  obtain ⟨u, -, rfl⟩ := Option.map_eq_some_iff.mp hs
  rfl

section
variable {rt : Runtime} {turn : OrderTurn} {r : TurnReading} {reply : Reply}

theorem interrupt_error (h : interrupt rt turn r = .error reply) : AsksFurther reply := by
  unfold interrupt at h
  split_ifs at h
  · exact .of_error (by decide) h
  · split at h
    · exact .of_askAgain (by decide) h
    · cases h

theorem resolveProductChoice_error (h : resolveProductChoice rt turn r = .error reply) :
    AsksFurther reply := by
  simp only [resolveProductChoice] at h
  split at h
  · cases h
  · split_ifs at h
    all_goals
      split at h
      · cases h
      · cases h
      · exact .of_error (by decide) h

theorem askProductChange_error {previous : ChatOrderSlots} {candidate : ChatOrderItem}
    {products : List Product} (h : askProductChange rt previous candidate products = .error reply) :
    AsksFurther reply :=
  .of_error (by decide) h

theorem askAddOrReplace_error {slots : ChatOrderSlots} {candidate : ChatOrderItem}
    (h : askAddOrReplace slots candidate = .error reply) : AsksFurther reply :=
  .of_error (by decide) h

theorem confirmProductChange_error (h : confirmProductChange rt turn r = .error reply) :
    AsksFurther reply := by
  simp only [confirmProductChange] at h
  split_ifs at h
  split at h
  · exact askProductChange_error h
  · exact .of_error (by decide) h

theorem addOrReplace_error (h : addOrReplace rt turn r = .error reply) : AsksFurther reply := by
  simp only [addOrReplace] at h
  split_ifs at h
  all_goals
    split at h
    · exact askAddOrReplace_error h
    · exact .of_error (by decide) h

theorem applyItems_error {slots : ChatOrderSlots} (h : applyItems rt turn r slots = .error reply) :
    AsksFurther reply := by
  unfold applyItems at h
  split at h
  · cases h
  · split at h
    · cases h
    · cases h
    · cases h
    · split_ifs at h
      exact askProductChange_error h
    · cases h
    · cases h
    · exact askAddOrReplace_error h

theorem mergeTurn_error (h : mergeTurn rt turn r = .error reply) : AsksFurther reply := by
  simp only [mergeTurn] at h
  -- the state of a product choice, or not, in each of the three ways to go on
  split_ifs at h
  all_goals
    rcases Except.bind_eq_error h with h | ⟨choice, -, h⟩
    · first | with_reducible exact resolveProductChoice_error h | cases h
    · cases choice with
      | some resolved => cases h
      | none =>
        rcases Except.bind_eq_error h with h | ⟨slots, -, h⟩
        · first
            | with_reducible exact confirmProductChange_error h
            | with_reducible exact addOrReplace_error h
            | with_reducible exact applyItems_error h
        · cases h

theorem checkItems_error {slots : ChatOrderSlots} (h : checkItems rt turn slots = .error reply) :
    AsksAbout slots.items reply := by
  simp only [checkItems] at h
  split at h
  · split at h <;> exact .of_error (by decide) (lookup_pendingItemField _) h
  · split_ifs at h
    exact .of_askAgain (by decide) h

theorem checkContact_error {slots : ChatOrderSlots} {matched : List (ChatOrderItem × Option Product)}
    (h : checkContact rt turn r slots matched = .error reply) : AsksAbout slots.items reply := by
  have hreusable : (mergeOrderSlots rt.db (some slots)
      (findReusableContactSlots rt turn.conversationHistory)).items = slots.items :=
    items_mergeOrderSlots_left items_reusableContact
  have haccount : (mergeOrderSlots rt.db (accountDefaultContactSlots turn.user)
      (some slots)).items = slots.items := items_mergeOrderSlots_right items_accountContact
  simp only [checkContact] at h
  split_ifs at h
  · rw [← hreusable]
    exact .of_askAgain (by decide) h
  · rw [← haccount]
    exact .of_askAgain (by decide) h

theorem checkComplete_error {slots : ChatOrderSlots} {matched : List (ChatOrderItem × Option Product)}
    (h : checkComplete rt turn r slots matched = .error reply) : AsksAbout slots.items reply := by
  have hmissing (missing : List Text)
      (h : checkComplete.askMissing rt turn r slots missing = .error reply) :
      AsksAbout slots.items reply := .of_askAgain (by decide) h
  simp only [checkComplete] at h
  split at h
  · split_ifs at h
    · exact .of_askAgain (by decide) h
    · exact hmissing _ h
  · split_ifs at h
    exact hmissing _ h

theorem checkDelivery_error {slots : ChatOrderSlots}
    (h : checkDelivery rt turn slots = .error reply) : AsksAbout slots.items reply := by
  simp only [checkDelivery] at h
  split at h
  · exact .of_askAgain (by decide) h
  · split at h
    · exact .of_askAgain (by decide) h
    · exact .of_askAgain (by decide) h
    · cases h

theorem checkStock_error {slots : ChatOrderSlots} {items : List (ChatOrderItem × Product)}
    (h : checkStock slots items = .error reply) : AsksAbout slots.items reply := by
  unfold checkStock at h
  split at h
  · exact .of_askAgain (by decide) h
  · cases h

/-- Whatever a check asks for, the items stay. -/
theorem checkOrder_error {slots : ChatOrderSlots} (h : checkOrder rt turn r slots = .error reply) :
    AsksAbout slots.items reply := by
  simp only [checkOrder] at h
  rcases Except.bind_eq_error h with h | ⟨matched, -, h⟩
  · exact checkItems_error h
  rcases Except.bind_eq_error h with h | ⟨full, hfull, h⟩
  · exact checkContact_error h
  have hitems : full.items = slots.items := by
    rw [checkContact_eq_ok hfull]
    exact items_mergeOrderSlots_right items_accountContact
  rw [← hitems]
  rcases Except.bind_eq_error h with h | ⟨phone, -, h⟩
  · exact checkComplete_error h
  rcases Except.bind_eq_error h with h | ⟨zone, -, h⟩
  · exact checkDelivery_error h
  rcases Except.bind_eq_error h with h | ⟨_, -, h⟩
  · exact checkStock_error h
  split at h
  · exact .of_askAgain (by decide) h
  · cases h

theorem prepareOrder_error (h : prepareOrder rt turn = .error reply) : AsksFurther reply := by
  simp only [prepareOrder] at h
  rcases Except.bind_eq_error h with h | ⟨_, -, h⟩
  · exact interrupt_error h
  rcases Except.bind_eq_error h with h | ⟨merged, -, h⟩
  · exact mergeTurn_error h
  · exact (checkOrder_error h).asksFurther

end

/-! The state that a turn finds. -/

/-- The newest order state among messages given newest first; messages about a created order are
passed over. -/
def latestState : List Message → Option Json
  | [] => none
  | message :: older =>
    let documents := (message.documents).getD []
    if message.role = .assistant && !hasMetadataType documents chatOrderMetadataType then
      (documents.find? (hasType chatOrderStateMetadataType)).or (latestState older)
    else latestState older

theorem latestState_append (newer older : List Message) :
    latestState (newer ++ older) = (latestState newer).or (latestState older) := by
  induction newer with
  | nil => rfl
  | cons m newer ih =>
    simp only [List.cons_append, latestState, ih]
    split_ifs
    · rw [Option.or_assoc]
    · rfl

/-- A turn finds the newest state or none. -/
theorem orderStateFrom_eq {db : Database} {now : Timestamp} {content : Text} {state : Json} :
    ∀ {messages : List Message}, orderStateFrom db now content messages = some state →
      latestState messages = some state := by
  intro messages
  induction messages with
  | nil => intro h; cases h
  | cons m older ih =>
    intro h
    simp only [orderStateFrom] at h
    by_cases hrole : m.role = .assistant
    · simp only [hrole, ne_eq, not_true_eq_false, if_false] at h
      cases hdocs : m.documents with
      | none =>
        simp only [hdocs] at h
        simp [latestState, hdocs, hasMetadataType, ih h]
      | some documents =>
        simp only [hdocs] at h
        cases horder : hasMetadataType documents chatOrderMetadataType with
        | true =>
          simp only [horder, if_true] at h
          split_ifs at h
          simp [latestState, hdocs, horder, ih h]
        | false =>
          simp only [horder, Bool.false_eq_true, if_false] at h
          cases hfind : documents.find? (hasType chatOrderStateMetadataType) with
          | none =>
            simp only [hfind] at h
            simp [latestState, hdocs, horder, hfind, hrole, ih h]
          | some document =>
            simp only [hfind] at h
            split_ifs at h
            obtain rfl := Option.some.inj h
            simp [latestState, hdocs, horder, hfind, hrole]
    · simp only [hrole, ne_eq, not_false_eq_true, if_true] at h
      simp [latestState, hrole, ih h]

theorem latestState_getRecent {messages : List Message} {state : Json}
    (h : latestState (getRecent messages).reverse = some state) :
    latestState messages.reverse = some state := by
  have hsplit := List.take_append_drop (messages.length - 10) messages
  rw [← hsplit, List.reverse_append, latestState_append]
  simp only [getRecent] at h
  rw [h, Option.some_or]

/-! The documents of a reply. -/

/-- The row of an assistant message. -/
def Reply.toMessage (r : Reply) (now : Timestamp) : Message where
  role := .assistant
  content := r.content
  retrievedDocuments := some (.arr r.metadata)
  createdAt := now

section
variable {status : Text} {slots : Option ChatOrderSlots} {extra : List (Text × Json)}

theorem orderStateMetadata_type :
    (orderStateMetadata status slots extra).get "type" = some (.str chatOrderStateMetadataType) := by
  simp only [orderStateMetadata, Json.get]
  exact List.lookup_cons_self

theorem orderStateMetadata_status :
    (orderStateMetadata status slots extra).get "status" = some (.str status) := by
  simp only [orderStateMetadata, Json.get]
  rw [List.lookup_cons, beq_false_of_ne (by decide)]
  exact List.lookup_cons_self

theorem hasType_orderStateMetadata {metadataType : Text} :
    hasType metadataType (orderStateMetadata status slots extra) =
      decide (chatOrderStateMetadataType = metadataType) := by
  simp only [hasType, orderStateMetadata_type, Option.some.injEq, Json.str.injEq]

theorem orderStateStatus_orderStateMetadata (rt : Runtime) :
    orderStateStatus rt (some (orderStateMetadata status slots extra)) = status := by
  simp only [orderStateStatus, Option.bind_some, orderStateMetadata_status, Runtime.strOf]

/-- A reply with an order state leaves it as the newest one. -/
theorem latestState_orderStateMessage (content : Text) (cards : List Product) (now : Timestamp)
    (older : List Message) :
    latestState ((orderStateMessage content status slots extra cards).toMessage now :: older) =
      some (orderStateMetadata status slots extra) := by
  have horder : hasType chatOrderMetadataType (orderStateMetadata status slots extra) = false := by
    rw [hasType_orderStateMetadata]
    decide
  have hstate : hasType chatOrderStateMetadataType (orderStateMetadata status slots extra) = true := by
    rw [hasType_orderStateMetadata]
    decide
  simp [latestState, Reply.toMessage, Message.documents, orderStateMessage, hasMetadataType, horder,
    hstate]

end

/-- The reply stores no order state, or stands for an order that was created. -/
def KeepsState (r : Reply) : Prop :=
  hasMetadataType r.metadata chatOrderMetadataType = true ∨
    r.metadata.find? (hasType chatOrderStateMetadataType) = none

theorem latestState_of_keepsState {r : Reply} (h : KeepsState r) (now : Timestamp)
    (older : List Message) : latestState (r.toMessage now :: older) = latestState older := by
  rcases h with h | h
  · simp [latestState, Reply.toMessage, Message.documents, h]
  · simp [latestState, Reply.toMessage, Message.documents, h]

theorem latestState_of_role {message : Message} (h : message.role ≠ .assistant)
    (older : List Message) : latestState (message :: older) = latestState older := by
  simp [latestState, h]

section
variable (rt : Runtime)

theorem keepsState_of_untyped {r : Reply} (h : ∀ d ∈ r.metadata,
    hasType chatOrderStateMetadataType d = false) : KeepsState r :=
  Or.inr (List.find?_eq_none.mpr fun d hd => by rw [h d hd]; exact Bool.false_ne_true)

theorem hasType_sourceToJson (d : RetrievedDocument) (metadataType : Text) :
    hasType metadataType (d.toJson rt) = false := by
  have hlookup : (d.toJson rt).get "type" = none := by
    simp only [RetrievedDocument.toJson, Json.get]
    simp (disch := decide) only [List.lookup_cons, beq_false_of_ne, List.lookup_nil]
  simp only [hasType, hlookup, reduceCtorEq, decide_false]

theorem hasType_followupNote (note : FollowupNote) :
    hasType chatOrderStateMetadataType note.toJson = false := by
  have hlookup : note.toJson.get "type" = some (.str chatFollowupNoteMetadataType) := by
    simp only [FollowupNote.toJson, Json.get]
    exact List.lookup_cons_self
  simp only [hasType, hlookup, Option.some.injEq, Json.str.injEq]
  decide

theorem keepsState_sources {content : Text} {sources : List RetrievedDocument}
    {cards : List Product} :
    KeepsState ⟨content, sources.map (RetrievedDocument.toJson rt), cards⟩ := by
  refine keepsState_of_untyped fun d hd => ?_
  obtain ⟨source, -, rfl⟩ := List.mem_map.mp hd
  exact hasType_sourceToJson rt source _

theorem keepsState_orderCreatedReply (order : ReadyOrder) (orderId : Uuid) (orderNumber : Text)
    (now : Timestamp) : KeepsState (orderCreatedReply rt order orderId orderNumber now) := by
  refine Or.inl (List.any_eq_true.mpr ⟨_, List.mem_cons_self, ?_⟩)
  simp only [hasType, Json.get]
  exact decide_eq_true List.lookup_cons_self

theorem lookup_filter_key (fields : List (Text × Json)) (keep : Text → Bool) (key : Text)
    (h : keep key = true) :
    (fields.filter fun f => keep f.1).lookup key = fields.lookup key := by
  induction fields with
  | nil => rfl
  | cons f fields ih =>
    obtain ⟨fieldKey, value⟩ := f
    by_cases hkey : key = fieldKey
    · subst hkey
      simp only [List.filter_cons, h, if_true, List.lookup_cons, beq_self_eq_true]
    · cases hf : keep fieldKey with
      | true => simp only [List.filter_cons, hf, if_true, List.lookup_cons, beq_false_of_ne hkey, ih]
      | false =>
        simp only [List.filter_cons, hf, Bool.false_eq_true, if_false, List.lookup_cons,
          beq_false_of_ne hkey, ih]

/-- A change keeps the type of the order's record. -/
theorem hasOrder_postOrderChangeReply {content : Text} {existingOrder : Json}
    (h : hasType chatOrderMetadataType existingOrder = true) :
    hasMetadataType (postOrderChangeReply rt content existingOrder).metadata
      chatOrderMetadataType = true := by
  cases existingOrder with
  | obj fields =>
    obtain ⟨added, hmetadata, hadded⟩ : ∃ added : List (Text × Json),
        (postOrderChangeReply rt content (.obj fields)).metadata =
          [.obj (fields.filter (fun f => (added.lookup f.1).isNone) ++ added)] ∧
        (added.lookup ("type" : Text)).isNone = true := by
      refine ⟨_, rfl, ?_⟩
      cases extractPaymentCandidate rt.db content <;> simp (disch := decide) only
        [List.lookup_cons, beq_false_of_ne, List.lookup_nil, Option.isNone_none]
    have hkept : fields.lookup ("type" : Text) = some (.str chatOrderMetadataType) :=
      of_decide_eq_true h
    refine List.any_eq_true.mpr ⟨_, hmetadata ▸ List.mem_singleton_self _, decide_eq_true ?_⟩
    simp only [Json.get]
    rw [List.lookup_append, lookup_filter_key fields (fun key => (added.lookup key).isNone) _ hadded,
      hkept, Option.some_or]
  | _ => cases h

theorem keepsState_postOrderChangeReply {content : Text} {existingOrder : Json}
    (h : hasType chatOrderMetadataType existingOrder = true) :
    KeepsState (postOrderChangeReply rt content existingOrder) :=
  Or.inl (hasOrder_postOrderChangeReply rt h)

end

end Qiki.Chat
