import Qiki.Chat.Cart

/-! Stored messages, and the order state that is read back from them. -/
namespace Qiki.Chat

open Unicode Orders

inductive Role
  | user | assistant | staff
  deriving DecidableEq, Repr

/-- A row of `messages`. -/
structure Message where
  role : Role
  content : Text
  retrievedDocuments : Option Json := none
  createdAt : Timestamp
  deriving DecidableEq

def chatOrderMetadataType : Text := "chat_order"

def chatOrderStateMetadataType : Text := "chat_order_state"

def chatFollowupNoteMetadataType : Text := "chat_followup_note"

def orderStateTtl : ℕ := 30 * 60

/-- `message.retrieved_documents or []`, if it is a list. -/
def Message.documents (message : Message) : Option (List Json) :=
  match message.retrievedDocuments with
  | none => some []
  | some (.arr documents) => some documents
  | some value => if value.truthy then none else some []

/-- The document is an object of this type. -/
def hasType (metadataType : Text) (document : Json) : Bool :=
  document.get "type" = some (.str metadataType)

def hasMetadataType (documents : List Json) (metadataType : Text) : Bool :=
  documents.any (hasType metadataType)

def findExistingChatOrder (history : List Message) : Option Json :=
  (history.reverse.flatMap fun message => message.documents.getD []).find? fun document =>
    hasType chatOrderMetadataType document && (document.getOrNull "order_number").truthy

def isOrderStateFresh (now : Timestamp) (message : Message) : Bool :=
  now - message.createdAt ≤ orderStateTtl

def isOrderInProgress (now : Timestamp) (history : List Message) : Bool :=
  match history.reverse.find? fun message => message.role = .assistant with
  | none => false
  | some message =>
    match message.documents with
    | none => false
    | some documents =>
      if hasMetadataType documents chatOrderMetadataType then false
      else if hasMetadataType documents chatOrderStateMetadataType then
        isOrderStateFresh now message
      else false

/-- The loop of `_find_order_state` over the messages, newest first. -/
def orderStateFrom (db : Database) (now : Timestamp) (content : Text) : List Message → Option Json
  | [] => none
  | message :: older =>
    if message.role ≠ .assistant then orderStateFrom db now content older
    else match message.documents with
      | none => orderStateFrom db now content older
      | some documents =>
        if hasMetadataType documents chatOrderMetadataType then
          -- only a bare confirmation reaches back behind an order that was created
          if isAffirmation db content then orderStateFrom db now content older else none
        else match documents.find? (hasType chatOrderStateMetadataType) with
          | none => orderStateFrom db now content older
          | some document =>
            if !isOrderStateFresh now message then none
            else if document.get "status" = some (.str "order_cancelled") then none
            else some document

def findOrderState (db : Database) (now : Timestamp) (history : List Message) (content : Text) :
    Option Json :=
  orderStateFrom db now content history.reverse

def orderStateMetadata (status : Text) (slots : Option ChatOrderSlots)
    (metadataExtra : List (Text × Json)) : Json :=
  let slotPayload := slotsToMetadata slots
  let stored := if slotPayload.isEmpty then metadataExtra
    else ("slots", .obj slotPayload) :: metadataExtra
  .obj (("type", .str chatOrderStateMetadataType) :: ("status", .str status) :: stored)

section
variable (rt : Runtime)

/-- `str(order_state.get("status", ""))` -/
def orderStateStatus (orderState : Option Json) : Text :=
  match orderState.bind fun state => state.get "status" with
  | some status => rt.strOf status
  | none => []

def slotsFromOrderState (orderState : Option Json) : Option ChatOrderSlots :=
  orderState.bind fun state => slotsFromMetadata rt (state.getOrNull "slots")

def pendingItemFromState (orderState : Option Json) : Option ChatOrderItem :=
  orderState.bind fun state => (itemsFromMetadata rt (state.getOrNull "pending_item")).head?

def previousItemsFromState (orderState : Option Json) (fallbackSlots : Option ChatOrderSlots) :
    List ChatOrderItem :=
  let fallback := (fallbackSlots.map (·.items)).getD []
  match orderState with
  | none => fallback
  | some state =>
    let previousItems := itemsFromMetadata rt (state.getOrNull "previous_items")
    let previousProduct := optionalStr rt (state.getOrNull "previous_product")
    if !previousItems.isEmpty then previousItems
    else if present previousProduct then
      [⟨previousProduct, (firstOrderItem fallbackSlots).bind (·.quantity)⟩]
    else fallback

/-! Contact data known before the turn. -/

def hasReusableContactSlots (slots : ChatOrderSlots) : Bool :=
  present slots.customerName || present slots.customerPhone || present slots.deliveryAddress

def findReusableContactSlots (history : List Message) : Option ChatOrderSlots :=
  ((history.reverse.flatMap fun message => message.documents.getD []).findSome? fun document =>
    (slotsFromMetadata rt (document.getOrNull "slots")).filter hasReusableContactSlots).map
      fun slots => {
        customerName := slots.customerName
        customerPhone := slots.customerPhone
        deliveryAddress := slots.deliveryAddress }

def accountDefaultContactSlots (user : Option User) : Option ChatOrderSlots :=
  user.map fun u => {
    customerName := u.fullName.map String.toList
    customerPhone := u.phone.map String.toList
    deliveryAddress := u.address.map String.toList
    deliveryNotes := u.deliveryNotes.map String.toList }

end

/-- Every item is a catalog product with a quantity. -/
def allMatched (matched : List (ChatOrderItem × Option Product)) : Bool :=
  !matched.isEmpty && matched.all fun m => m.2.isSome && m.1.quantity.isSome

def shouldConfirmAccountContact (orderState : Option Json) (slots : ChatOrderSlots)
    (matched : List (ChatOrderItem × Option Product)) (accountSlots : Option ChatOrderSlots) : Bool :=
  orderState.isNone && allMatched matched && accountSlots.any hasReusableContactSlots &&
    !present slots.customerName && !present slots.customerPhone

def shouldConfirmReusableContact (orderState : Option Json) (slots : ChatOrderSlots)
    (matched : List (ChatOrderItem × Option Product)) (reusable : Option ChatOrderSlots) : Bool :=
  orderState.isNone && allMatched matched && reusable.any hasReusableContactSlots &&
    !hasReusableContactSlots slots

end Qiki.Chat
