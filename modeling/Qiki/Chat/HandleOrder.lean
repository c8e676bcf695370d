import Qiki.Chat.Replies

/-! `_handle_chat_order`: one customer message in the ordering flow. -/
namespace Qiki.Chat

open Unicode Orders AddressLookup

/-- What the turn is given: its arguments, the messages of the conversation from the first on,
the answer of the language model and the time. -/
structure OrderTurn where
  conversationId : Uuid
  content : Text
  /-- The latest ten messages. -/
  history : List Message
  /-- The first two hundred messages. -/
  conversationHistory : List Message
  user : Option User
  products : List Product
  language : Language
  response : Text
  now : Timestamp

/-- An assistant message with its metadata and the product cards beside it. -/
structure Reply where
  content : Text
  metadata : List Json := []
  cards : List Product := []
  deriving DecidableEq

def orderStateMessage (content status : Text) (slots : Option ChatOrderSlots)
    (extra : List (Text × Json)) (cards : List Product) : Reply :=
  ⟨content, [orderStateMetadata status slots extra], cards⟩

/-- A reply that keeps the slots of the order. -/
def askAgain {α : Type} (content status : Text) (slots : ChatOrderSlots) : Except Reply α :=
  .error (orderStateMessage content status (some slots) [] [])

/-- `{"pending_item": ...}` -/
def pendingItemField (items : List ChatOrderItem) : List (Text × Json) :=
  [("pending_item", .arr (itemsToMetadata items))]

/-- What is read from the stored state and from the message before the state is looked at. -/
structure TurnReading where
  orderState : Option Json
  status : Text
  previousSlots : Option ChatOrderSlots
  candidates : List ChatOrderItem
  contact : ChatOrderSlots
  normalized : Text

/-- `previous_slots or ChatOrderSlots()` -/
def TurnReading.base (r : TurnReading) : ChatOrderSlots := r.previousSlots.getD {}

section
variable (rt : Runtime)

def readTurn (turn : OrderTurn) : TurnReading :=
  let orderState := findOrderState rt.db turn.now turn.history turn.content
  let incoming := combineCurrentMessageSlots rt.db
    (inferOrderSlots rt.db turn.content turn.products) (extractOrderSlots rt turn.response)
    turn.content turn.products
  { orderState := orderState
    status := orderStateStatus rt orderState
    previousSlots := slotsFromOrderState rt orderState
    candidates := incoming.items
    contact := { incoming with items := [] }
    normalized := normalizeMatchText rt.db turn.content }

/-- The answers that end the turn whatever the state asks for. -/
def interrupt (turn : OrderTurn) (r : TurnReading) : Except Reply Unit :=
  if r.orderState.isSome && isOrderCancelRequest r.normalized then
    .error (orderStateMessage
      "Dạ Qiki đã huỷ đơn. Khi nào cần đặt lại bạn cứ nhắn Qiki nhé." "order_cancelled" none [] [])
  else match r.orderState, extractAmbiguousDeliveryTimeWindow rt.db turn.content with
    | some _, some window => askAgain ("Bạn muốn giao khoảng **" ++ window ++
        "** buổi sáng hay buổi tối ạ?") "awaiting_missing_slots" r.base
    | _, _ => .ok ()

/-- State `awaiting_product_choice`: the slots with the open item resolved, and whether that
also confirms the order. `none` when the message does not resolve it. -/
def resolveProductChoice (turn : OrderTurn) (r : TurnReading) :
    Except Reply (Option (ChatOrderSlots × Bool)) :=
  let pending := (pendingItemFromState rt r.orderState).or
    (r.base.items.find? (isIncompleteAddItem rt.db))
  match pending with
  | none => .ok none
  | some item =>
    let kept := dropIncompleteAddItems rt.db r.base
    if !isIncompleteAddItem rt.db item then .ok none
    else if isCancelAddRequest r.normalized then .ok (some (kept, false))
    else if isAffirmation rt.db turn.content then .ok (some (kept, true))
    else
      let picked := if queryMentionsProductBrand rt.db r.normalized turn.products then
        matchProduct rt.db (some turn.content) turn.products else none
      match picked, extractGasSizeChoice rt.db r.normalized with
      | some product, _ =>
        let resolved : ChatOrderItem :=
          ⟨some (formatProductDisplayName rt.db product), item.quantity⟩
        .ok (some (appendOrderItems rt.db kept [resolved] turn.products, false))
      | none, none => .ok none
      | none, some size =>
        let sizeProducts := gasProductsForSize turn.products size
        let content : Text :=
          if sizeProducts.isEmpty then
            (gasSizeInquiryMessage rt.db ("gas " ++ r.normalized) turn.products).getD
              "Dạ bạn chọn loại gas 6, 12 hoặc 45 kg giúp Qiki nhé."
          else "Dạ Qiki gửi các lựa chọn gas " ++ formatDecimal size ++ " kg bên dưới nhé."
        .error (orderStateMessage content "awaiting_product_choice" (some r.base)
          (pendingItemField [item]) sizeProducts)

/-- The question of a product change, with the items before it and the new one. -/
def askProductChange (previous : ChatOrderSlots) (candidate : ChatOrderItem)
    (products : List Product) : Except Reply ChatOrderSlots :=
  let pendingSlots := replaceFirstMatchingItem rt.db previous candidate products
  .error (orderStateMessage
    (formatProductChangeQuestion (formatOrderItemLabel (firstOrderItem (some previous)))
      pendingSlots)
    "awaiting_product_change_confirmation" (some pendingSlots)
    (("previous_items", .arr (itemsToMetadata previous.items)) :: pendingItemField [candidate]) [])

/-- The question whether a new item comes on top or instead. -/
def askAddOrReplace (slots : ChatOrderSlots) (candidate : ChatOrderItem) :
    Except Reply ChatOrderSlots :=
  .error (orderStateMessage (formatAddOrReplaceQuestion (firstOrderItem (some slots)) candidate)
    "awaiting_add_or_replace" (some slots) (pendingItemField [candidate]) [])

/-- State `awaiting_product_change_confirmation`. -/
def confirmProductChange (turn : OrderTurn) (r : TurnReading) : Except Reply ChatOrderSlots :=
  let previousItems := previousItemsFromState rt r.orderState r.previousSlots
  let original := withOrderItems r.base previousItems
  let pending := (pendingItemFromState rt r.orderState).or
    (pendingChangeItem rt.db previousItems r.base.items turn.products)
  let payment := extractPaymentCandidate rt.db turn.content
  let negated := isNegation rt.db turn.content
  let adds := hasAddCue r.normalized
  if payment.isSome then .ok { original with paymentMethod := payment }
  else if negated && adds && pending.isSome then
    .ok (appendOrderItem original (pending.getD {}))
  else if isAffirmation rt.db turn.content then .ok { r.base with confirmed := false }
  else if negated || isKeepPreviousProductRequest rt.db turn.content then .ok original
  else if adds && (!r.candidates.isEmpty || pending.isSome) then
    .ok (appendOrderItems rt.db original
      (if r.candidates.isEmpty then pending.toList else r.candidates) turn.products)
  else match r.candidates.head?.filter fun c => present c.product with
    | some candidate => askProductChange rt original candidate turn.products
    | none => .error (orderStateMessage formatPendingChangeClarification
        "awaiting_product_change_confirmation" (some r.base)
        (("previous_items", .arr (itemsToMetadata previousItems)) ::
          pendingItemField pending.toList) [])

/-- State `awaiting_add_or_replace`. -/
def addOrReplace (turn : OrderTurn) (r : TurnReading) : Except Reply ChatOrderSlots :=
  let pending := (pendingItemFromState rt r.orderState).or r.candidates.head?
  let payment := extractPaymentCandidate rt.db turn.content
  if payment.isSome then .ok { r.base with paymentMethod := payment, confirmed := false }
  else if pending.isSome && hasAddCue r.normalized then
    .ok (appendOrderItems rt.db r.base pending.toList turn.products)
  else if pending.isSome && (hasReplaceCue r.normalized || isAffirmation rt.db turn.content) then
    .ok (replaceFirstMatchingItem rt.db r.base (pending.getD {}) turn.products)
  else if isNegation rt.db turn.content then .ok { r.base with confirmed := false }
  else match r.candidates.head?.filter fun c => present c.product with
    | some candidate => askAddOrReplace r.base candidate
    | none => .error (orderStateMessage
        "Bạn nhắn **thêm** để đặt thêm, hoặc **đổi** để thay sản phẩm nhé."
        "awaiting_add_or_replace" (some r.base)
        (if pending.isSome then pendingItemField pending.toList else []) [])

/-- Every other state: the items that the message names are applied to the stored ones. -/
def applyItems (turn : OrderTurn) (r : TurnReading) (slots : ChatOrderSlots) :
    Except Reply ChatOrderSlots :=
  match r.candidates with
  | [] => .ok slots
  | candidate :: _ =>
    match detectOrderItemsOperation rt.db turn.content r.previousSlots r.candidates turn.products with
    | some .set | none => .ok { withOrderItems slots r.candidates with
        confirmed := r.base.items.isEmpty && r.contact.confirmed }
    | some .add => .ok (appendOrderItems rt.db slots r.candidates turn.products)
    | some .replace =>
      if slots.items.isEmpty then .ok (withOrderItems slots r.candidates)
      else askProductChange rt slots candidate turn.products
    | some .remove => .ok (removeOrderItem rt.db slots candidate turn.products)
    | some .mergeExisting =>
      .ok (r.candidates.foldl (mergeExistingItem rt.db turn.products) slots)
    | some .ambiguous => askAddOrReplace slots candidate

/-- The slots after the message was merged into the stored ones, and whether resolving a
product choice confirmed the order. -/
def mergeTurn (turn : OrderTurn) (r : TurnReading) : Except Reply (ChatOrderSlots × Bool) := do
  let withContact (slots : ChatOrderSlots) := mergeOrderSlots rt.db (some slots) (some r.contact)
  let choice ← if r.status = "awaiting_product_choice" then resolveProductChoice rt turn r
    else .ok none
  match choice with
  | some (slots, confirmResolved) => return (withContact slots, confirmResolved)
  | none =>
    if r.status = "awaiting_product_change_confirmation" then
      return (withContact (← confirmProductChange rt turn r), false)
    else if r.status = "awaiting_add_or_replace" then
      return (withContact (← addOrReplace rt turn r), false)
    else
      let merged := mergeOrderSlots rt.db r.previousSlots (some r.contact)
      return (← applyItems rt turn r merged, false)

/-- The `confirmed` flag of the turn. -/
def confirms (turn : OrderTurn) (r : TurnReading) (confirmResolved : Bool) : Bool :=
  if r.status = "awaiting_reused_contact_confirmation" ||
      r.status = "awaiting_account_contact_confirmation" then false
  else if r.status = "awaiting_confirmation" then
    isAffirmation rt.db turn.content || confirmResolved
  else confirmResolved

/-- The slots after the cues of the message were read once more from its text. -/
def completeSlots (turn : OrderTurn) (r : TurnReading) (merged : ChatOrderSlots × Bool) :
    ChatOrderSlots :=
  let slots := withDeliveryTimeCandidate rt.db
    (withOrderCues rt.db (withPhoneCandidate rt.db merged.1 turn.content) turn.content) turn.content
  { slots with confirmed := confirms rt turn r merged.2 }

/-- An order that can be shown or placed. -/
structure ReadyOrder where
  slots : ChatOrderSlots
  items : List (ChatOrderItem × Product)
  phone : Text
  zone : WardDeliveryZoneMatch
  paymentMethod : PaymentMethod

def categoryCards (query : Option Text) (products : List Product) : List Product :=
  match categoryFilterFromQuery (normalizeMatchText rt.db (query.getD [])) with
  | none => []
  | some category => products.filter fun product => product.category = category

/-- Items that name only a category, or nothing that the catalog has. -/
def checkItems (turn : OrderTurn) (slots : ChatOrderSlots) :
    Except Reply (List (ChatOrderItem × Option Product)) :=
  match slots.items.find? fun item => isBareCategoryQuery rt.db item.product with
  | some item =>
    let inquiry := if isBareGasItem rt.db item then
      gasSizeInquiryMessage rt.db "gas" turn.products else none
    match inquiry with
    | some message => .error (orderStateMessage message "awaiting_product_choice" (some slots)
        (pendingItemField [item]) [])
    | none => .error (orderStateMessage (formatCategoryProductQuestion rt.db item.text)
        "awaiting_product_choice" (some slots) (pendingItemField [item])
        (categoryCards rt item.product turn.products))
  | none =>
    let matched := matchOrderItems rt.db slots.items turn.products
    if matched.any fun m => present m.1.product && m.2.isNone then
      askAgain ("Qiki chưa tìm thấy sản phẩm này trong catalog. " ++
        "Bạn muốn đặt sản phẩm nào trong cửa hàng (gas hoặc nước uống hiện có)?")
        "awaiting_product_choice" slots
    else .ok matched

/-- The slots completed from the account, or the question whether known contact data hold. -/
def checkContact (turn : OrderTurn) (r : TurnReading) (slots : ChatOrderSlots)
    (matched : List (ChatOrderItem × Option Product)) : Except Reply ChatOrderSlots :=
  let reusable := findReusableContactSlots rt turn.conversationHistory
  let account := accountDefaultContactSlots turn.user
  if shouldConfirmReusableContact r.orderState slots matched reusable then
    askAgain (formatReusableContactQuestion reusable) "awaiting_reused_contact_confirmation"
      (mergeOrderSlots rt.db (some slots) reusable)
  else if shouldConfirmAccountContact r.orderState slots matched account then
    -- what the customer typed wins over the account
    askAgain (formatAccountContactQuestion account (!present slots.deliveryAddress))
      "awaiting_account_contact_confirmation" (mergeOrderSlots rt.db account (some slots))
  else .ok (mergeOrderSlots rt.db account (some slots))

/-- The normalised phone of an order that has everything it needs. -/
def checkComplete (turn : OrderTurn) (r : TurnReading) (slots : ChatOrderSlots)
    (matched : List (ChatOrderItem × Option Product)) : Except Reply Text :=
  let phone := slots.customerPhone.getD []
  let missing := missingOrderSlots slots matched
  match validatePhone rt.db phone with
  | none =>
    if present slots.customerPhone then
      askAgain (formatInvalidPhoneQuestion phone) "awaiting_missing_slots" slots
    else askMissing missing
  | some normalizedPhone => if missing.isEmpty then .ok normalizedPhone else askMissing missing
where
  askMissing (missing : List Text) : Except Reply Text :=
    askAgain
      (if r.orderState.isSome &&
          isUnproductiveOrderTurn rt.db turn.content r.base slots r.candidates then
        formatOrderOfftopicMessage missing
      else formatMissingSlotQuestion missing)
      "awaiting_missing_slots" slots

/-- The delivery area of the address. -/
def checkDelivery (turn : OrderTurn) (slots : ChatOrderSlots) :
    Except Reply WardDeliveryZoneMatch :=
  let address := slots.deliveryAddress.getD []
  match resolveWardDeliveryZone rt.db address with
  | none => askAgain (match turn.language with
      | .en => "Gas Quốc Cường currently only delivers within the Bình Thạnh and Thủ Đức areas. " ++
        "This address isn't in an area Qiki can take an order for via chat. " ++
        "You can call 090 3026306 for further staff assistance."
      | .vi => "Hiện Gas Quốc Cường chỉ giao trong khu vực Bình Thạnh và Thủ Đức. " ++
        "Địa chỉ này chưa thuộc khu vực Qiki có thể nhận đơn qua chat. " ++
        "Bạn có thể gọi 090 3026306 để được nhân viên hỗ trợ thêm.")
      "awaiting_missing_slots" slots
  | some zone =>
    let khuPho := validateKhuPho rt.db address
    let ward := khuPho.wardDisplay.getD []
    let last := Text.ofNat (khuPho.khuPhoMax.getD 0)
    match khuPho.status with
    | .missing => askAgain ("Bạn cho Qiki xin thêm **số khu phố** giúp nhé (P. " ++ ward ++
        " có khu phố 1–" ++ last ++ ").") "awaiting_missing_slots" slots
    | .outOfRange => askAgain ("Dạ P. " ++ ward ++ " chỉ có khu phố 1–" ++ last ++
        " thôi ạ, bạn kiểm tra lại số khu phố giúp Qiki nhé.") "awaiting_missing_slots" slots
    | .ok => .ok zone

/-- Enough of every product is in stock. -/
def checkStock (slots : ChatOrderSlots) (items : List (ChatOrderItem × Product)) :
    Except Reply Unit :=
  match items.find? fun i => decide (i.2.stockQuantity < ((i.1.quantity.getD 0 : ℕ) : ℤ)) with
  | some i => askAgain ("Sản phẩm **" ++ (i.2.name : Text) ++ "** hiện chỉ còn " ++
      (toString i.2.stockQuantity).toList ++ " bình. Bạn muốn điều chỉnh số lượng không?")
      "awaiting_missing_slots" slots
  | none => .ok ()

/-- Every check between the merged slots and the summary. -/
def checkOrder (turn : OrderTurn) (r : TurnReading) (slots : ChatOrderSlots) :
    Except Reply ReadyOrder := do
  let matched ← checkItems rt turn slots
  let slots ← checkContact rt turn r slots matched
  let phone ← checkComplete rt turn r slots matched
  let zone ← checkDelivery rt turn slots
  let items := matchedOrderProducts matched
  checkStock slots items
  match normalizePaymentMethod rt.db (slots.paymentMethod.getD []) with
  | none =>
    askAgain "Bạn muốn thanh toán khi nhận hàng (COD) hay chuyển khoản?" "awaiting_missing_slots" slots
  | some paymentMethod => return ⟨slots, items, phone, zone, paymentMethod⟩

/-- The order that the message leads to, or the reply that asks for more. -/
def prepareOrder (turn : OrderTurn) : Except Reply ReadyOrder := do
  let r := readTurn rt turn
  interrupt rt turn r
  let merged ← mergeTurn rt turn r
  checkOrder rt turn r (completeSlots rt turn r merged)

/-! What becomes of an order that is ready. -/

/-- The arguments of `_format_order_summary`. -/
def ReadyOrder.summary (o : ReadyOrder) : OrderSummary where
  items := o.items
  customerName := o.slots.customerName.getD []
  phone := o.phone
  address := o.slots.deliveryAddress.getD []
  paymentMethod := o.paymentMethod

/-- The checks of `CheckoutRequest` on the values of a chat order. -/
def ReadyOrder.acceptable (o : ReadyOrder) (notes : Option Text) : Bool :=
  let name := o.slots.customerName.getD []
  let address := o.slots.deliveryAddress.getD []
  !o.items.isEmpty && o.items.all (fun i => 1 ≤ i.1.quantity.getD 0 && i.1.quantity.getD 0 ≤ 100) &&
    2 ≤ name.length && name.length ≤ 255 && 5 ≤ address.length && address.length ≤ 500 &&
    o.zone.ward.length ≤ 100 && o.zone.deliveryZone.length ≤ 100 &&
    notes.all fun n => n.length ≤ 1000

/-- `CheckoutRequest(...)`; `none` is a `ValidationError`. -/
def ReadyOrder.checkout (o : ReadyOrder) (conversationId : Uuid) : Option CheckoutRequest :=
  let notes := deliveryNotesWithWaterFee rt.db o.slots.deliveryNotes o.items
  if o.acceptable notes then
    (validatePhone rt.db o.phone).map fun phone => {
      items := o.items.map fun i => { productId := i.2.id, quantity := i.1.quantity.getD 0 }
      customerName := String.ofList (o.slots.customerName.getD [])
      customerPhone := some (String.ofList phone)
      deliveryAddress := String.ofList (o.slots.deliveryAddress.getD [])
      deliveryWard := some (String.ofList o.zone.ward)
      deliveryDistrict := some (String.ofList o.zone.deliveryZone)
      deliveryCity := "TP. Hồ Chí Minh"
      deliveryNotes := notes.map String.ofList
      paymentMethod := o.paymentMethod
      source := .chatbot
      referralConversationId := some conversationId
      customerNotes := some "Đơn được tạo qua chat Qiki; nhân viên cần gọi lại xác nhận." }
  else none

/-- The order in which `sorted` puts the items of the fingerprint. -/
def itemKeyLe (a b : ChatOrderItem) : Bool :=
  a.text < b.text || (a.text = b.text && a.quantity.getD 0 ≤ b.quantity.getD 0)

/-- `f"{item.product or ''}:{item.quantity or ''}"` -/
def itemFingerprint (item : ChatOrderItem) : Text :=
  let quantity := item.quantity.getD 0
  item.text ++ ":" ++ if quantity = 0 then [] else Text.ofNat quantity

/-- The text from which `_chat_order_idempotency_key` is derived. -/
def orderFingerprint (conversationId : Uuid) (slots : ChatOrderSlots) : Text :=
  let items := (slots.items.insertionSort fun a b => itemKeyLe a b).map itemFingerprint
  Text.join "|" [rt.uuidText conversationId, Text.join "|" items, slots.customerPhone.getD [],
    slots.deliveryAddress.getD []]

def chatOrderIdempotencyKey (conversationId : Uuid) (slots : ChatOrderSlots) : Uuid :=
  rt.uuid5 ("chat-order:" ++ orderFingerprint rt conversationId slots)

/-- How a turn ends: with a reply, with the summary of an order, with `create_order`, or with a
`ValidationError`. -/
inductive OrderOutcome
  | reply (r : Reply)
  | showSummary (order : ReadyOrder)
  | createOrder (order : ReadyOrder) (checkout : CheckoutRequest) (key : Uuid)
  | invalidCheckout

/-- The decision of a turn whose order is ready. -/
def ReadyOrder.decide (o : ReadyOrder) (conversationId : Uuid) : OrderOutcome :=
  if !o.slots.confirmed then .showSummary o
  else match o.checkout rt conversationId with
    | none => .invalidCheckout
    | some checkout => .createOrder o checkout (chatOrderIdempotencyKey rt conversationId o.slots)

/-- `_create_post_order_change_message` -/
def postOrderChangeReply (content : Text) (existingOrder : Json) : Reply :=
  let orderNumber := (optionalStr rt (existingOrder.getOrNull "order_number")).getD "đơn trước"
  let requested := match extractPaymentCandidate rt.db content with
    | none => []
    | some method => [("requested_payment_method".toList, Json.str method)]
  let added := ("post_order_change_request".toList, Json.str content) :: requested
  let metadata : Json := match existingOrder with
    | .obj fields => .obj (fields.filter (fun f => (added.lookup f.1).isNone) ++ added)
    | other => other
  { content := "Đơn **" ++ orderNumber ++ "** đã ghi nhận. Qiki đã lưu yêu cầu " ++
      formatPostOrderChangeText rt.db content ++
      "; nhân viên sẽ xác nhận lại khi gọi cho bạn nhé."
    metadata := [metadata] }

/-- An order of this conversation exists and the message asks to change it. -/
def asksPostOrderChange (turn : OrderTurn) : Option Json :=
  (findExistingChatOrder turn.history).filter fun _ => isPostOrderChangeRequest rt.db turn.content

/-- `_handle_chat_order` up to the call of `create_order`. -/
def handleChatOrder (turn : OrderTurn) : OrderOutcome :=
  match asksPostOrderChange rt turn with
  | some existingOrder => .reply (postOrderChangeReply rt turn.content existingOrder)
  | none =>
    match prepareOrder rt turn with
    | .error r => .reply r
    | .ok order => order.decide rt turn.conversationId

/-- The message with the summary. -/
def summaryReply (order : ReadyOrder) (language : Language) : Reply :=
  orderStateMessage (formatOrderSummary order.summary language) "awaiting_confirmation"
    (some order.slots) [] []

/-- `"cod"` or `"bank_transfer"` -/
def paymentMethodText : PaymentMethod → Text
  | .cod => "cod"
  | .bankTransfer => "bank_transfer"

/-- The message about a created order. -/
def orderCreatedReply (order : ReadyOrder) (orderId : Uuid) (orderNumber : Text)
    (now : Timestamp) : Reply :=
  let recorded := { order.slots with
    customerPhone := some order.phone
    paymentMethod := some (paymentMethodText order.paymentMethod) }
  let record : Json := .obj [("type", .str chatOrderMetadataType),
    ("order_id", .str (rt.uuidText orderId)), ("order_number", .str orderNumber),
    ("slots", .obj (slotsToMetadata (some recorded)))]
  { content := "Đã ghi nhận đơn **" ++ orderNumber ++ "**. " ++
      formatOrderCallbackSentence now order.slots.deliveryNotes
    metadata := record ::
      (orderDeliveryFollowupNote rt.db order.slots.deliveryNotes).toList.map FollowupNote.toJson }

end

end Qiki.Chat
