import Qiki.Chat.HandleOrder
import Qiki.Chat.PriceAnswers
import Qiki.Text.Vietnamese

/-! `_plan_response`: the decision tree of a customer turn, and the two endpoints that run it. -/
namespace Qiki.Chat

open Unicode Regex Orders Safety AddressLookup

/-! Intents. -/

inductive IntentCategory
  | productInquiry | placeOrder | deliveryStatus | complaint | technicalIssue | safetyEmergency
  | paymentIssue | generalInfo
  deriving DecidableEq, Repr

structure IntentResult where
  category : IntentCategory
  confidence : ℚ
  reasoning : Text
  classifier : Text
  deriving DecidableEq, Repr

/-- `HybridIntentClassifier.classify`; the embedding classifier is `none` when its provider is
out of quota. The embedding and the language model are asked only where their result is used. -/
def hybridClassify (db : Database) (threshold : ℚ) (text : Text) (embedding : Option IntentResult)
    (llm : IntentResult) : IntentResult :=
  let bareCategory := ([ "gas", "binh gas", "nuoc", "nuoc uong"] : List Text).contains
    (normalizeMatchText db text)
  if bareCategory then
    ⟨.productInquiry, 95 / 100,
      "Bare product category should show catalog cards, not start checkout",
      "hybrid_category_keyword"⟩
  else match embedding with
    | none => { llm with classifier := "llm_fallback" }
    | some embedded =>
      if embedded.category ≠ .safetyEmergency && threshold ≤ embedded.confidence then
        { embedded with classifier := "hybrid_embedding" }
      else if embedded.category = .safetyEmergency || llm.category = .safetyEmergency then
        ⟨.safetyEmergency, max embedded.confidence llm.confidence,
          "Safety emergency confirmed by hybrid double-check", "hybrid_safety"⟩
      else { llm with classifier := "hybrid_llm" }

def orderContextIntent (intent : IntentResult) (reason : Text) : IntentResult where
  category := .placeOrder
  confidence := max intent.confidence (9 / 10)
  reasoning := reason ++ " override: " ++ intent.reasoning
  classifier := intent.classifier ++ "+order_context"

def applyOrderContextIntent (now : Timestamp) (intent : IntentResult) (history : List Message) :
    IntentResult :=
  if intent.category = .safetyEmergency then intent
  else if isOrderInProgress now history then orderContextIntent intent "order_in_progress"
  else intent

def shouldAskIntentClarification (intent : IntentResult) : Bool :=
  intent.confidence < 6 / 10 &&
    !([ .safetyEmergency, .complaint, .placeOrder] : List IntentCategory).contains intent.category

/-! Routing to the staff. -/

structure StaffUser where
  id : Uuid
  isActive : Bool
  deriving DecidableEq, Repr

structure RoutingDecision where
  requiresHuman : Bool
  priority : ℕ
  reason : Text
  assignedStaffId : Option Uuid := none
  deriving DecidableEq, Repr

/-- `INTENT_ROUTING_RULES`: whether a human is needed, and the priority. -/
def intentRoutingRules : IntentCategory → Bool × ℕ
  | .productInquiry => (false, 3)
  | .placeOrder => (false, 2)
  | .deliveryStatus => (false, 2)
  | .complaint => (true, 1)
  | .technicalIssue => (false, 2)
  | .safetyEmergency => (true, 0)
  | .paymentIssue => (false, 1)
  | .generalInfo => (false, 4)

/-- `_find_available_staff`, from the first fifty staff members and the first fifty admins. -/
def findAvailableStaff (staff admins : List StaffUser) : Option StaffUser :=
  ((staff.filter (·.isActive)).head?).or ((admins.filter (·.isActive)).head?)

def routeIntent (intent : IntentResult) (staff admins : List StaffUser) : RoutingDecision :=
  let rule := intentRoutingRules intent.category
  let assigned := (findAvailableStaff staff admins).map (·.id)
  if intent.category = .safetyEmergency then
    ⟨true, 0, "Safety emergency requires immediate staff attention", assigned⟩
  else if rule.1 then ⟨true, rule.2, "Intent requires staff", assigned⟩
  else ⟨false, rule.2, "Automatic response allowed", none⟩

/-! The answer pipeline. -/

/-- The letters of `_VIETNAMESE_CHARS`. -/
def vietnameseChars : List Char :=
  "àáảãạăằắẳẵặâầấẩẫậèéẻẽẹêềếểễệìíỉĩịòóỏõọôồốổỗộơờớởỡợùúủũụưừứửữựỳýỷỹỵđ".toList

def englishMarkers : List Text :=
  List.append ["the", "is", "are", "hello", "hi", "hey", "please", "thanks", "thank", "you",
    "your", "how", "what", "where", "when", "which", "much", "cost", "price"] ["delivery",
    "deliver", "order", "available", "today", "need", "want", "can", "could", "does", "bottle",
    "buy", "refill", "hours", "have", "near", "open"]

def detectLanguage (db : Database) (text : Text) (default : Language) : Language :=
  let lowered := lower db text
  if lowered.any vietnameseChars.contains then .vi
  else if (findall ⟨db, false⟩ lowerWord lowered).any englishMarkers.contains then .en
  else default

/-- A call of a language model; the classifiers' own calls are not listed. -/
inductive LlmCall
  /-- `generate` in `_extract_order_slots`. -/
  | extractSlots (content : Text)
  /-- `generate` in the reranker. -/
  | rerank (query : Text)
  | generate (query : Text) (productContext : Option Text)
  | stream (query : Text) (productContext : Option Text)
  deriving DecidableEq

structure RetrievedDocument where
  id : Uuid
  title : Text
  category : Text
  similarity : ℚ
  sourceType : Text
  deriving DecidableEq, Repr

/-- What retrieval and the language model give for the query: the documents, whether the
reranker is called for them, and the answer, whole or in pieces. -/
structure Generation where
  documents : List RetrievedDocument
  reranks : Bool
  text : Text
  deltas : List Text

structure RagResponse where
  answer : Text
  sources : List RetrievedDocument
  isSafetyCritical : Bool
  llmCalls : List LlmCall
  deriving DecidableEq

section Pipeline
variable (db : Database) (generation : Generation) (query : Text) (productContext : Option Text)
  (language : Language)

/-- The call of the reranker in `_retrieve`. -/
def Generation.retrieveCalls : List LlmCall := if generation.reranks then [.rerank query] else []

/-- `RAGPipeline.query` -/
def ragQuery : RagResponse :=
  if (checkQuery db query).isEmergency then
    { answer := getEmergencyResponse language, sources := [], isSafetyCritical := true
      llmCalls := [] }
  else
    { answer := generation.text, sources := generation.documents, isSafetyCritical := false
      llmCalls := generation.retrieveCalls query ++ [.generate query productContext] }

/-- What `RAGPipeline.query_stream` yields, with the sources and the calls it made. -/
def ragQueryStream : List Text × List RetrievedDocument × List LlmCall :=
  if (checkQuery db query).isEmergency then ([getEmergencyResponse language], [], [])
  else (generation.deltas, generation.documents,
    generation.retrieveCalls query ++ [.stream query productContext])

end Pipeline

/-! A customer turn. -/

/-- What the turn is given: the request, the stored messages, the classifier's result, what the
catalog and the user tables hold, the replies of the language model, and the time. -/
structure ChatTurn where
  conversationId : Uuid
  messages : List Message
  content : Text
  locale : Option Language
  user : Option User
  classified : IntentResult
  catalog : List Product
  search : ProductSearchParams → List Product
  staff : List StaffUser
  admins : List StaffUser
  response : Text
  generation : Generation
  now : Timestamp

def getRecent (messages : List Message) : List Message := messages.drop (messages.length - 10)

/-- `list_by_conversation` of the order turn. -/
def listByConversation (messages : List Message) : List Message := messages.take 200

/-- The branches of the decision tree. -/
inductive Branch
  | safety
  | followup (note : FollowupNote)
  | handoff
  | clarification
  | inquiry (message : Text)
  | order
  | rag
  deriving DecidableEq

/-- The assistant message of a turn, `none` when an error ends it before one is stored, and the
calls of language models made for it. -/
structure TurnResult where
  reply : Option Reply
  llmCalls : List LlmCall

/-- What `create_order` answers to a checkout with its key: the id and the number of the order,
or `none` when it raises. -/
abbrev OrderService := CheckoutRequest → Uuid → Option (Uuid × Text)

section Turn
variable (rt : Runtime)

def ChatTurn.history (turn : ChatTurn) : List Message := getRecent turn.messages

/-- `request.locale or "vi"` -/
def ChatTurn.language (turn : ChatTurn) : Language := turn.locale.getD .vi

/-- The row of the customer's message. -/
def ChatTurn.userMessage (turn : ChatTurn) : Message :=
  { role := .user, content := turn.content, createdAt := turn.now }

/-- The intent after the overrides that do not look at the catalog. -/
def intentBeforeCatalog (turn : ChatTurn) : IntentResult :=
  let intent := applyOrderContextIntent turn.now turn.classified turn.history
  let intent :=
    if intent.category ≠ .safetyEmergency &&
        (extractAmbiguousDeliveryTimeWindow rt.db turn.content).isSome &&
        isOrderInProgress turn.now turn.history then
      orderContextIntent intent "ambiguous_delivery_time"
    else intent
  let intent : IntentResult :=
    if intent.category ≠ .safetyEmergency && isExplicitHumanRequest rt.db turn.content then
      { category := .complaint
        confidence := max intent.confidence (9 / 10)
        reasoning := "explicit_human_request override: " ++ intent.reasoning
        classifier := intent.classifier ++ "+explicit_human_request" }
    else intent
  if intent.category ≠ .safetyEmergency && (findExistingChatOrder turn.history).isSome &&
      isPostOrderChangeRequest rt.db turn.content then
    orderContextIntent intent "post_order_change"
  else intent

/-- The intent that reaches the branch selection. -/
def finalIntent (turn : ChatTurn) : IntentResult :=
  let intent := intentBeforeCatalog rt turn
  if intent.category = .safetyEmergency || turn.catalog.isEmpty then intent
  else match catalogProductIntentOverride rt.db turn.content turn.catalog with
    | some .placeOrder => orderContextIntent intent "catalog_product_order"
    | some .productInquiry =>
      { category := .productInquiry
        confidence := max intent.confidence (9 / 10)
        reasoning := "catalog_product_inquiry override: " ++ intent.reasoning
        classifier := intent.classifier ++ "+catalog_product_inquiry" }
    | none => intent

/-- The follow-up note of the turn; none while an order is being handled or exists. -/
def followupNote (turn : ChatTurn) : Option FollowupNote :=
  let category := (finalIntent rt turn).category
  if category ≠ .safetyEmergency && !isOrderInProgress turn.now turn.history &&
      (findExistingChatOrder turn.history).isNone then
    detectFollowupRequest rt.db turn.content (category = .placeOrder)
  else none

def productInquiryMessage (turn : ChatTurn) : Option Text :=
  let intent := finalIntent rt turn
  if intent.category = .productInquiry && !shouldAskIntentClarification intent then
    ((priceInquiryMessage rt.db turn.search turn.content turn.catalog turn.language).or
      (gasSizeInquiryMessage rt.db turn.content turn.catalog)).or
      (catalogListMessage rt.db turn.content turn.catalog)
  else none

/-- The product cards beside the answer of a product question. -/
def inquiryCards (turn : ChatTurn) : List Product :=
  let intent := finalIntent rt turn
  if intent.category = .productInquiry && !shouldAskIntentClarification intent &&
      (productInquiryMessage rt turn).isNone then
    selectCardProducts rt.db turn.content turn.catalog
  else []

/-- The routing decision of the turn. -/
def routing (turn : ChatTurn) : RoutingDecision :=
  routeIntent (finalIntent rt turn) turn.staff turn.admins

/-- The branch that `_plan_response` takes. -/
def selectBranch (turn : ChatTurn) : Branch :=
  let intent := finalIntent rt turn
  if intent.category = .safetyEmergency then .safety
  else match followupNote rt turn with
    | some note => .followup note
    | none =>
      if (routing rt turn).requiresHuman then .handoff
      else if shouldAskIntentClarification intent then .clarification
      else match productInquiryMessage rt turn with
        | some message => .inquiry message
        | none => if intent.category = .placeOrder then .order else .rag

/-- `_create_handoff_message` -/
def handoffText : Language → Text
  | .en => "Thanks for sharing. I've handed this conversation over to a support " ++
      "staff member for closer assistance."
  | .vi => "Cảm ơn bạn đã chia sẻ. Mình đã chuyển cuộc trò chuyện này cho nhân viên " ++
      "hỗ trợ để xử lý kỹ hơn."

/-- `_create_intent_clarification_message` -/
def clarificationText : Language → Text
  | .en => "Qiki isn't sure what you mean. Would you like to **place an order**, " ++
      "**ask about prices/products**, or **ask about the store**?"
  | .vi => "Qiki chưa rõ ý bạn. Bạn muốn **đặt hàng**, **hỏi giá/sản phẩm**, " ++
      "hay **hỏi thông tin cửa hàng** ạ?"

/-- An entry of `_serialize_sources`. -/
def RetrievedDocument.toJson (d : RetrievedDocument) : Json :=
  .obj [("id", .str (rt.uuidText d.id)), ("title", .str d.title), ("category", .str d.category),
    ("similarity", .float d.similarity), ("source_type", .str d.sourceType)]

/-- The language in which the pipeline answers. -/
def answerLanguage (turn : ChatTurn) : Language :=
  detectLanguage rt.db turn.content (if turn.locale = some .en then .en else .vi)

def resolveProductContext (turn : ChatTurn) : Option Text :=
  if (finalIntent rt turn).category = .safetyEmergency then none
  else queryAwareCatalogContext rt.db turn.content turn.catalog

def createRagAnswer (turn : ChatTurn) : TurnResult :=
  let response := ragQuery rt.db turn.generation turn.content (resolveProductContext rt turn)
    (answerLanguage rt turn)
  { reply := some { content := response.answer
                    metadata := response.sources.map (RetrievedDocument.toJson rt)
                    cards := inquiryCards rt turn }
    llmCalls := response.llmCalls }

/-- The arguments with which `_plan_response` calls `_handle_chat_order`. -/
def ChatTurn.orderTurn (turn : ChatTurn) : OrderTurn where
  conversationId := turn.conversationId
  content := turn.content
  history := turn.history
  conversationHistory := listByConversation (turn.messages ++ [turn.userMessage])
  user := turn.user
  products := turn.catalog
  language := turn.language
  response := turn.response
  now := turn.now

/-- The message with which `_handle_chat_order` ends. -/
def OrderOutcome.toReply (turn : ChatTurn) (service : OrderService) : OrderOutcome → Option Reply
  | .reply r => some r
  | .showSummary order => some (summaryReply order turn.language)
  | .createOrder order checkout key => (service checkout key).map fun created =>
      orderCreatedReply rt order created.1 created.2 turn.now
  | .invalidCheckout => none

/-- The order branch; only a change of an existing order is answered without the extraction. -/
def orderAnswer (turn : ChatTurn) (service : OrderService) : TurnResult where
  reply := (handleChatOrder rt turn.orderTurn).toReply rt turn service
  llmCalls := if (asksPostOrderChange rt turn.orderTurn).isSome then []
    else [.extractSlots turn.content]

/-- A fixed reply. -/
def answered (content : Text) (metadata : List Json) : TurnResult :=
  ⟨some { content := content, metadata := metadata }, []⟩

/-- The branches that end with a stored message in `_plan_response`; `none` leaves the answer to
the endpoint. -/
def planResponse (turn : ChatTurn) (service : OrderService) : Option TurnResult :=
  match selectBranch rt turn with
  | .safety => some (createRagAnswer rt turn)
  | .followup note => some (answered (formatFollowupReply note turn.language) [note.toJson])
  | .handoff => some (answered (handoffText turn.language) [])
  | .clarification => some (answered (clarificationText turn.language) [])
  | .inquiry message => some (answered message [])
  | .order => some (orderAnswer rt turn service)
  | .rag => none

def sendMessage (turn : ChatTurn) (service : OrderService) : TurnResult :=
  (planResponse rt turn service).getD (createRagAnswer rt turn)

/-- The streamed answer, stored when at least one piece of it is not empty. -/
def streamRagAnswer (turn : ChatTurn) : TurnResult :=
  let (deltas, sources, llmCalls) := ragQueryStream rt.db turn.generation turn.content
    (resolveProductContext rt turn) (answerLanguage rt turn)
  let chunks := deltas.filter (!·.isEmpty)
  { reply := if chunks.isEmpty then none
      else some { content := chunks.flatten
                  metadata := sources.map (RetrievedDocument.toJson rt)
                  cards := inquiryCards rt turn }
    llmCalls := llmCalls }

/-- `stream_message`, read to its end. -/
def streamMessage (turn : ChatTurn) (service : OrderService) : TurnResult :=
  (planResponse rt turn service).getD (streamRagAnswer rt turn)

end Turn

/-! A shop for concrete runs. -/

/-- Python on Vietnamese letters, where the language model only ever answers `{}`. -/
def plainRuntime : Runtime where
  db := Vietnamese.database
  str := fun _ => []
  loads := fun text => if text = "{}" then some (.obj []) else none
  uuidText := Text.ofNat
  uuid5 := fun text => text.foldl (fun n c => 1114112 * n + c.toNat) 1

/-- A guest's message in a conversation without earlier messages, classified with certainty. -/
def guestTurn (category : IntentCategory) (content : Text) : ChatTurn where
  conversationId := 7
  messages := []
  content := content
  locale := none
  user := none
  classified := ⟨category, 1, [], "hybrid_embedding"⟩
  catalog := []
  search := fun _ => []
  staff := []
  admins := []
  response := "{}"
  generation := ⟨[], false, "Xin chào!", ["Xin chào!"]⟩
  now := 0

end Qiki.Chat
