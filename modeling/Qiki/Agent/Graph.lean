import Qiki.Agent.ToolExecutor
import Qiki.Catalog.ProductQuery

/-! The compiled agent graph: its nodes, its edges and one turn of a thread. -/
namespace Qiki.Agent

open Safety

def maxAgentTurns : ℕ := 8

def recursionLimit : ℕ := 25

/-- The template and the variables it is rendered with. -/
structure SystemPrompt where
  promptName : Text
  context : Text
  conversationHistory : Text
  currentDate : Text
  deriving DecidableEq, Repr

structure LLMStreamChunk where
  delta : Text
  provider : Option Text
  deriving DecidableEq, Repr

/-- What a turn meets outside the graph: catalog, knowledge base, LLM provider and date. -/
structure Environment where
  catalog : Catalog
  knowledge : Knowledge
  stream : Text → SystemPrompt → Except Failure (List LLMStreamChunk)
  providerName : Text
  currentDate : Text
  /-- `str(value)` of a result dictionary. -/
  str : Json → Text

/-- A call that leaves the graph. -/
inductive ExternalCall
  | tool (name : Text) (args : Json)
  | retrieve (query : Text)
  | generate (prompt : Text) (systemPrompt : SystemPrompt)
  deriving DecidableEq

inductive Node
  | intakeGuardrail | turnLimit | safetyEmergency | router | toolExecutor | retriever | verifier
  | responder
  deriving DecidableEq, Repr

/-- A node returns an update, raises, or pauses at an interrupt. -/
inductive NodeResult
  | update (u : Update)
  | raised (failure : Failure)
  | paused (prompt : ConfirmPrompt)
  deriving DecidableEq

/-! The nodes. -/

def intakeGuardrail (db : Unicode.Database) (s : QikiAgentState) : Update :=
  let result := checkQuery db (lastHumanText s)
  { turnCount := some (s.turnCount + 1)
    safetyFlags := some ⟨result.isEmergency, result.matchedPattern⟩ }

/-- `TURN_LIMIT_REPLY_VI`, `TURN_LIMIT_REPLY_EN` -/
def turnLimitReply : Language → Text
  | .vi => "Cuộc trò chuyện này đã khá dài. Mình xin phép chuyển bạn đến nhân viên hỗ trợ " ++
      "để được tư vấn kỹ hơn nhé."
  | .en => "This conversation has run long. Let me hand you over to a support agent " ++
      "for more detailed help."

def turnLimit (s : QikiAgentState) : Update := { messages := [.ai (turnLimitReply s.locale)] }

def safetyEmergency (s : QikiAgentState) : Update where
  messages := [.ai (getEmergencyResponse s.locale)]
  confidence := some 1

def stockKeywords : List Text := ["con hang", "con khong", "ton kho", "in stock", "available"]

def safetyInfoKeywords : List Text := ["bao quan", "an toan", "kiem tra dinh ky", "phong ngua",
  "safety", "how to store", "maintenance"]

def productKeywords : List Text := ["gas", "binh", "nuoc uong", "gia", "kg", "lit", "price",
  "bottle", "cylinder"]

/-- The id of the product when a search result holds exactly one. -/
def singleProductId (result : Json) : Option Text :=
  match result.get "products" with
  | some (.arr [product]) =>
    match product.get "id" with
    | some (.str id) => some id
    | _ => none
  | _ => none

/-- `_remembered_product_id`: the last `search_products` record decides. -/
def rememberedProductId (toolResults : List ToolResultRecord) : Option Text :=
  match toolResults.reverse.find? fun record => record.name = ("search_products" : Text) with
  | some record => singleProductId record.result
  | none => none

/-- The tool calls that `router` queues for a text. -/
def routerCalls (db : Unicode.Database) (humanText : Text) (remembered : Option Text) :
    List ToolCallRecord :=
  let text := stripAccents db humanText
  match remembered.filter fun id => !id.isEmpty && text.containsAny stockKeywords with
  | some id => [⟨"check_inventory", .obj [("product_id", .str id), ("quantity", .int 1)]⟩]
  | none =>
    if text.containsAny safetyInfoKeywords then
      [⟨"lookup_safety_policy", .obj [("query", .str text)]⟩]
    else if text.containsAny productKeywords then
      [⟨"search_products", .obj [("query", .str text)]⟩]
    else []

def router (db : Unicode.Database) (s : QikiAgentState) : Update :=
  { toolCalls := some (routerCalls db (lastHumanText s) (rememberedProductId s.toolResults)) }

/-- The request-scoped dependencies of `tool_executor` in the production graph. -/
def executorDeps (hashing : Hashing) (env : Environment) (user : Option Uuid) :
    ExecutorDeps where
  hashing := hashing
  tools := fun name => (buildTools env.catalog env.knowledge name).map fun tool _ => tool
  currentUser := user
  confirmGate := true
  auditRepository := true

/-- `TOP_K`, `MAX_CONTENT_CHARS` -/
def topK : ℕ := 5

def maxContentChars : ℕ := 800

def docSummary (d : RetrievedDocument) : RetrievedDocSummary :=
  ⟨uuidText d.id, d.title, d.content.take maxContentChars, d.similarity⟩

/-- `retriever_node` on the documents that the retriever returned. -/
def retrieverNode (documents : List RetrievedDocument) : Update where
  retrievedDocs := some (documents.map docSummary)
  confidence := some ((documents.head?.map (·.similarity)).getD 0)

def verifier (s : QikiAgentState) : Update :=
  if s.confidence.isSome then {}
  else if s.toolResults.isEmpty then { confidence := some 0 }
  else { confidence := some (if s.toolResults.any (·.ok) then 1 else 0) }

def roleLabel : Message → Text
  | .human content => "Khách hàng: " ++ content
  | .ai content => "Bot: " ++ content

/-- `format_conversation_history(_history_payload(state))`: the last five messages before the
current one. -/
def conversationHistory (s : QikiAgentState) : Text :=
  let payload := s.messages.dropLast
  if payload.isEmpty then "(Chưa có lịch sử trò chuyện)"
  else Text.join ['\n'] ((payload.drop (payload.length - 5)).map roleLabel)

def toolResultsContext (str : Json → Text) (records : List ToolResultRecord) : Text :=
  if records.isEmpty then "Không có kết quả công cụ."
  else Text.join ['\n', '\n'] (records.map fun r =>
    "[Kết quả công cụ " ++ r.name ++ "]\n" ++ str r.result)

def retrievedDocsContext (docs : List RetrievedDocSummary) : Text :=
  if docs.isEmpty then "Không có thông tin liên quan trong cơ sở dữ liệu."
  else Text.join ['\n', '\n'] (docs.zipIdx.map fun d =>
    "[Tài liệu " ++ Text.ofNat (d.2 + 1) ++ " - " ++ d.1.title ++ "]\n" ++ d.1.content)

/-- The context of the responder's prompt: tool results win over documents. -/
def responderContext (str : Json → Text) (s : QikiAgentState) : Text :=
  if s.toolResults.isEmpty then retrievedDocsContext s.retrievedDocs
  else toolResultsContext str s.toolResults

/-- The prompt of `responder`. -/
def systemPrompt (env : Environment) (s : QikiAgentState) : SystemPrompt where
  promptName := match s.locale with
    | .en => "system_chatbot_en"
    | .vi => "system_chatbot_vi"
  context := responderContext env.str s
  conversationHistory := conversationHistory s
  currentDate := env.currentDate

/-- `responder` on the chunks that were streamed. -/
def responder (env : Environment) (chunks : List LLMStreamChunk) : Update where
  messages := [.ai (chunks.map (·.delta)).flatten]
  llmProvider := some (((chunks.filterMap (·.provider)).getLast?).getD env.providerName)

/-- The `DBAPIError` of an audit row that the table refuses. -/
def auditRefused : Failure := .other "DBAPIError"

/-- One node on the checkpoint, with the calls it makes. -/
def runNode (db : Unicode.Database) (hashing : Hashing) (env : Environment) (user : Option Uuid)
    (node : Node) (s : QikiAgentState) : NodeResult × List ExternalCall :=
  match node with
  | .intakeGuardrail => (.update (intakeGuardrail db s), [])
  | .turnLimit => (.update (turnLimit s), [])
  | .safetyEmergency => (.update (safetyEmergency s), [])
  | .router => (.update (router db s), [])
  | .toolExecutor =>
    let invoked (g : GateState) := g.executed.map fun e => ExternalCall.tool e.name e.args
    match toolExecutor (executorDeps hashing env user) s.sessionId s.toolCalls [] { now := 0 } with
    | .done results g => (.update { toolResults := some results }, invoked g)
    | .interrupted prompt g => (.paused prompt, invoked g)
    | .raised g => (.raised auditRefused, invoked g)
  | .retriever =>
    let query := lastHumanText s
    match env.knowledge.retrieve query topK with
    | .ok documents => (.update (retrieverNode documents), [.retrieve query])
    | .error failure => (.raised failure, [.retrieve query])
  | .verifier => (.update (verifier s), [])
  | .responder =>
    let prompt := lastHumanText s
    let system := systemPrompt env s
    match env.stream prompt system with
    | .ok chunks => (.update (responder env chunks), [.generate prompt system])
    | .error failure => (.raised failure, [.generate prompt system])

def routeAfterIntake (s : QikiAgentState) : Node :=
  if maxAgentTurns < s.turnCount then .turnLimit
  else if s.safetyFlags.any (·.isEmergency) then .safetyEmergency
  else .router

def routeAfterRouter (s : QikiAgentState) : Node :=
  if s.toolCalls.isEmpty then .retriever else .toolExecutor

/-- The edges of `build_agent_graph`; `none` is `END`. -/
def next (node : Node) (s : QikiAgentState) : Option Node :=
  match node with
  | .intakeGuardrail => some (routeAfterIntake s)
  | .turnLimit => none
  | .safetyEmergency => none
  | .router => some (routeAfterRouter s)
  | .toolExecutor => some .verifier
  | .retriever => some .verifier
  | .verifier => some .responder
  | .responder => none

/-- One run of the graph: the last checkpoint, the calls made, what each node wrote, and
whether the run reached `END`. -/
structure TurnRun where
  state : QikiAgentState
  calls : List ExternalCall
  writes : List (Node × Update)
  ended : Bool

/-- The supersteps from a node on. A node that raises or pauses ends the run at the last
checkpoint. -/
def runFrom (db : Unicode.Database) (hashing : Hashing) (env : Environment) (user : Option Uuid) :
    ℕ → Node → QikiAgentState → TurnRun
  | 0, _, s => ⟨s, [], [], false⟩
  | n + 1, node, s =>
    match runNode db hashing env user node s with
    | (.update u, calls) =>
      match next node (s.apply u) with
      | none => ⟨s.apply u, calls, [(node, u)], true⟩
      | some node' =>
        let rest := runFrom db hashing env user n node' (s.apply u)
        { rest with calls := calls ++ rest.calls, writes := (node, u) :: rest.writes }
    | (_, calls) => ⟨s, calls, [], false⟩

/-- One request of the endpoint: its payload and the session's user. -/
structure TurnInput where
  content : Text
  sessionId : Text
  user : Option Uuid
  locale : Language
  deriving DecidableEq, Repr

/-- The checkpoint with the endpoint's `input_state`. -/
def QikiAgentState.withInput (s : QikiAgentState) (i : TurnInput) : QikiAgentState :=
  { s with
    messages := s.messages ++ [.human i.content]
    sessionId := i.sessionId
    userId := i.user.map uuidText
    locale := i.locale }

/-- A turn and what it meets. -/
structure Turn where
  input : TurnInput
  env : Environment

section Thread
variable (db : Unicode.Database) (hashing : Hashing)

/-- `graph.astream` on a thread's checkpoint. -/
def runTurn (t : Turn) (s : QikiAgentState) : TurnRun :=
  runFrom db hashing t.env t.input.user recursionLimit .intakeGuardrail (s.withInput t.input)

/-- The checkpoint of a thread after its turns. -/
def runThread (turns : List Turn) : QikiAgentState :=
  turns.foldl (fun s t => (runTurn db hashing t s).state) {}

end Thread

end Qiki.Agent
