import Qiki.Agent.Graph

/-! What one turn of an agent thread does: the path it takes through the graph and the
channels it leaves behind. -/
namespace Qiki.Agent

open Safety

section Frames
variable (s : QikiAgentState)

/-! Which channels the nodes write. -/

@[simp] theorem apply_empty : s.apply {} = s := by
  simp [QikiAgentState.apply]

@[simp] theorem apply_turnLimit_turnCount : (s.apply (turnLimit s)).turnCount = s.turnCount := rfl

@[simp] theorem apply_safetyEmergency_turnCount :
    (s.apply (safetyEmergency s)).turnCount = s.turnCount := rfl

@[simp] theorem apply_router_turnCount (db : Unicode.Database) :
    (s.apply (router db s)).turnCount = s.turnCount := rfl

@[simp] theorem apply_retriever_turnCount (documents : List RetrievedDocument) :
    (s.apply (retrieverNode documents)).turnCount = s.turnCount := rfl

@[simp] theorem apply_toolResults_turnCount (records : List ToolResultRecord) :
    (s.apply { toolResults := some records }).turnCount = s.turnCount := rfl

@[simp] theorem apply_responder_turnCount (env : Environment) (chunks : List LLMStreamChunk) :
    (s.apply (responder env chunks)).turnCount = s.turnCount := rfl

theorem verifier_cases :
    s.confidence.isSome = true ∧ verifier s = {} ∨
      s.confidence = none ∧ ∃ c, verifier s = { confidence := some c } := by
  unfold verifier
  cases hc : s.confidence with
  | some c => exact Or.inl ⟨rfl, rfl⟩
  | none =>
    simp only [Option.isSome_none, Bool.false_eq_true, if_false]
    split_ifs
    · exact Or.inr ⟨trivial, 0, rfl⟩
    · exact Or.inr ⟨trivial, 1, rfl⟩
    · exact Or.inr ⟨trivial, 0, rfl⟩

/-- The verifier writes at most the confidence. -/
theorem apply_verifier :
    s.apply (verifier s) = { s with confidence := (verifier s).confidence.or s.confidence } := by
  rcases verifier_cases s with ⟨-, h⟩ | ⟨-, c, h⟩
  · rw [h, apply_empty]
    simp
  · rw [h]
    simp [QikiAgentState.apply]

end Frames

/-! Runs. -/

section Run
variable (db : Unicode.Database) (hashing : Hashing) (env : Environment) (user : Option Uuid)

theorem runFrom_next {node node' : Node} {s : QikiAgentState} {u : Update}
    {calls : List ExternalCall} (n : ℕ)
    (h : runNode db hashing env user node s = (.update u, calls))
    (hn : next node (s.apply u) = some node') :
    runFrom db hashing env user (n + 1) node s =
      { runFrom db hashing env user n node' (s.apply u) with
        calls := calls ++ (runFrom db hashing env user n node' (s.apply u)).calls
        writes := (node, u) :: (runFrom db hashing env user n node' (s.apply u)).writes } := by
  rw [runFrom, h]
  simp only [hn]

theorem runFrom_last {node : Node} {s : QikiAgentState} {u : Update}
    {calls : List ExternalCall} (n : ℕ)
    (h : runNode db hashing env user node s = (.update u, calls))
    (hn : next node (s.apply u) = none) :
    runFrom db hashing env user (n + 1) node s = ⟨s.apply u, calls, [(node, u)], true⟩ := by
  rw [runFrom, h]
  simp only [hn]

theorem runFrom_stop {node : Node} {s : QikiAgentState} {r : NodeResult}
    {calls : List ExternalCall} (n : ℕ)
    (h : runNode db hashing env user node s = (r, calls)) (hr : ∀ u, r ≠ .update u) :
    runFrom db hashing env user (n + 1) node s = ⟨s, calls, [], false⟩ := by
  rw [runFrom, h]
  cases r with
  | update u => exact absurd rfl (hr u)
  | raised failure => rfl
  | paused prompt => rfl

/-- The supersteps after a tool or the retriever has answered: the verifier, and the
responder with the one LLM call of the turn. -/
def respond (s : QikiAgentState) : TurnRun :=
  let verified := s.apply (verifier s)
  let call := ExternalCall.generate (lastHumanText verified) (systemPrompt env verified)
  match env.stream (lastHumanText verified) (systemPrompt env verified) with
  | .ok chunks => ⟨verified.apply (responder env chunks), [call],
      [(.verifier, verifier s), (.responder, responder env chunks)], true⟩
  | .error _ => ⟨verified, [call], [(.verifier, verifier s)], false⟩

theorem runFrom_verifier (n : ℕ) (s : QikiAgentState) :
    runFrom db hashing env user (n + 2) .verifier s = respond env s := by
  have hverify : runNode db hashing env user .verifier s = (.update (verifier s), []) := rfl
  have hnext : next .verifier (s.apply (verifier s)) = some .responder := rfl
  rw [runFrom_next db hashing env user (n + 1) hverify hnext]
  unfold respond
  dsimp only
  cases h : env.stream (lastHumanText (s.apply (verifier s)))
      (systemPrompt env (s.apply (verifier s))) with
  | ok chunks =>
    have hnode : runNode db hashing env user .responder (s.apply (verifier s)) =
        (.update (responder env chunks), [.generate (lastHumanText (s.apply (verifier s)))
          (systemPrompt env (s.apply (verifier s)))]) := by
      simp only [runNode, h]
    rw [runFrom_last db hashing env user n hnode rfl]
    rfl
  | error failure =>
    have hnode : runNode db hashing env user .responder (s.apply (verifier s)) =
        (.raised failure, [.generate (lastHumanText (s.apply (verifier s)))
          (systemPrompt env (s.apply (verifier s)))]) := by
      simp only [runNode, h]
    rw [runFrom_stop db hashing env user n hnode (by simp)]
    rfl

/-- One call of a public tool: it is invoked once and leaves one record. -/
theorem toolExecutor_public {d : ExecutorDeps} {sessionId : Text} {call : ToolCallRecord}
    {tool : ℕ → Tool} (g : GateState) (hp : getToolPolicy call.name = readPublic)
    (ht : d.tools call.name = some tool) :
    toolExecutor d sessionId [call] [] g =
      .done [(executeTool d sessionId tool call g).1]
        (executeTool d sessionId tool call g).2 := by
  simp [toolExecutor, executeCall, authorize, auditTool, hp, ht, readPublic]

theorem executeTool_executed (d : ExecutorDeps) (sessionId : Text) (tool : ℕ → Tool)
    (call : ToolCallRecord) (g : GateState) :
    (executeTool d sessionId tool call g).2.executed =
      g.executed ++ [⟨sessionId, d.currentUser, call.name, call.args,
        (executeTool d sessionId tool call g).1.ok⟩] := by
  simp [executeTool]

end Run

/-! The path of a turn. -/

theorem getToolPolicy_checkInventory : getToolPolicy "check_inventory" = readPublic := by decide

theorem getToolPolicy_lookupSafetyPolicy : getToolPolicy "lookup_safety_policy" = readPublic := by
  decide +kernel

theorem getToolPolicy_searchProducts : getToolPolicy "search_products" = readPublic := by decide

/-- The tools that the router may queue: all are built, and none needs a user or a
confirmation. -/
theorem routerCalls_cases (db : Unicode.Database) (c : Catalog) (k : Knowledge) (text : Text)
    (remembered : Option Text) :
    routerCalls db text remembered = [] ∨
      ∃ call tool, routerCalls db text remembered = [call] ∧
        getToolPolicy call.name = readPublic ∧ buildTools c k call.name = some tool := by
  unfold routerCalls
  dsimp only
  split
  · exact Or.inr ⟨_, checkInventory c, rfl, getToolPolicy_checkInventory, rfl⟩
  · split_ifs
    · exact Or.inr ⟨_, lookupSafetyPolicy k, rfl, getToolPolicy_lookupSafetyPolicy, rfl⟩
    · exact Or.inr ⟨_, searchProducts c, rfl, getToolPolicy_searchProducts, rfl⟩
    · exact Or.inl rfl

/-- The node that answers a message on a thread's checkpoint. -/
def route (db : Unicode.Database) (s : QikiAgentState) (content : Text) : Node :=
  if maxAgentTurns < s.turnCount + 1 then .turnLimit
  else if (checkQuery db content).isEmergency then .safetyEmergency
  else if (routerCalls db content (rememberedProductId s.toolResults)).isEmpty then .retriever
  else .toolExecutor

/-- The record that an invoked tool leaves. -/
def toolRecord (call : ToolCallRecord) (tool : Tool) : ToolResultRecord :=
  ⟨call.name, okOf (invokeTool tool call.args), invokeTool tool call.args⟩

section Turn
variable (db : Unicode.Database) (hashing : Hashing) (t : Turn) (s : QikiAgentState)

/-- The checkpoint after the first node. -/
def afterIntake : QikiAgentState :=
  (s.withInput t.input).apply (intakeGuardrail db (s.withInput t.input))

/-- The checkpoint after the router. -/
def afterRouter : QikiAgentState := (afterIntake db t s).apply (router db (afterIntake db t s))

@[simp] theorem lastHumanText_withInput : lastHumanText (s.withInput t.input) = t.input.content :=
  lastHumanText_of_append _ rfl

@[simp] theorem lastHumanText_afterIntake : lastHumanText (afterIntake db t s) = t.input.content :=
  lastHumanText_of_append _ (List.append_nil _)

@[simp] theorem lastHumanText_afterRouter : lastHumanText (afterRouter db t s) = t.input.content :=
  lastHumanText_of_append _ ((List.append_nil _).trans (List.append_nil _))

@[simp] theorem afterIntake_turnCount : (afterIntake db t s).turnCount = s.turnCount + 1 := rfl

@[simp] theorem afterRouter_turnCount : (afterRouter db t s).turnCount = s.turnCount + 1 := rfl

@[simp] theorem afterIntake_toolResults : (afterIntake db t s).toolResults = s.toolResults := rfl

@[simp] theorem afterRouter_toolResults : (afterRouter db t s).toolResults = s.toolResults := rfl

@[simp] theorem afterIntake_confidence : (afterIntake db t s).confidence = s.confidence := rfl

@[simp] theorem afterRouter_confidence : (afterRouter db t s).confidence = s.confidence := rfl

/-- The flags are those of the new message. -/
theorem afterIntake_emergency : (afterIntake db t s).safetyFlags.any (·.isEmergency) =
    (checkQuery db t.input.content).isEmergency := by
  show (checkQuery db (lastHumanText (s.withInput t.input))).isEmergency = _
  rw [lastHumanText_withInput]

/-- The router queues what the text and the remembered product give. -/
theorem afterRouter_toolCalls : (afterRouter db t s).toolCalls =
    routerCalls db t.input.content (rememberedProductId s.toolResults) := by
  show routerCalls db (lastHumanText (afterIntake db t s)) _ = _
  rw [lastHumanText_afterIntake]
  rfl

/-- A turn is the guardrail followed by the node it routes to. -/
theorem runTurn_intake {node : Node} (h : routeAfterIntake (afterIntake db t s) = node) :
    runTurn db hashing t s =
      { runFrom db hashing t.env t.input.user 24 node (afterIntake db t s) with
        writes := (.intakeGuardrail, intakeGuardrail db (s.withInput t.input)) ::
          (runFrom db hashing t.env t.input.user 24 node (afterIntake db t s)).writes } := by
  have hrun : runNode db hashing t.env t.input.user .intakeGuardrail (s.withInput t.input) =
      (.update (intakeGuardrail db (s.withInput t.input)), []) := rfl
  exact runFrom_next db hashing t.env t.input.user 24 hrun (congrArg some h)

theorem runTurn_turnLimit (h : route db s t.input.content = .turnLimit) :
    runTurn db hashing t s =
      ⟨(afterIntake db t s).apply (turnLimit (afterIntake db t s)), [],
        [(.intakeGuardrail, intakeGuardrail db (s.withInput t.input)),
          (.turnLimit, turnLimit (afterIntake db t s))], true⟩ := by
  have hroute : routeAfterIntake (afterIntake db t s) = .turnLimit := by
    unfold route at h
    split_ifs at h with h₁
    exact if_pos h₁
  rw [runTurn_intake db hashing t s hroute]
  rfl

theorem runTurn_safetyEmergency (h : route db s t.input.content = .safetyEmergency) :
    runTurn db hashing t s =
      ⟨(afterIntake db t s).apply (safetyEmergency (afterIntake db t s)), [],
        [(.intakeGuardrail, intakeGuardrail db (s.withInput t.input)),
          (.safetyEmergency, safetyEmergency (afterIntake db t s))], true⟩ := by
  have hroute : routeAfterIntake (afterIntake db t s) = .safetyEmergency := by
    unfold route at h
    split_ifs at h with h₁ h₂
    exact (if_neg h₁).trans (if_pos ((afterIntake_emergency db t s).trans h₂))
  rw [runTurn_intake db hashing t s hroute]
  rfl

/-- A turn that passes the guardrail runs the router. -/
theorem runTurn_router {node : Node} (h₁ : ¬ maxAgentTurns < s.turnCount + 1)
    (h₂ : ¬ (checkQuery db t.input.content).isEmergency = true)
    (hnode : routeAfterRouter (afterRouter db t s) = node) :
    runTurn db hashing t s =
      { runFrom db hashing t.env t.input.user 23 node (afterRouter db t s) with
        writes := (.intakeGuardrail, intakeGuardrail db (s.withInput t.input)) ::
          (.router, router db (afterIntake db t s)) ::
            (runFrom db hashing t.env t.input.user 23 node (afterRouter db t s)).writes } := by
  have hroute : routeAfterIntake (afterIntake db t s) = .router := by
    refine (if_neg h₁).trans (if_neg ?_)
    rw [afterIntake_emergency]
    exact h₂
  have hrun : runNode db hashing t.env t.input.user .router (afterIntake db t s) =
      (.update (router db (afterIntake db t s)), []) := rfl
  have hnext : next .router ((afterIntake db t s).apply (router db (afterIntake db t s))) =
      some node := congrArg some hnode
  rw [runTurn_intake db hashing t s hroute,
    runFrom_next db hashing t.env t.input.user 23 hrun hnext]
  rfl

theorem runTurn_retriever (h : route db s t.input.content = .retriever) :
    runTurn db hashing t s =
      match t.env.knowledge.retrieve t.input.content topK with
      | .ok documents =>
        let rest := respond t.env ((afterRouter db t s).apply (retrieverNode documents))
        { rest with
          calls := .retrieve t.input.content :: rest.calls
          writes := (.intakeGuardrail, intakeGuardrail db (s.withInput t.input)) ::
            (.router, router db (afterIntake db t s)) ::
            (.retriever, retrieverNode documents) :: rest.writes }
      | .error _ => ⟨afterRouter db t s, [.retrieve t.input.content],
          [(.intakeGuardrail, intakeGuardrail db (s.withInput t.input)),
            (.router, router db (afterIntake db t s))], false⟩ := by
  unfold route at h
  split_ifs at h with h₁ h₂ h₃
  have hnode : routeAfterRouter (afterRouter db t s) = .retriever := by
    rw [routeAfterRouter, afterRouter_toolCalls, if_pos h₃]
  rw [runTurn_router db hashing t s h₁ h₂ hnode]
  cases hr : t.env.knowledge.retrieve t.input.content topK with
  | ok documents =>
    have hrun : runNode db hashing t.env t.input.user .retriever (afterRouter db t s) =
        (.update (retrieverNode documents), [.retrieve t.input.content]) := by
      simp only [runNode, lastHumanText_afterRouter, hr]
    have hnext : next .retriever ((afterRouter db t s).apply (retrieverNode documents)) =
        some .verifier := rfl
    rw [runFrom_next db hashing t.env t.input.user 22 hrun hnext, runFrom_verifier]
    rfl
  | error failure =>
    have hrun : runNode db hashing t.env t.input.user .retriever (afterRouter db t s) =
        (.raised failure, [.retrieve t.input.content]) := by
      simp only [runNode, lastHumanText_afterRouter, hr]
    rw [runFrom_stop db hashing t.env t.input.user 22 hrun (by simp)]

theorem runTurn_toolExecutor (h : route db s t.input.content = .toolExecutor) :
    ∃ call tool,
      routerCalls db t.input.content (rememberedProductId s.toolResults) = [call] ∧
      buildTools t.env.catalog t.env.knowledge call.name = some tool ∧
      runTurn db hashing t s =
        let update : Update := { toolResults := some [toolRecord call tool] }
        let rest := respond t.env ((afterRouter db t s).apply update)
        { rest with
          calls := .tool call.name call.args :: rest.calls
          writes := (.intakeGuardrail, intakeGuardrail db (s.withInput t.input)) ::
            (.router, router db (afterIntake db t s)) ::
            (.toolExecutor, update) :: rest.writes } := by
  unfold route at h
  split_ifs at h with h₁ h₂ h₃
  obtain hnone | ⟨call, tool, hcalls, hpolicy, htool⟩ := routerCalls_cases db t.env.catalog
    t.env.knowledge t.input.content (rememberedProductId s.toolResults)
  · rw [hnone] at h₃
    exact absurd rfl h₃
  · refine ⟨call, tool, hcalls, htool, ?_⟩
    have hqueued : (afterRouter db t s).toolCalls = [call] := by
      rw [afterRouter_toolCalls, hcalls]
    have hnode : routeAfterRouter (afterRouter db t s) = .toolExecutor := by
      rw [routeAfterRouter, hqueued]
      rfl
    have hrun : runNode db hashing t.env t.input.user .toolExecutor (afterRouter db t s) =
        (.update { toolResults := some [toolRecord call tool] },
          [.tool call.name call.args]) := by
      have hbound : (executorDeps hashing t.env t.input.user).tools call.name =
          some fun _ => tool := by
        simp [executorDeps, htool]
      simp only [runNode, hqueued, toolExecutor_public { now := 0 } hpolicy hbound,
        executeTool_executed]
      rfl
    have hnext : next .toolExecutor ((afterRouter db t s).apply
        { toolResults := some [toolRecord call tool] }) = some .verifier := rfl
    rw [runTurn_router db hashing t s h₁ h₂ hnode,
      runFrom_next db hashing t.env t.input.user 22 hrun hnext, runFrom_verifier]
    rfl

/-- The four ways a turn can go. -/
theorem route_cases (content : Text) :
    route db s content = .turnLimit ∨ route db s content = .safetyEmergency ∨
      route db s content = .retriever ∨ route db s content = .toolExecutor := by
  unfold route
  split_ifs
  · exact Or.inl rfl
  · exact Or.inr (Or.inl rfl)
  · exact Or.inr (Or.inr (Or.inl rfl))
  · exact Or.inr (Or.inr (Or.inr rfl))

/-- The channels that neither the verifier nor the responder writes. -/
theorem respond_frame (env : Environment) (s : QikiAgentState) :
    (respond env s).state.turnCount = s.turnCount ∧
      (respond env s).state.toolResults = s.toolResults ∧
      humanTexts (respond env s).state = humanTexts s := by
  have hhuman : humanTexts (s.apply (verifier s)) = humanTexts s := by
    rw [apply_verifier]
    rfl
  unfold respond
  dsimp only
  split
  · refine ⟨?_, ?_, ?_⟩
    · rw [apply_responder_turnCount, apply_verifier]
    · rw [apply_verifier]
      rfl
    · rw [← hhuman]
      simp [humanTexts, QikiAgentState.apply, responder, Message.human?]
  · exact ⟨by rw [apply_verifier], by rw [apply_verifier], hhuman⟩

/-- Every turn counts once, whether or not it reaches its end. -/
theorem runTurn_turnCount : (runTurn db hashing t s).state.turnCount = s.turnCount + 1 := by
  rcases route_cases db s t.input.content with h | h | h | h
  · rw [runTurn_turnLimit db hashing t s h]
    rfl
  · rw [runTurn_safetyEmergency db hashing t s h]
    rfl
  · rw [runTurn_retriever db hashing t s h]
    split
    · dsimp only
      rw [(respond_frame _ _).1]
      rfl
    · rfl
  · obtain ⟨call, tool, -, -, hrun⟩ := runTurn_toolExecutor db hashing t s h
    rw [hrun]
    dsimp only
    rw [(respond_frame _ _).1]
    rfl

theorem runThread_append (turns : List Turn) :
    runThread db hashing (turns ++ [t]) =
      (runTurn db hashing t (runThread db hashing turns)).state := by
  simp [runThread]

theorem runThread_turnCount (turns : List Turn) :
    (runThread db hashing turns).turnCount = turns.length := by
  induction turns using List.reverseRecOn with
  | nil => rfl
  | append_singleton turns t ih =>
    rw [runThread_append, runTurn_turnCount, ih, List.length_append, List.length_singleton]

end Turn

end Qiki.Agent
