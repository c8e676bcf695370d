import Qiki.Agent.Tools

/-! The `tool_executor` node with its authorization matrix and the Redis-backed confirm gate.
`interrupt()` pauses the node; on a resume the node runs again from its first line and the
earlier decisions are replayed in order. -/
namespace Qiki.Agent

def pendingTtlSeconds : ℕ := 300

/-- The record that `store_pending` keeps in Redis. -/
structure PendingRecord where
  userId : Text
  toolName : Text
  args : Json
  beforeSnapshot : Json
  expiresAt : Timestamp
  deriving DecidableEq

/-- `hashlib.sha256(...).hexdigest()` and `json.dumps(..., sort_keys=True)`. -/
structure Hashing where
  sha256 : Text → Text
  dumps : Json → Text

def derivePendingToken (h : Hashing) (sessionId userId toolName : Text) (args : Json) : Text :=
  (h.sha256 (sessionId ++ ":" ++ userId ++ ":" ++ toolName ++ ":" ++ h.dumps args)).take 32

/-- One invocation of a tool, with what it was called for. -/
structure Execution where
  sessionId : Text
  user : Option Uuid
  name : Text
  args : Json
  ok : Bool
  deriving DecidableEq

/-- `admin_audit_repository.record`, as `_record_audit` calls it. -/
structure AuditEntry where
  adminId : Uuid
  action : Text
  tool : Text
  args : Json
  before : Json
  result : Json
  deriving DecidableEq

/-- `action VARCHAR(50)` of `admin_audit_logs` -/
def auditActionLimit : ℕ := 50

/-- The `after` column. -/
def AuditEntry.after (e : AuditEntry) : Json :=
  .obj [("tool", .str e.tool), ("args", e.args), ("result", e.result)]

/-- The columns of `admin_audit_logs` take the entry. -/
def AuditEntry.Fits (e : AuditEntry) : Prop :=
  e.action.length ≤ auditActionLimit ∧ '\x00' ∉ e.action ∧ e.before.storable = true ∧
    e.after.storable = true

instance (e : AuditEntry) : Decidable e.Fits := inferInstanceAs (Decidable (_ ∧ _))

/-- What a run of the node reads and writes outside the checkpoint. -/
structure GateState where
  now : Timestamp
  pending : List (Text × PendingRecord) := []
  executed : List Execution := []
  audits : List AuditEntry := []
  deriving DecidableEq

/-- `setex`: an older record under the token is replaced. -/
def GateState.storePending (g : GateState) (token : Text) (record : PendingRecord) : GateState :=
  { g with pending := (token, record) :: g.pending.filter fun e => e.1 ≠ token }

/-- The live record under a token. -/
def GateState.livePending (g : GateState) (token : Text) : Option PendingRecord :=
  (g.pending.lookup token).filter fun record => g.now < record.expiresAt

/-- `claim_pending`: `GETDEL`. -/
def GateState.claimPending (g : GateState) (token : Text) : Option PendingRecord × GateState :=
  (g.livePending token, { g with pending := g.pending.filter fun e => e.1 ≠ token })

/-- The request-scoped dependencies of the node. A tool's answer may depend on how many
invocations there have been. -/
structure ExecutorDeps where
  hashing : Hashing
  tools : Text → Option (ℕ → Tool)
  currentUser : Option Uuid
  confirmGate : Bool
  auditRepository : Bool

/-- The payload of `interrupt()`. -/
structure ConfirmPrompt where
  tool : Text
  args : Json
  pendingToken : Text
  deriving DecidableEq

/-- A node run: it returns, it pauses at an interrupt, or an audit row that the table refuses ends
it with an exception. -/
inductive NodeRun (α : Type)
  | done (a : α) (g : GateState)
  | interrupted (prompt : ConfirmPrompt) (g : GateState)
  | raised (g : GateState)
  deriving DecidableEq

/-- The result of a refused call. -/
def refusal (error : Text) : Json := .obj [("ok", .bool false), ("error", .str error)]

def authRequiredResult : Json := .obj [("ok", .bool false),
  ("error", .str "authentication_required"),
  ("message", .str "This action requires a signed-in user.")]

/-- `_AuthDecision` -/
inductive AuthDecision
  | refused (result : Json)
  /-- `auditBefore` is there when a confirmation was approved in this run. -/
  | allowed (auditBefore : Option Json)
  deriving DecidableEq

/-- `decision.get("approved") is True` -/
def approved (decision : Json) : Bool := decision.get "approved" = some (.bool true)

/-- The part of `_run_confirm_gate` behind the interrupt: the decision must approve, name the
token, and find its pending record. -/
def applyDecision (name : Text) (args : Json) (userId token : Text) (decision : Json)
    (g : GateState) : AuthDecision × GateState :=
  if !approved decision then (.refused (refusal "confirmation_declined"), g)
  else if decision.get "pending_token" ≠ some (.str token) then
    (.refused (refusal "confirmation_invalid"), g)
  else match g.claimPending token with
    | (none, g) => (.refused (refusal "confirmation_expired"), g)
    | (some claimed, g) =>
      if claimed.userId ≠ userId ∨ ¬(claimed.toolName = name ∧ claimed.args = args) then
        (.refused (refusal "confirmation_invalid"), g)
      else (.allowed (some claimed.beforeSnapshot), g)

/-- The decisions that are left for the following interrupts of the node. -/
abbrev Decisions := List Json

def runConfirmGate (d : ExecutorDeps) (sessionId name : Text) (args : Json) (user : Uuid)
    (decisions : Decisions) (g : GateState) : NodeRun (AuthDecision × Decisions) :=
  let userId := uuidText user
  let token := derivePendingToken d.hashing sessionId userId name args
  let stored := g.storePending token ⟨userId, name, args, .obj [], g.now + pendingTtlSeconds⟩
  match decisions with
  | [] => .interrupted ⟨name, args, token⟩ stored
  | decision :: rest =>
    let (outcome, g) := applyDecision name args userId token decision stored
    .done (outcome, rest) g

def authorize (d : ExecutorDeps) (policy : ToolAuthPolicy) (sessionId name : Text) (args : Json)
    (decisions : Decisions) (g : GateState) : NodeRun (AuthDecision × Decisions) :=
  if (policy.requiresAuth || policy.requiresConfirm) && d.currentUser.isNone then
    .done (.refused authRequiredResult, decisions) g
  else if !policy.requiresConfirm then .done (.allowed none, decisions) g
  else if !d.confirmGate then .done (.refused (refusal "confirmation_unavailable"), decisions) g
  else match d.currentUser with
    | none => .done (.refused authRequiredResult, decisions) g
    | some user => runConfirmGate d sessionId name args user decisions g

/-- `result.get("ok", False)` -/
def okOf (result : Json) : Bool := (result.get "ok").any Json.truthy

/-- `tool.ainvoke(args)` inside `try/except`: a tool that raises gives a structured error. -/
def invokeTool (tool : Tool) (args : Json) : Json :=
  match tool args with
  | .ok result => result
  | .error message => toolError "tool_execution_failed" message

/-- The entry of a confirmed call. -/
def auditEntry (user : Uuid) (call : ToolCallRecord) (before result : Json) : AuditEntry :=
  ⟨user, "agent_tool:" ++ call.name, call.name, call.args, before, result⟩

/-- `_record_audit`; `none` when the flush of the row raises. -/
def recordAudit (d : ExecutorDeps) (call : ToolCallRecord) (before result : Json)
    (g : GateState) : Option GateState :=
  match d.auditRepository, d.currentUser with
  | true, some user =>
    let entry := auditEntry user call before result
    if entry.Fits then some { g with audits := g.audits ++ [entry] } else none
  | _, _ => some g

/-- The invocation of an authorized call. -/
def executeTool (d : ExecutorDeps) (sessionId : Text) (tool : ℕ → Tool) (call : ToolCallRecord)
    (g : GateState) : ToolResultRecord × GateState :=
  let result := invokeTool (tool g.executed.length) call.args
  let ok := okOf result
  (⟨call.name, ok, result⟩, { g with
    executed := g.executed ++ [⟨sessionId, d.currentUser, call.name, call.args, ok⟩] })

/-- `if ok and decision.audit_before is not None` -/
def auditTool (d : ExecutorDeps) (call : ToolCallRecord) (auditBefore : Option Json)
    (record : ToolResultRecord) (g : GateState) : Option GateState :=
  match record.ok, auditBefore with
  | true, some before => recordAudit d call before record.result g
  | _, _ => some g

/-- One turn of the loop of `tool_executor`. -/
def executeCall (d : ExecutorDeps) (sessionId : Text) (call : ToolCallRecord)
    (decisions : Decisions) (g : GateState) : NodeRun (ToolResultRecord × Decisions) :=
  match d.tools call.name with
  | none => .done (⟨call.name, false, .obj [("error", .str "unknown_tool")]⟩, decisions) g
  | some tool =>
    match authorize d (getToolPolicy call.name) sessionId call.name call.args decisions g with
    | .interrupted prompt g => .interrupted prompt g
    | .raised g => .raised g
    | .done (.refused result, decisions) g => .done (⟨call.name, false, result⟩, decisions) g
    | .done (.allowed auditBefore, decisions) g =>
      let (record, g) := executeTool d sessionId tool call g
      match auditTool d call auditBefore record g with
      | none => .raised g
      | some g => .done (record, decisions) g

/-- `tool_executor` on the calls of one turn, with the decisions of the resumes so far. -/
def toolExecutor (d : ExecutorDeps) (sessionId : Text) :
    List ToolCallRecord → Decisions → GateState → NodeRun (List ToolResultRecord)
  | [], _, g => .done [] g
  | call :: calls, decisions, g =>
    match executeCall d sessionId call decisions g with
    | .interrupted prompt g => .interrupted prompt g
    | .raised g => .raised g
    | .done (record, decisions) g =>
      match toolExecutor d sessionId calls decisions g with
      | .interrupted prompt g => .interrupted prompt g
      | .raised g => .raised g
      | .done records g => .done (record :: records) g

end Qiki.Agent
