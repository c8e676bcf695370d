import Qiki.Agent.ToolExecutor
import Qiki.Transition.Run

/-! Attempts and resumes of gated tool calls: which approvals the executions spend. -/
namespace Qiki.Agent

open Transition Orders

/-- The tools and the hashing of a service with a confirm gate, and whether it has an audit
repository. -/
structure Service where
  hashing : Hashing
  tools : Text → Option (ℕ → Tool)
  auditRepository : Bool

def Service.deps (v : Service) (user : Option Uuid) : ExecutorDeps :=
  ⟨v.hashing, v.tools, user, true, v.auditRepository⟩

/-- A thread that is paused at an interrupt, with the decisions of its resumes so far. -/
structure PausedTask where
  calls : List ToolCallRecord
  decisions : Decisions
  prompt : ConfirmPrompt
  deriving DecidableEq

def ConfirmPrompt.call (prompt : ConfirmPrompt) : ToolCallRecord := ⟨prompt.tool, prompt.args⟩

/-- What a confirmation is for: session, user, tool and arguments. -/
structure CallKey where
  sessionId : Text
  user : Option Uuid
  name : Text
  args : Json
  deriving DecidableEq

def Execution.key (e : Execution) : CallKey := ⟨e.sessionId, e.user, e.name, e.args⟩

/-- All threads of the service, with the approvals that have been given. -/
structure GateSystem where
  gate : GateState
  paused : Text → Option PausedTask := fun _ => none
  approvals : List CallKey := []

inductive Request
  | wait (seconds : ℕ)
  | attempt (sessionId : Text) (user : Option Uuid) (calls : List ToolCallRecord)
  | resume (sessionId : Text) (user : Option Uuid) (decision : Json)

/-- The decision approves this call of this user. -/
def Approves (h : Hashing) (sessionId : Text) (user : Uuid) (call : ToolCallRecord)
    (decision : Json) : Prop :=
  approved decision = true ∧ decision.get "pending_token" =
    some (.str (derivePendingToken h sessionId (uuidText user) call.name call.args))

instance (h : Hashing) (sessionId : Text) (user : Uuid) (call : ToolCallRecord)
    (decision : Json) : Decidable (Approves h sessionId user call decision) :=
  inferInstanceAs (Decidable (_ ∧ _))

/-- The pending record of the call is there and has not run out. -/
def GateState.HasPending (g : GateState) (h : Hashing) (sessionId : Text) (user : Uuid)
    (call : ToolCallRecord) : Prop :=
  (g.livePending (derivePendingToken h sessionId (uuidText user) call.name call.args)).any
    (fun record => record.userId = uuidText user && record.toolName = call.name &&
      record.args = call.args) = true

instance (g : GateState) (h : Hashing) (sessionId : Text) (user : Uuid)
    (call : ToolCallRecord) : Decidable (g.HasPending h sessionId user call) :=
  inferInstanceAs (Decidable (_ = true))

section Service
variable (v : Service)

/-- The approval that a resume gives: it answers the prompt of the paused thread, for the
resuming user, within the life of the pending record. -/
def approvalsGiven (s : GateSystem) (sessionId : Text) (user : Option Uuid)
    (task : PausedTask) (decision : Json) : List CallKey :=
  match user with
  | none => []
  | some u =>
    if Approves v.hashing sessionId u task.prompt.call decision ∧
        s.gate.HasPending v.hashing sessionId u task.prompt.call then
      [⟨sessionId, some u, task.prompt.tool, task.prompt.args⟩]
    else []

/-- The node on a thread: the thread is paused or is done. An exception rolls the audit rows of
the request back, and the thread stays paused with the decisions it has received. -/
def GateSystem.runNode (s : GateSystem) (sessionId : Text) (user : Option Uuid)
    (calls : List ToolCallRecord) (decisions : Decisions) : GateSystem :=
  match toolExecutor (v.deps user) sessionId calls decisions s.gate with
  | .done _ g => { s with
      gate := g
      paused := Function.update s.paused sessionId none }
  | .interrupted prompt g => { s with
      gate := g
      paused := Function.update s.paused sessionId (some ⟨calls, decisions, prompt⟩) }
  | .raised g => { s with
      gate := { g with audits := s.gate.audits }
      paused := Function.update s.paused sessionId
        ((s.paused sessionId).map fun task => { task with decisions := decisions }) }

/-- One request. A new attempt on a paused thread drops the interrupt. -/
def serve (s : GateSystem) : Request → GateSystem
  | .wait seconds => { s with gate := { s.gate with now := s.gate.now + seconds } }
  | .attempt sessionId user calls => s.runNode v sessionId user calls []
  | .resume sessionId user decision =>
    match s.paused sessionId with
    | none => s
    | some task =>
      GateSystem.runNode v
        { s with approvals := s.approvals ++ approvalsGiven v s sessionId user task decision }
        sessionId user task.calls (task.decisions ++ [decision])

/-- The requests of a service that starts at a time. -/
def serveAll (now : Timestamp) (requests : List Request) : GateSystem :=
  requests.foldl (serve v) { gate := { now := now } }

end Service

/-- A tool that must be confirmed: by its policy, or because it has no registry entry. -/
def NeedsApproval (name : Text) : Prop :=
  (getToolPolicy name).requiresConfirm = true ∨ toolAuthRegistry.lookup name = none

instance (name : Text) : Decidable (NeedsApproval name) := inferInstanceAs (Decidable (_ ∨ _))

/-- The executions that needed an approval, oldest first. -/
def GateState.confirmed (g : GateState) : List Execution :=
  g.executed.filter fun e => NeedsApproval e.name

/-- The entry that an execution should leave in the audit log. -/
def Execution.audit (e : Execution) : Option Uuid × Text × Json := (e.user, e.name, e.args)

def AuditEntry.call (a : AuditEntry) : Option Uuid × Text × Json := (some a.adminId, a.tool, a.args)

/-- Every confirmed execution has an approval of its own, was made for a signed-in user, and
has one audit entry if it succeeded. -/
structure ConfirmedOnce (s : GateSystem) : Prop where
  approved : ∀ key, (s.gate.confirmed.map Execution.key).count key ≤ s.approvals.count key
  signedIn : ∀ e ∈ s.gate.confirmed, e.user.isSome = true
  audited : s.gate.audits.map AuditEntry.call =
    (s.gate.confirmed.filter (·.ok)).map Execution.audit

theorem needsApproval_iff (name : Text) :
    NeedsApproval name ↔ (getToolPolicy name).requiresConfirm = true := by
  constructor
  · rintro (h | h)
    · exact h
    · rw [getToolPolicy, h]
      rfl
  · exact Or.inl

/-! The gate. -/

@[simp] theorem storePending_executed (g : GateState) (token : Text) (record : PendingRecord) :
    (g.storePending token record).executed = g.executed := rfl

@[simp] theorem storePending_audits (g : GateState) (token : Text) (record : PendingRecord) :
    (g.storePending token record).audits = g.audits := rfl

/-- A record that has just been stored is live. -/
theorem livePending_storePending (g : GateState) (token : Text) (record : PendingRecord)
    (h : g.now < record.expiresAt) :
    (g.storePending token record).livePending token = some record := by
  have hnow : (g.storePending token record).now = g.now := rfl
  rw [GateState.livePending, hnow, GateState.storePending, List.lookup_cons_self,
    Option.filter_some]
  simp [h]

/-- The decision on a gated call: its record has been stored in the same run. -/
def gateDecision (h : Hashing) (sessionId : Text) (user : Uuid) (call : ToolCallRecord)
    (decision : Json) (g : GateState) : AuthDecision × GateState :=
  let token := derivePendingToken h sessionId (uuidText user) call.name call.args
  applyDecision call.name call.args (uuidText user) token decision
    (g.storePending token ⟨uuidText user, call.name, call.args, .obj [],
      g.now + pendingTtlSeconds⟩)

/-- Behind the interrupt a call is allowed exactly when the decision approves it. -/
theorem gateDecision_cases (h : Hashing) (sessionId : Text) (user : Uuid)
    (call : ToolCallRecord) (decision : Json) (g : GateState) :
    (gateDecision h sessionId user call decision g).2.executed = g.executed ∧
      (gateDecision h sessionId user call decision g).2.audits = g.audits ∧
      (Approves h sessionId user call decision ∧
          (gateDecision h sessionId user call decision g).1 = .allowed (some (.obj [])) ∨
        ¬ Approves h sessionId user call decision ∧
          ∃ refused, (gateDecision h sessionId user call decision g).1 = .refused refused) := by
  set token := derivePendingToken h sessionId (uuidText user) call.name call.args with htoken
  set stored := g.storePending token ⟨uuidText user, call.name, call.args, .obj [],
    g.now + pendingTtlSeconds⟩ with hstored
  have hlive : stored.livePending token =
      some ⟨uuidText user, call.name, call.args, .obj [], g.now + pendingTtlSeconds⟩ :=
    livePending_storePending g token _ (Nat.lt_add_of_pos_right (by decide))
  unfold gateDecision applyDecision
  dsimp only
  rw [← htoken, ← hstored]
  by_cases happroved : approved decision = true
  · rw [if_neg (by rw [happroved]; decide)]
    by_cases htoken : decision.get "pending_token" = some (.str token)
    · rw [if_neg (not_not_intro htoken), GateState.claimPending, hlive]
      dsimp only
      rw [if_neg (by simp)]
      exact ⟨rfl, rfl, Or.inl ⟨⟨happroved, htoken⟩, rfl⟩⟩
    · rw [if_pos htoken]
      exact ⟨rfl, rfl, Or.inr ⟨fun ha => htoken ha.2, _, rfl⟩⟩
  · rw [if_pos (by rw [Bool.eq_false_iff.mpr happroved]; decide)]
    exact ⟨rfl, rfl, Or.inr ⟨fun ha => happroved ha.1, _, rfl⟩⟩

/-! The node. -/

/-- The confirmed executions that succeeded. -/
def GateState.succeeded (g : GateState) : List Execution := g.confirmed.filter (·.ok)

/-- Succeeded executions that needed an approval and the audit log, side by side. -/
def GateState.Audited (g : GateState) : Prop :=
  g.audits.map AuditEntry.call = g.succeeded.map Execution.audit

def GateState.SignedIn (g : GateState) : Prop := ∀ e ∈ g.confirmed, e.user.isSome = true

/-- From one gate state to a later one the confirmed executions grow by these. -/
structure Adds (keys : List CallKey) (g g' : GateState) : Prop where
  confirmed : g'.confirmed.map Execution.key = g.confirmed.map Execution.key ++ keys
  signedIn : g.SignedIn → g'.SignedIn
  succeeded : g.succeeded.length ≤ g'.succeeded.length
  kept : keys = [] → g'.succeeded = g.succeeded ∧ g'.audits = g.audits

theorem Adds.of_eq {g g' : GateState} (he : g'.confirmed = g.confirmed)
    (ha : g'.audits = g.audits) : Adds [] g g' := by
  have hsucceeded : g'.succeeded = g.succeeded := by rw [GateState.succeeded, he]; rfl
  refine ⟨by rw [he, List.append_nil], fun h => ?_, by rw [hsucceeded], fun _ => ⟨hsucceeded, ha⟩⟩
  rw [GateState.SignedIn, he]
  exact h

theorem Adds.trans {keys keys' : List CallKey} {g g' g'' : GateState} (h : Adds keys g g')
    (h' : Adds keys' g' g'') : Adds (keys ++ keys') g g'' := by
  refine ⟨by rw [h'.confirmed, h.confirmed, List.append_assoc],
    fun hs => h'.signedIn (h.signedIn hs), h.succeeded.trans h'.succeeded, fun hnil => ?_⟩
  obtain ⟨hkeys, hkeys'⟩ := List.append_eq_nil_iff.mp hnil
  exact ⟨(h'.kept hkeys').1.trans (h.kept hkeys).1, (h'.kept hkeys').2.trans (h.kept hkeys).2⟩

theorem Adds.audited {g g' : GateState} (h : Adds [] g g') (ha : g.Audited) : g'.Audited := by
  rw [GateState.Audited, (h.kept rfl).1, (h.kept rfl).2]
  exact ha

theorem confirmed_append (g : GateState) (e : Execution) :
    ({ g with executed := g.executed ++ [e] } : GateState).confirmed =
      g.confirmed ++ if NeedsApproval e.name then [e] else [] := by
  unfold GateState.confirmed
  rw [List.filter_append]
  by_cases h : NeedsApproval e.name <;> simp [h]

section Node
variable (v : Service) (sessionId : Text) (user : Option Uuid)

/-- The calls that stop at the gate. -/
def Gated (call : ToolCallRecord) : Prop :=
  (v.tools call.name).isSome = true ∧ NeedsApproval call.name

instance (call : ToolCallRecord) : Decidable (Gated v call) := inferInstanceAs (Decidable (_ ∧ _))

def gatedCalls (calls : List ToolCallRecord) : List ToolCallRecord :=
  calls.filter fun call => Gated v call

/-- The calls that a node run executes: the gated calls take the decisions in order. -/
def approvedCalls (calls : List ToolCallRecord) (decisions : Decisions) : List CallKey :=
  match user with
  | none => []
  | some u => (((gatedCalls v calls).zip decisions).filter fun p =>
      Approves v.hashing sessionId u p.1 p.2).map fun p => ⟨sessionId, some u, p.1.name, p.1.args⟩

/-- The tool's answer to a call when there have been `n` invocations. -/
def answerTo (call : ToolCallRecord) (n : ℕ) : Json :=
  match v.tools call.name with
  | none => .null
  | some tool => invokeTool (tool n) call.args

/-- The state after the invocation of a call. -/
def afterCall (call : ToolCallRecord) (g : GateState) : GateState :=
  { g with executed := g.executed ++ [⟨sessionId, user, call.name, call.args,
      okOf (answerTo v call g.executed.length)⟩] }

theorem executeTool_eq {tool : ℕ → Tool} {call : ToolCallRecord}
    (htool : v.tools call.name = some tool) (g : GateState) :
    executeTool (v.deps user) sessionId tool call g =
      (⟨call.name, okOf (answerTo v call g.executed.length), answerTo v call g.executed.length⟩,
        afterCall v sessionId user call g) := by
  simp [executeTool, afterCall, answerTo, htool, Service.deps]

/-- A tool that needs no approval adds nothing. -/
theorem afterCall_open (call : ToolCallRecord) (g : GateState) (h : ¬ NeedsApproval call.name) :
    Adds [] g (afterCall v sessionId user call g) := by
  refine Adds.of_eq ?_ rfl
  rw [afterCall, confirmed_append, if_neg h, List.append_nil]

/-- A confirmed call adds its key. -/
theorem afterCall_confirmed (u : Uuid) (call : ToolCallRecord) (g : GateState)
    (h : NeedsApproval call.name) :
    (afterCall v sessionId (some u) call g).confirmed = g.confirmed ++
      [⟨sessionId, some u, call.name, call.args, okOf (answerTo v call g.executed.length)⟩] := by
  rw [afterCall, confirmed_append, if_pos h]

theorem authorize_open {policy : ToolAuthPolicy} {name : Text} {args : Json}
    (decisions : Decisions) (g : GateState) (h : policy.requiresConfirm = false) :
    (user = none ∧ ∃ refused, authorize (v.deps user) policy sessionId name args decisions g =
      .done (.refused refused, decisions) g) ∨
    authorize (v.deps user) policy sessionId name args decisions g =
      .done (.allowed none, decisions) g := by
  unfold authorize
  split_ifs with hauth hconfirm
  · exact Or.inl ⟨by simpa [Service.deps, h] using (Bool.and_eq_true_iff.mp hauth).2, _, rfl⟩
  · exact Or.inr rfl
  · exact absurd hconfirm (by rw [h]; decide)
  · exact absurd hconfirm (by rw [h]; decide)

theorem authorize_guest {policy : ToolAuthPolicy} {name : Text} {args : Json}
    (decisions : Decisions) (g : GateState) (h : policy.requiresConfirm = true) :
    authorize (v.deps none) policy sessionId name args decisions g =
      .done (.refused authRequiredResult, decisions) g := by
  unfold authorize
  rw [if_pos (by rw [h]; simp [Service.deps])]

theorem authorize_gated {policy : ToolAuthPolicy} {name : Text} {args : Json} (u : Uuid)
    (decisions : Decisions) (g : GateState) (h : policy.requiresConfirm = true) :
    authorize (v.deps (some u)) policy sessionId name args decisions g =
      runConfirmGate (v.deps (some u)) sessionId name args u decisions g := by
  unfold authorize
  rw [if_neg (by simp [Service.deps]), if_neg (by rw [h]; decide), if_neg (by simp [Service.deps])]
  rfl

/-- A call that stops at no gate: a known tool is invoked once for a signed-in user. -/
theorem executeCall_open {call : ToolCallRecord} (decisions : Decisions) (g : GateState)
    (h : ¬ Gated v call) :
    ∃ record g', executeCall (v.deps user) sessionId call decisions g =
        .done (record, decisions) g' ∧ Adds [] g g' ∧
      (user.isSome = true → g'.executed.length =
        g.executed.length + if (v.tools call.name).isSome = true then 1 else 0) := by
  unfold executeCall
  cases htool : v.tools call.name with
  | none =>
    have hd : (v.deps user).tools call.name = none := htool
    rw [hd]
    exact ⟨_, g, rfl, Adds.of_eq rfl rfl, fun _ => rfl⟩
  | some tool =>
    have hd : (v.deps user).tools call.name = some tool := htool
    have hname : ¬ NeedsApproval call.name := fun hn => h ⟨by rw [htool]; rfl, hn⟩
    have hconfirm : (getToolPolicy call.name).requiresConfirm = false :=
      Bool.eq_false_iff.mpr fun hc => hname ((needsApproval_iff call.name).mpr hc)
    rw [hd]
    dsimp only
    rcases authorize_open v sessionId user decisions g hconfirm with ⟨hguest, refused, hr⟩ | hr
    · rw [hr]
      exact ⟨_, g, rfl, Adds.of_eq rfl rfl, fun hs => by simp [hguest] at hs⟩
    · rw [hr]
      dsimp only
      rw [executeTool_eq v sessionId user htool]
      have haudit : ∀ record, auditTool (v.deps user) call none record
          (afterCall v sessionId user call g) = some (afterCall v sessionId user call g) := by
        intro record
        cases hok : record.ok <;> simp [auditTool, hok]
      dsimp only
      rw [haudit]
      exact ⟨_, _, rfl, afterCall_open v sessionId user call g hname, fun _ => by simp [afterCall]⟩

theorem executeCall_guest {call : ToolCallRecord} (decisions : Decisions) (g : GateState)
    (h : Gated v call) :
    executeCall (v.deps none) sessionId call decisions g =
      .done (⟨call.name, false, authRequiredResult⟩, decisions) g := by
  obtain ⟨tool, htool⟩ := Option.isSome_iff_exists.mp h.1
  have hd : (v.deps none).tools call.name = some tool := htool
  unfold executeCall
  rw [hd]
  dsimp only
  rw [authorize_guest v sessionId decisions g ((needsApproval_iff call.name).mp h.2)]

theorem runConfirmGate_cons (u : Uuid) (call : ToolCallRecord) (decision : Json)
    (rest : Decisions) (g : GateState) :
    runConfirmGate (v.deps (some u)) sessionId call.name call.args u (decision :: rest) g =
      .done ((gateDecision v.hashing sessionId u call decision g).1, rest)
        (gateDecision v.hashing sessionId u call decision g).2 := rfl

theorem executeCall_stops (u : Uuid) {call : ToolCallRecord} (g : GateState) (h : Gated v call) :
    ∃ prompt g', executeCall (v.deps (some u)) sessionId call [] g = .interrupted prompt g' ∧
      prompt.call = call ∧ Adds [] g g' := by
  obtain ⟨tool, htool⟩ := Option.isSome_iff_exists.mp h.1
  have hd : (v.deps (some u)).tools call.name = some tool := htool
  unfold executeCall
  rw [hd]
  dsimp only
  rw [authorize_gated v sessionId u _ g ((needsApproval_iff call.name).mp h.2)]
  exact ⟨_, _, rfl, rfl, Adds.of_eq rfl rfl⟩

/-- A decision that does not approve the call leaves the executions and the log. -/
theorem executeCall_declined (u : Uuid) {call : ToolCallRecord} {decision : Json}
    (rest : Decisions) (g : GateState) (h : Gated v call)
    (hno : ¬ Approves v.hashing sessionId u call decision) :
    ∃ record g', executeCall (v.deps (some u)) sessionId call (decision :: rest) g =
        .done (record, rest) g' ∧ g'.executed = g.executed ∧ g'.audits = g.audits := by
  obtain ⟨tool, htool⟩ := Option.isSome_iff_exists.mp h.1
  have hd : (v.deps (some u)).tools call.name = some tool := htool
  unfold executeCall
  rw [hd]
  dsimp only
  rw [authorize_gated v sessionId u _ g ((needsApproval_iff call.name).mp h.2)]
  obtain ⟨hexecuted, haudits, ⟨hyes, -⟩ | ⟨-, refused, hresult⟩⟩ :=
    gateDecision_cases v.hashing sessionId u call decision g
  · exact absurd hyes hno
  · rw [runConfirmGate_cons, hresult]
    exact ⟨_, _, rfl, hexecuted, haudits⟩

/-- The table refuses the audit row of a confirmed call with this answer. -/
def AuditRefused (u : Uuid) (call : ToolCallRecord) (result : Json) : Prop :=
  okOf result = true ∧ v.auditRepository = true ∧ ¬ (auditEntry u call (.obj []) result).Fits

theorem auditTool_refused {u : Uuid} {call : ToolCallRecord} {result : Json} (g : GateState)
    (h : AuditRefused v u call result) :
    auditTool (v.deps (some u)) call (some (.obj [])) ⟨call.name, okOf result, result⟩ g = none := by
  obtain ⟨hok, hwired, hfits⟩ := h
  simp [auditTool, recordAudit, Service.deps, hok, hwired, hfits]

theorem auditTool_written {u : Uuid} {call : ToolCallRecord} {result : Json} (g : GateState)
    (h : ¬ AuditRefused v u call result) :
    auditTool (v.deps (some u)) call (some (.obj [])) ⟨call.name, okOf result, result⟩ g =
      some { g with audits := g.audits ++ if okOf result = true ∧ v.auditRepository = true then
        [auditEntry u call (.obj []) result] else [] } := by
  by_cases hok : okOf result = true
  · by_cases hwired : v.auditRepository = true
    · have hfits : (auditEntry u call (.obj []) result).Fits :=
        by_contra fun hfits => h ⟨hok, hwired, hfits⟩
      simp [auditTool, recordAudit, Service.deps, hok, hwired, hfits]
    · simp [auditTool, recordAudit, Service.deps, hok, hwired]
  · simp [auditTool, hok]

/-- An approved call is executed; then its audit row is written, or it ends the run. -/
theorem executeCall_approved (u : Uuid) {call : ToolCallRecord} {decision : Json}
    (rest : Decisions) (g : GateState) (h : Gated v call)
    (hyes : Approves v.hashing sessionId u call decision) {result : Json}
    (hresult : answerTo v call g.executed.length = result) :
    ∃ g', g'.confirmed = g.confirmed ++
        [⟨sessionId, some u, call.name, call.args, okOf result⟩] ∧
      (AuditRefused v u call result →
        executeCall (v.deps (some u)) sessionId call (decision :: rest) g = .raised g') ∧
      (¬ AuditRefused v u call result →
        (∃ record, executeCall (v.deps (some u)) sessionId call (decision :: rest) g =
          .done (record, rest) g') ∧
        g'.audits = g.audits ++ if okOf result = true ∧ v.auditRepository = true then
          [auditEntry u call (.obj []) result] else []) := by
  obtain ⟨tool, htool⟩ := Option.isSome_iff_exists.mp h.1
  have hd : (v.deps (some u)).tools call.name = some tool := htool
  obtain ⟨hexecuted, haudits, ⟨-, hallowed⟩ | ⟨hno, -⟩⟩ :=
    gateDecision_cases v.hashing sessionId u call decision g
  swap
  · exact absurd hyes hno
  set claimed := (gateDecision v.hashing sessionId u call decision g).2 with hclaimed
  have hanswer : answerTo v call claimed.executed.length = result := by rw [hexecuted, hresult]
  have hconfirmed : (afterCall v sessionId (some u) call claimed).confirmed =
      g.confirmed ++ [⟨sessionId, some u, call.name, call.args, okOf result⟩] := by
    rw [afterCall_confirmed v sessionId u call claimed h.2, hanswer, GateState.confirmed, hexecuted]
    rfl
  have hrun : ∀ next, auditTool (v.deps (some u)) call (some (.obj []))
        ⟨call.name, okOf result, result⟩ (afterCall v sessionId (some u) call claimed) = next →
      executeCall (v.deps (some u)) sessionId call (decision :: rest) g =
        next.elim (.raised (afterCall v sessionId (some u) call claimed))
          fun g' => .done (⟨call.name, okOf result, result⟩, rest) g' := by
    intro next hnext
    unfold executeCall
    rw [hd]
    dsimp only
    rw [authorize_gated v sessionId u _ g ((needsApproval_iff call.name).mp h.2)]
    rw [runConfirmGate_cons, hallowed]
    dsimp only
    rw [← hclaimed, executeTool_eq v sessionId (some u) htool, hanswer]
    dsimp only
    rw [hnext]
    cases next <;> rfl
  by_cases hrefused : AuditRefused v u call result
  · refine ⟨_, hconfirmed, fun _ => ?_, fun hc => absurd hrefused hc⟩
    exact hrun none (auditTool_refused v _ hrefused)
  · refine ⟨{ afterCall v sessionId (some u) call claimed with
      audits := claimed.audits ++ if okOf result = true ∧ v.auditRepository = true then
        [auditEntry u call (.obj []) result] else [] }, hconfirmed, fun hc => absurd hc hrefused,
      fun _ => ⟨⟨_, hrun _ (auditTool_written v _ hrefused)⟩, ?_⟩⟩
    rw [haudits]

/-- What one call of the loop can do: it passes the gate by, it stops at the gate, it takes the
next decision, or its audit row ends the run. -/
theorem executeCall_cases (call : ToolCallRecord) (decisions : Decisions) (g : GateState) :
    (∃ record g', executeCall (v.deps user) sessionId call decisions g =
        .done (record, decisions) g' ∧ Adds [] g g' ∧ (Gated v call → user = none)) ∨
    (∃ u prompt g', user = some u ∧ Gated v call ∧ decisions = [] ∧ prompt.call = call ∧
      executeCall (v.deps user) sessionId call decisions g = .interrupted prompt g' ∧
      Adds [] g g') ∨
    (∃ u decision rest record g', user = some u ∧ Gated v call ∧ decisions = decision :: rest ∧
      executeCall (v.deps user) sessionId call decisions g = .done (record, rest) g' ∧
      Adds (if Approves v.hashing sessionId u call decision then
        [⟨sessionId, some u, call.name, call.args⟩] else []) g g') ∨
    (∃ u decision rest g', user = some u ∧ Gated v call ∧ decisions = decision :: rest ∧
      Approves v.hashing sessionId u call decision ∧
      executeCall (v.deps user) sessionId call decisions g = .raised g' ∧
      g.succeeded.length < g'.succeeded.length) := by
  by_cases hgated : Gated v call
  · cases user with
    | none =>
      exact Or.inl ⟨_, g, executeCall_guest v sessionId decisions g hgated, Adds.of_eq rfl rfl,
        fun _ => rfl⟩
    | some u =>
      cases decisions with
      | nil =>
        obtain ⟨prompt, g', hrun, hprompt, hadds⟩ := executeCall_stops v sessionId u g hgated
        exact Or.inr (Or.inl ⟨u, prompt, g', rfl, hgated, rfl, hprompt, hrun, hadds⟩)
      | cons decision rest =>
        by_cases hyes : Approves v.hashing sessionId u call decision
        · obtain ⟨g', hconfirmed, hrefused, hwritten⟩ :=
            executeCall_approved v sessionId u rest g hgated hyes rfl
          have hsucceeded : g'.succeeded = g.succeeded ++
              if okOf (answerTo v call g.executed.length) = true then
                [⟨sessionId, some u, call.name, call.args, true⟩] else [] := by
            rw [GateState.succeeded, hconfirmed, List.filter_append]
            cases okOf (answerTo v call g.executed.length) <;> rfl
          by_cases hr : AuditRefused v u call (answerTo v call g.executed.length)
          · refine Or.inr (Or.inr (Or.inr ⟨u, decision, rest, g', rfl, hgated, rfl, hyes,
              hrefused hr, ?_⟩))
            rw [hsucceeded, if_pos hr.1, List.length_append]
            exact Nat.lt_add_one _
          · obtain ⟨⟨record, hrun⟩, -⟩ := hwritten hr
            refine Or.inr (Or.inr (Or.inl ⟨u, decision, rest, record, g', rfl, hgated, rfl, hrun, ?_⟩))
            rw [if_pos hyes]
            refine ⟨by rw [hconfirmed, List.map_append]; rfl, fun hs e he => ?_, ?_,
              fun hc => absurd hc (List.cons_ne_nil _ _)⟩
            · rw [hconfirmed, List.mem_append, List.mem_singleton] at he
              rcases he with he | rfl
              · exact hs e he
              · rfl
            · rw [hsucceeded, List.length_append]
              exact Nat.le_add_right _ _
        · obtain ⟨record, g', hrun, hexecuted, haudits⟩ :=
            executeCall_declined v sessionId u rest g hgated hyes
          refine Or.inr (Or.inr (Or.inl ⟨u, decision, rest, record, g', rfl, hgated, rfl, hrun, ?_⟩))
          rw [if_neg hyes]
          exact Adds.of_eq (by rw [GateState.confirmed, hexecuted]; rfl) haudits
  · obtain ⟨record, g', hrun, hadds, -⟩ := executeCall_open v sessionId user decisions g hgated
    exact Or.inl ⟨record, g', hrun, hadds, fun h => absurd h hgated⟩

/-- The gate state that a run leaves. -/
def NodeRun.gate {α : Type} : NodeRun α → GateState
  | .done _ g => g
  | .interrupted _ g => g
  | .raised g => g

/-- A run whose result is read further. -/
def NodeRun.map {α β : Type} (f : α → β) : NodeRun α → NodeRun β
  | .done a g => .done (f a) g
  | .interrupted prompt g => .interrupted prompt g
  | .raised g => .raised g

@[simp] theorem NodeRun.gate_map {α β : Type} (f : α → β) (r : NodeRun α) :
    (r.map f).gate = r.gate := by cases r <;> rfl

@[simp] theorem NodeRun.map_eq_interrupted {α β : Type} {f : α → β} {r : NodeRun α}
    {prompt : ConfirmPrompt} {g : GateState} :
    r.map f = .interrupted prompt g ↔ r = .interrupted prompt g := by
  cases r <;> simp [NodeRun.map]

@[simp] theorem NodeRun.map_eq_raised {α β : Type} {f : α → β} {r : NodeRun α} {g : GateState} :
    r.map f = .raised g ↔ r = .raised g := by
  cases r <;> simp [NodeRun.map]

/-- The loop goes on after a call that is done. -/
theorem toolExecutor_done {call : ToolCallRecord} {decisions rest : Decisions}
    {g g' : GateState} {record : ToolResultRecord}
    (h : executeCall (v.deps user) sessionId call decisions g = .done (record, rest) g')
    (calls : List ToolCallRecord) :
    toolExecutor (v.deps user) sessionId (call :: calls) decisions g =
      (toolExecutor (v.deps user) sessionId calls rest g').map (record :: ·) := by
  rw [toolExecutor, h]
  dsimp only
  cases toolExecutor (v.deps user) sessionId calls rest g' <;> rfl

theorem approvedCalls_open {call : ToolCallRecord} (h : ¬ Gated v call)
    (calls : List ToolCallRecord) (decisions : Decisions) :
    approvedCalls v sessionId user (call :: calls) decisions =
      approvedCalls v sessionId user calls decisions := by
  simp [approvedCalls, gatedCalls, h]

theorem approvedCalls_nil (calls : List ToolCallRecord) :
    approvedCalls v sessionId user calls [] = [] := by
  cases user <;> simp [approvedCalls]

theorem approvedCalls_cons {call : ToolCallRecord} (h : Gated v call) (u : Uuid)
    (calls : List ToolCallRecord) (decision : Json) (rest : Decisions) :
    approvedCalls v sessionId (some u) (call :: calls) (decision :: rest) =
      (if Approves v.hashing sessionId u call decision then
        [⟨sessionId, some u, call.name, call.args⟩] else []) ++
      approvedCalls v sessionId (some u) calls rest := by
  by_cases ha : Approves v.hashing sessionId u call decision <;>
    simp [approvedCalls, gatedCalls, h, ha]

/-- A node run executes the gated calls whose decision approves them, and pauses at the first
gated call without a decision; or an audit row ends it behind an approved call. -/
theorem toolExecutor_adds (calls : List ToolCallRecord) (decisions : Decisions) (g : GateState) :
    ((∃ g', toolExecutor (v.deps user) sessionId calls decisions g = .raised g' ∧
        g.succeeded.length < g'.succeeded.length) ∧
      approvedCalls v sessionId user calls decisions ≠ []) ∨
    (Adds (approvedCalls v sessionId user calls decisions) g
        (toolExecutor (v.deps user) sessionId calls decisions g).gate ∧
      (∀ g', toolExecutor (v.deps user) sessionId calls decisions g ≠ .raised g') ∧
      ∀ prompt g', toolExecutor (v.deps user) sessionId calls decisions g =
          .interrupted prompt g' →
        user ≠ none ∧ (gatedCalls v calls)[decisions.length]? = some prompt.call) := by
  induction calls generalizing decisions g with
  | nil =>
    have hnone : approvedCalls v sessionId user [] decisions = [] := by cases user <;> rfl
    rw [hnone, toolExecutor]
    exact Or.inr ⟨Adds.of_eq rfl rfl, fun _ hc => (by cases hc), fun _ _ hc => (by cases hc)⟩
  | cons call calls ih =>
    rcases executeCall_cases v sessionId user call decisions g with
      ⟨record, g₁, hrun, hadds, hopen⟩ | ⟨u, prompt, g₁, hu, hgated, hd, hprompt, hrun, hadds⟩ |
      ⟨u, decision, rest, record, g₁, hu, hgated, hd, hrun, hadds⟩ |
      ⟨u, decision, rest, g₁, hu, hgated, hd, hyes, hrun, hgrown⟩
    · rw [toolExecutor_done v sessionId user hrun calls, NodeRun.gate_map]
      simp only [NodeRun.map_eq_raised, NodeRun.map_eq_interrupted, ne_eq]
      by_cases hg : Gated v call
      · -- only a guest passes the gate by, and a guest run neither pauses nor raises
        have hguest := hopen hg
        subst hguest
        rcases ih decisions g₁ with ⟨-, hne⟩ | ⟨htail, hraised, hprompt⟩
        · exact absurd rfl hne
        · exact Or.inr ⟨hadds.trans htail, hraised,
            fun prompt g' hc => absurd rfl (hprompt prompt g' hc).1⟩
      · have hcalls : gatedCalls v (call :: calls) = gatedCalls v calls := by
          simp [gatedCalls, hg]
        rw [approvedCalls_open v sessionId user hg, hcalls]
        rcases ih decisions g₁ with ⟨⟨g', hraised, hgrown⟩, hne⟩ | ⟨htail, hrest⟩
        · exact Or.inl ⟨⟨g', hraised, hadds.succeeded.trans_lt hgrown⟩, hne⟩
        · exact Or.inr ⟨hadds.trans htail, hrest⟩
    · subst hu hd
      have hstop : toolExecutor (v.deps (some u)) sessionId (call :: calls) [] g =
          .interrupted prompt g₁ := by rw [toolExecutor, hrun]
      rw [hstop, approvedCalls_nil]
      refine Or.inr ⟨hadds, fun _ hc => (by cases hc), fun prompt' g' hc => ?_⟩
      cases hc
      exact ⟨Option.some_ne_none u, by simp [gatedCalls, hgated, hprompt]⟩
    · subst hu hd
      have hcalls : gatedCalls v (call :: calls) = call :: gatedCalls v calls := by
        simp [gatedCalls, hgated]
      rw [toolExecutor_done v sessionId (some u) hrun calls, NodeRun.gate_map,
        approvedCalls_cons v sessionId hgated, hcalls, List.length_cons, List.getElem?_cons_succ]
      simp only [NodeRun.map_eq_raised, NodeRun.map_eq_interrupted, ne_eq]
      rcases ih rest g₁ with ⟨⟨g', hraised, hgrown⟩, hne⟩ | ⟨htail, hrest⟩
      · exact Or.inl ⟨⟨g', hraised, hadds.succeeded.trans_lt hgrown⟩,
          fun hc => hne (List.append_eq_nil_iff.mp hc).2⟩
      · exact Or.inr ⟨hadds.trans htail, hrest⟩
    · subst hu hd
      have hraise : toolExecutor (v.deps (some u)) sessionId (call :: calls) (decision :: rest) g =
          .raised g₁ := by rw [toolExecutor, hrun]
      refine Or.inl ⟨⟨g₁, hraise, hgrown⟩, ?_⟩
      rw [approvedCalls_cons v sessionId hgated, if_pos hyes]
      exact List.cons_ne_nil _ _

/-- The invocations before the gated call with this number, when no decision before it approves:
the known calls that stop at no gate. -/
def opensBefore : List ToolCallRecord → ℕ → ℕ
  | [], _ => 0
  | call :: calls, n =>
    if Gated v call then
      match n with
      | 0 => 0
      | n + 1 => opensBefore calls n
    else (if (v.tools call.name).isSome = true then 1 else 0) + opensBefore calls n

/-- When the first decision that approves is the one of the prompted call, the run executes that
call at this invocation, and what becomes of its audit row decides what it leaves. -/
theorem toolExecutor_prompted (u : Uuid) {calls : List ToolCallRecord} {decisions : Decisions}
    {call : ToolCallRecord} {decision : Json} (g : GateState)
    (hprompt : (gatedCalls v calls)[decisions.length]? = some call)
    (hnone : approvedCalls v sessionId (some u) calls decisions = [])
    (hyes : Approves v.hashing sessionId u call decision) {result : Json}
    (hresult : answerTo v call (g.executed.length + opensBefore v calls decisions.length) =
      result) :
    (AuditRefused v u call result →
      ∃ g', toolExecutor (v.deps (some u)) sessionId calls (decisions ++ [decision]) g =
        .raised g') ∧
    (¬ AuditRefused v u call result →
      (∀ g', toolExecutor (v.deps (some u)) sessionId calls (decisions ++ [decision]) g ≠
        .raised g') ∧
      (toolExecutor (v.deps (some u)) sessionId calls (decisions ++ [decision]) g).gate.succeeded =
        g.succeeded ++ (if okOf result = true then
          [⟨sessionId, some u, call.name, call.args, true⟩] else []) ∧
      (toolExecutor (v.deps (some u)) sessionId calls (decisions ++ [decision]) g).gate.audits =
        g.audits ++ if okOf result = true ∧ v.auditRepository = true then
          [auditEntry u call (.obj []) result] else []) := by
  induction calls generalizing decisions g with
  | nil => simp [gatedCalls] at hprompt
  | cons head calls ih =>
    by_cases hgated : Gated v head
    · have hcalls : gatedCalls v (head :: calls) = head :: gatedCalls v calls := by
        simp [gatedCalls, hgated]
      rw [hcalls] at hprompt
      cases decisions with
      | nil =>
        obtain rfl : head = call := by simpa using hprompt
        have hcount : answerTo v head g.executed.length = result := by
          simpa [opensBefore, hgated] using hresult
        obtain ⟨g', hconfirmed, hrefused, hwritten⟩ :=
          executeCall_approved v sessionId u [] g hgated hyes hcount
        constructor
        · intro hr
          exact ⟨g', by rw [List.nil_append, toolExecutor, hrefused hr]⟩
        · intro hr
          obtain ⟨⟨record, hrun⟩, haudits⟩ := hwritten hr
          rw [List.nil_append, toolExecutor_done v sessionId (some u) hrun calls, NodeRun.gate_map]
          simp only [ne_eq, NodeRun.map_eq_raised]
          -- without a decision the rest of the calls changes neither the executions nor the log
          rcases toolExecutor_adds v sessionId (some u) calls [] g' with
            ⟨-, hne⟩ | ⟨htail, hraised, -⟩
          · exact absurd (approvedCalls_nil v sessionId (some u) calls) hne
          · obtain ⟨hsucceeded, hsame⟩ := htail.kept (approvedCalls_nil v sessionId (some u) calls)
            rw [hsucceeded, hsame, haudits, GateState.succeeded, hconfirmed, List.filter_append]
            refine ⟨hraised, ?_, rfl⟩
            cases okOf result <;> rfl
      | cons first rest =>
        rw [approvedCalls_cons v sessionId hgated, List.append_eq_nil_iff] at hnone
        have hno : ¬ Approves v.hashing sessionId u head first := by
          intro hc
          rw [if_pos hc] at hnone
          exact absurd hnone.1 (List.cons_ne_nil _ _)
        obtain ⟨record, g', hrun, hexecuted, haudits⟩ :=
          executeCall_declined v sessionId u (rest ++ [decision]) g hgated hno
        have hsucceeded : g'.succeeded = g.succeeded := by
          rw [GateState.succeeded, GateState.confirmed, hexecuted]
          rfl
        rw [List.cons_append, toolExecutor_done v sessionId (some u) hrun calls]
        have hrest := ih g' (by simpa using hprompt) hnone.2
          (by simpa [opensBefore, hgated, hexecuted] using hresult)
        rw [hsucceeded, haudits] at hrest
        simpa using hrest
    · have hcalls : gatedCalls v (head :: calls) = gatedCalls v calls := by
        simp [gatedCalls, hgated]
      obtain ⟨record, g', hrun, hadds, hcount⟩ :=
        executeCall_open v sessionId (some u) (decisions ++ [decision]) g hgated
      obtain ⟨hsucceeded, haudits⟩ := hadds.kept rfl
      rw [approvedCalls_open v sessionId (some u) hgated] at hnone
      rw [toolExecutor_done v sessionId (some u) hrun calls]
      have hopens : opensBefore v (head :: calls) decisions.length =
          (if (v.tools head.name).isSome = true then 1 else 0) +
            opensBefore v calls decisions.length := by
        cases decisions <;> simp [opensBefore, hgated]
      have hrest := ih g' (hcalls ▸ hprompt) hnone
        (by rw [← hresult, hcount rfl, hopens, Nat.add_assoc])
      rw [hsucceeded, haudits] at hrest
      simpa using hrest

end Node

/-! Runs of requests. -/

section Requests
variable (v : Service)

/-- The prompted call of a paused thread, executed on the next decision, leaves its audit entry if
it succeeds: there is a repository, and the table takes the row. -/
def AuditKept (s : GateSystem) (u : Uuid) (task : PausedTask) : Prop :=
  let result := answerTo v task.prompt.call
    (s.gate.executed.length + opensBefore v task.calls task.decisions.length)
  okOf result = true →
    v.auditRepository = true ∧ (auditEntry u task.prompt.call (.obj []) result).Fits

/-- What a resume must meet: no earlier decision of the thread approves a call of the
resuming user, and an approval of the prompt comes while its pending record is live and for a call
whose audit entry can be written. -/
def MayServe (s : GateSystem) : Request → Prop
  | .resume sessionId (some u) decision =>
    ∀ task, s.paused sessionId = some task →
      (∀ p ∈ (gatedCalls v task.calls).zip task.decisions,
        ¬ Approves v.hashing sessionId u p.1 p.2) ∧
      (Approves v.hashing sessionId u task.prompt.call decision →
        s.gate.HasPending v.hashing sessionId u task.prompt.call ∧ AuditKept v s u task)
  | _ => True

/-- The confirmed executions are the approvals, one for one; a paused thread waits for the
decision on its next gated call. -/
structure Spent (s : GateSystem) : Prop where
  spent : s.gate.confirmed.map Execution.key = s.approvals
  signedIn : s.gate.SignedIn
  audited : s.gate.Audited
  prompts : ∀ thread task, s.paused thread = some task →
    (gatedCalls v task.calls)[task.decisions.length]? = some task.prompt.call

theorem Spent.confirmedOnce {s : GateSystem} (h : Spent v s) : ConfirmedOnce s :=
  ⟨fun key => by rw [h.spent], h.signedIn, h.audited⟩

/-- A node run on a thread adds the approved calls, and its prompt is the next gated call; or it
raises behind an approved call, and then a succeeded execution has no audit entry. -/
theorem runNode_cases (s : GateSystem) (sessionId : Text) (user : Option Uuid)
    (calls : List ToolCallRecord) (decisions : Decisions) :
    ((∃ g, toolExecutor (v.deps user) sessionId calls decisions s.gate = .raised g) ∧
      approvedCalls v sessionId user calls decisions ≠ [] ∧
      (s.gate.Audited → ¬ (s.runNode v sessionId user calls decisions).gate.Audited)) ∨
    ((∀ g, toolExecutor (v.deps user) sessionId calls decisions s.gate ≠ .raised g) ∧
      (s.runNode v sessionId user calls decisions).gate =
        (toolExecutor (v.deps user) sessionId calls decisions s.gate).gate ∧
      Adds (approvedCalls v sessionId user calls decisions) s.gate
        (s.runNode v sessionId user calls decisions).gate ∧
      (s.runNode v sessionId user calls decisions).approvals = s.approvals ∧
      ((∀ thread task, s.paused thread = some task →
          (gatedCalls v task.calls)[task.decisions.length]? = some task.prompt.call) →
        ∀ thread task, (s.runNode v sessionId user calls decisions).paused thread = some task →
          (gatedCalls v task.calls)[task.decisions.length]? = some task.prompt.call)) := by
  have hcases := toolExecutor_adds v sessionId user calls decisions s.gate
  unfold GateSystem.runNode
  cases hrun : toolExecutor (v.deps user) sessionId calls decisions s.gate with
  | done records g =>
    rw [hrun] at hcases
    rcases hcases with ⟨⟨g', hc, -⟩, -⟩ | ⟨hadds, -, -⟩
    · cases hc
    refine Or.inr ⟨fun _ hc => (by cases hc), rfl, hadds, rfl, fun hold thread task ht => ?_⟩
    by_cases hs : thread = sessionId
    · subst hs
      simp at ht
    · exact hold thread task (by simpa [hs] using ht)
  | interrupted prompt g =>
    rw [hrun] at hcases
    rcases hcases with ⟨⟨g', hc, -⟩, -⟩ | ⟨hadds, -, hprompt⟩
    · cases hc
    refine Or.inr ⟨fun _ hc => (by cases hc), rfl, hadds, rfl, fun hold thread task ht => ?_⟩
    by_cases hs : thread = sessionId
    · subst hs
      simp only [Function.update_self, Option.some.injEq] at ht
      rw [← ht]
      exact (hprompt prompt g rfl).2
    · exact hold thread task (by simpa [hs] using ht)
  | raised g =>
    rw [hrun] at hcases
    rcases hcases with ⟨⟨g', hc, hgrown⟩, hne⟩ | ⟨-, hc, -⟩
    · cases hc
      refine Or.inl ⟨⟨g, rfl⟩, hne, fun haudited hkept => ?_⟩
      have hbefore := congrArg List.length haudited
      have hafter := congrArg List.length hkept
      rw [List.length_map, List.length_map] at hbefore hafter
      have hsame : ({ g with audits := s.gate.audits } : GateState).succeeded = g.succeeded := rfl
      rw [hsame] at hafter
      dsimp only at hafter
      omega
    · exact absurd rfl (hc g)

theorem zip_concat {α β : Type*} {xs : List α} {ys : List β} {x : α} (y : β)
    (h : xs[ys.length]? = some x) : xs.zip (ys ++ [y]) = xs.zip ys ++ [(x, y)] := by
  induction ys generalizing xs with
  | nil =>
    cases xs with
    | nil => simp at h
    | cons x' xs =>
      simp only [List.length_nil, List.getElem?_cons_zero, Option.some.injEq] at h
      rw [h]
      simp
  | cons y' ys ih =>
    cases xs with
    | nil => simp at h
    | cons x' xs =>
      rw [List.length_cons, List.getElem?_cons_succ] at h
      simp [ih h]

/-- The key of a call that is confirmed in a session. -/
def keyOf (sessionId : Text) (u : Uuid) (call : ToolCallRecord) : CallKey :=
  ⟨sessionId, some u, call.name, call.args⟩

/-- A resume executes what the earlier decisions approve again, and then the prompt. -/
theorem approvedCalls_resume (sessionId : Text) (u : Uuid) {task : PausedTask}
    (h : (gatedCalls v task.calls)[task.decisions.length]? = some task.prompt.call)
    (decision : Json) :
    approvedCalls v sessionId (some u) task.calls (task.decisions ++ [decision]) =
      approvedCalls v sessionId (some u) task.calls task.decisions ++
        if Approves v.hashing sessionId u task.prompt.call decision then
          [keyOf sessionId u task.prompt.call] else [] := by
  unfold approvedCalls
  dsimp only
  rw [zip_concat decision h, List.filter_append, List.map_append]
  by_cases ha : Approves v.hashing sessionId u task.prompt.call decision <;> simp [ha, keyOf]

theorem approvedCalls_eq_nil (sessionId : Text) (u : Uuid) (calls : List ToolCallRecord)
    (decisions : Decisions) :
    approvedCalls v sessionId (some u) calls decisions = [] ↔
      ∀ p ∈ (gatedCalls v calls).zip decisions, ¬ Approves v.hashing sessionId u p.1 p.2 := by
  simp [approvedCalls]

/-- The two ways a resume goes wrong: it replays an approval, or the approval is late. -/
theorem count_le_iff (keys replayed : List CallKey) (key : CallKey) {approves live : Prop}
    [Decidable approves] [Decidable live] :
    (∀ k, (keys ++ (replayed ++ if approves then [key] else [])).count k ≤
        (keys ++ if approves ∧ live then [key] else []).count k) ↔
      replayed = [] ∧ (approves → live) := by
  constructor
  · intro h
    have hgrow : ∀ k, replayed.count k + (if approves then [key] else []).count k ≤
        (if approves ∧ live then [key] else []).count k := fun k => by
      have := h k
      simp only [List.count_append] at this
      omega
    have hle : ∀ k, (if approves ∧ live then [key] else []).count k ≤
        (if approves then [key] else []).count k := fun k => by
      by_cases ha : approves
      · by_cases hl : live <;> simp [ha, hl]
      · simp [ha]
    constructor
    · refine List.eq_nil_iff_forall_not_mem.mpr fun k hk => ?_
      have := hgrow k
      have := hle k
      have := List.count_pos_iff.mpr hk
      omega
    · intro ha
      by_contra hl
      have := hgrow key
      simp [ha, hl] at this
  · rintro ⟨rfl, hlive⟩ k
    by_cases ha : approves
    · simp [ha, hlive ha]
    · simp [ha]

theorem serve_resume {s : GateSystem} (sessionId : Text) (user : Option Uuid) {task : PausedTask}
    (ht : s.paused sessionId = some task) (decision : Json) :
    serve v s (.resume sessionId user decision) = GateSystem.runNode v
      { s with approvals := s.approvals ++ approvalsGiven v s sessionId user task decision }
      sessionId user task.calls (task.decisions ++ [decision]) := by
  rw [serve, ht]

/-- A node run that approves nothing keeps the ledger. -/
theorem spent_runNode {s t : GateSystem} (h : Spent v s) (hgate : t.gate = s.gate)
    (hpaused : t.paused = s.paused) (happrovals : t.approvals = s.approvals) {sessionId : Text}
    {user : Option Uuid} {calls : List ToolCallRecord} {decisions : Decisions}
    (hnone : approvedCalls v sessionId user calls decisions = []) :
    Spent v (t.runNode v sessionId user calls decisions) := by
  rcases runNode_cases v t sessionId user calls decisions with
    ⟨-, hne, -⟩ | ⟨-, -, hadds, happ, hprompts⟩
  · exact absurd hnone hne
  · rw [hnone, hgate] at hadds
    refine ⟨?_, hadds.signedIn h.signedIn, hadds.audited h.audited,
      hprompts (hpaused ▸ h.prompts)⟩
    rw [hadds.confirmed, List.append_nil, h.spent, happ, happrovals]

/-- Only a signed-in user's resume of a paused thread can break the ledger. -/
theorem serve_cases {s : GateSystem} (h : Spent v s) (r : Request) :
    MayServe v s r ∧ Spent v (serve v s r) ∨
      ∃ sessionId u task decision, r = .resume sessionId (some u) decision ∧
        s.paused sessionId = some task := by
  cases r with
  | wait seconds => exact Or.inl ⟨trivial, h.spent, h.signedIn, h.audited, h.prompts⟩
  | attempt sessionId user calls =>
    exact Or.inl ⟨trivial, spent_runNode v h rfl rfl rfl (approvedCalls_nil v sessionId user calls)⟩
  | resume sessionId user decision =>
    cases ht : s.paused sessionId with
    | none =>
      have hsame : serve v s (.resume sessionId user decision) = s := by rw [serve, ht]
      rw [hsame]
      refine Or.inl ⟨?_, h⟩
      cases user with
      | none => trivial
      | some u =>
        intro task ht'
        rw [ht] at ht'
        cases ht'
    | some task =>
      cases user with
      | none =>
        rw [serve_resume v sessionId none ht decision]
        have hgiven : approvalsGiven v s sessionId none task decision = [] := rfl
        rw [hgiven, List.append_nil]
        exact Or.inl ⟨trivial, spent_runNode v h rfl rfl rfl rfl⟩
      | some u => exact Or.inr ⟨sessionId, u, task, decision, rfl, ht⟩

/-- A resume that meets the guard keeps the ledger. -/
theorem spent_serve {s : GateSystem} (h : Spent v s) {r : Request} (hg : MayServe v s r) :
    Spent v (serve v s r) := by
  rcases serve_cases v h r with ⟨-, hspent⟩ | ⟨sessionId, u, task, decision, rfl, ht⟩
  · exact hspent
  obtain ⟨hreplayed, happroves⟩ := hg task ht
  have hnone := (approvedCalls_eq_nil v sessionId u _ _).mpr hreplayed
  have hcalls := approvedCalls_resume v sessionId u (h.prompts _ _ ht) decision
  rw [hnone, List.nil_append] at hcalls
  rw [serve_resume v sessionId (some u) ht decision]
  by_cases hyes : Approves v.hashing sessionId u task.prompt.call decision
  · obtain ⟨hlive, hkept⟩ := happroves hyes
    rw [if_pos hyes] at hcalls
    have hgiven : approvalsGiven v s sessionId (some u) task decision =
        [keyOf sessionId u task.prompt.call] := if_pos ⟨hyes, hlive⟩
    rw [hgiven]
    rw [AuditKept] at hkept
    obtain ⟨result, hresult⟩ : ∃ result, answerTo v task.prompt.call
        (s.gate.executed.length + opensBefore v task.calls task.decisions.length) = result :=
      ⟨_, rfl⟩
    rw [hresult] at hkept
    obtain ⟨hraised, hsucceeded, haudits⟩ :=
      (toolExecutor_prompted v sessionId u s.gate (h.prompts _ _ ht) hnone hyes hresult).2
        fun hr => hr.2.2 (hkept hr.1).2
    rcases runNode_cases v { s with
        approvals := s.approvals ++ [keyOf sessionId u task.prompt.call] } sessionId (some u)
      task.calls (task.decisions ++ [decision]) with
      ⟨⟨g, hc⟩, -⟩ | ⟨-, hgate, hadds, happrovals, hprompts⟩
    · exact absurd hc (hraised g)
    · refine ⟨?_, hadds.signedIn h.signedIn, ?_, hprompts h.prompts⟩
      · rw [hadds.confirmed, h.spent, happrovals, hcalls]
      · rw [hgate, GateState.Audited, hsucceeded, haudits, List.map_append, List.map_append,
          h.audited]
        by_cases hok : okOf result = true
        · rw [if_pos ⟨hok, (hkept hok).1⟩, if_pos hok]
          rfl
        · rw [if_neg fun hc => hok hc.1, if_neg hok]
          rfl
  · rw [if_neg hyes] at hcalls
    have hgiven : approvalsGiven v s sessionId (some u) task decision = [] :=
      if_neg fun hc => hyes hc.1
    rw [hgiven, List.append_nil]
    exact spent_runNode v h rfl rfl rfl hcalls

/-- A resume that leaves every confirmed execution with its approval and its entry meets the
guard. -/
theorem mayServe_of_confirmedOnce {s : GateSystem} (h : Spent v s) {r : Request}
    (hok : ConfirmedOnce (serve v s r)) : MayServe v s r := by
  rcases serve_cases v h r with ⟨hmay, -⟩ | ⟨sessionId, u, task, decision, rfl, ht⟩
  · exact hmay
  rw [serve_resume v sessionId (some u) ht decision] at hok
  rcases runNode_cases v { s with
      approvals := s.approvals ++ approvalsGiven v s sessionId (some u) task decision } sessionId
    (some u) task.calls (task.decisions ++ [decision]) with
    ⟨-, -, hc⟩ | ⟨hraised, hgate, hadds, happrovals, -⟩
  · exact absurd hok.audited (hc h.audited)
  have hcount := hok.approved
  rw [hadds.confirmed, happrovals, approvedCalls_resume v sessionId u (h.prompts _ _ ht) decision,
    h.spent] at hcount
  obtain ⟨hnone, hlive⟩ := (count_le_iff s.approvals _ (keyOf sessionId u task.prompt.call)).mp
    hcount
  intro task' ht'
  cases ht.symm.trans ht'
  refine ⟨(approvedCalls_eq_nil v sessionId u _ _).mp hnone, fun hyes => ⟨hlive hyes, ?_⟩⟩
  rw [AuditKept]
  obtain ⟨result, hresult⟩ : ∃ result, answerTo v task.prompt.call
      (s.gate.executed.length + opensBefore v task.calls task.decisions.length) = result :=
    ⟨_, rfl⟩
  obtain ⟨hrefused, hwritten⟩ :=
    toolExecutor_prompted v sessionId u s.gate (h.prompts _ _ ht) hnone hyes hresult
  have hfits : ¬ AuditRefused v u task.prompt.call result := by
    intro hr
    obtain ⟨g', hc⟩ := hrefused hr
    exact hraised g' hc
  obtain ⟨-, hsucceeded, haudits⟩ := hwritten hfits
  rw [hresult]
  intro hsucc
  have hwired : v.auditRepository = true := by
    -- without a repository the log stays as it is, beside one more succeeded execution
    by_contra hunwired
    have hafter := congrArg List.length hok.audited
    have hbefore := congrArg List.length h.audited
    rw [hgate] at hafter
    change List.length (List.map _ _) = List.length (List.map _ (GateState.succeeded _)) at hafter
    rw [List.length_map, List.length_map, haudits, hsucceeded, if_neg fun hc => hunwired hc.2,
      if_pos hsucc, List.append_nil, List.length_append, List.length_singleton] at hafter
    rw [List.length_map, List.length_map] at hbefore
    omega
  exact ⟨hwired, by_contra fun hc => hfits ⟨hsucc, hwired, hc⟩⟩

/-- For one request: it keeps the ledger right exactly when it meets the guard. -/
theorem mayServe_iff {s : GateSystem} (h : Spent v s) (r : Request) :
    MayServe v s r ↔ ConfirmedOnce (serve v s r) :=
  ⟨fun hg => (spent_serve v h hg).confirmedOnce, mayServe_of_confirmedOnce v h⟩

/-- For every run of requests: every confirmed execution has an approval of its own in every
state reached exactly when every resume meets the guard. -/
theorem confirmedOnce_iff (now : Timestamp) (requests : List Request) :
    (∀ before, before <+: requests → ConfirmedOnce (serveAll v now before)) ↔
      Guarded (fun s r => some (serve v s r)) (MayServe v) { gate := { now := now } } requests := by
  have hstart : Spent v { gate := { now := now } } :=
    ⟨rfl, fun _ he => (nomatch he), rfl, fun _ _ ht => (nomatch ht)⟩
  have hgood : ∀ s, Spent v s → ConfirmedOnce s := fun s h => h.confirmedOnce
  have hstep : ∀ s r, Spent v s → (MayServe v s r ↔ ConfirmedOnce (serve v s r)) :=
    fun s r h => mayServe_iff v h r
  have hspent : ∀ s r, Spent v s → MayServe v s r → Spent v (serve v s r) :=
    fun s r h hg => spent_serve v h hg
  exact guarded_iff_forall_prefix hgood hstep hspent hstart requests

end Requests

/-- A payment and a refund tool, neither with a registry entry; each succeeds. -/
def paymentService : Service where
  hashing := ⟨id, fun _ => "\x7b\x7d"⟩
  tools := fun name => if name = "pay" ∨ name = "refund" then
    some fun _ _ => .ok (.obj [("ok", .bool true)]) else none
  auditRepository := true

/-- One turn queues both; user 1 approves the payment and declines the refund. -/
def payThenDecline : List Request := [
  .attempt "s1" (some 1) [⟨"pay", .obj []⟩, ⟨"refund", .obj []⟩],
  .resume "s1" (some 1) (.obj [("approved", .bool true),
    ("pending_token", .str (derivePendingToken paymentService.hashing "s1" "1" "pay" (.obj [])))]),
  .resume "s1" (some 1) (.obj [("approved", .bool false)])]

theorem paid_twice : ((serveAll paymentService 0 payThenDecline).gate.confirmed.map
      Execution.key).count ⟨"s1", some 1, "pay", .obj []⟩ = 2 ∧
    (serveAll paymentService 0 payThenDecline).approvals.count
      ⟨"s1", some 1, "pay", .obj []⟩ = 1 := by
  decide +kernel

/-- One approval of the payment, two executions: the second resume runs the first again. -/
theorem approval_spent_twice :
    ¬ ∀ (v : Service) (now : Timestamp) (requests : List Request),
      ConfirmedOnce (serveAll v now requests) := by
  intro h
  have hcount := (h paymentService 0 payThenDecline).approved ⟨"s1", some 1, "pay", .obj []⟩
  rw [paid_twice.1, paid_twice.2] at hcount
  exact absurd hcount (by decide)

end Qiki.Agent
