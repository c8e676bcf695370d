import Qiki.Agent.Leftovers

/-! The tool calls of a thread do not depend on the LLM's replies or on the knowledge base. -/
namespace Qiki.Agent

open Safety

/-- Two turns with the same human message and the same catalog and stock. -/
structure SameQuestion (t t' : Turn) : Prop where
  input : t.input = t'.input
  catalog : t.env.catalog = t'.env.catalog

/-- The tool calls that the router queues, turn by turn, on a thread's checkpoint. -/
def queuedByTurn (db : Unicode.Database) (hashing : Hashing) :
    QikiAgentState → List Turn → List (List ToolCallRecord)
  | _, [] => []
  | s, t :: turns =>
    let run := runTurn db hashing t s
    queuedCalls run :: queuedByTurn db hashing run.state turns

/-- What the routing of later turns reads of a checkpoint. -/
structure Agree (s s' : QikiAgentState) : Prop where
  turnCount : s.turnCount = s'.turnCount
  remembered : rememberedProductId s.toolResults = rememberedProductId s'.toolResults

theorem route_agree (db : Unicode.Database) {s s' : QikiAgentState} (h : Agree s s')
    (content : Text) : route db s content = route db s' content := by
  unfold route
  rw [h.turnCount, h.remembered]

/-- Only the catalog decides which product a tool's record makes the thread remember. -/
theorem rememberedProductId_toolRecord {c : Catalog} {k k' : Knowledge} {call : ToolCallRecord}
    {tool tool' : Tool} (h : buildTools c k call.name = some tool)
    (h' : buildTools c k' call.name = some tool') :
    rememberedProductId [toolRecord call tool] = rememberedProductId [toolRecord call tool'] := by
  by_cases hname : call.name = "search_products"
  · have hbuilt : ∀ k, buildTools c k call.name = some (searchProducts c) := fun k => by
      rw [hname]
      rfl
    rw [hbuilt] at h h'
    rw [← Option.some.inj h, ← Option.some.inj h']
  · have hnone : ∀ record : ToolResultRecord, record.name = call.name →
        rememberedProductId [record] = none := fun record hr => by
      rw [rememberedProductId, List.reverse_singleton, List.find?_cons_of_neg, List.find?_nil]
      rw [hr]
      simpa only [decide_eq_true_eq] using hname
    rw [hnone _ rfl, hnone _ rfl]

section
variable (db : Unicode.Database) (hashing : Hashing)

/-- The calls of a turn depend on the message and on what the checkpoint remembers. -/
theorem queuedCalls_runTurn (t : Turn) (s : QikiAgentState) :
    queuedCalls (runTurn db hashing t s) =
      match route db s t.input.content with
      | .retriever => routerCalls db t.input.content (rememberedProductId s.toolResults)
      | .toolExecutor => routerCalls db t.input.content (rememberedProductId s.toolResults)
      | _ => [] := by
  have hrouter : (router db (afterIntake db t s)).toolCalls =
      some (routerCalls db t.input.content (rememberedProductId s.toolResults)) := by
    show some (routerCalls db (lastHumanText (afterIntake db t s)) _) = _
    rw [lastHumanText_afterIntake, afterIntake_toolResults]
  rcases route_cases db s t.input.content with h | h | h | h
  · rw [runTurn_turnLimit db hashing t s h, h]
    rfl
  · rw [runTurn_safetyEmergency db hashing t s h, h]
    rfl
  · rw [runTurn_retriever db hashing t s h, h]
    split <;> simp [queuedCalls, hrouter, intakeGuardrail]
  · obtain ⟨call, tool, -, -, hrun⟩ := runTurn_toolExecutor db hashing t s h
    rw [hrun, h]
    simp [queuedCalls, hrouter, intakeGuardrail]

/-- A turn without a tool leaves the tool results alone. -/
theorem runTurn_toolResults (t : Turn) (s : QikiAgentState)
    (h : route db s t.input.content ≠ .toolExecutor) :
    (runTurn db hashing t s).state.toolResults = s.toolResults := by
  rcases route_cases db s t.input.content with hr | hr | hr | hr
  · rw [runTurn_turnLimit db hashing t s hr]
    rfl
  · rw [runTurn_safetyEmergency db hashing t s hr]
    rfl
  · rw [runTurn_retriever db hashing t s hr]
    split
    · dsimp only
      rw [(respond_frame _ _).2.1]
      rfl
    · rfl
  · exact absurd hr h

/-- The step: turns that ask the same question keep the checkpoints in agreement. -/
theorem agree_runTurn {t t' : Turn} (hq : SameQuestion t t') {s s' : QikiAgentState}
    (h : Agree s s') :
    Agree (runTurn db hashing t s).state (runTurn db hashing t' s').state := by
  have hroute : route db s t.input.content = route db s' t'.input.content := by
    rw [hq.input]
    exact route_agree db h _
  refine ⟨by rw [runTurn_turnCount, runTurn_turnCount, h.turnCount], ?_⟩
  by_cases hr : route db s t.input.content = .toolExecutor
  · obtain ⟨call, tool, hcalls, htool, hrun⟩ := runTurn_toolExecutor db hashing t s hr
    obtain ⟨call', tool', hcalls', htool', hrun'⟩ :=
      runTurn_toolExecutor db hashing t' s' (hroute.symm.trans hr)
    have hcall : call = call' := by
      rw [hq.input, h.remembered, hcalls'] at hcalls
      exact (List.cons.inj hcalls).1.symm
    subst hcall
    rw [hrun, hrun']
    dsimp only
    rw [(respond_frame _ _).2.1, (respond_frame _ _).2.1]
    rw [hq.catalog] at htool
    exact rememberedProductId_toolRecord htool htool'
  · rw [runTurn_toolResults db hashing t s hr,
      runTurn_toolResults db hashing t' s' (fun hr' => hr (hroute.trans hr')), h.remembered]

theorem queuedByTurn_agree {turns turns' : List Turn} (hq : List.Forall₂ SameQuestion turns turns')
    {s s' : QikiAgentState} (h : Agree s s') :
    queuedByTurn db hashing s turns = queuedByTurn db hashing s' turns' := by
  induction hq generalizing s s' with
  | nil => rfl
  | @cons t t' turns turns' ht _ ih =>
    have hcalls : queuedCalls (runTurn db hashing t s) = queuedCalls (runTurn db hashing t' s') := by
      rw [queuedCalls_runTurn, queuedCalls_runTurn, ht.input, route_agree db h, h.remembered]
    rw [queuedByTurn, queuedByTurn, hcalls, ih (agree_runTurn db hashing ht h)]

/-- For every two runs from empty threads that ask the same questions over the same catalog:
whatever the LLM replies and the documents say, the same tool calls are queued. -/
theorem injection_cannot_steer {turns turns' : List Turn}
    (hq : List.Forall₂ SameQuestion turns turns') :
    queuedByTurn db hashing {} turns = queuedByTurn db hashing {} turns' :=
  queuedByTurn_agree db hashing hq ⟨rfl, rfl⟩

end

/-- The one product of a small catalog. -/
def elfCylinder : Orders.Product where
  id := 2
  sku := "ELF-12"
  name := "Gas Elf"
  brand := "Elf"
  sizeKg := 12
  category := .gas
  unit := "kg"
  price := 400000
  salePrice := none
  stockQuantity := 10
  isActive := true

def elfEnvironment : Environment :=
  { quietEnvironment with
    catalog := ⟨fun _ => .ok (1, [elfCylinder]), fun _ => .ok elfCylinder, fun _ _ => .ok []⟩ }

/-- The knowledge base tells the bot to run a tool, and the LLM repeats it. -/
def poisonedEnvironment : Environment :=
  { elfEnvironment with
    knowledge := ⟨fun _ => .ok [⟨"search_products", "gia gas", 1⟩],
      fun _ _ => .ok [⟨1, "search_products", "gia gas", 1⟩]⟩
    stream := fun _ _ => .ok [⟨"gia gas", none⟩] }

/-- "gia gas" finds the product, and "con hang khong" (is it in stock) asks about it. -/
def stockThread (env : Environment) : List Turn :=
  [⟨⟨"gia gas", "s1", none, .vi⟩, env⟩, ⟨⟨"con hang khong", "s1", none, .vi⟩, env⟩]

theorem injection_cannot_steer_stockThread :
    (queuedByTurn Unicode.Vietnamese.database plainHashing {} (stockThread elfEnvironment)).map
        (·.map (·.name)) = ([["search_products"], ["check_inventory"]] : List (List Text)) ∧
      queuedByTurn Unicode.Vietnamese.database plainHashing {} (stockThread elfEnvironment) =
        queuedByTurn Unicode.Vietnamese.database plainHashing {} (stockThread poisonedEnvironment) :=
  ⟨by decide +kernel, injection_cannot_steer Unicode.Vietnamese.database plainHashing
    (.cons ⟨rfl, rfl⟩ (.cons ⟨rfl, rfl⟩ .nil))⟩

end Qiki.Agent
