import Qiki.Agent.EmergencyReply

/-! What earlier turns of a thread leave for later ones: tool results and a confidence. -/
namespace Qiki.Agent

open Safety

/-- The tool calls that the router has queued in the turn. -/
def queuedCalls (run : TurnRun) : List ToolCallRecord :=
  (run.writes.findSome? fun w => w.2.toolCalls).getD []

/-- The documents that the retriever has written in the turn. -/
def retrievedInTurn (run : TurnRun) (docs : List RetrievedDocSummary) : Prop :=
  ∃ w ∈ run.writes, w.1 = .retriever ∧ w.2.retrievedDocs = some docs

/-- Without a tool call the prompt is built from the turn's own documents, and the stored
confidence was written in the turn (or there is none). -/
structure OwnTurn (run : TurnRun) : Prop where
  context : queuedCalls run = [] → ∀ prompt system, .generate prompt system ∈ run.calls →
    ∃ docs, retrievedInTurn run docs ∧ system.context = retrievedDocsContext docs
  confidence : run.state.confidence = none ∨ ∃ w ∈ run.writes, w.2.confidence.isSome = true

/-- What the checkpoint must not hold when the turn starts: tool results when the turn
retrieves, a confidence when the turn does not write its own. -/
def NoLeftovers (db : Unicode.Database) (s : QikiAgentState) (t : Turn) : Prop :=
  match route db s t.input.content with
  | .safetyEmergency => True
  | .retriever =>
    match t.env.knowledge.retrieve t.input.content topK with
    | .ok _ => s.toolResults = []
    | .error _ => s.confidence = none
  | _ => s.confidence = none

/-! The two contexts begin differently. -/

theorem take_join {sep first : Text} {rest : List Text} {n : ℕ} {start : Text}
    (hn : start.length = n) (h : start <+: first) :
    (Text.join sep (first :: rest)).take n = start := by
  obtain ⟨tail, rfl⟩ := h
  subst hn
  cases rest with
  | nil => simp [Text.join, List.intercalate]
  | cons second rest => simp [Text.join, List.intercalate, List.intersperse]

theorem take_toolResultsContext (str : Json → Text) {records : List ToolResultRecord}
    (h : records ≠ []) : (toolResultsContext str records).take 2 = ['[', 'K'] := by
  obtain ⟨r, rs, rfl⟩ := List.exists_cons_of_ne_nil h
  have hstart : ['[', 'K'] <+: ("[Kết quả công cụ ".toList : Text) :=
    List.isPrefixOf_iff_prefix.mp (by decide +kernel)
  rw [toolResultsContext, if_neg (by simp), List.map_cons]
  refine take_join rfl (hstart.trans ?_)
  simp only [List.append_assoc]
  exact List.prefix_append _ _

theorem take_retrievedDocsContext (docs : List RetrievedDocSummary) :
    (retrievedDocsContext docs).take 2 ≠ ['[', 'K'] := by
  unfold retrievedDocsContext
  split_ifs with h
  · decide +kernel
  · cases docs with
    | nil => exact absurd rfl h
    | cons d ds =>
      have hstart : ['[', 'T'] <+: ("[Tài liệu ".toList : Text) :=
        List.isPrefixOf_iff_prefix.mp (by decide +kernel)
      have htake : (Text.join ['\n', '\n'] ((d :: ds).zipIdx.map fun d =>
          "[Tài liệu ".toList ++ Text.ofNat (d.2 + 1) ++ " - " ++ d.1.title ++ "]\n" ++
            d.1.content)).take 2 = ['[', 'T'] := by
        rw [List.zipIdx_cons, List.map_cons]
        refine take_join rfl (hstart.trans ?_)
        simp only [List.append_assoc]
        exact List.prefix_append _ _
      intro he
      exact absurd (htake.symm.trans he) (by decide)

theorem responderContext_eq_iff (str : Json → Text) (s : QikiAgentState) :
    responderContext str s = retrievedDocsContext s.retrievedDocs ↔ s.toolResults = [] := by
  unfold responderContext
  by_cases h : s.toolResults = []
  · rw [h]
    exact iff_of_true rfl rfl
  · rw [if_neg (by simpa using h)]
    refine iff_of_false (fun he => ?_) h
    have htake := take_toolResultsContext str h
    rw [he] at htake
    exact take_retrievedDocsContext _ htake

/-! The last two nodes. -/

/-- The one LLM call of the turn, on the checkpoint that the verifier leaves. -/
theorem generate_mem_respond {env : Environment} {s : QikiAgentState} {prompt : Text}
    {system : SystemPrompt} :
    ExternalCall.generate prompt system ∈ (respond env s).calls ↔
      prompt = lastHumanText (s.apply (verifier s)) ∧
        system = systemPrompt env (s.apply (verifier s)) := by
  unfold respond
  dsimp only
  split <;> simp

theorem respond_confidence (env : Environment) (s : QikiAgentState) :
    (respond env s).state.confidence = (verifier s).confidence.or s.confidence := by
  unfold respond
  dsimp only
  split
  · rw [apply_verifier]
    rfl
  · rw [apply_verifier]

theorem verifier_mem_respond (env : Environment) (s : QikiAgentState) :
    (Node.verifier, verifier s) ∈ (respond env s).writes := by
  unfold respond
  dsimp only
  split <;> exact List.mem_cons_self ..

/-- Of the last two nodes only the verifier may write the confidence. -/
theorem confidence_mem_respond {env : Environment} {s : QikiAgentState} {w : Node × Update}
    (h : w ∈ (respond env s).writes) (hw : w.2.confidence.isSome = true) :
    s.confidence = none := by
  rcases verifier_cases s with ⟨-, hv⟩ | ⟨hnone, -⟩
  · unfold respond at h
    dsimp only at h
    rw [hv] at h
    split at h
    · simp only [List.mem_cons, List.not_mem_nil, or_false] at h
      rcases h with rfl | rfl <;> cases hw
    · simp only [List.mem_cons, List.not_mem_nil, or_false] at h
      rw [h] at hw
      cases hw
  · exact hnone

theorem retriever_mem_respond {env : Environment} {s : QikiAgentState} {w : Node × Update}
    (h : w ∈ (respond env s).writes) : w.1 ≠ .retriever := by
  unfold respond at h
  dsimp only at h
  split at h
  · simp only [List.mem_cons, List.not_mem_nil, or_false] at h
    rcases h with rfl | rfl <;> simp
  · simp only [List.mem_cons, List.not_mem_nil, or_false] at h
    rw [h]
    simp

section
variable (db : Unicode.Database) (hashing : Hashing) (t : Turn) (s : QikiAgentState)

theorem ownTurn_turnLimit (h : route db s t.input.content = .turnLimit) :
    OwnTurn (runTurn db hashing t s) ↔ s.confidence = none := by
  rw [runTurn_turnLimit db hashing t s h]
  constructor
  · intro hown
    rcases hown.confidence with hnone | ⟨w, hw, hsome⟩
    · exact hnone
    · simp only [List.mem_cons, List.not_mem_nil, or_false] at hw
      rcases hw with rfl | rfl <;> cases hsome
  · intro hnone
    exact ⟨fun _ _ _ hc => (nomatch hc), Or.inl hnone⟩

theorem ownTurn_safetyEmergency (h : route db s t.input.content = .safetyEmergency) :
    OwnTurn (runTurn db hashing t s) := by
  rw [runTurn_safetyEmergency db hashing t s h]
  exact ⟨fun _ _ _ hc => (nomatch hc),
    Or.inr ⟨_, List.mem_cons_of_mem _ (List.mem_cons_self ..), rfl⟩⟩

theorem ownTurn_retriever (h : route db s t.input.content = .retriever) :
    OwnTurn (runTurn db hashing t s) ↔
      match t.env.knowledge.retrieve t.input.content topK with
      | .ok _ => s.toolResults = []
      | .error _ => s.confidence = none := by
  have hqueued : routerCalls db t.input.content (rememberedProductId s.toolResults) = [] := by
    unfold route at h
    split_ifs at h with h₁ h₂ h₃
    simpa using h₃
  have hrouter : (router db (afterIntake db t s)).toolCalls = some [] := by
    show some (routerCalls db (lastHumanText (afterIntake db t s)) _) = _
    rw [lastHumanText_afterIntake, afterIntake_toolResults, hqueued]
  rw [runTurn_retriever db hashing t s h]
  cases hr : t.env.knowledge.retrieve t.input.content topK with
  | error failure =>
    constructor
    · intro hown
      rcases hown.confidence with hnone | ⟨w, hw, hsome⟩
      · exact hnone
      · simp only [List.mem_cons, List.not_mem_nil, or_false] at hw
        rcases hw with rfl | rfl <;> cases hsome
    · intro hnone
      refine ⟨fun _ prompt system hc => ?_, Or.inl hnone⟩
      simp at hc
  | ok documents =>
    dsimp only
    have hconf : ((afterRouter db t s).apply (retrieverNode documents)).confidence ≠ none :=
      Option.some_ne_none _
    -- the only documents of the turn are the retriever's
    have hdocs : ∀ docs, retrievedInTurn
        { respond t.env ((afterRouter db t s).apply (retrieverNode documents)) with
          calls := .retrieve t.input.content ::
            (respond t.env ((afterRouter db t s).apply (retrieverNode documents))).calls
          writes := (.intakeGuardrail, intakeGuardrail db (s.withInput t.input)) ::
            (.router, router db (afterIntake db t s)) ::
            (.retriever, retrieverNode documents) ::
            (respond t.env ((afterRouter db t s).apply (retrieverNode documents))).writes } docs ↔
        docs = documents.map docSummary := by
      intro docs
      constructor
      · rintro ⟨w, hw, hn, hd⟩
        simp only [List.mem_cons] at hw
        rcases hw with rfl | rfl | rfl | hw
        · cases hn
        · cases hn
        · exact (Option.some.inj hd).symm
        · exact absurd hn (retriever_mem_respond hw)
      · rintro rfl
        exact ⟨(.retriever, retrieverNode documents), by simp, rfl, rfl⟩
    have hcontext : ∀ s' : QikiAgentState,
        s' = (afterRouter db t s).apply (retrieverNode documents) →
        ((systemPrompt t.env (s'.apply (verifier s'))).context =
          retrievedDocsContext (documents.map docSummary) ↔ s.toolResults = []) := by
      rintro s' rfl
      have hiff := responderContext_eq_iff t.env.str
        (((afterRouter db t s).apply (retrieverNode documents)).apply
          (verifier ((afterRouter db t s).apply (retrieverNode documents))))
      rw [apply_verifier] at hiff ⊢
      exact hiff
    constructor
    · intro hown
      obtain ⟨docs, hd, hc⟩ := hown.context (by simp [queuedCalls, hrouter, intakeGuardrail]) _ _
        (List.mem_cons_of_mem _ (generate_mem_respond.mpr ⟨rfl, rfl⟩))
      rw [(hdocs docs).mp hd] at hc
      exact (hcontext _ rfl).mp hc
    · intro hnone
      refine ⟨fun _ prompt system hc => ?_, Or.inr ⟨(.retriever, retrieverNode documents), by simp,
        rfl⟩⟩
      simp only [List.mem_cons, reduceCtorEq, false_or] at hc
      obtain ⟨-, hsystem⟩ := generate_mem_respond.mp hc
      exact ⟨_, (hdocs _).mpr rfl, by rw [hsystem]; exact (hcontext _ rfl).mpr hnone⟩

theorem ownTurn_toolExecutor (h : route db s t.input.content = .toolExecutor) :
    OwnTurn (runTurn db hashing t s) ↔ s.confidence = none := by
  obtain ⟨call, tool, hcalls, -, hrun⟩ := runTurn_toolExecutor db hashing t s h
  have hrouter : (router db (afterIntake db t s)).toolCalls = some [call] := by
    show some (routerCalls db (lastHumanText (afterIntake db t s)) _) = _
    rw [lastHumanText_afterIntake, afterIntake_toolResults, hcalls]
  rw [hrun]
  dsimp only
  constructor
  · intro hown
    rcases hown.confidence with hnone | ⟨w, hw, hsome⟩
    · rw [respond_confidence, Option.or_eq_none_iff] at hnone
      exact hnone.2
    · simp only [List.mem_cons] at hw
      rcases hw with rfl | rfl | rfl | hw
      · cases hsome
      · cases hsome
      · cases hsome
      · have hnone := confidence_mem_respond hw hsome
        exact hnone
  · intro hnone
    refine ⟨fun hq => ?_, Or.inr ⟨_, List.mem_cons_of_mem _ (List.mem_cons_of_mem _
      (List.mem_cons_of_mem _ (verifier_mem_respond _ _))), ?_⟩⟩
    · simp [queuedCalls, hrouter, intakeGuardrail] at hq
    · rcases verifier_cases ((afterRouter db t s).apply
        { toolResults := some [toolRecord call tool] }) with ⟨hsome, -⟩ | ⟨-, c, hc⟩
      · have hsame : ((afterRouter db t s).apply
            { toolResults := some [toolRecord call tool] }).confidence = s.confidence := rfl
        rw [hsame, hnone] at hsome
        cases hsome
      · rw [hc]
        rfl

/-- A turn with a tool leaves its results and a confidence to the turns after it. -/
theorem toolTurn_leaves (h : route db s t.input.content = .toolExecutor) :
    (runTurn db hashing t s).state.toolResults ≠ [] ∧
      (runTurn db hashing t s).state.confidence ≠ none := by
  obtain ⟨call, tool, -, -, hrun⟩ := runTurn_toolExecutor db hashing t s h
  rw [hrun]
  dsimp only
  constructor
  · rw [(respond_frame _ _).2.1]
    exact List.cons_ne_nil _ _
  · rw [respond_confidence]
    rcases verifier_cases ((afterRouter db t s).apply
      { toolResults := some [toolRecord call tool] }) with ⟨hsome, -⟩ | ⟨-, c, hc⟩
    · rw [Option.isSome_iff_ne_none] at hsome
      exact fun hnone => hsome (Option.or_eq_none_iff.mp hnone).2
    · rw [hc]
      exact Option.some_ne_none _

end

/-- For every turn of every thread: its prompt and its confidence are its own exactly when
nothing is left over that the turn would read. -/
theorem ownTurn_iff (db : Unicode.Database) (hashing : Hashing) (turns : List Turn) (t : Turn) :
    OwnTurn (runTurn db hashing t (runThread db hashing turns)) ↔
      NoLeftovers db (runThread db hashing turns) t := by
  unfold NoLeftovers
  rcases route_cases db (runThread db hashing turns) t.input.content with h | h | h | h
  · rw [h]
    exact ownTurn_turnLimit db hashing t _ h
  · rw [h]
    exact iff_of_true (ownTurn_safetyEmergency db hashing t _ h) trivial
  · rw [h]
    exact ownTurn_retriever db hashing t _ h
  · rw [h]
    exact ownTurn_toolExecutor db hashing t _ h

/-- "gia gas" asks for a price and runs a tool; "hoa don" asks for an invoice and runs none. -/
def priceQuestion : Turn := ⟨⟨"gia gas", "s1", none, .vi⟩, quietEnvironment⟩

def invoiceQuestion : Turn := ⟨⟨"hoa don", "s1", none, .vi⟩, quietEnvironment⟩

theorem priceQuestion_route :
    route Unicode.Vietnamese.database {} priceQuestion.input.content = .toolExecutor := by
  have htext : stripAccents Unicode.Vietnamese.database "gia gas" = "gia gas".toList := by
    decide +kernel
  have hcalls : (routerCalls Unicode.Vietnamese.database "gia gas" none).isEmpty = false := by
    rw [routerCalls, htext]
    decide +kernel
  have hcontent : priceQuestion.input.content = "gia gas".toList := rfl
  have hremembered : rememberedProductId ({} : QikiAgentState).toolResults = none := rfl
  rw [hcontent, route, if_neg (by decide), not_flagged.1, if_neg (by decide), hremembered, hcalls,
    if_neg (by decide)]

/-- After one price question the prompt of an invoice question is built from the tool results
of the first turn. -/
theorem context_from_earlier_turn :
    ¬ ∀ (turns : List Turn) (t : Turn),
      OwnTurn (runTurn Unicode.Vietnamese.database plainHashing t
        (runThread Unicode.Vietnamese.database plainHashing turns)) := by
  intro h
  have hleft := toolTurn_leaves Unicode.Vietnamese.database plainHashing priceQuestion {}
    priceQuestion_route
  have hthread : runThread Unicode.Vietnamese.database plainHashing [priceQuestion] =
      (runTurn Unicode.Vietnamese.database plainHashing priceQuestion {}).state := by
    rw [← List.nil_append [priceQuestion], runThread_append]
    rw [show runThread Unicode.Vietnamese.database plainHashing [] = {} from rfl]
  have hcontent : invoiceQuestion.input.content = "hoa don".toList := rfl
  have hcount := runThread_turnCount Unicode.Vietnamese.database plainHashing [priceQuestion]
  have hown := h [priceQuestion] invoiceQuestion
  rcases route_cases Unicode.Vietnamese.database
    (runThread Unicode.Vietnamese.database plainHashing [priceQuestion])
    invoiceQuestion.input.content with hr | hr | hr | hr
  · rw [ownTurn_turnLimit _ _ _ _ hr, hthread] at hown
    exact hleft.2 hown
  · rw [hcontent, route, hcount, if_neg (by decide), not_flagged.2, if_neg (by decide)] at hr
    split_ifs at hr
  · rw [ownTurn_retriever _ _ _ _ hr, hthread] at hown
    exact hleft.1 hown
  · rw [ownTurn_toolExecutor _ _ _ _ hr, hthread] at hown
    exact hleft.2 hown

end Qiki.Agent
