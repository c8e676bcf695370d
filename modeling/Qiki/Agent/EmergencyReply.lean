import Qiki.Agent.Turns
import Qiki.Text.Vietnamese

/-! When a thread answers an emergency with the emergency text. -/
namespace Qiki.Agent

open Safety

def ExternalCall.isRetrieve : ExternalCall → Bool
  | .retrieve _ => true
  | _ => false

/-- The turn ends, its reply is the fixed text, and it has called neither the LLM nor a
tool. -/
structure AnsweredAsEmergency (run : TurnRun) (locale : Language) : Prop where
  ended : run.ended = true
  reply : run.state.messages.getLast? = some (.ai (getEmergencyResponse locale))
  calls : ∀ call ∈ run.calls, call.isRetrieve = true

theorem head_turnLimitReply (locale : Language) : (turnLimitReply locale).head? ≠ some warningSign := by
  cases locale with
  | vi => decide +kernel
  | en => decide +kernel

theorem turnLimitReply_ne (locale : Language) : turnLimitReply locale ≠ getEmergencyResponse locale := by
  intro h
  refine head_turnLimitReply locale ?_
  rw [h, head_getEmergencyResponse]

section
variable (db : Unicode.Database) (hashing : Hashing) {turns : List Turn} {t : Turn}

theorem answered_of_short (h : (checkQuery db t.input.content).isEmergency = true)
    (hlen : turns.length < maxAgentTurns) :
    AnsweredAsEmergency (runTurn db hashing t (runThread db hashing turns)) t.input.locale := by
  have hcount := runThread_turnCount db hashing turns
  have hroute : route db (runThread db hashing turns) t.input.content = .safetyEmergency := by
    rw [route, hcount, if_neg (by omega), if_pos h]
  rw [runTurn_safetyEmergency db hashing t _ hroute]
  exact ⟨rfl, List.getLast?_concat .., fun _ hc => nomatch hc⟩

/-- Past the turn limit the reply is the hand-off, whatever the message says. -/
theorem not_answered_of_long (hlen : maxAgentTurns ≤ turns.length) :
    ¬ AnsweredAsEmergency (runTurn db hashing t (runThread db hashing turns)) t.input.locale := by
  have hcount := runThread_turnCount db hashing turns
  have hroute : route db (runThread db hashing turns) t.input.content = .turnLimit := by
    rw [route, hcount, if_pos (by omega)]
  rw [runTurn_turnLimit db hashing t _ hroute]
  intro hans
  have hreply := hans.reply
  have hlast : ((afterIntake db t (runThread db hashing turns)).apply
      (turnLimit (afterIntake db t (runThread db hashing turns)))).messages.getLast? =
      some (.ai (turnLimitReply t.input.locale)) := List.getLast?_concat ..
  rw [hlast] at hreply
  exact turnLimitReply_ne t.input.locale (Message.ai.inj (Option.some.inj hreply))

end

/-- For every thread and every message that the checker flags: the turn is answered with
the emergency text exactly when the thread has had fewer than eight turns. -/
theorem emergency_answered_iff (db : Unicode.Database) (hashing : Hashing) (turns : List Turn)
    (t : Turn) (h : (checkQuery db t.input.content).isEmergency = true) :
    AnsweredAsEmergency (runTurn db hashing t (runThread db hashing turns)) t.input.locale ↔
      turns.length < maxAgentTurns :=
  ⟨fun hans => Nat.lt_of_not_le fun hlen => not_answered_of_long db hashing hlen hans,
    answered_of_short db hashing h⟩

/-- A shop whose catalog and knowledge base are empty and whose LLM says nothing. -/
def quietEnvironment : Environment where
  catalog := ⟨fun _ => .ok (0, []), fun _ => .error (.notFound "product"), fun _ _ => .ok []⟩
  knowledge := ⟨fun _ => .ok [], fun _ _ => .ok []⟩
  stream := fun _ _ => .ok []
  providerName := "openai"
  currentDate := "01/01/2026"
  str := fun _ => []

def plainHashing : Hashing := ⟨id, fun _ => []⟩

/-- A guest writes "ro gas" (a gas leak). -/
def leakReport : Turn := ⟨⟨"ro gas", "s1", none, .vi⟩, quietEnvironment⟩

theorem leakReport_flagged :
    (checkQuery Unicode.Vietnamese.database leakReport.input.content).isEmergency = true := by
  decide +kernel

theorem emergency_answered_first :
    AnsweredAsEmergency (runTurn Unicode.Vietnamese.database plainHashing leakReport
      (runThread Unicode.Vietnamese.database plainHashing [])) leakReport.input.locale ↔
      ([] : List Turn).length < maxAgentTurns :=
  emergency_answered_iff Unicode.Vietnamese.database plainHashing [] leakReport leakReport_flagged

/-- The ninth turn of a thread: the same report gets the hand-off text. -/
theorem emergency_ignored :
    ¬ ∀ (turns : List Turn) (t : Turn),
      (checkQuery Unicode.Vietnamese.database t.input.content).isEmergency = true →
      AnsweredAsEmergency (runTurn Unicode.Vietnamese.database plainHashing t
        (runThread Unicode.Vietnamese.database plainHashing turns)) t.input.locale := by
  intro h
  have hlen : maxAgentTurns ≤ (List.replicate 8 leakReport).length := le_refl 8
  exact not_answered_of_long Unicode.Vietnamese.database plainHashing hlen
    (h (List.replicate 8 leakReport) leakReport leakReport_flagged)

end Qiki.Agent
