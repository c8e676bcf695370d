import Qiki.Client.SseFrames
import Qiki.Transition.Run

/-! One message sent from the chat window: the streaming request, the server that answers it, and
the blocking request that the client falls back to. -/
namespace Qiki.Client

open Transition

/-- The answer to a turn as `stream_message` yields it: one delta for a reply that is ready, any
number for one that is generated, none when there is no reply; then the final event. -/
structure StreamedReply (modelDumpJson : Json → Text) where
  deltas : List Text
  response : Json
  object : IsObjectLine (modelDumpJson response)

def StreamedReply.events {modelDumpJson : Json → Text} (r : StreamedReply modelDumpJson) :
    List StreamEvent := r.deltas.map .delta ++ [.done r.response]

/-- The streaming connection: `closed` is a clean end of the body, `broken` an error. -/
inductive Connection
  | up | closed | broken
  deriving DecidableEq, Repr

/-- Where `handleSend` is: it reads the stream, it is through with it, or it has sent the message
again to the blocking endpoint. -/
inductive SendPhase
  | streaming | resolved | swallowed | fallback | answered
  deriving DecidableEq, Repr

/-- Both parties while one message is sent. -/
structure Sending where
  /-- The server has the streaming request. -/
  received : Bool := false
  /-- `_plan_response` stored the user message. -/
  planned : Bool := false
  /-- What the server has yet to yield. -/
  pending : List StreamEvent := []
  /-- Yielded and not yet read by the client. -/
  wire : Text := []
  connection : Connection := .up
  /-- The frames and the buffer of `streamMessage`. -/
  read : List SseFrame × Text := ([], [])
  phase : SendPhase := .streaming
  /-- The user message rows of the conversation for this message. -/
  rows : ℕ := 0

/-- The `started` flag: a delta arrived. -/
def Sending.started (s : Sending) : Bool := s.read.1.any fun frame => frame.event = "delta"

def Sending.receivedDone (s : Sending) : Bool := s.read.1.any fun frame => frame.event = "done"

/-- The `catch` of `streamSend` and that of `handleSend`: only a stream that never started is sent
again. -/
def Sending.onError (s : Sending) : SendPhase := if s.started then .swallowed else .fallback

inductive SendEvent (modelDumpJson : Json → Text)
  /-- The streaming request reaches the server. -/
  | receive
  /-- The server stores the user message and decides on the reply. -/
  | plan (r : StreamedReply modelDumpJson)
  /-- The server yields the next event, whether or not anybody reads it. -/
  | yield
  /-- The next characters reach the client. -/
  | deliver (n : ℕ)
  /-- The response has been sent and read to its end. -/
  | finish
  /-- The connection fails, with a clean end of the body or with an error. -/
  | cut (clean : Bool)
  /-- `streamMessage` notices that the connection ended. -/
  | notice
  /-- The blocking endpoint handles the message. -/
  | block

def Sending.step {modelDumpJson : Json → Text} (s : Sending) :
    SendEvent modelDumpJson → Option Sending
  | .receive =>
    if s.connection = .up ∧ !s.received then some { s with received := true } else none
  | .plan r =>
    if s.received ∧ !s.planned then
      some { s with planned := true, pending := r.events, rows := s.rows + 1 }
    else none
  | .yield =>
    match s.pending with
    | [] => none
    | e :: rest => some { s with
        pending := rest
        wire := if s.connection = .up then s.wire ++ encodeEvent modelDumpJson e else s.wire }
  | .deliver n =>
    if s.connection = .up then
      some { s with wire := s.wire.drop n, read := readChunk s.read (s.wire.take n) }
    else none
  | .finish =>
    if s.connection = .up ∧ s.planned ∧ s.pending.isEmpty ∧ s.wire.isEmpty then
      some { s with connection := .closed }
    else none
  | .cut clean =>
    if s.connection = .up then
      some { s with connection := if clean then .closed else .broken, wire := [] }
    else none
  | .notice =>
    if s.connection ≠ .up ∧ s.phase = .streaming then
      some { s with phase :=
        if s.connection = .closed ∧ s.receivedDone then .resolved else s.onError }
    else none
  | .block =>
    if s.phase = .fallback then some { s with phase := .answered, rows := s.rows + 1 } else none

/-- Nothing is left to happen: the server has handled what it received, and so has the client. -/
def Sending.Quiescent (s : Sending) : Prop :=
  (s.received → s.planned) ∧ s.phase ≠ .streaming ∧ s.phase ≠ .fallback

/-- The server handled the message at all. -/
def Sending.Processed (s : Sending) : Prop := s.received ∨ s.phase = .answered

/-- The streaming connection fails only before the server has the request or after the client has
something that tells it not to send the message again. -/
def FailsHarmlessly {modelDumpJson : Json → Text} (s : Sending) : SendEvent modelDumpJson → Prop
  | .cut clean => s.received = false ∨ s.started ∨ (clean ∧ s.receivedDone)
  | _ => True

section
variable {modelDumpJson : Json → Text} {s t : Sending}

instance (e : SendEvent modelDumpJson) : Decidable (FailsHarmlessly s e) :=
  match e with
  | .cut clean => inferInstanceAs (Decidable (s.received = false ∨ s.started ∨ (clean ∧ s.receivedDone)))
  | .receive | .plan _ | .yield | .deliver _ | .finish | .notice | .block =>
    inferInstanceAs (Decidable True)

/-- What a step needs and what it does. -/
theorem Sending.step_eq_some {e : SendEvent modelDumpJson} (h : s.step e = some t) :
    match e with
    | .receive => s.connection = .up ∧ s.received = false ∧ t = { s with received := true }
    | .plan r => s.received ∧ s.planned = false ∧
        t = { s with planned := true, pending := r.events, rows := s.rows + 1 }
    | .yield => ∃ next rest, s.pending = next :: rest ∧ t = { s with
        pending := rest
        wire := if s.connection = .up then s.wire ++ encodeEvent modelDumpJson next else s.wire }
    | .deliver n => s.connection = .up ∧
        t = { s with wire := s.wire.drop n, read := readChunk s.read (s.wire.take n) }
    | .finish => s.connection = .up ∧ s.planned ∧ s.pending = [] ∧ s.wire = [] ∧
        t = { s with connection := .closed }
    | .cut clean => s.connection = .up ∧
        t = { s with connection := if clean then .closed else .broken, wire := [] }
    | .notice => s.connection ≠ .up ∧ s.phase = .streaming ∧ t = { s with phase :=
        if s.connection = .closed ∧ s.receivedDone then .resolved else s.onError }
    | .block => s.phase = .fallback ∧ t = { s with phase := .answered, rows := s.rows + 1 } := by
  cases e with
  | yield =>
    simp only [step] at h
    split at h
    · cases h
    case h_2 next rest hpending => exact ⟨next, rest, hpending, (Option.some.inj h).symm⟩
  | receive | plan | deliver | finish | cut | notice | block =>
    simp only [step, Option.ite_none_right_eq_some, Option.some.injEq] at h
    obtain ⟨hready, rfl⟩ := h
    simp_all

/-! What holds in every run. -/

/-- One row for the plan of the turn and one for the blocking request. -/
structure Sending.Counted (s : Sending) : Prop where
  rows : s.rows = (if s.planned then 1 else 0) + if s.phase = .answered then 1 else 0
  planned : s.planned → s.received
  up : s.connection = .up → s.phase = .streaming

theorem Sending.onError_ne_answered (s : Sending) : s.onError ≠ .answered := by
  unfold onError
  split_ifs <;> decide

theorem Sending.counted_step {e : SendEvent modelDumpJson} (hs : s.Counted)
    (h : s.step e = some t) : t.Counted := by
  obtain ⟨hrows, hplanned, hup⟩ := hs
  cases e with
  | receive =>
    obtain ⟨-, -, rfl⟩ := step_eq_some h
    exact ⟨hrows, fun _ => rfl, hup⟩
  | plan r =>
    obtain ⟨hreceived, hnot, rfl⟩ := step_eq_some h
    refine ⟨?_, fun _ => hreceived, hup⟩
    simp only [hrows, hnot, Bool.false_eq_true, if_false, if_true]
    omega
  | yield =>
    obtain ⟨next, rest, -, rfl⟩ := step_eq_some h
    exact ⟨hrows, hplanned, hup⟩
  | deliver n =>
    obtain ⟨-, rfl⟩ := step_eq_some h
    exact ⟨hrows, hplanned, hup⟩
  | finish =>
    obtain ⟨-, -, -, -, rfl⟩ := step_eq_some h
    exact ⟨hrows, hplanned, fun hclosed => nomatch hclosed⟩
  | cut clean =>
    obtain ⟨-, rfl⟩ := step_eq_some h
    refine ⟨hrows, hplanned, fun hcut => ?_⟩
    cases clean <;> cases hcut
  | notice =>
    obtain ⟨hconn, hphase, rfl⟩ := step_eq_some h
    refine ⟨?_, hplanned, fun hup => absurd hup hconn⟩
    have hnot : (if s.connection = .closed ∧ s.receivedDone then SendPhase.resolved else s.onError) ≠
        .answered := by
      split_ifs
      · decide
      · exact s.onError_ne_answered
    rw [hrows, hphase]
    simp only [hnot, if_false, reduceCtorEq]
  | block =>
    obtain ⟨hphase, rfl⟩ := step_eq_some h
    refine ⟨?_, hplanned, fun hconn => ?_⟩
    · simp [hrows, hphase]
    · exact absurd ((hup hconn).symm.trans hphase) (by decide)

/-- While the connection is up, what the client has read, what is on the wire and what is still to be
yielded make up the reply. -/
structure Sending.Streamed (modelDumpJson : Json → Text) (s : Sending) : Prop where
  unplanned : s.planned = false → s.pending = [] ∧ s.wire = [] ∧ s.read = ([], [])
  planned : s.planned → s.connection = .up → ∃ (r : StreamedReply modelDumpJson) (delivered : Text),
    delivered ++ (s.wire ++ eventStream modelDumpJson s.pending) = eventStream modelDumpJson r.events ∧
      s.read = parseSseFrames delivered

theorem Sending.streamed_step {e : SendEvent modelDumpJson} (hs : s.Streamed modelDumpJson)
    (h : s.step e = some t) : t.Streamed modelDumpJson := by
  obtain ⟨hunplanned, hstream⟩ := hs
  cases e with
  | receive =>
    obtain ⟨-, -, rfl⟩ := step_eq_some h
    exact ⟨hunplanned, hstream⟩
  | plan r =>
    obtain ⟨-, hnot, rfl⟩ := step_eq_some h
    obtain ⟨-, hwire, hread⟩ := hunplanned hnot
    refine ⟨fun hplanned => (by cases hplanned), fun _ _ => ⟨r, [], ?_, hread⟩⟩
    rw [hwire, List.nil_append, List.nil_append]
  | yield =>
    obtain ⟨next, rest, hpending, rfl⟩ := step_eq_some h
    refine ⟨fun hnot => ?_, fun hplanned hconn => ?_⟩
    · rw [(hunplanned hnot).1] at hpending
      cases hpending
    · obtain ⟨r, delivered, htext, hread⟩ := hstream hplanned hconn
      refine ⟨r, delivered, ?_, hread⟩
      have hup : s.connection = .up := hconn
      rw [← htext, hpending]
      simp only [if_pos hup, eventStream, List.flatMap_cons, List.append_assoc]
  | deliver n =>
    obtain ⟨hconn, rfl⟩ := step_eq_some h
    refine ⟨fun hnot => ?_, fun hplanned _ => ?_⟩
    · obtain ⟨hpending, hwire, hread⟩ := hunplanned hnot
      refine ⟨hpending, by rw [hwire, List.drop_nil], ?_⟩
      rw [hwire, hread, List.take_nil]
      rfl
    · obtain ⟨r, delivered, htext, hread⟩ := hstream hplanned hconn
      refine ⟨r, delivered ++ s.wire.take n, ?_, ?_⟩
      · rw [← htext]
        simp only [List.append_assoc]
        rw [← List.append_assoc (s.wire.take n), List.take_append_drop]
      · rw [hread, readChunk_parseSseFrames]
  | finish =>
    obtain ⟨-, hplanned, -, -, rfl⟩ := step_eq_some h
    refine ⟨fun hnot => ?_, fun _ hclosed => (by cases hclosed)⟩
    exact absurd (hplanned.symm.trans hnot) (by decide)
  | cut clean =>
    obtain ⟨-, rfl⟩ := step_eq_some h
    refine ⟨fun hnot => ?_, fun _ hcut => ?_⟩
    · exact ⟨(hunplanned hnot).1, rfl, (hunplanned hnot).2.2⟩
    · cases clean <;> cases hcut
  | notice =>
    obtain ⟨hconn, -, rfl⟩ := step_eq_some h
    exact ⟨hunplanned, fun _ hup => absurd hup hconn⟩
  | block =>
    obtain ⟨-, rfl⟩ := step_eq_some h
    exact ⟨hunplanned, hstream⟩

/-- A response that was sent and read to its end holds the final event. -/
theorem Sending.receivedDone_of_complete (hs : s.Streamed modelDumpJson) (hconn : s.connection = .up)
    (hplanned : s.planned) (hpending : s.pending = []) (hwire : s.wire = []) : s.receivedDone := by
  obtain ⟨r, delivered, htext, hread⟩ := hs.planned hplanned hconn
  have hall : delivered = eventStream modelDumpJson r.events := by
    rw [← htext, hwire, hpending]
    simp [eventStream]
  have hbodies : ∀ e ∈ r.events, IsObjectLine (e.body modelDumpJson) := by
    intro e he
    rcases List.mem_append.mp he with he | he
    · obtain ⟨text, -, rfl⟩ := List.mem_map.mp he
      exact isObjectLine_dumpsText text
    · obtain rfl := List.mem_singleton.mp he
      exact r.object
  unfold receivedDone
  rw [hread, hall, parseSseFrames_eventStream hbodies, List.any_map, List.any_eq_true]
  exact ⟨.done r.response, List.mem_append_right _ (List.mem_singleton_self _),
    decide_eq_true (rfl : (StreamEvent.done r.response).name = ("done" : Text))⟩

/-- The client will not send the message again, or the server has not seen it before. -/
structure Sending.Safe (modelDumpJson : Json → Text) (s : Sending) : Prop where
  counted : s.Counted
  streamed : s.Streamed modelDumpJson
  resent : s.phase = .fallback ∨ s.phase = .answered → s.received = false
  ended : s.connection ≠ .up → s.phase = .streaming →
    s.received = false ∨ s.started ∨ (s.connection = .closed ∧ s.receivedDone)

theorem Sending.safe_step {e : SendEvent modelDumpJson} (hs : s.Safe modelDumpJson)
    (hharmless : FailsHarmlessly s e) (h : s.step e = some t) : t.Safe modelDumpJson := by
  have hcounted := counted_step hs.counted h
  have hstreamed := streamed_step hs.streamed h
  obtain ⟨⟨-, -, hup⟩, hstreaming, hresent, hended⟩ := hs
  refine ⟨hcounted, hstreamed, ?_, ?_⟩
  · cases e with
    | receive =>
      obtain ⟨hconn, -, rfl⟩ := step_eq_some h
      intro hagain
      simp [hup hconn] at hagain
    | plan r =>
      obtain ⟨-, -, rfl⟩ := step_eq_some h
      exact hresent
    | yield =>
      obtain ⟨_, _, -, rfl⟩ := step_eq_some h
      exact hresent
    | deliver n =>
      obtain ⟨-, rfl⟩ := step_eq_some h
      exact hresent
    | finish =>
      obtain ⟨-, -, -, -, rfl⟩ := step_eq_some h
      exact hresent
    | cut clean =>
      obtain ⟨-, rfl⟩ := step_eq_some h
      exact hresent
    | notice =>
      obtain ⟨hconn, hphase, rfl⟩ := step_eq_some h
      intro hagain
      rcases hended hconn hphase with hnot | hstarted | hdone
      · exact hnot
      · simp [onError, hstarted] at hagain
        split_ifs at hagain <;> simp at hagain
      · simp [hdone] at hagain
    | block =>
      obtain ⟨hphase, rfl⟩ := step_eq_some h
      exact fun _ => hresent (Or.inl hphase)
  · cases e with
    | receive =>
      obtain ⟨hconn, -, rfl⟩ := step_eq_some h
      exact fun hdown => absurd hconn hdown
    | plan r =>
      obtain ⟨-, -, rfl⟩ := step_eq_some h
      exact hended
    | yield =>
      obtain ⟨_, _, -, rfl⟩ := step_eq_some h
      exact hended
    | deliver n =>
      obtain ⟨hconn, rfl⟩ := step_eq_some h
      exact fun hdown => absurd hconn hdown
    | finish =>
      obtain ⟨hconn, hplanned, hpending, hwire, rfl⟩ := step_eq_some h
      have hdone := receivedDone_of_complete hstreaming hconn hplanned hpending hwire
      exact fun _ _ => Or.inr (Or.inr ⟨rfl, hdone⟩)
    | cut clean =>
      obtain ⟨-, rfl⟩ := step_eq_some h
      rcases hharmless with hnot | hstarted | ⟨hclean, hdone⟩
      · exact fun _ _ => Or.inl hnot
      · exact fun _ _ => Or.inr (Or.inl hstarted)
      · exact fun _ _ => Or.inr (Or.inr ⟨if_pos hclean, hdone⟩)
    | notice =>
      obtain ⟨-, -, rfl⟩ := step_eq_some h
      intro _ hphase
      simp only [onError] at hphase
      split_ifs at hphase
    | block =>
      obtain ⟨-, rfl⟩ := step_eq_some h
      exact fun _ hphase => nomatch hphase

/-- The server has the message and the client is bound to send it again. -/
structure Sending.Doubled (s : Sending) : Prop where
  received : s.received
  down : s.connection ≠ .up
  unstarted : s.started = false
  undone : ¬(s.connection = .closed ∧ s.receivedDone)
  phase : s.phase = .streaming ∨ s.phase = .fallback ∨ s.phase = .answered

theorem Sending.doubled_of_cut {e : SendEvent modelDumpJson} (hs : s.Counted)
    (hharmful : ¬FailsHarmlessly s e) (h : s.step e = some t) : t.Doubled := by
  cases e with
  | cut clean =>
    obtain ⟨hconn, rfl⟩ := step_eq_some h
    simp only [FailsHarmlessly, not_or, Bool.not_eq_false, Bool.not_eq_true, not_and] at hharmful
    obtain ⟨hreceived, hstarted, hdone⟩ := hharmful
    refine ⟨hreceived, ?_, hstarted, ?_, Or.inl (hs.up hconn)⟩
    · cases clean <;> exact fun hcut => nomatch hcut
    · rintro ⟨hclosed, hread⟩
      cases clean with
      | false => cases hclosed
      | true => exact absurd hread (by rw [receivedDone] at hdone ⊢; simpa using hdone rfl)
  | receive | plan | yield | deliver | finish | notice | block => exact absurd trivial hharmful

theorem Sending.doubled_step {e : SendEvent modelDumpJson} (hs : s.Doubled)
    (h : s.step e = some t) : t.Doubled := by
  obtain ⟨hreceived, hdown, hstarted, hdone, hphase⟩ := hs
  cases e with
  | receive =>
    obtain ⟨hconn, -, rfl⟩ := step_eq_some h
    exact absurd hconn hdown
  | plan r =>
    obtain ⟨-, -, rfl⟩ := step_eq_some h
    exact ⟨hreceived, hdown, hstarted, hdone, hphase⟩
  | yield =>
    obtain ⟨_, _, -, rfl⟩ := step_eq_some h
    exact ⟨hreceived, hdown, hstarted, hdone, hphase⟩
  | deliver n =>
    obtain ⟨hconn, rfl⟩ := step_eq_some h
    exact absurd hconn hdown
  | finish =>
    obtain ⟨hconn, -, -, -, rfl⟩ := step_eq_some h
    exact absurd hconn hdown
  | cut clean =>
    obtain ⟨hconn, rfl⟩ := step_eq_some h
    exact absurd hconn hdown
  | notice =>
    obtain ⟨-, -, rfl⟩ := step_eq_some h
    refine ⟨hreceived, hdown, hstarted, hdone, Or.inr (Or.inl ?_)⟩
    simp only [if_neg hdone, onError, hstarted, Bool.false_eq_true, if_false]
  | block =>
    obtain ⟨-, rfl⟩ := step_eq_some h
    exact ⟨hreceived, hdown, hstarted, hdone, Or.inr (Or.inr rfl)⟩

theorem Sending.counted_init : Sending.Counted {} where
  rows := rfl
  planned h := nomatch h
  up _ := rfl

theorem Sending.safe_init : Sending.Safe modelDumpJson {} where
  counted := counted_init
  streamed := ⟨fun _ => ⟨rfl, rfl, rfl⟩, fun h => nomatch h⟩
  resent h := by rcases h with h | h <;> cases h
  ended h := absurd rfl h

/-- When all has happened, a message that the server handled has one row exactly when the streaming
connection never failed between the request and the first delta. -/
theorem one_row_iff {events : List (SendEvent modelDumpJson)}
    (hrun : exec Sending.step {} events = some t) (hquiescent : t.Quiescent)
    (hprocessed : t.Processed) :
    t.rows = 1 ↔ Guarded Sending.step FailsHarmlessly {} events := by
  obtain ⟨hplanned, hstreaming, hfallback⟩ := hquiescent
  have hcounted : t.Counted :=
    invariant_exec (fun _ _ _ hs => Sending.counted_step hs) Sending.counted_init hrun
  constructor
  · intro hrows
    by_contra hg
    have hdoubled : t.Doubled := trapped_of_not_guarded (fun _ _ _ hs => Sending.counted_step hs)
      (fun _ _ _ hs hharmful => Sending.doubled_of_cut hs hharmful)
      (fun _ _ _ hs => Sending.doubled_step hs) Sending.counted_init hg hrun
    have hanswered : t.phase = .answered := by
      rcases hdoubled.phase with h | h | h
      · exact absurd h hstreaming
      · exact absurd h hfallback
      · exact h
    have htwo := hcounted.rows
    rw [hplanned hdoubled.received, hanswered] at htwo
    rw [hrows] at htwo
    exact absurd htwo (by decide)
  · intro hg
    have hsafe : t.Safe modelDumpJson := Guarded.invariant
      (fun _ _ _ hs hharmless => Sending.safe_step hs hharmless) Sending.safe_init hg hrun
    rw [hcounted.rows]
    by_cases hanswered : t.phase = .answered
    · have hnot := hsafe.resent (Or.inr hanswered)
      have hunplanned : t.planned = false := by
        cases hp : t.planned with
        | false => rfl
        | true => exact absurd ((hcounted.planned hp).symm.trans hnot) (by decide)
      simp [hanswered, hunplanned]
    · have hreceived : t.received := hprocessed.resolve_right hanswered
      simp [hanswered, hplanned hreceived]

end

/-- A reply that is ready, streamed as a single delta. -/
def greeting : StreamedReply dumpEmpty := ⟨["Chào bạn"], .obj [], isObjectLine_dumpEmpty _⟩

/-- The connection breaks after the server stored the message and before the client has read a
delta. -/
def lostBeforeDelta : List (SendEvent dumpEmpty) :=
  [.receive, .plan greeting, .yield, .cut false, .notice, .block, .yield]

/-- The connection breaks between the delta and the final event. -/
def lostAfterDelta : List (SendEvent dumpEmpty) :=
  [.receive, .plan greeting, .yield, .deliver 60, .cut false, .notice, .yield]

/-- The message that is sent again has two rows. -/
theorem message_stored_twice : ¬ ∀ (modelDumpJson : Json → Text)
    (events : List (SendEvent modelDumpJson)) (t : Sending),
    exec Sending.step {} events = some t → t.Quiescent → t.Processed → t.rows = 1 := by
  intro h
  obtain ⟨t, hrun, hrows, hquiescent, hprocessed⟩ : ∃ t, exec Sending.step {} lostBeforeDelta = some t ∧
      t.rows = 2 ∧ t.Quiescent ∧ t.Processed :=
    ⟨_, rfl, rfl, ⟨fun _ => rfl, by decide, by decide⟩, Or.inl rfl⟩
  exact absurd (hrows.symm.trans (h _ _ t hrun hquiescent hprocessed)) (by decide)

theorem one_row_after_delta :
    ∃ t, exec Sending.step {} lostAfterDelta = some t ∧ t.phase = .swallowed ∧ t.rows = 1 := by
  obtain ⟨t, hrun, hphase, hquiescent, hprocessed⟩ : ∃ t,
      exec Sending.step {} lostAfterDelta = some t ∧ t.phase = .swallowed ∧ t.Quiescent ∧ t.Processed :=
    ⟨_, rfl, by decide, ⟨fun _ => rfl, by decide, by decide⟩, Or.inl rfl⟩
  exact ⟨t, hrun, hphase, (one_row_iff hrun hquiescent hprocessed).mpr (by decide)⟩

end Qiki.Client
