import Qiki.Chat.History
import Qiki.Data.Generators

/-! `stream_message`, which can be closed, cancelled or left by the pipeline at any point. -/
namespace Qiki.Chat

open Gen

/-- What stands behind one call: the customer's message, how often `_plan_response` awaits before
and after it stores that message, the answer that it stores itself (`none` leaves the answer to the
pipeline), how often the answer is prepared with an await, and the pieces of the pipeline with the
error that ends them, if one does. -/
structure StreamTurn (ε : Type) where
  content : Text
  awaitsBefore : ℕ
  awaitsAfter : ℕ
  answer : Option Text
  awaitsContext : ℕ
  deltas : List Text
  failure : Option ε
  now : Timestamp

/-- `StreamDelta` and `StreamDone`, the latter with its assistant message. -/
inductive StreamEvent
  | delta (text : Text)
  | finished (assistantMessage : Option Message)
  deriving DecidableEq

/-- The rows added to the session, the local variables `chunks` and `assistant_message`, and what
the pipeline has handed over so far. -/
structure StreamState where
  rows : List Message := []
  chunks : List Text := []
  assistantMessage : Option Message := none
  received : List Text := []
  deriving DecidableEq

section
variable {ε : Type}

abbrev Streaming (ε : Type) : Type → Type := Gen ε StreamEvent StreamState

def StreamTurn.userRow (turn : StreamTurn ε) : Message where
  role := .user
  content := turn.content
  createdAt := turn.now

def StreamTurn.assistantRow (turn : StreamTurn ε) (content : Text) : Message where
  role := .assistant
  content := content
  createdAt := turn.now

/-- `session.add` -/
def addRow (row : Message) : Streaming ε Unit :=
  Gen.modify fun s => { s with rows := s.rows ++ [row] }

/-- `MessageRepository.create`: the row is added, then flushed and refreshed. -/
def createMessage (row : Message) : Streaming ε Unit := do
  addRow row
  pause
  pause

/-- The writes of `_plan_response`, with the answer that it stores. -/
def planStream (turn : StreamTurn ε) : Streaming ε (Option Message) := do
  pauses turn.awaitsBefore
  createMessage turn.userRow
  pauses turn.awaitsAfter
  match turn.answer with
  | none => pure none
  | some answer => do
    createMessage (turn.assistantRow answer)
    pure (some (turn.assistantRow answer))

/-- The body of the loop over `query_stream`: a piece is passed on unless it is empty. -/
def takeDelta (delta : Text) : Streaming ε Unit := do
  Gen.modify fun s => { s with received := s.received ++ [delta] }
  if delta.isEmpty then pure ()
  else do
    Gen.modify fun s => { s with chunks := s.chunks ++ [delta] }
    Gen.yield (.delta delta)

/-- The loop over `query_stream`, which awaits every piece, and the end. -/
def forwardDeltas (failure : Option ε) : List Text → Streaming ε Unit
  | [] => do
    pause
    match failure with
    | some e => raise e
    | none => pure ()
  | delta :: deltas => do
    pause
    takeDelta delta
    forwardDeltas failure deltas

/-- The `finally` block. The shielded write goes on when the await for it is interrupted. -/
def persistChunks (turn : StreamTurn ε) : Streaming ε Unit := do
  let s ← Gen.get
  if s.chunks.isEmpty then pure ()
  else do
    let row := turn.assistantRow s.chunks.flatten
    addRow row
    pause
    Gen.modify fun s => { s with assistantMessage := some row }

/-- The conversation is loaded again for the last event. -/
def finishStream (assistantMessage : Option Message) : Streaming ε Unit := do
  pause
  Gen.yield (.finished assistantMessage)

/-- The branch in which the pipeline answers. -/
def streamAnswer (turn : StreamTurn ε) : Streaming ε Unit := do
  pauses turn.awaitsContext
  (forwardDeltas turn.failure turn.deltas).tryFinally (persistChunks turn)
  let s ← Gen.get
  finishStream s.assistantMessage

/-- `stream_message`; a generator can be closed before it is started. -/
def streamEvents (turn : StreamTurn ε) : Streaming ε Unit := do
  pause
  match ← planStream turn with
  | none => streamAnswer turn
  | some row => do
    if row.content.isEmpty then pure () else Gen.yield (.delta row.content)
    finishStream (some row)

end

section
variable {ε : Type} {turn : StreamTurn ε} {i : Option (ℕ × ε)} {s : StreamState}

/-- The pieces that are not empty. -/
def pieces (deltas : List Text) : List Text := deltas.filter (!·.isEmpty)

/-- The assistant rows that belong to some pieces. -/
def answerRows (turn : StreamTurn ε) (chunks : List Text) : List Message :=
  if chunks.isEmpty then [] else [turn.assistantRow chunks.flatten]

/-- A piece that was received is in the chunks when it is handed out. -/
theorem run_takeDelta (delta : Text) (i : Option (ℕ × ε)) (s : StreamState) :
    ((takeDelta delta).run i s).state =
        { s with received := s.received ++ [delta], chunks := s.chunks ++ pieces [delta] } ∧
      ((takeDelta delta).run i s).out = (pieces [delta]).map .delta := by
  unfold takeDelta pieces
  cases hempty : delta.isEmpty with
  | true => simp [hempty, Gen.run, Bind.bind, Gen.bind, Gen.modify, Pure.pure]
  | false =>
    rcases i with _ | ⟨_ | n, e⟩ <;>
      simp [hempty, Gen.run, Bind.bind, Gen.bind, Gen.modify, Gen.yield, Ran.after]

/-- However the loop ends, the chunks are the pieces of what was received. -/
theorem run_forwardDeltas (failure : Option ε) (deltas : List Text) (i : Option (ℕ × ε))
    (s : StreamState) : ∃ got, got <+: deltas ∧
      ((forwardDeltas failure deltas).run i s).state =
        { s with received := s.received ++ got, chunks := s.chunks ++ pieces got } ∧
      ((forwardDeltas failure deltas).run i s).out = (pieces got).map .delta ∧
      (((forwardDeltas failure deltas).run i s).result = .ok () → got = deltas) := by
  induction deltas generalizing i s with
  | nil =>
    refine ⟨[], List.prefix_refl [], ?_⟩
    rcases i with _ | ⟨_ | n, e⟩ <;> cases failure <;>
      simp [forwardDeltas, pieces, Gen.run, Bind.bind, Gen.bind, pause, Pure.pure]
  | cons delta deltas ih =>
    have hpiece (j : Option (ℕ × ε)) : ∃ got, got <+: delta :: deltas ∧
        ((takeDelta delta >>= fun _ => forwardDeltas failure deltas).run j s).state =
          { s with received := s.received ++ got, chunks := s.chunks ++ pieces got } ∧
        ((takeDelta delta >>= fun _ => forwardDeltas failure deltas).run j s).out =
          (pieces got).map .delta ∧
        (((takeDelta delta >>= fun _ => forwardDeltas failure deltas).run j s).result = .ok () →
          got = delta :: deltas) := by
      obtain ⟨hstate, hout⟩ := run_takeDelta delta j s
      change ∃ got, _ ∧ (((takeDelta delta).bind fun _ => forwardDeltas failure deltas).run j s).state
        = _ ∧ (((takeDelta delta).bind fun _ => forwardDeltas failure deltas).run j s).out = _ ∧
        ((((takeDelta delta).bind fun _ => forwardDeltas failure deltas).run j s).result = _ → _)
      rw [run_bind]
      cases hresult : ((takeDelta delta).run j s).result with
      | error e =>
        exact ⟨[delta], List.cons_prefix_cons.mpr ⟨rfl, List.nil_prefix⟩, hstate, hout,
          fun h => by cases h⟩
      | ok _ =>
        obtain ⟨got, hgot, hstate', hout', hall⟩ :=
          ih ((takeDelta delta).run j s).left ((takeDelta delta).run j s).state
        have hpieces : pieces (delta :: got) = pieces [delta] ++ pieces got :=
          List.filter_append [delta] got
        refine ⟨delta :: got, List.cons_prefix_cons.mpr ⟨rfl, hgot⟩, ?_, ?_, ?_⟩
        · show ((forwardDeltas failure deltas).run _ _).state = _
          rw [hstate', hstate, hpieces]
          simp only [List.append_assoc, List.singleton_append]
        · show ((takeDelta delta).run j s).out ++ ((forwardDeltas failure deltas).run _ _).out = _
          rw [hout', hout, hpieces, List.map_append]
        · exact fun hok => congrArg (delta :: ·) (hall hok)
    rcases i with _ | ⟨_ | n, e⟩
    · exact hpiece none
    · exact ⟨[], List.nil_prefix, by
        simp [pieces, forwardDeltas, Gen.run, Bind.bind, Gen.bind, pause]⟩
    · exact hpiece (some (n, e))

/-- The `finally` block adds the row of the chunks, if there are any, however it ends. -/
theorem run_persistChunks (turn : StreamTurn ε) (i : Option (ℕ × ε)) (s : StreamState) :
    ((persistChunks turn).run i s).state.rows = s.rows ++ answerRows turn s.chunks ∧
      ((persistChunks turn).run i s).state.received = s.received ∧
      ((persistChunks turn).run i s).out = [] ∧
      (((persistChunks turn).run i s).result = .ok () →
        ((persistChunks turn).run i s).state.assistantMessage =
          (answerRows turn s.chunks).head?.or s.assistantMessage) := by
  unfold persistChunks answerRows
  cases hchunks : s.chunks with
  | nil => simp [hchunks, Gen.get, Gen.run, Bind.bind, Gen.bind, Pure.pure]
  | cons chunk chunks =>
    rcases i with _ | ⟨_ | n, e⟩ <;>
      simp [hchunks, addRow, Gen.get, Gen.run, Bind.bind, Gen.bind, Gen.modify, pause]

theorem run_finishStream (row : Option Message) (i : Option (ℕ × ε)) (s : StreamState) :
    ((finishStream row).run i s).state = s ∧
      (((finishStream row).run i s).out = [] ∨
        ((finishStream row).run i s).out = [.finished row]) ∧
      (((finishStream row).run i s).result = .ok () →
        ((finishStream row).run i s).out = [.finished row]) := by
  rcases i with _ | ⟨_ | _ | n, e⟩ <;>
    simp [finishStream, Gen.run, Bind.bind, Gen.bind, pause, Gen.yield, Ran.after]

/-- The loop and its `finally` block, from a state without pieces. -/
theorem run_persistedLoop (turn : StreamTurn ε) (i : Option (ℕ × ε)) (rows : List Message) :
    let r := ((forwardDeltas turn.failure turn.deltas).tryFinally (persistChunks turn)).run i
      { rows }
    r.state.rows = rows ++ answerRows turn (pieces r.state.received) ∧
      r.state.received <+: turn.deltas ∧ r.out = (pieces r.state.received).map .delta ∧
      (r.result = .ok () → r.state.received = turn.deltas ∧
        r.state.assistantMessage = (answerRows turn (pieces turn.deltas)).head?) := by
  obtain ⟨got, hgot, hstate, hout, hall⟩ :=
    run_forwardDeltas turn.failure turn.deltas i { rows }
  rw [run_tryFinally]
  generalize (forwardDeltas turn.failure turn.deltas).run i { rows } = body at *
  simp only [hstate, hout, List.nil_append]
  obtain ⟨hrows, hreceived, hquiet, hrow⟩ :=
    run_persistChunks turn body.left { rows, chunks := pieces got, received := got }
  refine ⟨hreceived.symm ▸ hrows, hreceived.symm ▸ hgot, ?_, ?_⟩
  · rw [hreceived, hquiet, List.append_nil]
  · intro hok
    cases hlast : ((persistChunks turn).run body.left
      { rows, chunks := pieces got, received := got }).result with
    | error e => rw [hlast] at hok; cases hok
    | ok _ =>
      rw [hlast] at hok
      have hgot : got = turn.deltas := hall hok
      refine ⟨hreceived.trans hgot, ?_⟩
      rw [hrow hlast, hgot, Option.or_none]

/-- What a run has left in the session, next to the rows that do not belong to the answer, and what
it has handed out. -/
structure KeepsAnswer (turn : StreamTurn ε) (others : List Message)
    (r : Ran ε StreamEvent StreamState Unit) : Prop where
  rows : r.state.rows = others ++ answerRows turn (pieces r.state.received)
  received : r.state.received <+: turn.deltas
  out : r.out = (pieces r.state.received).map .delta ∨ r.state.received = turn.deltas ∧
    r.out = (pieces turn.deltas).map .delta ++
      [.finished (answerRows turn (pieces turn.deltas)).head?]
  complete : r.result = .ok () → r.state.received = turn.deltas ∧
    r.out = (pieces turn.deltas).map .delta ++
      [.finished (answerRows turn (pieces turn.deltas)).head?]

/-- A run that is interrupted before the first piece. -/
theorem keepsAnswer_error (e : ε) (others : List Message) (left : Option (ℕ × ε)) :
    KeepsAnswer turn others ⟨.error e, { rows := others }, [], left⟩ where
  rows := (List.append_nil others).symm
  received := List.nil_prefix
  out := .inl rfl
  complete h := nomatch h

/-- Awaits before a part that keeps the answer do not matter. -/
theorem keepsAnswer_pauses {part : Streaming ε Unit} {rows : List Message}
    (hpart : ∀ j, KeepsAnswer turn rows (part.run j { rows })) (n : ℕ) (i : Option (ℕ × ε)) :
    KeepsAnswer turn rows (((pauses n).bind fun _ => part).run i { rows }) := by
  rw [run_bind, run_pauses]
  rcases i with _ | ⟨k, e⟩
  · exact hpart none
  · by_cases h : k < n
    · simp only [h, if_true]
      exact keepsAnswer_error e rows none
    · simp only [h, if_false]
      exact hpart (some (k - n, e))

/-- The branch of the pipeline, however it ends. -/
theorem run_streamAnswer (turn : StreamTurn ε) (i : Option (ℕ × ε)) (rows : List Message) :
    KeepsAnswer turn rows ((streamAnswer turn).run i { rows }) := by
  change KeepsAnswer turn rows (((pauses turn.awaitsContext).bind fun _ =>
    ((forwardDeltas turn.failure turn.deltas).tryFinally (persistChunks turn)).bind fun _ =>
      .read fun s => finishStream s.assistantMessage).run i { rows })
  have hloop (j : Option (ℕ × ε)) : KeepsAnswer turn rows
      ((((forwardDeltas turn.failure turn.deltas).tryFinally (persistChunks turn)).bind fun _ =>
        .read fun s => finishStream s.assistantMessage).run j { rows }) := by
    obtain ⟨hrows, hreceived, hout, hok⟩ := run_persistedLoop turn j rows
    rw [run_bind]
    generalize ((forwardDeltas turn.failure turn.deltas).tryFinally (persistChunks turn)).run j
      { rows } = loop at *
    cases hresult : loop.result with
    | error e => exact ⟨hrows, hreceived, .inl hout, fun h => nomatch h⟩
    | ok _ =>
      obtain ⟨hdeltas, hrow⟩ := hok hresult
      obtain ⟨hstate, hlast, hdone⟩ :=
        run_finishStream loop.state.assistantMessage loop.left loop.state
      rw [hrow] at hstate hlast hdone
      rw [hdeltas] at hout
      simp only [Gen.run, hrow]
      generalize (finishStream _).run loop.left loop.state = last at *
      have hsent (h : last.out = [.finished (answerRows turn (pieces turn.deltas)).head?]) :
          (last.after loop.out).out = (pieces turn.deltas).map .delta ++
            [.finished (answerRows turn (pieces turn.deltas)).head?] := by
        rw [← h, ← hout]
        rfl
      refine ⟨?_, ?_, ?_, ?_⟩ <;> simp only [Ran.after, hstate] at hsent ⊢
      · exact hrows
      · exact hreceived
      · rcases hlast with hlast | hlast
        · left
          rw [hlast, hdeltas, hout, List.append_nil]
        · exact .inr ⟨hdeltas, hsent hlast⟩
      · exact fun hend => ⟨hdeltas, hsent (hdone hend)⟩
  exact keepsAnswer_pauses hloop turn.awaitsContext i

/-- Where the interruption comes after the customer's message has been added, that message is kept,
next to the answer that has been sent. -/
theorem streamEvents_keepsAnswer (turn : StreamTurn ε) (hanswer : turn.answer = none)
    (i : Option (ℕ × ε)) :
    KeepsAnswer turn (if i.all (turn.awaitsBefore < ·.1) then [turn.userRow] else [])
      ((streamEvents turn).run i {}) := by
  obtain ⟨content, before, after, _, context, deltas, failure, now⟩ := turn
  subst hanswer
  set turn : StreamTurn ε := ⟨content, before, after, none, context, deltas, failure, now⟩
  have hcall : streamEvents turn = (pauses (before + 1)).bind fun _ =>
      .write (fun s => { s with rows := s.rows ++ [turn.userRow] }) <| (pauses 2).bind fun _ =>
        (pauses after).bind fun _ => streamAnswer turn := by
    change (pause.bind fun _ => ((pauses before).bind fun _ => (createMessage turn.userRow).bind
      fun _ => (pauses after).bind fun _ => .done none).bind _) = _
    simp only [pauses, bind_assoc]
    rfl
  have hrest (j : Option (ℕ × ε)) : KeepsAnswer turn [turn.userRow] (((pauses 2).bind fun _ =>
      (pauses after).bind fun _ => streamAnswer turn).run j { rows := [turn.userRow] }) :=
    keepsAnswer_pauses (keepsAnswer_pauses (fun k => run_streamAnswer turn k _) after) 2 j
  rw [hcall, run_bind, run_pauses]
  rcases i with _ | ⟨n, e⟩
  · exact hrest none
  · by_cases h : n < before + 1
    · have hearly : ¬ turn.awaitsBefore < n := Nat.not_lt.mpr (Nat.lt_succ_iff.mp h)
      simp only [h, if_true, Option.all_some, hearly, decide_false, Bool.false_eq_true, if_false]
      exact keepsAnswer_error e [] none
    · have hlate : turn.awaitsBefore < n := Nat.lt_of_succ_le (Nat.not_lt.mp h)
      simp only [h, if_false, Option.all_some, hlate, decide_true, if_true]
      exact hrest (some (n - (before + 1), e))

end

/-- Two pieces with an empty one between them. -/
def greetingTurn : StreamTurn Unit where
  content := "hi".toList
  awaitsBefore := 2
  awaitsAfter := 1
  answer := none
  awaitsContext := 1
  deltas := ["Hel".toList, [], "lo".toList]
  failure := none
  now := 0

/-- The customer leaves at the second piece that is handed out. -/
theorem greeting_closed :
    KeepsAnswer greetingTurn [greetingTurn.userRow]
        ((streamEvents greetingTurn).run (some (11, ())) {}) ∧
      ((streamEvents greetingTurn).run (some (11, ())) {}).state.rows =
        [greetingTurn.userRow, greetingTurn.assistantRow "Hello".toList] :=
  ⟨streamEvents_keepsAnswer greetingTurn rfl (some (11, ())), by decide⟩

/-- A turn that is cancelled in planning leaves no row of the customer. -/
theorem greeting_cancelled :
    (((streamEvents greetingTurn).run (some (2, ())) {}).state.rows.filter
      (·.role == .user)).length ≠ 1 := by
  decide

end Qiki.Chat
