import Qiki.Data.JsonText
import Qiki.Text.Incremental

/-! Server-Sent Events: the frames that `event_stream` writes and that the client reads back from
chunks of the response. -/
namespace Qiki.Client

/-! The server. -/

/-- An event of `ConversationService.stream_message`; the final one carries the response. -/
inductive StreamEvent
  | delta (text : Text)
  | done (response : Json)

/-- `json.dumps({'text': text})` -/
def dumpsText (text : Text) : Text :=
  "\x7b" ++ Json.quote "text" ++ ": " ++ Json.quote text ++ "\x7d"

/-- The JSON body of an event; `modelDumpJson` writes a response. -/
def StreamEvent.body (modelDumpJson : Json → Text) : StreamEvent → Text
  | .delta text => dumpsText text
  | .done response => modelDumpJson response

def StreamEvent.name : StreamEvent → Text
  | .delta _ => "delta"
  | .done _ => "done"

/-- `JSON.parse`; the constants beyond JSON that `json.loads` knows are no values here. -/
def jsonParse (text : Text) : Option Json := Json.loads text

/-- The JSON value of an event; a response stands for what its serialised text says. -/
def StreamEvent.value (modelDumpJson : Json → Text) : StreamEvent → Option Json
  | .delta text => some (.obj [("text", .str text)])
  | .done response => jsonParse (modelDumpJson response)

/-- What `event_stream` yields for one event. -/
def encodeEvent (modelDumpJson : Json → Text) (e : StreamEvent) : Text :=
  "event: " ++ e.name ++ "\ndata: " ++ e.body modelDumpJson ++ "\n\n"

def eventStream (modelDumpJson : Json → Text) (events : List StreamEvent) : Text :=
  events.flatMap (encodeEvent modelDumpJson)

/-! The client. -/

structure SseFrame where
  event : Text
  data : Text
  deriving DecidableEq, Repr

/-- What JavaScript's `trim` removes. -/
def jsSpace (c : Char) : Bool :=
  c.toNat ∈ [0x09, 0x0a, 0x0b, 0x0c, 0x0d, 0x20, 0xa0, 0x1680, 0x2028, 0x2029, 0x202f, 0x205f, 0x3000,
    0xfeff] || (0x2000 ≤ c.toNat && c.toNat ≤ 0x200a)

def trim (s : Text) : Text := Text.strip jsSpace s

/-- One line of a frame: the event so far and the data lines so far. -/
def readLine (state : Text × List Text) (line : Text) : Text × List Text :=
  if ("event:" : Text).isPrefixOf line then (trim (line.drop 6), state.2)
  else if ("data:" : Text).isPrefixOf line then (state.1, state.2 ++ [trim (line.drop 5)])
  else state

/-- The frame of the lines before a separator; without data there is none. -/
def readFrame (raw : Text) : Option SseFrame :=
  let lines := (raw.splitOn '\n').foldl readLine ("message", [])
  if lines.2.isEmpty then none else some ⟨lines.1, Text.join "\n" lines.2⟩

def separator : Text := "\n\n"

/-- The loop of `parseSseFrames`; every round takes a separator off the rest. -/
def takeFrames : ℕ → Text → List SseFrame × Text
  | 0, rest => ([], rest)
  | n + 1, rest =>
    match Text.find rest separator with
    | none => ([], rest)
    | some i =>
      let more := takeFrames n (rest.drop (i + 2))
      ((readFrame (rest.take i)).toList ++ more.1, more.2)

def parseSseFrames (buffer : Text) : List SseFrame × Text := takeFrames buffer.length buffer

/-- One chunk in `streamMessage`: the frames so far and the carried buffer. -/
def readChunk (state : List SseFrame × Text) (chunk : Text) : List SseFrame × Text :=
  let buffer := state.2 ++ chunk
  let parsed := parseSseFrames buffer
  (state.1 ++ parsed.1, parsed.2)

/-! The loop, whatever its input. -/

theorem takeFrames_of_none {n : ℕ} {rest : Text} (h : Text.find rest separator = none) :
    takeFrames n rest = ([], rest) := by
  cases n with
  | zero => rfl
  | succ n => simp only [takeFrames, h]

/-- Rounds beyond the length of the rest change nothing. -/
theorem takeFrames_congr {n m : ℕ} {rest : Text} (hn : rest.length ≤ n) (hm : rest.length ≤ m) :
    takeFrames n rest = takeFrames m rest := by
  induction n generalizing m rest with
  | zero =>
    obtain rfl := List.length_eq_zero_iff.mp (Nat.le_zero.mp hn)
    exact (takeFrames_of_none rfl).symm
  | succ n ih =>
    cases hfind : Text.find rest separator with
    | none => rw [takeFrames_of_none hfind, takeFrames_of_none hfind]
    | some i =>
      have hlen : i + 2 ≤ rest.length := Text.length_le_of_find hfind
      cases m with
      | zero => omega
      | succ m =>
        have hmore : takeFrames n (rest.drop (i + 2)) = takeFrames m (rest.drop (i + 2)) :=
          ih (by rw [List.length_drop]; omega) (by rw [List.length_drop]; omega)
        simp only [takeFrames, hfind, hmore]

theorem parseSseFrames_of_none {rest : Text} (h : Text.find rest separator = none) :
    parseSseFrames rest = ([], rest) := takeFrames_of_none h

theorem parseSseFrames_of_some {rest : Text} {i : ℕ} (h : Text.find rest separator = some i) :
    parseSseFrames rest =
      ((readFrame (rest.take i)).toList ++ (parseSseFrames (rest.drop (i + 2))).1,
        (parseSseFrames (rest.drop (i + 2))).2) := by
  have hlen : i + 2 ≤ rest.length := Text.length_le_of_find h
  have hround : parseSseFrames rest = takeFrames (rest.length + 1) rest :=
    takeFrames_congr le_rfl (Nat.le_succ _)
  have hmore : takeFrames rest.length (rest.drop (i + 2)) = parseSseFrames (rest.drop (i + 2)) :=
    takeFrames_congr (by rw [List.length_drop]; omega) le_rfl
  rw [hround, takeFrames, h]
  simp only [hmore]

/-- The separators of a buffer stay where they are when more arrives. -/
theorem parseSseFrames_resumable : Incremental.Resumable parseSseFrames := by
  intro a b
  induction hn : a.length using Nat.strong_induction_on generalizing a with
  | h n ih =>
    cases hfind : Text.find a separator with
    | none => rw [parseSseFrames_of_none hfind, List.nil_append]
    | some i =>
      have hlen : i + 2 ≤ a.length := Text.length_le_of_find hfind
      have hmore := ih (a.drop (i + 2)).length (by rw [List.length_drop]; omega)
        (a.drop (i + 2)) rfl
      rw [parseSseFrames_of_some (Text.find_append_of_eq_some hfind b), parseSseFrames_of_some hfind,
        List.take_append_of_le_length (by omega), List.drop_append_of_le_length hlen, hmore]
      simp only [List.append_assoc]

/-- What was read of a text, and one more chunk of it. -/
theorem readChunk_parseSseFrames (text chunk : Text) :
    readChunk (parseSseFrames text) chunk = parseSseFrames (text ++ chunk) :=
  (parseSseFrames_resumable text chunk).symm

/-- However the text is cut into chunks, the client reads the frames of the whole text. -/
theorem readChunks_eq (chunks : List Text) :
    chunks.foldl readChunk ([], []) = parseSseFrames chunks.flatten :=
  Incremental.foldl_feed parseSseFrames_resumable rfl chunks

/-! The frames of the server. -/

theorem newline_not_mem_unicodeEscape (n : ℕ) : '\n' ∉ Json.unicodeEscape n := by
  have hdigit : ∀ d < 16, d.digitChar ≠ '\n' := by decide
  have hne (m : ℕ) : '\n' ≠ (m % 16).digitChar := (hdigit _ (Nat.mod_lt m (by decide))).symm
  simp [Json.unicodeEscape, hne]

theorem newline_not_mem_escapeChar (c : Char) : '\n' ∉ Json.escapeChar c := by
  unfold Json.escapeChar
  split_ifs with hquote hslash hnewline
  all_goals try decide
  · simpa using fun h => hnewline h.symm
  · exact newline_not_mem_unicodeEscape _
  · rw [List.mem_append, not_or]
    exact ⟨newline_not_mem_unicodeEscape _, newline_not_mem_unicodeEscape _⟩

theorem newline_not_mem_quote (text : Text) : '\n' ∉ Json.quote text := by
  simp only [Json.quote, List.mem_cons, List.mem_append, List.mem_flatMap, not_or, not_exists, not_and]
  exact ⟨by decide, fun c _ => newline_not_mem_escapeChar c, by decide⟩

theorem newline_not_mem_dumpsText (text : Text) : '\n' ∉ dumpsText text := by
  simp only [dumpsText, List.mem_append, not_or]
  exact ⟨⟨⟨⟨by decide, newline_not_mem_quote _⟩, by decide⟩, newline_not_mem_quote text⟩, by decide⟩

/-- The text of a chunk is read back. -/
theorem jsonParse_dumpsText (text : Text) :
    jsonParse (dumpsText text) = some (.obj [("text", .str text)]) := by
  have hdumps : dumpsText text = Json.dumps (fun _ => []) (.obj [("text", .str text)]) := by
    simp [dumpsText, Json.dumps, Json.dumpsFields]
  rw [jsonParse, hdumps, Json.loads_dumps (fun _ => []) (by simp [Json.plain, Json.plainFields])]

/-- The body of an event is one line with a JSON object. -/
structure IsObjectLine (body : Text) : Prop where
  newline : '\n' ∉ body
  braces : ∃ inner, body = '{' :: (inner ++ [ '}'])

theorem isObjectLine_dumpsText (text : Text) : IsObjectLine (dumpsText text) where
  newline := newline_not_mem_dumpsText text
  braces := ⟨Json.quote "text" ++ ": " ++ Json.quote text, rfl⟩

theorem trim_space_object {body : Text} (h : IsObjectLine body) : trim (' ' :: body) = body := by
  obtain ⟨inner, rfl⟩ := h.braces
  have hspace : jsSpace ' ' = true := by decide
  have hopen : jsSpace '{' = false := by decide
  have hclose : jsSpace '}' = false := by decide
  simp [trim, Text.strip, List.dropWhile, hspace, hopen, hclose]

/-- An encoded event is two lines and a separator. -/
theorem encodeEvent_eq (modelDumpJson : Json → Text) (e : StreamEvent) :
    encodeEvent modelDumpJson e =
      ("event: " ++ e.name) ++ '\n' :: (("data: " ++ e.body modelDumpJson) ++ separator) := by
  have hdata : ("\ndata: " : Text) = '\n' :: ("data: " : Text) := by decide
  unfold encodeEvent separator
  rw [hdata]
  simp only [List.append_assoc, List.cons_append]

theorem newline_not_mem_name (e : StreamEvent) : '\n' ∉ ("event: " : Text) ++ e.name := by
  cases e with
  | delta text => exact (by decide : '\n' ∉ ("event: " : Text) ++ ("delta" : Text))
  | done response => exact (by decide : '\n' ∉ ("event: " : Text) ++ ("done" : Text))

theorem newline_not_mem_data {body : Text} (h : IsObjectLine body) :
    '\n' ∉ ("data: " : Text) ++ body := by
  simp only [List.mem_append, not_or]
  exact ⟨by decide, h.newline⟩

theorem separator_eq : separator = [ '\n', '\n'] := by decide

/-- Behind the two lines of an event stands the first separator. -/
theorem find_separator {x y : Text} (hx : '\n' ∉ x) (hy : '\n' ∉ y) (hne : y ≠ []) (rest : Text) :
    Text.find (x ++ '\n' :: (y ++ (separator ++ rest))) separator =
      some (x ++ '\n' :: y).length := by
  obtain ⟨c, y, rfl⟩ := List.exists_cons_of_ne_nil hne
  have hc : c ≠ '\n' := fun h => hy (h ▸ List.mem_cons_self ..)
  have hself : Text.find ([ '\n', '\n'] ++ rest) [ '\n', '\n'] = some 0 := by
    rw [List.cons_append, Text.find_cons]
    simp [List.isPrefixOf]
  have hnext : Text.find ('\n' :: ((c :: y) ++ ([ '\n', '\n'] ++ rest))) [ '\n', '\n'] =
      some ((c :: y).length + 1) := by
    rw [Text.find_cons, Text.find_append_of_not_mem hy, hself]
    simp [List.isPrefixOf, hc.symm]
  rw [separator_eq, Text.find_append_of_not_mem hx, hnext, Option.map_some, List.length_append,
    Nat.add_comm]
  rfl

theorem readLine_name (e : StreamEvent) :
    readLine ("message", []) (("event: " : Text) ++ e.name) = (e.name, []) := by
  cases e with
  | delta text =>
    exact (by decide : readLine ("message", []) (("event: " : Text) ++ ("delta" : Text)) =
      (("delta" : Text), ([] : List Text)))
  | done response =>
    exact (by decide : readLine ("message", []) (("event: " : Text) ++ ("done" : Text)) =
      (("done" : Text), ([] : List Text)))

theorem readLine_data {name body : Text} (h : IsObjectLine body) :
    readLine (name, []) (("data: " : Text) ++ body) = (name, [body]) := by
  have hevent : ("event:" : Text) = 'e' :: ("vent:" : Text) := by decide
  have hdata : ("data:" : Text) = [ 'd', 'a', 't', 'a', ':'] := by decide
  have hline : ("data: " : Text) = [ 'd', 'a', 't', 'a', ':', ' '] := by decide
  simp [readLine, hevent, hdata, hline, List.isPrefixOf, trim_space_object h]

/-- The lines of an event give its frame. -/
theorem readFrame_event {modelDumpJson : Json → Text} {e : StreamEvent}
    (h : IsObjectLine (e.body modelDumpJson)) :
    readFrame ((("event: " : Text) ++ e.name) ++ '\n' :: (("data: " : Text) ++ e.body modelDumpJson)) =
      some ⟨e.name, e.body modelDumpJson⟩ := by
  have hlines : ((("event: " : Text) ++ e.name) ++
      '\n' :: (("data: " : Text) ++ e.body modelDumpJson)).splitOn '\n' =
      [("event: " : Text) ++ e.name, ("data: " : Text) ++ e.body modelDumpJson] := by
    have hname : ∀ c ∈ ("event: " : Text) ++ e.name, (c == '\n') = false := fun c hc =>
      beq_false_of_ne fun heq => newline_not_mem_name e (heq ▸ hc)
    have hdata : ∀ c ∈ ("data: " : Text) ++ e.body modelDumpJson, (c == '\n') = false := fun c hc =>
      beq_false_of_ne fun heq => newline_not_mem_data h (heq ▸ hc)
    rw [List.splitOn_eq_splitOnP, List.splitOnP_append_cons_of_forall_mem hname _ (by decide),
      List.splitOnP_eq_singleton hdata]
  simp only [readFrame, hlines, List.foldl_cons, List.foldl_nil, readLine_name, readLine_data h]
  simp [Text.join, List.intercalate]

/-- The client takes an encoded event off the front of its buffer. -/
theorem parseSseFrames_event {modelDumpJson : Json → Text} {e : StreamEvent}
    (h : IsObjectLine (e.body modelDumpJson)) (rest : Text) :
    parseSseFrames (encodeEvent modelDumpJson e ++ rest) =
      (⟨e.name, e.body modelDumpJson⟩ :: (parseSseFrames rest).1, (parseSseFrames rest).2) := by
  have hbuffer : encodeEvent modelDumpJson e ++ rest = ("event: " ++ e.name) ++
      '\n' :: (("data: " ++ e.body modelDumpJson) ++ (separator ++ rest)) := by
    rw [encodeEvent_eq]
    simp only [List.append_assoc, List.cons_append]
  have hsplit : ("event: " ++ e.name) ++
      '\n' :: (("data: " ++ e.body modelDumpJson) ++ (separator ++ rest)) =
      (("event: " ++ e.name) ++ '\n' :: ("data: " ++ e.body modelDumpJson)) ++ (separator ++ rest) := by
    simp only [List.append_assoc, List.cons_append]
  have hfind := find_separator (newline_not_mem_name e) (newline_not_mem_data h) (by simp) rest
  rw [hbuffer, parseSseFrames_of_some hfind, hsplit, List.take_left, ← List.drop_drop, List.drop_left,
    separator_eq, readFrame_event h]
  rfl

/-- The frames of a whole stream. -/
theorem parseSseFrames_eventStream {modelDumpJson : Json → Text} {events : List StreamEvent}
    (h : ∀ e ∈ events, IsObjectLine (e.body modelDumpJson)) :
    parseSseFrames (eventStream modelDumpJson events) =
      (events.map fun e => ⟨e.name, e.body modelDumpJson⟩, []) := by
  induction events with
  | nil => rfl
  | cons e events ih =>
    have hrest := ih fun e he => h e (List.mem_cons_of_mem _ he)
    rw [eventStream] at hrest
    rw [eventStream, List.flatMap_cons, parseSseFrames_event (h e (List.mem_cons_self ..)), hrest,
      List.map_cons]

/-- Cut into any chunks, the events that the server streams come out as their frames, in order, with
their names and JSON values, and nothing is left over. -/
theorem sse_round_trip {modelDumpJson : Json → Text} {events : List StreamEvent}
    {chunks : List Text}
    (hdump : ∀ response, .done response ∈ events → IsObjectLine (modelDumpJson response))
    (hchunks : chunks.flatten = eventStream modelDumpJson events) :
    let read := chunks.foldl readChunk ([], [])
    read.1 = events.map (fun e => ⟨e.name, e.body modelDumpJson⟩) ∧
      read.1.map (fun frame => (frame.event, jsonParse frame.data)) =
        events.map (fun e => (e.name, e.value modelDumpJson)) ∧
      read.2 = [] := by
  have hbody : ∀ e ∈ events, IsObjectLine (e.body modelDumpJson) := by
    rintro (text | response) he
    · exact isObjectLine_dumpsText text
    · exact hdump response he
  have hvalue : ∀ e : StreamEvent, jsonParse (e.body modelDumpJson) = e.value modelDumpJson := by
    rintro (text | response)
    · exact jsonParse_dumpsText text
    · rfl
  have hread : chunks.foldl readChunk ([], []) =
      (events.map fun e => ⟨e.name, e.body modelDumpJson⟩, []) := by
    rw [readChunks_eq, hchunks, parseSseFrames_eventStream hbody]
  simp only [hread]
  refine ⟨trivial, ?_, trivial⟩
  rw [List.map_map]
  exact List.map_congr_left fun e _ => by rw [Function.comp_apply, hvalue]

/-- A greeting over two lines and an empty response. -/
def greetingEvents : List StreamEvent := [.delta "Chào\nbạn", .done (.obj [])]

/-- `model_dump_json` of the empty response. -/
def dumpEmpty (_ : Json) : Text := "\x7b\x7d"

theorem isObjectLine_dumpEmpty (response : Json) : IsObjectLine (dumpEmpty response) :=
  (⟨by decide, [], by decide⟩ : IsObjectLine ("\x7b\x7d" : Text))

/-- The response is cut between the two newlines of the first separator. -/
theorem sse_round_trip_cut :
    let stream := eventStream dumpEmpty greetingEvents
    let read := [stream.take 51, stream.drop 51].foldl readChunk ([], [])
    read.1.map (fun frame => (frame.event, jsonParse frame.data)) =
      ([("delta", some (.obj [("text", .str "Chào\nbạn")])), ("done", some (.obj []))] :
        List (Text × Option Json)) ∧ read.2 = [] :=
  (@sse_round_trip dumpEmpty greetingEvents _
    (fun response _ => isObjectLine_dumpEmpty response) (by simp)).2

end Qiki.Client
