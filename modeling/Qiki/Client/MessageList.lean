import Qiki.Client.Reconciliation
import Qiki.Transition.Run

/-! The client's list of the messages of a conversation, and how polling keeps it up to date. -/
namespace Qiki.Client

structure ProductCard where
  id : Text
  name : Text
  price : ℕ
  deriving DecidableEq, Repr

/-- The fields of a message that polling only copies. -/
structure MessageFields where
  role : Text
  content : Text
  deriving DecidableEq, Repr

/-- A message as the endpoint returns it; `createdAt` is in microseconds. -/
abbrev Message := Reconciliation.Message ℕ ProductCard MessageFields

/-- `MessageListResponse` of the endpoint. -/
abbrev MessageList := Reconciliation.MessageListResponse ℕ ProductCard MessageFields

/-- The message without the product cards, which the endpoint does not store. -/
def Reconciliation.Message.bare (m : Client.Message) : Client.Message := { m with products := none }

/-- `Date.parse` of a time that the endpoint writes, in milliseconds. -/
def parseMicroseconds (time : ℕ) : Option ℤ := some (time / 1000 : ℕ)

/-! The server. -/

/-- The default `limit` of the endpoint; the client sends none. -/
def pageLimit : ℕ := 50

/-- The first page, with the messages in the order in which the database lists them. -/
def listMessages (ordered : List Message) : MessageList :=
  let items := ordered.take pageLimit
  ⟨items, items.length, 0, pageLimit⟩

/-- The rows of a conversation: primary keys, and every message no older than those before it. -/
structure Conversation where
  messages : List Message
  ids : (messages.map (·.id)).Nodup
  chronological : messages.Pairwise fun a b => a.createdAt ≤ b.createdAt

/-- A conversation on the server and what the client has read of it. -/
structure Polling where
  server : List Message := []
  client : Option MessageList := none
  deriving DecidableEq

/-- The server stores a message, or the client polls. `ORDER BY created_at` lists the rows in some
order that agrees with their times. -/
inductive PollingEvent
  | append (m : Message)
  | poll (ordered : List Message)

def Polling.step (s : Polling) : PollingEvent → Option Polling
  | .append m =>
    if m.id ∉ s.server.map (·.id) ∧ ∀ old ∈ s.server, old.createdAt ≤ m.createdAt then
      some { s with server := s.server ++ [m] }
    else none
  | .poll ordered =>
    if ordered.Perm s.server ∧ ordered.Pairwise (fun a b => a.createdAt ≤ b.createdAt) then
      some { s with
        client := some (Reconciliation.reconcileMessageList parseMicroseconds (listMessages ordered)
          s.client) }
    else none

/-- The client shows every message of the conversation, each once, and nothing else. -/
def ShowsAll (server : List Message) (list : MessageList) : Prop :=
  (list.items.map (·.bare)).Perm (server.map (·.bare))

/-! The list after a poll. -/

/-- The items the client has, none before its first poll. -/
def Polling.items (s : Polling) : List Message := (s.client.map (·.items)).getD []

/-- One message for each id that either list has. -/
structure Merged (incoming previous items : List Message) : Prop where
  ids : ∀ id, id ∈ items.map (·.id) ↔
    id ∈ incoming.map (·.id) ∨ id ∈ previous.map (·.id)
  nodup : (items.map (·.id)).Nodup
  bare : ∀ item ∈ items, ∃ m ∈ incoming ++ previous, item.bare = m.bare

/-- A poll merges the page into what the client has. -/
theorem reconcile_merged {ordered : List Message} (client : Option MessageList)
    (hids : (ordered.map (·.id)).Nodup)
    (honce : (((client.map (·.items)).getD []).map (·.id)).Nodup) :
    Merged (ordered.take pageLimit) ((client.map (·.items)).getD [])
      (Reconciliation.reconcileMessageList parseMicroseconds (listMessages ordered) client).items := by
  have hpage : (Reconciliation.ids (listMessages ordered).items).Nodup :=
    hids.sublist ((List.take_sublist _ _).map _)
  cases client with
  | some previous =>
    refine ⟨fun id => Reconciliation.mem_ids_items parseMicroseconds hpage honce,
      Reconciliation.nodup_items parseMicroseconds hpage honce, fun item hitem => ?_⟩
    have hentry := (Reconciliation.items_perm parseMicroseconds hpage honce).mem_iff.mp hitem
    rcases List.mem_append.mp hentry with hnew | hkept
    · obtain ⟨m, hm, rfl⟩ := List.mem_map.mp hnew
      exact ⟨m, List.mem_append_left _ hm, rfl⟩
    · exact ⟨item, List.mem_append_right _ (List.mem_of_mem_filter hkept), rfl⟩
  | none =>
    refine ⟨fun id => ?_, hpage, fun item hitem => ⟨item, List.mem_append_left _ hitem, rfl⟩⟩
    simp [Reconciliation.reconcileMessageList, listMessages]

/-- What holds of the client at all times: its messages are messages of the server, each once. -/
structure Polling.Valid (s : Polling) : Prop where
  ids : (s.server.map (·.id)).Nodup
  once : (s.items.map (·.id)).Nodup
  items : ∀ item ∈ s.items, ∃ m ∈ s.server, item.bare = m.bare

theorem Polling.valid_step {s t : Polling} {e : PollingEvent} (hs : s.Valid) (h : s.step e = some t) :
    t.Valid := by
  cases e with
  | append m =>
    simp only [Polling.step] at h
    split_ifs at h with hnew
    cases h
    refine ⟨?_, hs.once, fun item hitem => ?_⟩
    · rw [List.map_append, List.nodup_append]
      refine ⟨hs.ids, List.nodup_singleton _, fun a ha b hb heq => hnew.1 ?_⟩
      have hb : b = m.id := List.mem_singleton.mp hb
      rwa [← hb, ← heq]
    · obtain ⟨m', hm', hbare⟩ := hs.items item hitem
      exact ⟨m', List.mem_append_left _ hm', hbare⟩
  | poll ordered =>
    simp only [Polling.step] at h
    split_ifs at h with horder
    cases h
    have hids : (ordered.map (·.id)).Nodup :=
      ((horder.1.map (·.id)).nodup_iff).mpr hs.ids
    have hmerged := reconcile_merged s.client hids hs.once
    refine ⟨hs.ids, hmerged.nodup, fun item hitem => ?_⟩
    obtain ⟨m, hm, hbare⟩ := hmerged.bare item hitem
    rcases List.mem_append.mp hm with hm | hm
    · exact ⟨m, horder.1.mem_iff.mp (List.mem_of_mem_take hm), hbare⟩
    · obtain ⟨m', hm', hbare'⟩ := hs.items m hm
      exact ⟨m', hm', hbare.trans hbare'⟩

theorem Polling.valid_exec {events : List PollingEvent} {s : Polling}
    (h : Transition.exec Polling.step {} events = some s) : s.Valid :=
  have hinit : Polling.Valid {} := ⟨List.nodup_nil, List.nodup_nil, fun _ hitem => (by cases hitem)⟩
  Transition.invariant_exec (fun _ _ _ hs => valid_step hs) hinit h

theorem bare_nodup {items : List Message} (h : (items.map (·.id)).Nodup) :
    (items.map (·.bare)).Nodup := by
  refine List.Nodup.of_map (·.id) ?_
  rwa [List.map_map]

/-- A poll that gets every message shows every message. -/
theorem Polling.showsAll_of_poll {s t : Polling} {ordered : List Message} (hs : s.Valid)
    (hlength : s.server.length ≤ pageLimit) (h : s.step (.poll ordered) = some t)
    {list : MessageList} (hlist : t.client = some list) : ShowsAll t.server list := by
  have ht := valid_step hs h
  simp only [Polling.step] at h
  split_ifs at h with horder
  cases h
  obtain rfl := Option.some.inj hlist
  have hids : (ordered.map (·.id)).Nodup := ((horder.1.map (·.id)).nodup_iff).mpr hs.ids
  have hmerged := reconcile_merged s.client hids hs.once
  rw [List.take_of_length_le (horder.1.length_eq.trans_le hlength)] at hmerged
  refine (List.perm_ext_iff_of_nodup (bare_nodup hmerged.nodup) (bare_nodup hs.ids)).mpr fun m => ?_
  simp only [List.mem_map]
  constructor
  · rintro ⟨item, hitem, rfl⟩
    obtain ⟨m, hm, hbare⟩ := ht.items item hitem
    exact ⟨m, hm, hbare.symm⟩
  · rintro ⟨m, hm, rfl⟩
    have hid : m.id ∈ ordered.map (·.id) :=
      List.mem_map_of_mem (horder.1.mem_iff.mpr hm)
    obtain ⟨item, hitem, hitem_id⟩ := List.mem_map.mp ((hmerged.ids m.id).mpr (Or.inl hid))
    obtain ⟨m', hm', hbare⟩ := ht.items item hitem
    -- the rows of the server are told apart by their ids
    have hsame : m' = m := List.inj_on_of_nodup_map hs.ids hm' hm
      ((congrArg (·.id) hbare).symm.trans hitem_id)
    exact ⟨item, hitem, hsame ▸ hbare⟩

/-- The server can come to hold any conversation before the client polls it. -/
theorem Polling.exec_appends (c : Conversation) :
    ∃ events, Transition.exec Polling.step {} events = some { server := c.messages } := by
  obtain ⟨messages, hids, htimes⟩ := c
  induction messages using List.reverseRecOn with
  | nil => exact ⟨[], rfl⟩
  | append_singleton messages m ih =>
    rw [List.map_append, List.nodup_append] at hids
    rw [List.pairwise_append] at htimes
    obtain ⟨events, hevents⟩ := ih hids.1 htimes.1
    refine ⟨events ++ [.append m], Transition.exec_append.mpr ⟨_, hevents, ?_⟩⟩
    have hnew : m.id ∉ messages.map (·.id) := fun hm =>
      hids.2.2 m.id hm m.id (List.mem_singleton_self _) rfl
    have hold : ∀ old ∈ messages, old.createdAt ≤ m.createdAt := fun old hm =>
      htimes.2.2 old hm m (List.mem_singleton_self _)
    rw [Transition.exec_cons]
    exact ⟨_, if_pos ⟨hnew, hold⟩, rfl⟩

/-- The first poll of a conversation shows one page. -/
theorem Polling.first_poll (c : Conversation) :
    Polling.step { server := c.messages } (.poll c.messages) =
      some ⟨c.messages, some (listMessages c.messages)⟩ :=
  if_pos ⟨List.Perm.refl _, c.chronological⟩

theorem length_le_of_showsAll {c : Conversation} (h : ShowsAll c.messages (listMessages c.messages)) :
    c.messages.length ≤ pageLimit := by
  have hlength := h.length_eq
  rw [List.length_map, List.length_map, listMessages, List.length_take] at hlength
  omega

/-- Whatever polls came before, a poll shows the whole conversation exactly when it has no more
messages than the endpoint returns. -/
theorem polling_complete_iff (c : Conversation) :
    (∀ events ordered s t list, Transition.exec Polling.step {} events = some s →
      s.server = c.messages → s.step (.poll ordered) = some t → t.client = some list →
      ShowsAll c.messages list) ↔ c.messages.length ≤ pageLimit := by
  constructor
  · intro h
    obtain ⟨events, hevents⟩ := Polling.exec_appends c
    exact length_le_of_showsAll
      (h events c.messages _ _ _ hevents rfl (Polling.first_poll c) rfl)
  · intro hlength events ordered s t list hevents hserver hpoll hlist
    have hshown := Polling.showsAll_of_poll (Polling.valid_exec hevents) (hserver ▸ hlength) hpoll hlist
    have hkeeps : t.server = s.server := by
      simp only [Polling.step] at hpoll
      split_ifs at hpoll
      cases hpoll
      rfl
    rwa [hkeeps, hserver] at hshown

/-- A conversation of fifty-one messages, one a second. -/
def longConversation : Conversation where
  messages := (List.range 51).map fun n =>
    ⟨List.replicate n 'x', n * 1000000, none, ⟨"user", ""⟩⟩
  ids := by
    rw [List.map_map]
    refine List.Nodup.map (fun a b hab => ?_) List.nodup_range
    simpa using congrArg List.length hab
  chronological := by
    rw [List.pairwise_map]
    exact List.pairwise_lt_range.imp fun hlt => Nat.mul_le_mul_right _ hlt.le

/-- One of the fifty-one messages is missing after a poll. -/
theorem late_message_missing : ¬ ∀ (c : Conversation) events ordered s t list,
    Transition.exec Polling.step {} events = some s → s.server = c.messages →
    s.step (.poll ordered) = some t → t.client = some list → ShowsAll c.messages list := by
  intro h
  obtain ⟨events, hevents⟩ := Polling.exec_appends longConversation
  have hshown := h longConversation events _ _ _ _ hevents rfl (Polling.first_poll _) rfl
  exact absurd (length_le_of_showsAll hshown) (by decide)

end Qiki.Client
