import Qiki.Orders.Faults
import Qiki.Orders.StockLedger

/-! Checkout with retries: what a serialization failure in one attempt leaves for the next,
and where the commit stands. -/
namespace Qiki.Orders

/-- Where PostgreSQL reports 40001 in one attempt. -/
inductive FailurePoint
  | statement (k : ℕ)
  | commit
  deriving DecidableEq, Repr

/-- The failing statement of an attempt, if a statement fails. -/
def failingStatement : Option FailurePoint → Option ℕ
  | some (.statement k) => some k
  | _ => none

/-- `POST /orders/checkout`, or a confirmed order in a chat turn. -/
inductive Channel
  | http | chat
  deriving DecidableEq, Repr

structure Checkout where
  channel : Channel
  coupons : Bool
  data : CheckoutRequest
  user : Option User
  key : Uuid
  clock : Clock

/-- `session.rollback()`: the transaction's changes and its isolation level are gone and
every object of the session is expired. -/
def Session.rollback (s : Session) (committed : Store) : Session :=
  { s with store := committed, failAt := none, statements := 0, queried := false, expired := true }

/-- `_create_order_with_retry` and `_create_chat_order_with_retry`: up to `n` attempts,
each after a rollback, as long as the error is a serialization failure. The failures of
the attempts are listed in order; the last component is that of the attempt that returned. -/
def attempts (create : Db Order) (committed : Store) :
    ℕ → Session → List FailurePoint → Except Exn (Order × Session × Option FailurePoint)
  | 0, _, _ => .error serializationFailure
  | n + 1, s, failures =>
    match create { s with failAt := failingStatement failures.head? } with
    | .ok (o, t) => .ok (o, t, failures.head?)
    | .error e =>
      if e.isSerializationFailure ∧ n ≠ 0 then
        attempts create committed n (s.rollback committed) failures.tail
      else .error e

/-- `conversation.id`, an attribute of an object loaded before the attempts. -/
def readConversationId : Db Unit := fun s =>
  if s.expired then .error .missingGreenlet else .ok ((), s)

/-- What follows the order in the same transaction: a chat turn inserts and refreshes the
assistant message and reads the conversation again. -/
def Channel.finish : Channel → Db Unit
  | .http => pure ()
  | .chat => do
    readConversationId
    execute
    execute
    execute

def Checkout.create (c : Checkout) : Db Order :=
  createOrder c.coupons c.data c.user c.key c.clock

/-- The session at the first attempt. For a signed-in HTTP client it has already read the
user's row; a chat turn commits just before its first attempt. -/
def Checkout.start (c : Checkout) (lateIsolation : Bool) (committed : Store) : Session where
  store := committed
  queried := c.channel = .http ∧ c.user.isSome
  lateIsolation := lateIsolation

/-- One checkout request up to the commit that `get_db` issues after the handler. -/
def Checkout.run (c : Checkout) (lateIsolation : Bool) (failures : List FailurePoint)
    (committed : Store) : Store × Except Exn Order :=
  match attempts c.create committed 3 (c.start lateIsolation committed) failures with
  | .error e => (committed, .error e)
  | .ok (o, t, point) =>
    match c.channel.finish t with
    | .error e => (committed, .error e)
    | .ok (_, u) =>
      if point = some .commit then (committed, .error serializationFailure)
      else (u.store, .ok o)

/-- The request when nothing disturbs it: its order, and the session before the commit,
which has counted the statements of the attempt. -/
def Checkout.alone (c : Checkout) (lateIsolation : Bool) (committed : Store) :
    Except Exn (Order × Session) :=
  (do let o ← c.create; c.channel.finish; return o : Db Order) (c.start lateIsolation committed)

/-- The request returned the order that holds its key, created once: by this request, or
by an earlier one. -/
def CreatedOnce (committed : Store) (key : Uuid) (outcome : Store × Except Exn Order) : Prop :=
  ∃ o, outcome.2 = .ok o ∧
    ((Table.find Order.idempotencyKey key committed.orders = some o ∧
        outcome.1 = committed) ∨
      (Table.find Order.idempotencyKey key committed.orders = none ∧ o.idempotencyKey = key ∧
        outcome.1.orders = committed.orders ++ [o]))

theorem CreatedOnce.ok {committed : Store} {key : Uuid} {outcome : Store × Except Exn Order}
    (h : CreatedOnce committed key outcome) : ∃ o, outcome.2 = .ok o := by
  obtain ⟨o, ho, -⟩ := h
  exact ⟨o, ho⟩

theorem stopsAtFault_create (c : Checkout) : StopsAtFault (c.user = none) c.create :=
  stopsAtFault_createOrder _ _ _ _

theorem readConversationId_eq_ok {s t : Session} {u : Unit}
    (h : readConversationId s = .ok (u, t)) : s.expired = false ∧ t = s := by
  unfold readConversationId at h
  cases he : s.expired with
  | true => simp [he] at h
  | false =>
    simp only [he, Bool.false_eq_true, if_false] at h
    cases h
    exact ⟨rfl, rfl⟩

/-! Attempts. -/

section Attempts
variable {create : Db Order} {committed : Store} {n : ℕ} {s t : Session} {o : Order}
  {failures : List FailurePoint} {p : Option FailurePoint}

theorem attempts_ok (h : create { s with failAt := failingStatement failures.head? } = .ok (o, t)) :
    attempts create committed (n + 1) s failures = .ok (o, t, failures.head?) := by
  rw [attempts, h]

/-- A serialization failure leads to the next attempt, while there is one. -/
theorem attempts_retry (h : create { s with failAt := failingStatement failures.head? } =
      .error serializationFailure) :
    attempts create committed (n + 2) s failures =
      attempts create committed (n + 1) (s.rollback committed) failures.tail := by
  rw [attempts, h]
  simp [serializationFailure, Exn.isSerializationFailure]

/-- The attempt that returned: the first, or a later one after a rollback. -/
theorem attempts_eq_ok (h : attempts create committed n s failures = .ok (o, t, p)) :
    (create { s with failAt := failingStatement failures.head? } = .ok (o, t) ∧
      p = failures.head?) ∨
    ∃ m, attempts create committed m (s.rollback committed) failures.tail = .ok (o, t, p) := by
  cases n with
  | zero => cases h
  | succ n =>
    rw [attempts] at h
    cases hc : create { s with failAt := failingStatement failures.head? } with
    | ok r =>
      rw [hc] at h
      cases h
      exact Or.inl ⟨rfl, rfl⟩
    | error e =>
      rw [hc] at h
      dsimp only at h
      split_ifs at h
      exact Or.inr ⟨n, h⟩

/-- After a rollback an attempt that returns does so on an expired session. -/
theorem attempts_expired {guest : Prop} (hc : StopsAtFault guest create)
    (hs : s.expired = true) (hst : s.store = committed)
    (h : attempts create committed n s failures = .ok (o, t, p)) :
    t.expired = true ∧
      ∃ s' : Session, s'.expired = true ∧ s'.store = committed ∧ create s' = .ok (o, t) := by
  induction n generalizing s failures with
  | zero => cases h
  | succ n ih =>
    rw [attempts] at h
    cases hr : create { s with failAt := failingStatement failures.head? } with
    | ok r =>
      rw [hr] at h
      cases h
      exact ⟨(hc.keepsExpired hr).trans hs,
        { s with failAt := failingStatement failures.head? }, hs, hst, hr⟩
    | error e =>
      rw [hr] at h
      dsimp only at h
      split_ifs at h
      exact ih rfl rfl h

/-- Without further failures every later attempt repeats the one after the rollback. -/
theorem attempts_rollback_nil (h : attempts create committed n (s.rollback committed) [] =
      .ok (o, t, p)) : create (s.rollback committed) = .ok (o, t) := by
  induction n with
  | zero => cases h
  | succ n ih =>
    rcases attempts_eq_ok h with ⟨hr, -⟩ | ⟨m, -⟩
    · exact hr
    · rw [attempts] at h
      cases hr : create (s.rollback committed) with
      | ok r =>
        have hr' : create { s.rollback committed with failAt := failingStatement [].head? } =
          .ok r := hr
        rw [hr'] at h
        cases h
        rfl
      | error e =>
        have hr' : create { s.rollback committed with failAt := failingStatement [].head? } =
          .error e := hr
        rw [hr'] at h
        dsimp only at h
        split_ifs at h
        exact absurd (ih h) (by rw [hr]; simp)

end Attempts

/-! One attempt of a checkout. -/

/-- A signed-in user's new order needs `current_user.id`, which an expired session cannot
read. -/
theorem createOrder_expired_user {coupons : Bool} {data : CheckoutRequest} {u : User}
    {key : Uuid} {clock : Clock} {s t : Session} {o : Order} (hs : s.expired = true)
    (hnew : Table.find Order.idempotencyKey key s.store.orders = none) :
    createOrder coupons data (some u) key clock s ≠ .ok (o, t) := by
  intro h
  obtain ⟨_, s₁, h₁, h⟩ := bind_eq_ok.mp h
  obtain ⟨found, s₂, h₂, h⟩ := bind_eq_ok.mp h
  obtain ⟨-, hfound⟩ := getByIdempotencyKey_eq_ok h₂
  rw [setTransactionSerializable_store h₁, hnew] at hfound
  subst hfound
  obtain ⟨products, s₃, h₃, h⟩ := bind_eq_ok.mp h
  obtain ⟨_, s₄, h₄, h⟩ := bind_eq_ok.mp h
  obtain ⟨items, s₅, h₅, h⟩ := bind_eq_ok.mp h
  obtain ⟨⟨coupon, discount⟩, s₆, h₆, h⟩ := bind_eq_ok.mp h
  obtain ⟨_, s₇, h₇, h⟩ := bind_eq_ok.mp h
  obtain ⟨userId, s₈, h₈, h⟩ := bind_eq_ok.mp h
  have hread : s₇.expired = false := (readUserId_eq_ok h₈).2.2 rfl
  have hkeep : s₇.expired = s.expired := by
    rw [(stopsAtFault_decrementAll _ : StopsAtFault False _).keepsExpired h₇,
      (stopsAtFault_applyCheckoutCoupon _ _ _ _).keepsExpired h₆,
      (stopsAtFault_liftCheck _ : StopsAtFault False _).keepsExpired h₅,
      (stopsAtFault_liftCheck _ : StopsAtFault False _).keepsExpired h₄,
      (stopsAtFault_getManyForUpdate _ : StopsAtFault False _).keepsExpired h₃,
      (stopsAtFault_getByIdempotencyKey _ : StopsAtFault False _).keepsExpired h₂,
      (stopsAtFault_setTransactionSerializable : StopsAtFault False _).keepsExpired h₁]
  rw [hkeep, hs] at hread
  cases hread

/-- A stored key is answered by two statements, whoever asks. -/
theorem createOrder_stored {coupons : Bool} {data : CheckoutRequest} {user : Option User}
    {key : Uuid} {clock : Clock} {s : Session} {existing : Order}
    (hf : s.failAt = none) (hq : s.queried = false ∨ s.lateIsolation = true)
    (hfound : Table.find Order.idempotencyKey key s.store.orders = some existing) :
    createOrder coupons data user key clock s =
      .ok (existing, { s with statements := s.statements + 2, queried := true }) := by
  have hset : setTransactionSerializable s = .ok ((), { s with statements := s.statements + 1 }) := by
    rcases hq with hq | hq <;> simp [setTransactionSerializable, hf, hq]
  have hfind : getByIdempotencyKey key { s with statements := s.statements + 1 } =
      .ok (some existing, { s with statements := s.statements + 2, queried := true }) := by
    simp [getByIdempotencyKey, execute, getStore, hf, hfound, bind, StateT.bind, Except.bind, pure,
      StateT.pure, Except.pure]
  rw [createOrder, bind_of_eq_ok hset, bind_of_eq_ok hfind]
  rfl

/-- Only a session that may still set its isolation level gets past the first statement. -/
theorem createOrder_isolation {coupons : Bool} {data : CheckoutRequest} {user : Option User}
    {key : Uuid} {clock : Clock} {s t : Session} {o : Order}
    (h : createOrder coupons data user key clock s = .ok (o, t)) :
    s.queried = false ∨ s.lateIsolation = true := by
  obtain ⟨_, s₁, h₁, -⟩ := bind_eq_ok.mp h
  unfold setTransactionSerializable at h₁
  split_ifs at h₁ with hf hq
  simp only [Bool.and_eq_true, Bool.not_eq_true', not_and, Bool.not_eq_false] at hq
  cases hsq : s.queried with
  | false => exact Or.inl rfl
  | true => exact Or.inr (hq hsq)

section Run
variable {c : Checkout} {lateIsolation : Bool} {failures : List FailurePoint}
  {committed : Store} {o : Order}

/-- A request that returned: an attempt returned, the turn was finished and the commit
did not fail. -/
theorem run_eq_ok (h : (c.run lateIsolation failures committed).2 = .ok o) :
    ∃ t p u, attempts c.create committed 3 (c.start lateIsolation committed) failures =
        .ok (o, t, p) ∧ c.channel.finish t = .ok ((), u) ∧ p ≠ some .commit ∧
      (c.run lateIsolation failures committed).1 = u.store := by
  unfold Checkout.run at h ⊢
  cases ha : attempts c.create committed 3 (c.start lateIsolation committed) failures with
  | error e => simp [ha] at h
  | ok r =>
    obtain ⟨o', t, p⟩ := r
    simp only [ha] at h ⊢
    cases hf : c.channel.finish t with
    | error e => simp [hf] at h
    | ok q =>
      obtain ⟨_, u⟩ := q
      simp only [hf] at h ⊢
      by_cases hp : p = some .commit
      · simp [hp] at h
      · rw [if_neg hp] at h
        cases h
        exact ⟨t, p, u, rfl, hf, hp, by rw [if_neg hp]⟩

theorem run_of_attempts {t u : Session} {p : Option FailurePoint}
    (ha : attempts c.create committed 3 (c.start lateIsolation committed) failures = .ok (o, t, p))
    (hf : c.channel.finish t = .ok ((), u)) (hp : p ≠ some .commit) :
    c.run lateIsolation failures committed = (u.store, .ok o) := by
  simp only [Checkout.run, ha, hf, if_neg hp]

/-- What an undisturbed request consists of. -/
theorem alone_eq_ok {u : Session} (h : c.alone lateIsolation committed = .ok (o, u)) :
    ∃ t, c.create (c.start lateIsolation committed) = .ok (o, t) ∧
      c.channel.finish t = .ok ((), u) := by
  obtain ⟨o', t, hc, h⟩ := bind_eq_ok.mp h
  obtain ⟨_, u', hf, h⟩ := bind_eq_ok.mp h
  obtain ⟨rfl, rfl⟩ := pure_eq_ok.mp h
  exact ⟨t, hc, hf⟩

theorem stopsAtFault_finish (channel : Channel) : StopsAtFault False channel.finish := by
  have hread : StopsAtFault False readConversationId := by
    refine .of_silent (fun s f => ?_) (fun s a t h => ?_) False.elim
    · cases he : s.expired <;> simp [readConversationId, he, Except.map]
    · obtain ⟨-, rfl⟩ := readConversationId_eq_ok h
      exact ⟨rfl, rfl, rfl⟩
  cases channel with
  | http => exact stopsAtFault_pure ()
  | chat =>
    exact hread.bind fun _ => stopsAtFault_execute.bind fun _ => stopsAtFault_execute.bind fun _ =>
      stopsAtFault_execute

/-- A chat turn cannot be finished on an expired session. -/
theorem finish_chat_expired {s t : Session} {u : Unit}
    (h : Channel.finish .chat s = .ok (u, t)) : s.expired = false := by
  obtain ⟨_, s₁, h₁, -⟩ := bind_eq_ok.mp h
  exact (readConversationId_eq_ok h₁).1

/-- The attempt after a rollback does what the undisturbed one did, for a guest and for a
key that is already stored. -/
theorem create_rollback {t : Session}
    (hc : c.create (c.start lateIsolation committed) = .ok (o, t))
    (hwho : c.user = none ∨ ∃ e, Table.find Order.idempotencyKey c.key committed.orders = some e) :
    ∃ t', c.create ((c.start lateIsolation committed).rollback committed) = .ok (o, t') ∧
      t'.statements = t.statements := by
  by_cases hstored : ∃ e, Table.find Order.idempotencyKey c.key committed.orders = some e
  · obtain ⟨e, he⟩ := hstored
    have h₁ : c.create (c.start lateIsolation committed) = .ok (e, _) :=
      createOrder_stored rfl (createOrder_isolation hc) he
    have h₂ : c.create ((c.start lateIsolation committed).rollback committed) = .ok (e, _) :=
      createOrder_stored rfl (Or.inl rfl) he
    rw [hc] at h₁
    cases h₁
    exact ⟨_, h₂, rfl⟩
  · have hguest : c.user = none := hwho.resolve_right hstored
    have hsame : (c.start lateIsolation committed).rollback committed =
        { c.start lateIsolation committed with expired := true } := by
      simp [Session.rollback, Checkout.start, hguest]
    have h := ((stopsAtFault_create c).run _ _ _ rfl hc).unexpired hguest true
    rw [hsame]
    exact ⟨_, h, rfl⟩

/-- What a returned order is, in the tables it is committed to. -/
theorem createdOnce_of_create {s t : Session} {store : Store} (hs : s.store = committed)
    (hc : c.create s = .ok (o, t)) (hstore : store = t.store) :
    CreatedOnce committed c.key (store, .ok o) := by
  refine ⟨o, rfl, ?_⟩
  rw [hstore]
  rcases createOrder_eq_ok hc with ⟨hfind, hsame⟩ | ⟨hnone, hcreated, -⟩
  · rw [hs] at hfind hsame
    exact Or.inl ⟨hfind, hsame⟩
  · rw [hs] at hnone
    refine Or.inr ⟨hnone, hcreated.idempotencyKey, ?_⟩
    rw [← hs]
    exact hcreated.orders

theorem finish_store {channel : Channel} {s t : Session} {u : Unit}
    (h : channel.finish s = .ok (u, t)) : t.store = s.store := by
  cases channel with
  | http => rw [(pure_eq_ok.mp h).2]
  | chat =>
    obtain ⟨_, s₁, h₁, h⟩ := bind_eq_ok.mp h
    obtain ⟨_, s₂, h₂, h⟩ := bind_eq_ok.mp h
    obtain ⟨_, s₃, h₃, h⟩ := bind_eq_ok.mp h
    rw [execute_store h, execute_store h₃, execute_store h₂, (readConversationId_eq_ok h₁).2]

/-- Failing statements in all but the last attempt only lead to that attempt. -/
theorem attempts_statements {guest : Prop} {create : Db Order} {n : ℕ} {s t t' : Session}
    (hstop : StopsAtFault guest create) (hs : s.failAt = none) (hcount : s.statements = 0)
    (hst : s.store = committed) (hc : create s = .ok (o, t))
    (hr : create (s.rollback committed) = .ok (o, t')) (ht' : t'.statements = t.statements)
    (hlen : failures.length ≤ n)
    (hsent : ∀ p ∈ failures, ∃ k, p = .statement k ∧ k < t.statements) :
    ∃ s' t'', s'.store = committed ∧ create s' = .ok (o, t'') ∧
      attempts create committed (n + 1) s failures = .ok (o, t'', none) := by
  induction failures generalizing s t n with
  | nil =>
    have hnone : failingStatement ([] : List FailurePoint).head? = s.failAt := hs.symm
    have hc' : create { s with failAt := failingStatement [].head? } = .ok (o, t) := by
      rw [hnone]
      exact hc
    exact ⟨s, t, hst, hc, attempts_ok hc'⟩
  | cons p rest ih =>
    obtain ⟨k, rfl, hk⟩ := hsent p (List.mem_cons_self ..)
    have hfail := ((hstop.run s o t hs hc).inside k (hcount ▸ Nat.zero_le k) hk)
    cases n with
    | zero => exact absurd hlen (Nat.not_succ_le_zero _)
    | succ n =>
      have hretry : attempts create committed (n + 2) s (.statement k :: rest) =
          attempts create committed (n + 1) (s.rollback committed) rest := attempts_retry hfail
      rw [hretry]
      refine ih rfl rfl rfl hr hr rfl (Nat.le_of_succ_le_succ hlen) fun q hq => ?_
      rw [ht']
      exact hsent q (List.mem_cons_of_mem _ hq)

/-- A disturbed request that returns has failed inside its first attempt and returned from
a later one. -/
theorem retried_of_ok {t t' u u' : Session} {o' : Order} {first : FailurePoint}
    {rest : List FailurePoint} {p : Option FailurePoint}
    (hc : c.create (c.start lateIsolation committed) = .ok (o, t))
    (hf : c.channel.finish t = .ok ((), u))
    (hsent : ∀ k, .statement k ∈ first :: rest → k < u.statements)
    (ha : attempts c.create committed 3 (c.start lateIsolation committed) (first :: rest) =
      .ok (o', t', p)) (hf' : c.channel.finish t' = .ok ((), u')) (hp : p ≠ some .commit) :
    first ≠ .commit ∧ attempts c.create committed 2
      ((c.start lateIsolation committed).rollback committed) rest = .ok (o', t', p) := by
  have hrun := (stopsAtFault_create c).run _ _ _ rfl hc
  cases first with
  | commit =>
    have hok : attempts c.create committed 3 (c.start lateIsolation committed)
        (.commit :: rest) = .ok (o, t, some .commit) := attempts_ok hc
    rw [ha] at hok
    cases hok
    exact absurd rfl hp
  | statement k =>
    refine ⟨by simp, ?_⟩
    by_cases hk : k < t.statements
    · have hretry : attempts c.create committed 3 (c.start lateIsolation committed)
          (.statement k :: rest) = attempts c.create committed 2
            ((c.start lateIsolation committed).rollback committed) rest :=
        attempts_retry (hrun.inside k (Nat.zero_le k) hk)
      rw [← hretry]
      exact ha
    · -- the failure hits a statement after the order: nothing retries it
      have hok : attempts c.create committed 3 (c.start lateIsolation committed)
          (.statement k :: rest) = .ok (o, { t with failAt := some k }, some (.statement k)) :=
        attempts_ok (hrun.outside k (Or.inr (not_lt.mp hk)))
      have hfail := ((stopsAtFault_finish c.channel).run t () u hrun.noFault hf).inside k
        (not_lt.mp hk) (hsent k (List.mem_cons_self ..))
      rw [ha] at hok
      cases hok
      rw [hfail] at hf'
      cases hf'

/-- A failing commit after a rollback is not survived either. -/
theorem not_commit_of_ok {create : Db Order} {n : ℕ} {s t : Session} {p : Option FailurePoint}
    (ha : attempts create committed (n + 1) (s.rollback committed) [.commit] = .ok (o, t, p)) :
    p = some .commit := by
  rcases attempts_eq_ok ha with ⟨-, hp⟩ | ⟨m, hm⟩
  · exact hp
  · have hc : create (s.rollback committed) = .ok (o, t) := attempts_rollback_nil hm
    have hok : attempts create committed (n + 1) (s.rollback committed) [.commit] =
        .ok (o, t, some .commit) := attempts_ok hc
    rw [ha] at hok
    cases hok
    rfl

/-- A checkout that would succeed alone survives its failures exactly when there are none,
or when it is an HTTP request whose commits do not fail and whose later attempts need
nothing of an expired user. -/
theorem checkout_createdOnce_iff {u : Session}
    (halone : c.alone lateIsolation committed = .ok (o, u)) (hlen : failures.length ≤ 2)
    (hsent : ∀ k, .statement k ∈ failures → k < u.statements) :
    CreatedOnce committed c.key (c.run lateIsolation failures committed) ↔
      failures = [] ∨ (c.channel = .http ∧ .commit ∉ failures ∧
        (c.user = none ∨
          ∃ e, Table.find Order.idempotencyKey c.key committed.orders = some e)) := by
  obtain ⟨t, hc, hf⟩ := alone_eq_ok halone
  have hstop := stopsAtFault_create c
  constructor
  · intro hcreated
    obtain ⟨o', ho'⟩ := hcreated.ok
    obtain ⟨t', p, u', ha, hf', hp, -⟩ := run_eq_ok ho'
    cases failures with
    | nil => exact Or.inl rfl
    | cons first rest =>
      obtain ⟨hfirst, ha'⟩ := retried_of_ok hc hf hsent ha hf' hp
      have hback : ((c.start lateIsolation committed).rollback committed).store = committed := rfl
      obtain ⟨hexpired, s', hs', hst', hc'⟩ := attempts_expired hstop rfl hback ha'
      refine Or.inr ⟨?_, ?_, ?_⟩
      · cases hch : c.channel with
        | http => rfl
        | chat =>
          rw [hch] at hf'
          rw [finish_chat_expired hf'] at hexpired
          cases hexpired
      · intro hmem
        have hrest : rest = [.commit] := by
          rcases List.mem_cons.mp hmem with h | h
          · exact absurd h.symm hfirst
          · cases rest with
            | nil => cases h
            | cons q rest' =>
              have hnil : rest' = [] := by
                have : (first :: q :: rest').length ≤ 2 := hlen
                simpa using this
              rw [hnil] at h ⊢
              rw [List.mem_singleton.mp h]
        rw [hrest] at ha'
        exact hp (not_commit_of_ok ha')
      · cases huser : c.user with
        | none => exact Or.inl rfl
        | some user =>
          refine Or.inr ?_
          cases hfind : Table.find Order.idempotencyKey c.key committed.orders with
          | some e => exact ⟨e, rfl⟩
          | none =>
            rw [Checkout.create, huser] at hc'
            exact absurd hc' (createOrder_expired_user hs' (by rw [hst']; exact hfind))
  · rintro (rfl | ⟨hhttp, hcommit, hwho⟩)
    · have ha : attempts c.create committed 3 (c.start lateIsolation committed) [] =
          .ok (o, t, none) := attempts_ok hc
      rw [run_of_attempts ha hf (by simp)]
      exact createdOnce_of_create rfl hc (finish_store hf)
    · have hut : u = t := by
        rw [hhttp] at hf
        exact ((pure_eq_ok.mp hf).2).symm
      have hall : ∀ p ∈ failures, ∃ k, p = .statement k ∧ k < t.statements := by
        intro p hp
        cases p with
        | statement k => exact ⟨k, rfl, hut ▸ hsent k hp⟩
        | commit => exact absurd hp hcommit
      obtain ⟨t', hr, ht'⟩ := create_rollback hc hwho
      obtain ⟨s', t'', hs', hc'', ha⟩ : ∃ s' t'', s'.store = committed ∧
          c.create s' = .ok (o, t'') ∧ attempts c.create committed 3
            (c.start lateIsolation committed) failures = .ok (o, t'', none) :=
        attempts_statements hstop rfl rfl rfl hc hr ht' hlen hall
      have hf'' : c.channel.finish t'' = .ok ((), t'') := by rw [hhttp]; rfl
      rw [run_of_attempts ha hf'' (by simp)]
      exact createdOnce_of_create hs' hc'' rfl

end Run

/-- A checkout of two cylinders from the shop with ten. -/
def twoCylinders (channel : Channel) (user : Option User) : Checkout where
  channel := channel
  coupons := true
  data := cylinderCheckout 2
  user := user
  key := 55
  clock := ⟨0, 20260101⟩

def signedIn : User where
  id := 7
  role := .customer
  fullName := none
  phone := none
  address := none
  deliveryNotes := none

/-- A guest's HTTP checkout survives two failing statements. -/
theorem createdOnce_guest : CreatedOnce tenCylinders.store 55
    ((twoCylinders .http none).run false [.statement 3, .statement 9] tenCylinders.store) := by
  have hcount : ((twoCylinders .http none).alone false tenCylinders.store).map
      (fun r => r.2.statements) = .ok 10 := by decide +kernel
  cases h : (twoCylinders .http none).alone false tenCylinders.store with
  | error e =>
    rw [h] at hcount
    cases hcount
  | ok r =>
    rw [h] at hcount
    have hten : r.2.statements = 10 := Except.ok.inj hcount
    refine (checkout_createdOnce_iff h (by decide) ?_).mpr (Or.inr ⟨rfl, by decide, Or.inl rfl⟩)
    intro k hk
    rw [hten]
    have hk' : k = 3 ∨ k = 9 := by simpa using hk
    omega

/-- Three checkouts that succeed alone and are lost: a guest's whose commit fails, a
signed-in user's whose fourth statement fails, and a guest's chat order with that failure. -/
theorem checkout_lost :
    ((twoCylinders .http none).alone false tenCylinders.store).isOk ∧
    ¬ CreatedOnce tenCylinders.store 55
      ((twoCylinders .http none).run false [.commit] tenCylinders.store) ∧
    ((twoCylinders .http (some signedIn)).alone true tenCylinders.store).isOk ∧
    ¬ CreatedOnce tenCylinders.store 55
      ((twoCylinders .http (some signedIn)).run true [.statement 3] tenCylinders.store) ∧
    ((twoCylinders .chat none).alone false tenCylinders.store).isOk ∧
    ¬ CreatedOnce tenCylinders.store 55
      ((twoCylinders .chat none).run false [.statement 3] tenCylinders.store) := by
  have hcommit : ((twoCylinders .http none).run false [.commit] tenCylinders.store).2 =
      .error serializationFailure := by decide +kernel
  have huser : ((twoCylinders .http (some signedIn)).run true [.statement 3]
      tenCylinders.store).2 = .error .missingGreenlet := by decide +kernel
  have hchat : ((twoCylinders .chat none).run false [.statement 3] tenCylinders.store).2 =
      .error .missingGreenlet := by decide +kernel
  have hlost : ∀ {outcome : Store × Except Exn Order} {e : Exn}, outcome.2 = .error e →
      ¬ CreatedOnce tenCylinders.store 55 outcome := by
    intro outcome e he hc
    obtain ⟨o, ho⟩ := hc.ok
    rw [he] at ho
    cases ho
  exact ⟨by decide +kernel, hlost hcommit, by decide +kernel, hlost huser, by decide +kernel,
    hlost hchat⟩

end Qiki.Orders
