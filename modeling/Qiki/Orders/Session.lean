import Qiki.Orders.Model

/-! Database sessions: the statements a service issues, the exceptions that end it, and
the commit or rollback of `get_db`. -/
namespace Qiki.Orders

/-- Exceptions that leave a service call. A `DBAPIError` carries its SQLSTATE. -/
inductive Exn
  | notFound (detail errorCode : String)
  | validation (detail errorCode : String)
  | forbidden (detail errorCode : String)
  | insufficientStock (detail : String)
  | couponError (detail errorCode : String)
  | dbapi (sqlstate : String)
  | missingGreenlet
  deriving DecidableEq, Repr

def serializationFailure : Exn := .dbapi "40001"

/-- `is_serialization_failure`; asyncpg errors always carry a SQLSTATE, so the class-name
test of the source adds nothing. -/
def Exn.isSerializationFailure : Exn → Bool
  | .dbapi sqlstate => sqlstate = "40001"
  | _ => false

/-- One `AsyncSession` inside one transaction. `store` is what the transaction sees,
`statements` counts what it has sent, and `failAt` names the statement that PostgreSQL
answers with 40001. `expired` holds after a rollback: every ORM object loaded before
it is expired. `lateIsolation` tells whether the server accepts `SET TRANSACTION
ISOLATION LEVEL` after a query of the same transaction. -/
structure Session where
  store : Store
  failAt : Option ℕ := none
  statements : ℕ := 0
  queried : Bool := false
  expired : Bool := false
  lateIsolation : Bool := false
  deriving DecidableEq

abbrev Db := StateT Session (Except Exn)

/-- `session.execute` / `session.flush` of one statement. -/
def execute : Db Unit := fun s =>
  if s.failAt = some s.statements then .error serializationFailure
  else .ok ((), { s with statements := s.statements + 1, queried := true })

/-- `SET TRANSACTION ISOLATION LEVEL SERIALIZABLE`; 25001 is `active_sql_transaction`. -/
def setTransactionSerializable : Db Unit := fun s =>
  if s.failAt = some s.statements then .error serializationFailure
  else if s.queried && !s.lateIsolation then .error (.dbapi "25001")
  else .ok ((), { s with statements := s.statements + 1 })

def raise {α : Type} (e : Exn) : Db α := fun _ => .error e

def getStore : Db Store := fun s => .ok (s.store, s)

def setStore (t : Store) : Db Unit := fun s => .ok ((), { s with store := t })

/-- `current_user.id if current_user else None`: an expired user needs a lazy load, which
an `AsyncSession` refuses outside an awaited call. -/
def readUserId (user : Option User) : Db (Option Uuid) := fun s =>
  match user with
  | none => .ok (none, s)
  | some u => if s.expired then .error .missingGreenlet else .ok (some u.id, s)

/-- Lift a check that does not touch the database. -/
def liftCheck {α : Type} (r : Except Exn α) : Db α := fun s => r.map fun a => (a, s)

section Spec
variable {α β : Type}

theorem bind_eq_ok {x : Db α} {f : α → Db β} {s t : Session} {b : β} :
    (x >>= f) s = .ok (b, t) ↔ ∃ a u, x s = .ok (a, u) ∧ f a u = .ok (b, t) := by
  change (x s >>= fun p => f p.1 p.2) = _ ↔ _
  cases h : x s with
  | error e => simp [bind, Except.bind]
  | ok p => obtain ⟨a, u⟩ := p; simp [bind, Except.bind]

theorem pure_eq_ok {a b : α} {s t : Session} :
    (pure a : Db α) s = .ok (b, t) ↔ a = b ∧ s = t := by
  change Except.ok (a, s) = _ ↔ _
  simp

@[simp] theorem raise_ne_ok {e : Exn} {s : Session} {p : α × Session} :
    (raise e : Db α) s ≠ .ok p := by simp [raise]

theorem getStore_eq_ok {s t : Session} {a : Store} :
    getStore s = .ok (a, t) ↔ a = s.store ∧ t = s := by
  simp [getStore, eq_comm]

theorem setStore_eq_ok {s t : Session} {a : Store} {u : Unit} :
    setStore a s = .ok (u, t) ↔ t = { s with store := a } := by
  simp [setStore, eq_comm]

theorem execute_store {s t : Session} {u : Unit} (h : execute s = .ok (u, t)) :
    t.store = s.store := by
  unfold execute at h
  split_ifs at h
  cases h; rfl

theorem setTransactionSerializable_store {s t : Session} {u : Unit}
    (h : setTransactionSerializable s = .ok (u, t)) : t.store = s.store := by
  unfold setTransactionSerializable at h
  split_ifs at h
  cases h; rfl

theorem readUserId_eq_ok {user : Option User} {s t : Session} {a : Option Uuid}
    (h : readUserId user s = .ok (a, t)) :
    t = s ∧ a = user.map (·.id) ∧ (user.isSome → s.expired = false) := by
  unfold readUserId at h
  cases user with
  | none => cases h; simp
  | some u =>
    dsimp only at h
    split_ifs at h with he
    cases h
    simpa using he

theorem liftCheck_eq_ok {r : Except Exn α} {s t : Session} {a : α} :
    liftCheck r s = .ok (a, t) ↔ r = .ok a ∧ t = s := by
  cases r <;> simp [liftCheck, Except.map, eq_comm]

end Spec

/-- `get_db`: the changes are committed when the handler returns and rolled back when it
raises. -/
def getDb {α : Type} (handler : Db α) (committed : Store) : Store × Except Exn α :=
  match handler { store := committed } with
  | .ok (a, s) => (s.store, .ok a)
  | .error e => (committed, .error e)

/-- A handler that raises leaves the committed tables as they were. -/
theorem getDb_error {α : Type} {handler : Db α} {committed : Store} {e : Exn}
    (h : (getDb handler committed).2 = .error e) : (getDb handler committed).1 = committed := by
  unfold getDb at h ⊢
  split <;> simp_all

theorem getDb_ok {α : Type} {handler : Db α} {committed s : Store} {a : α}
    (h : getDb handler committed = (s, .ok a)) :
    ∃ t : Session, handler { store := committed } = .ok (a, t) ∧ t.store = s := by
  unfold getDb at h
  split at h <;> simp_all

end Qiki.Orders
