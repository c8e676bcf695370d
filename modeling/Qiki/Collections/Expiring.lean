import Mathlib.Algebra.Order.Monoid.Defs
import Mathlib.Logic.Function.Basic

/-! Key-value stores whose entries may expire, with the commands of a cache server. -/
namespace Expiring

/-- A value and the instant from which it is gone, if there is one. -/
structure Entry (υ τ : Type*) where
  value : υ
  expiresAt : Option τ

abbrev Store (κ υ τ : Type*) := κ → Option (Entry υ τ)

section Commands
variable {κ υ τ : Type*} [DecidableEq κ] [LinearOrder τ]

def Entry.live (e : Entry υ τ) (now : τ) : Bool := e.expiresAt.all (now < ·)

/-- The entry of a key, while it is there. -/
def peek (s : Store κ υ τ) (k : κ) (now : τ) : Option (Entry υ τ) := (s k).filter (·.live now)

/-- `GET` -/
def get (s : Store κ υ τ) (k : κ) (now : τ) : Option υ :=
  ((s k).filter (·.live now)).map (·.value)

/-- `DEL` -/
def delete (s : Store κ υ τ) (k : κ) : Store κ υ τ := Function.update s k none

/-- `SETEX`: the value is there until `now + ttl`. -/
def setex [Add τ] (s : Store κ υ τ) (k : κ) (ttl : τ) (value : υ) (now : τ) : Store κ υ τ :=
  Function.update s k (some ⟨value, some (now + ttl)⟩)

/-- `EXPIRE`: a key that is there is kept until `now + ttl`. -/
def expire [Add τ] (s : Store κ υ τ) (k : κ) (ttl : τ) (now : τ) : Store κ υ τ :=
  Function.update s k (((s k).filter (·.live now)).map fun e => ⟨e.value, some (now + ttl)⟩)

/-- The counter after `INCR`: a key that is not there counts from zero and does not expire. -/
def incremented (s : Store κ ℕ τ) (k : κ) (now : τ) : Entry ℕ τ :=
  match (s k).filter (·.live now) with
  | some e => ⟨e.value + 1, e.expiresAt⟩
  | none => ⟨1, none⟩

/-- `INCR` -/
def incr (s : Store κ ℕ τ) (k : κ) (now : τ) : ℕ × Store κ ℕ τ :=
  ((incremented s k now).value, Function.update s k (some (incremented s k now)))

end Commands

section Lemmas
variable {κ υ τ : Type*} [DecidableEq κ] [LinearOrder τ] {s : Store κ υ τ} {k k' : κ} {v w : υ}
  {now later ttl : τ}

omit [DecidableEq κ] in
theorem get_eq_some : get s k now = some v ↔
    ∃ e, s k = some e ∧ (∀ t, e.expiresAt = some t → now < t) ∧ e.value = v := by
  simp only [get, Entry.live, Option.map_eq_some_iff, Option.filter_eq_some_iff,
    Option.all_eq_true, decide_eq_true_eq, and_assoc]

omit [DecidableEq κ] in
theorem get_eq_peek : get s k now = (peek s k now).map (·.value) := rfl

@[simp] theorem peek_delete_self : peek (delete s k) k now = none := by
  simp [peek, delete]

theorem peek_delete_of_ne (h : k' ≠ k) : peek (delete s k) k' now = peek s k' now := by
  simp only [peek, delete, Function.update_of_ne h]

variable [Add τ]

theorem peek_setex_self : peek (setex s k ttl v now) k later =
    if later < now + ttl then some ⟨v, some (now + ttl)⟩ else none := by
  simp only [peek, setex, Function.update_self, Entry.live, Option.filter_some, Option.all_some,
    decide_eq_true_eq]

theorem peek_setex_of_ne (h : k' ≠ k) :
    peek (setex s k ttl v now) k' later = peek s k' later := by
  simp only [peek, setex, Function.update_of_ne h]

end Lemmas

section Counters
variable {κ τ : Type*} [DecidableEq κ] [LinearOrder τ] {s : Store κ ℕ τ} {k k' : κ} {n : ℕ}
  {expiresAt : Option τ} {now later ttl : τ}

/-- A counter that is there counts on and keeps its time. -/
theorem incr_of_peek (h : peek s k now = some ⟨n, expiresAt⟩) :
    incr s k now = (n + 1, Function.update s k (some ⟨n + 1, expiresAt⟩)) := by
  have hincremented : incremented s k now = ⟨n + 1, expiresAt⟩ := by
    unfold peek at h
    rw [incremented, h]
  rw [incr, hincremented]

theorem incr_of_peek_none (h : peek s k now = none) :
    incr s k now = (1, Function.update s k (some ⟨1, none⟩)) := by
  have hincremented : incremented s k now = ⟨1, none⟩ := by
    unfold peek at h
    rw [incremented, h]
  rw [incr, hincremented]

theorem peek_incr_of_ne (h : k' ≠ k) : peek (incr s k now).2 k' later = peek s k' later := by
  simp only [peek, incr, Function.update_of_ne h]

theorem peek_expire_of_ne [Add τ] {υ : Type*} {s : Store κ υ τ} (h : k' ≠ k) :
    peek (expire s k ttl now) k' later = peek s k' later := by
  simp only [peek, expire, Function.update_of_ne h]

end Counters

end Expiring
