import Qiki.Transition.Run
import Mathlib.Logic.Function.Basic
import Mathlib.Algebra.Order.Group.Nat
import Mathlib.Algebra.BigOperators.Group.Finset.Basic
import Mathlib.Tactic.Linarith

/-! Interleavings of any number of threads over one shared state, exclusive locks,
and the thread-modular invariant rule. -/
namespace Transition

/-- A system of two threads numbers them 0 and 1. -/
instance neZeroTwo : NeZero 2 := ⟨by decide⟩

variable {ι σ τ ε κ : Type*} [DecidableEq ι]

/-- A shared state and the local state of every thread. -/
structure Threads (ι σ τ : Type*) where
  shared : σ
  thread : ι → τ

/-- One atomic step of thread `e.1`: the other threads keep their local state. -/
def interleave (step : ι → σ → τ → ε → Option (σ × τ)) (c : Threads ι σ τ) (e : ι × ε) :
    Option (Threads ι σ τ) :=
  (step e.1 c.shared (c.thread e.1) e.2).map fun r =>
    ⟨r.1, Function.update c.thread e.1 r.2⟩

section Rule
variable {step : ι → σ → τ → ε → Option (σ × τ)}

theorem interleave_eq_some {c c' : Threads ι σ τ} {i : ι} {a : ε} :
    interleave step c (i, a) = some c' ↔ ∃ s' t', step i c.shared (c.thread i) a = some (s', t') ∧
      c' = ⟨s', Function.update c.thread i t'⟩ := by
  simp only [interleave, Option.map_eq_some_iff, Prod.exists]
  constructor <;> rintro ⟨s', t', h, rfl⟩ <;> exact ⟨s', t', h, rfl⟩

/-- A shared invariant together with one local invariant for each thread. -/
structure ThreadInv (I : σ → Prop) (L : ι → σ → τ → Prop) (c : Threads ι σ τ) : Prop where
  shared : I c.shared
  thread : ∀ i, L i c.shared (c.thread i)

/-- Thread-modular step rule: a guarded step keeps the shared invariant and the
stepping thread's own invariant, and does not interfere with another thread's. -/
theorem threadInv_step {I : σ → Prop} {L : ι → σ → τ → Prop}
    {guard : Threads ι σ τ → ι × ε → Prop}
    (own : ∀ {c i a s' t'}, ThreadInv I L c → guard c (i, a) →
      step i c.shared (c.thread i) a = some (s', t') → I s' ∧ L i s' t')
    (other : ∀ {c i j a s' t'}, ThreadInv I L c → guard c (i, a) → j ≠ i →
      step i c.shared (c.thread i) a = some (s', t') → L j s' (c.thread j))
    (c : Threads ι σ τ) (e : ι × ε) (c' : Threads ι σ τ) (hc : ThreadInv I L c) (hg : guard c e)
    (hs : interleave step c e = some c') : ThreadInv I L c' := by
  obtain ⟨i, a⟩ := e
  obtain ⟨s', t', ht, rfl⟩ := interleave_eq_some.mp hs
  obtain ⟨hI, hL⟩ := own hc hg ht
  refine ⟨hI, fun j => ?_⟩
  by_cases hj : j = i
  · subst hj; simpa using hL
  · simpa [Function.update_of_ne hj] using other hc hg hj ht

/-- The rule for a whole run without a guard. -/
theorem threadInv_exec {I : σ → Prop} {L : ι → σ → τ → Prop}
    (own : ∀ {c i a s' t'}, ThreadInv I L c →
      step i c.shared (c.thread i) a = some (s', t') → I s' ∧ L i s' t')
    (other : ∀ {c i j a s' t'}, ThreadInv I L c → j ≠ i →
      step i c.shared (c.thread i) a = some (s', t') → L j s' (c.thread j))
    {c c' : Threads ι σ τ} {es : List (ι × ε)} (hc : ThreadInv I L c)
    (hr : exec (interleave step) c es = some c') : ThreadInv I L c' :=
  have hg : Guarded (interleave step) (fun _ _ => True) c es :=
    guarded_of_forall (fun _ _ => trivial) c es
  hg.invariant (threadInv_step (fun hc _ hs => own hc hs) fun hc _ hj hs => other hc hj hs) hc hr

/-- If every guarded step of a thread lowers its measure, the thread takes at most as many
steps as its measure allows, whatever the others do. -/
theorem Guarded.steps_le_measure {inv : Threads ι σ τ → Prop}
    {guard : Threads ι σ τ → ι × ε → Prop} (μ : ι → τ → ℕ)
    (keep : ∀ c e c', inv c → guard c e → interleave step c e = some c' → inv c')
    (lower : ∀ {c i a s' t'}, inv c → guard c (i, a) →
      step i c.shared (c.thread i) a = some (s', t') → μ i t' < μ i (c.thread i))
    (i : ι) {c c' : Threads ι σ τ} {es : List (ι × ε)} (hc : inv c)
    (hg : Guarded (interleave step) guard c es) (hr : exec (interleave step) c es = some c') :
    (es.filter fun e => e.1 = i).length + μ i (c'.thread i) ≤ μ i (c.thread i) := by
  induction es generalizing c with
  | nil => cases Option.some.inj hr; simp
  | cons e es ih =>
    obtain ⟨u, hu, hr⟩ := exec_cons.mp hr
    have h := ih (keep c e u hc hg.1 hu) (hg.2 u hu) hr
    obtain ⟨j, a⟩ := e
    obtain ⟨s', t', hs, rfl⟩ := interleave_eq_some.mp hu
    by_cases hj : j = i
    · subst hj
      have hl := lower hc hg.1 hs
      simp only [Function.update_self] at h
      simp only [decide_true, List.filter_cons_of_pos, List.length_cons]
      omega
    · simp only [Function.update_of_ne (Ne.symm hj)] at h
      simpa [hj] using h

end Rule

/-- Exclusive locks: the holder of each key, if it has one. -/
abbrev Locks (κ ι : Type*) := κ → Option ι

namespace Locks
variable {l l' : Locks κ ι} {k : κ} {i j : ι}

/-- End of `i`'s transaction: everything it holds is released. -/
def release (l : Locks κ ι) (i : ι) : Locks κ ι :=
  fun k => if l k = some i then none else l k

theorem release_other (hj : j ≠ i) (k : κ) : l.release i k = some j ↔ l k = some j := by
  unfold release
  split_ifs with h
  · simp [h, hj.symm]
  · rfl

@[simp] theorem release_self (k : κ) : l.release i k ≠ some i := by
  unfold release
  split_ifs with h <;> simp [h]

variable [DecidableEq κ]

/-- Take the lock of `k`; `none` (the caller waits) while another thread holds it. -/
def acquire (l : Locks κ ι) (k : κ) (i : ι) : Option (Locks κ ι) :=
  if l k = none ∨ l k = some i then some (Function.update l k (some i)) else none

theorem acquire_eq_some : l.acquire k i = some l' ↔
    (l k = none ∨ l k = some i) ∧ l' = Function.update l k (some i) := by
  unfold acquire
  split_ifs with h <;> simp [h, eq_comm]

theorem acquire_self (h : l.acquire k i = some l') : l' k = some i := by
  simp [(acquire_eq_some.mp h).2]

/-- Another thread's locks survive an acquisition. -/
theorem acquire_other (h : l.acquire k i = some l') (hj : j ≠ i) (k' : κ) :
    l' k' = some j ↔ l k' = some j := by
  obtain ⟨hk, rfl⟩ := acquire_eq_some.mp h
  by_cases hkk : k' = k
  · subst hkk
    rcases hk with hk | hk <;> simp [hk, hj.symm]
  · simp [hkk]

/-- An acquisition keeps what the thread already held. -/
theorem acquire_own (h : l.acquire k i = some l') {k' : κ} (hk : l k' = some i) :
    l' k' = some i := by
  obtain ⟨-, rfl⟩ := acquire_eq_some.mp h
  by_cases hkk : k' = k <;> simp [hkk, hk]

theorem acquire_own_iff (h : l.acquire k i = some l') {k' : κ} :
    l' k' = some i ↔ k' = k ∨ l k' = some i := by
  obtain ⟨-, rfl⟩ := acquire_eq_some.mp h
  by_cases hkk : k' = k <;> simp [hkk]

end Locks

end Transition
