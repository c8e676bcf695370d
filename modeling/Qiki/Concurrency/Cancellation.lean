import Qiki.Orders.Status
import Qiki.Transition.Threads

/-! Concurrent cancellations of one order at READ COMMITTED, statement by statement. -/
namespace Qiki.Concurrency.Cancellation

open Orders Transition

/-- Which endpoint runs the cancellation. What its permission check answers does not change
while the transaction runs. -/
inductive Kind
  | cancelOrder (mayView : Bool)
  | updateOrderStatus (isStaff : Bool)
  deriving DecidableEq, Repr

/-- The checks made on the order's row right after it is read. -/
def Kind.accepts : Kind → OrderStatus → Bool
  | .cancelOrder mayView, status => mayView && status.canBeCancelled
  | .updateOrderStatus isStaff, status =>
    isStaff && decide (.cancelled ∈ allowedStatusTransitions status)

/-- One cancellation request: its endpoint and the order's lines in the order in which
`order.items` was loaded. -/
structure Request where
  kind : Kind
  lines : List (Uuid × ℤ)

/-- A row that a statement may lock. -/
inductive Row
  | product (id : Uuid)
  | order
  deriving DecidableEq, Repr

/-- The committed order status and stock, and the row locks. -/
structure Shared (ι : Type*) where
  status : OrderStatus
  stock : Uuid → ℤ
  locks : Locks Row ι

/-- The statement a session is about to send. -/
inductive Phase
  | readOrder
  | lockProduct (line : Uuid × ℤ) (rest : List (Uuid × ℤ))
  | writeProduct (line : Uuid × ℤ) (rest : List (Uuid × ℤ))
  | readOrderAgain
  | writeOrder
  | refresh
  | commit
  | committed
  | rolledBack
  deriving DecidableEq, Repr

/-- One database session: its statement, its copy of the order's status and the stock of
the products it has loaded, with its own writes. -/
structure SessionState where
  phase : Phase
  cachedStatus : OrderStatus
  loaded : Uuid → Option ℤ

/-- The next turn of the `increment_stock` loop, or `update_status` after it. -/
def nextLine : List (Uuid × ℤ) → Phase
  | [] => .readOrderAgain
  | line :: rest => .lockProduct line rest

inductive Event
  | statement
  | rollback
  deriving DecidableEq, Repr

section Step
variable {ι : Type*} [DecidableEq ι]

/-- The transaction ends without effect. -/
def abort (i : ι) (g : Shared ι) (t : SessionState) : Shared ι × SessionState :=
  ({ g with locks := g.locks.release i }, { t with phase := .rolledBack })

/-- One statement of session `i`; `none` when it waits for a row lock or has ended.
`rollback` is any exception before the commit. -/
def step (requests : ι → Request) (i : ι) (g : Shared ι) (t : SessionState) :
    Event → Option (Shared ι × SessionState)
  | .rollback =>
    match t.phase with
    | .committed | .rolledBack => none
    | _ => some (abort i g t)
  | .statement =>
    match t.phase with
    | .readOrder =>
      -- a plain `SELECT`: no lock, the last committed row
      if (requests i).kind.accepts g.status then
        some (g, { t with phase := nextLine (requests i).lines, cachedStatus := g.status })
      else some (abort i g t)
    | .lockProduct line rest =>
      -- `SELECT ... FOR UPDATE`: a product that is already loaded keeps its values
      (g.locks.acquire (.product line.1) i).map fun locks =>
        ({ g with locks := locks },
          { t with
            phase := .writeProduct line rest
            loaded := Function.update t.loaded line.1
              (some ((t.loaded line.1).getD (g.stock line.1))) })
    | .writeProduct line rest =>
      some (g, { t with
        phase := nextLine rest
        loaded := Function.update t.loaded line.1 ((t.loaded line.1).map (· + line.2)) })
    | .readOrderAgain =>
      -- `update_status` checks the status of the object that is already in the session
      if .cancelled ∈ allowedStatusTransitions t.cachedStatus then
        some (g, { t with phase := .writeOrder })
      else some (abort i g t)
    | .writeOrder =>
      (g.locks.acquire .order i).map fun locks =>
        ({ g with locks := locks }, { t with phase := .refresh })
    | .refresh => some (g, { t with phase := .commit })
    | .commit =>
      some ({ status := .cancelled
              stock := fun p => (t.loaded p).getD (g.stock p)
              locks := g.locks.release i }, { t with phase := .committed })
    | .committed | .rolledBack => none

/-- All sessions before their first statement. -/
def init (ι : Type*) (status : OrderStatus) (stock : Uuid → ℤ) : Threads ι (Shared ι) SessionState where
  shared := ⟨status, stock, fun _ => none⟩
  thread := fun _ => ⟨.readOrder, status, fun _ => none⟩

/-- No session commits a cancellation of an order that is already cancelled when it
commits. -/
def CommitsOnOpenOrder (c : Threads ι (Shared ι) SessionState) (e : ι × Event) : Prop :=
  e.2 = .statement → (c.thread e.1).phase = .commit → c.shared.status ≠ .cancelled

end Step

section Invariant
variable {ι : Type*} {requests : ι → Request} {status₀ : OrderStatus}
  {stock₀ : Uuid → ℤ} {lines : List (Uuid × ℤ)}

/-- How the lines of a request split at a statement: `done` is written. -/
def Written (all : List (Uuid × ℤ)) : Phase → List (Uuid × ℤ) → Prop
  | .readOrder, done => done = []
  | .lockProduct line rest, done => all = done ++ line :: rest
  | .writeProduct line rest, done => all = done ++ line :: rest
  | .readOrderAgain, done => all = done
  | .writeOrder, done => all = done
  | .refresh, done => all = done
  | .commit, done => all = done
  | .committed, _ => True
  | .rolledBack, _ => True

theorem written_nextLine {all done rest : List (Uuid × ℤ)} (h : all = done ++ rest) :
    Written all (nextLine rest) done := by
  cases rest with
  | nil =>
    rw [List.append_nil] at h
    exact h
  | cons line rest => exact h

/-- Nothing is committed yet, or exactly one cancellation is. -/
def CommittedOnce (status₀ : OrderStatus) (stock₀ : Uuid → ℤ) (lines : List (Uuid × ℤ))
    (g : Shared ι) : Prop :=
  (g.status = status₀ ∧ ∀ p, g.stock p = stock₀ p) ∨
    (g.status = .cancelled ∧ ∀ p, g.stock p = stock₀ p + quantityOf lines p)

/-- A session holds the lock of every product it has loaded, and its copy is the committed
stock plus what it has written. -/
structure Holds (i : ι) (done : List (Uuid × ℤ)) (g : Shared ι) (t : SessionState) : Prop where
  absent : ∀ p, t.loaded p = none → quantityOf done p = 0
  locked : ∀ p v, t.loaded p = some v → g.locks (.product p) = some i
  copy : ∀ p v, t.loaded p = some v → v = g.stock p + quantityOf done p
  reading : ∀ line rest, t.phase = .writeProduct line rest → (t.loaded line.1).isSome

/-- The invariant of one session. -/
def SessionInv (requests : ι → Request) (i : ι) (g : Shared ι) (t : SessionState) : Prop :=
  t.phase = .committed ∨ t.phase = .rolledBack ∨
    ∃ done, Written (requests i).lines t.phase done ∧ Holds i done g t

/-- What another session may do to a session's world: nothing to the rows it has locked. -/
theorem sessionInv_frame {i : ι} {g g' : Shared ι} {t : SessionState}
    (h : SessionInv requests i g t)
    (hframe : ∀ p, g.locks (.product p) = some i →
      g'.locks (.product p) = some i ∧ g'.stock p = g.stock p) :
    SessionInv requests i g' t := by
  rcases h with h | h | ⟨done, hw, hh⟩
  · exact Or.inl h
  · exact Or.inr (Or.inl h)
  · refine Or.inr (Or.inr ⟨done, hw, hh.absent, ?_, ?_, hh.reading⟩)
    · exact fun p v hv => (hframe p (hh.locked p v hv)).1
    · intro p v hv
      rw [(hframe p (hh.locked p v hv)).2]
      exact hh.copy p v hv

/-- A session that only moves to another statement keeps what it holds. -/
theorem Holds.move {i : ι} {done : List (Uuid × ℤ)} {g : Shared ι} {t t' : SessionState}
    (h : Holds i done g t) (hl : t'.loaded = t.loaded)
    (hp : ∀ line rest, t'.phase ≠ .writeProduct line rest) : Holds i done g t' where
  absent := by rw [hl]; exact h.absent
  locked := by rw [hl]; exact h.locked
  copy := by rw [hl]; exact h.copy
  reading := fun line rest he => absurd he (hp line rest)

theorem nextLine_ne_write (rest : List (Uuid × ℤ)) (line : Uuid × ℤ) (rest' : List (Uuid × ℤ)) :
    nextLine rest ≠ .writeProduct line rest' := by
  cases rest <;> simp [nextLine]

/-- `UPDATE` of the line's product. -/
theorem Holds.write {i : ι} {done rest : List (Uuid × ℤ)} {line : Uuid × ℤ} {g : Shared ι}
    {t : SessionState} (h : Holds i done g t) (hp : t.phase = .writeProduct line rest) :
    Holds i (done ++ [line]) g
      { t with
        phase := nextLine rest
        loaded := Function.update t.loaded line.1 ((t.loaded line.1).map (· + line.2)) } := by
  obtain ⟨w, hw⟩ := Option.isSome_iff_exists.mp (h.reading line rest hp)
  have hq : ∀ p, quantityOf (done ++ [line]) p =
      quantityOf done p + (if line.1 = p then line.2 else 0) := by
    intro p
    rw [quantityOf_append, quantityOf_cons, quantityOf_nil, add_zero]
  refine ⟨fun p hpn => ?_, fun p v hv => ?_, fun p v hv => ?_,
    fun line' rest' he => absurd he (nextLine_ne_write _ _ _)⟩
  · have hne : p ≠ line.1 := by rintro rfl; simp [hw] at hpn
    rw [hq, if_neg hne.symm, add_zero]
    exact h.absent p (by simpa [hne] using hpn)
  · by_cases hpl : p = line.1
    · rw [hpl]
      exact h.locked _ w hw
    · exact h.locked p v (by simpa [hpl] using hv)
  · by_cases hpl : p = line.1
    · subst hpl
      have hv' : w + line.2 = v := by simpa [hw] using hv
      rw [hq, if_pos rfl, ← hv', h.copy _ w hw, add_assoc]
    · have hold := h.copy p v (by simpa [hpl] using hv)
      rw [hq, if_neg (fun e => hpl e.symm), add_zero]
      exact hold

/-- A session that is not over has its split of lines and its locks. -/
theorem SessionInv.active {i : ι} {g : Shared ι} {t : SessionState}
    (h : SessionInv requests i g t) (hc : t.phase ≠ .committed) (hr : t.phase ≠ .rolledBack) :
    ∃ done, Written (requests i).lines t.phase done ∧ Holds i done g t := by
  rcases h with h | h | h
  · exact absurd h hc
  · exact absurd h hr
  · exact h

variable [DecidableEq ι]

/-- `SELECT ... FOR UPDATE` of the next line's product. -/
theorem Holds.lock {i : ι} {done rest : List (Uuid × ℤ)} {line : Uuid × ℤ} {g : Shared ι}
    {t : SessionState} {locks : Locks Row ι} (h : Holds i done g t)
    (ha : g.locks.acquire (.product line.1) i = some locks) :
    Holds i done { g with locks := locks }
      { t with
        phase := .writeProduct line rest
        loaded := Function.update t.loaded line.1
          (some ((t.loaded line.1).getD (g.stock line.1))) } := by
  refine ⟨fun p hp => ?_, fun p v hv => ?_, fun p v hv => ?_, fun line' rest' he => ?_⟩
  · have hne : p ≠ line.1 := by rintro rfl; simp at hp
    exact h.absent p (by simpa [hne] using hp)
  · by_cases hp : p = line.1
    · rw [hp]
      exact Locks.acquire_self ha
    · exact Locks.acquire_own ha (h.locked p v (by simpa [hp] using hv))
  · by_cases hp : p = line.1
    · subst hp
      have hv' : (t.loaded line.1).getD (g.stock line.1) = v := by simpa using hv
      cases hl : t.loaded line.1 with
      | none =>
        rw [hl, Option.getD_none] at hv'
        rw [h.absent _ hl, ← hv']
        exact (add_zero _).symm
      | some w =>
        rw [hl, Option.getD_some] at hv'
        rw [← hv']
        exact h.copy _ w hl
    · exact h.copy p v (by simpa [hp] using hv)
  · cases he
    simp

/-- The thread invariant of the system. -/
abbrev Inv (requests : ι → Request) (status₀ : OrderStatus) (stock₀ : Uuid → ℤ)
    (lines : List (Uuid × ℤ)) : Threads ι (Shared ι) SessionState → Prop :=
  ThreadInv (CommittedOnce status₀ stock₀ lines) (SessionInv requests)

/-- A statement keeps the session's own invariant and, if it is no second cancellation,
the committed rows. -/
theorem own_step (hlines : ∀ i p, quantityOf (requests i).lines p = quantityOf lines p)
    {c : Threads ι (Shared ι) SessionState} {i : ι} {e : Event} {g' : Shared ι}
    {t' : SessionState} (hc : Inv requests status₀ stock₀ lines c)
    (hg : CommitsOnOpenOrder c (i, e))
    (hs : step requests i c.shared (c.thread i) e = some (g', t')) :
    CommittedOnce status₀ stock₀ lines g' ∧ SessionInv requests i g' t' := by
  have hI := hc.shared
  have hL := hc.thread i
  cases e with
  | rollback =>
    have hab : (g', t') = abort i c.shared (c.thread i) := by
      simp only [step] at hs
      split at hs <;> simp_all
    obtain ⟨rfl, rfl⟩ := Prod.mk.inj hab
    exact ⟨hI, Or.inr (Or.inl rfl)⟩
  | statement =>
    cases hp : (c.thread i).phase with
    | readOrder =>
      simp only [step, hp] at hs
      obtain ⟨done, hw, hh⟩ := hL.active (by simp [hp]) (by simp [hp])
      rw [hp] at hw
      split_ifs at hs with ha <;> obtain ⟨rfl, rfl⟩ := Prod.mk.inj (Option.some.inj hs)
      · refine ⟨hI, Or.inr (Or.inr ⟨done, written_nextLine ?_, hh.move rfl ?_⟩)⟩
        · rw [show done = [] from hw, List.nil_append]
        · exact fun line rest => nextLine_ne_write _ _ _
      · exact ⟨hI, Or.inr (Or.inl rfl)⟩
    | lockProduct line rest =>
      simp only [step, hp, Option.map_eq_some_iff] at hs
      obtain ⟨locks, hl, hs⟩ := hs
      obtain ⟨rfl, rfl⟩ := Prod.mk.inj hs
      obtain ⟨done, hw, hh⟩ := hL.active (by simp [hp]) (by simp [hp])
      rw [hp] at hw
      exact ⟨hI, Or.inr (Or.inr ⟨done, hw, hh.lock hl⟩)⟩
    | writeProduct line rest =>
      simp only [step, hp] at hs
      obtain ⟨rfl, rfl⟩ := Prod.mk.inj (Option.some.inj hs)
      obtain ⟨done, hw, hh⟩ := hL.active (by simp [hp]) (by simp [hp])
      rw [hp] at hw
      have hsplit : (requests i).lines = (done ++ [line]) ++ rest := by
        rw [List.append_assoc]
        exact hw
      exact ⟨hI, Or.inr (Or.inr ⟨done ++ [line], written_nextLine hsplit, hh.write hp⟩)⟩
    | readOrderAgain =>
      simp only [step, hp] at hs
      obtain ⟨done, hw, hh⟩ := hL.active (by simp [hp]) (by simp [hp])
      rw [hp] at hw
      split_ifs at hs with ha <;> obtain ⟨rfl, rfl⟩ := Prod.mk.inj (Option.some.inj hs)
      · exact ⟨hI, Or.inr (Or.inr ⟨done, hw, hh.move rfl (by simp)⟩)⟩
      · exact ⟨hI, Or.inr (Or.inl rfl)⟩
    | writeOrder =>
      simp only [step, hp, Option.map_eq_some_iff] at hs
      obtain ⟨locks, hl, hs⟩ := hs
      obtain ⟨rfl, rfl⟩ := Prod.mk.inj hs
      obtain ⟨done, hw, hh⟩ := hL.active (by simp [hp]) (by simp [hp])
      rw [hp] at hw
      refine ⟨hI, Or.inr (Or.inr ⟨done, hw, hh.absent, ?_, hh.copy, by simp⟩)⟩
      exact fun p v hv => Locks.acquire_own hl (hh.locked p v hv)
    | refresh =>
      simp only [step, hp] at hs
      obtain ⟨rfl, rfl⟩ := Prod.mk.inj (Option.some.inj hs)
      obtain ⟨done, hw, hh⟩ := hL.active (by simp [hp]) (by simp [hp])
      rw [hp] at hw
      exact ⟨hI, Or.inr (Or.inr ⟨done, hw, hh.move rfl (by simp)⟩)⟩
    | commit =>
      simp only [step, hp] at hs
      obtain ⟨rfl, rfl⟩ := Prod.mk.inj (Option.some.inj hs)
      obtain ⟨done, hw, hh⟩ := hL.active (by simp [hp]) (by simp [hp])
      rw [hp] at hw
      have hopen : c.shared.status ≠ .cancelled := hg rfl hp
      refine ⟨Or.inr ⟨rfl, fun p => ?_⟩, Or.inl rfl⟩
      -- the first cancellation: the committed stock is still the initial one
      rcases hI with ⟨-, hstock⟩ | ⟨hcancelled, -⟩
      · rw [← hlines i p, show (requests i).lines = done from hw, ← hstock p]
        show ((c.thread i).loaded p).getD (c.shared.stock p) = _
        cases hl : (c.thread i).loaded p with
        | none => rw [hh.absent p hl, Option.getD_none, add_zero]
        | some v => rw [Option.getD_some, hh.copy p v hl]
      · exact absurd hcancelled hopen
    | committed => simp [step, hp] at hs
    | rolledBack => simp [step, hp] at hs

/-- A statement of session `i` leaves the rows alone that session `j` has locked. -/
theorem other_step {c : Threads ι (Shared ι) SessionState} {i j : ι} {e : Event}
    {g' : Shared ι} {t' : SessionState} (hc : Inv requests status₀ stock₀ lines c) (hj : j ≠ i)
    (hs : step requests i c.shared (c.thread i) e = some (g', t')) :
    SessionInv requests j g' (c.thread j) := by
  have hrelease : ∀ p, c.shared.locks (.product p) = some j →
      c.shared.locks.release i (.product p) = some j := fun p h => (Locks.release_other hj _).mpr h
  refine sessionInv_frame (hc.thread j) fun p hlock => ?_
  cases e with
  | rollback =>
    have hab : (g', t') = abort i c.shared (c.thread i) := by
      simp only [step] at hs
      split at hs <;> simp_all
    obtain ⟨rfl, rfl⟩ := Prod.mk.inj hab
    exact ⟨hrelease p hlock, rfl⟩
  | statement =>
    cases hp : (c.thread i).phase with
    | readOrder =>
      simp only [step, hp] at hs
      split_ifs at hs <;> obtain ⟨rfl, rfl⟩ := Prod.mk.inj (Option.some.inj hs)
      · exact ⟨hlock, rfl⟩
      · exact ⟨hrelease p hlock, rfl⟩
    | lockProduct line rest =>
      simp only [step, hp, Option.map_eq_some_iff] at hs
      obtain ⟨locks, hl, hs⟩ := hs
      obtain ⟨rfl, rfl⟩ := Prod.mk.inj hs
      exact ⟨(Locks.acquire_other hl hj _).mpr hlock, rfl⟩
    | readOrderAgain =>
      simp only [step, hp] at hs
      split_ifs at hs <;> obtain ⟨rfl, rfl⟩ := Prod.mk.inj (Option.some.inj hs)
      · exact ⟨hlock, rfl⟩
      · exact ⟨hrelease p hlock, rfl⟩
    | writeOrder =>
      simp only [step, hp, Option.map_eq_some_iff] at hs
      obtain ⟨locks, hl, hs⟩ := hs
      obtain ⟨rfl, rfl⟩ := Prod.mk.inj hs
      exact ⟨(Locks.acquire_other hl hj _).mpr hlock, rfl⟩
    | writeProduct line rest =>
      simp only [step, hp] at hs
      obtain ⟨rfl, rfl⟩ := Prod.mk.inj (Option.some.inj hs)
      exact ⟨hlock, rfl⟩
    | refresh =>
      simp only [step, hp] at hs
      obtain ⟨rfl, rfl⟩ := Prod.mk.inj (Option.some.inj hs)
      exact ⟨hlock, rfl⟩
    | commit =>
      simp only [step, hp] at hs
      obtain ⟨rfl, rfl⟩ := Prod.mk.inj (Option.some.inj hs)
      refine ⟨hrelease p hlock, ?_⟩
      obtain ⟨done, -, hh⟩ := (hc.thread i).active (by simp [hp]) (by simp [hp])
      cases hl : (c.thread i).loaded p with
      | none => simp [hl]
      | some v =>
        -- session `i` would hold the lock that `j` holds
        have hlocki := hh.locked p v hl
        rw [hlock] at hlocki
        exact absurd (Option.some.inj hlocki) hj
    | committed => simp [step, hp] at hs
    | rolledBack => simp [step, hp] at hs

omit [DecidableEq ι] in
theorem inv_init (requests : ι → Request) (status₀ : OrderStatus) (stock₀ : Uuid → ℤ)
    (lines : List (Uuid × ℤ)) :
    Inv requests status₀ stock₀ lines (init ι status₀ stock₀) where
  shared := Or.inl ⟨rfl, fun _ => rfl⟩
  thread := fun _ => Or.inr (Or.inr ⟨[], rfl, fun _ _ => rfl, (fun _ _ h => nomatch h),
    (fun _ _ h => nomatch h), (fun _ _ h => nomatch h)⟩)

/-- However the statements of any number of cancellations are interleaved: as long as no
session commits on an order that is already cancelled, the stock of every product has
grown by the order's quantity at most once. -/
theorem stock_returned_once (lines : List (Uuid × ℤ))
    (hlines : ∀ i, (requests i).lines.Perm lines) {events : List (ι × Event)}
    {c : Threads ι (Shared ι) SessionState}
    (hrun : exec (interleave (step requests)) (init ι status₀ stock₀) events = some c)
    (hguard : Guarded (interleave (step requests)) CommitsOnOpenOrder (init ι status₀ stock₀)
      events) (p : Uuid) :
    c.shared.stock p = stock₀ p ∨ c.shared.stock p = stock₀ p + quantityOf lines p := by
  have hsame : ∀ i p, quantityOf (requests i).lines p = quantityOf lines p := fun i p =>
    (((hlines i).filter _).map _).sum_eq
  have hinv : Inv requests status₀ stock₀ lines c :=
    Guarded.invariant (threadInv_step (own_step hsame) fun hc _ => other_step hc)
      (inv_init requests status₀ stock₀ lines) hguard hrun
  rcases hinv.shared with ⟨-, h⟩ | ⟨-, h⟩
  · exact Or.inl (h p)
  · exact Or.inr (h p)

end Invariant

/-- A customer and a staff member cancel the same order of two cylinders. -/
def twoRequests (i : Fin 2) : Request where
  kind := if i = 0 then .cancelOrder true else .updateOrderStatus true
  lines := [(1, 2)]

instance {ι : Type*} [DecidableEq ι] (c : Threads ι (Shared ι) SessionState) (e : ι × Event) :
    Decidable (CommitsOnOpenOrder c e) := by
  unfold CommitsOnOpenOrder; infer_instance

/-- The second session reads the order only after the first has committed. -/
def oneAfterTheOther : List (Fin 2 × Event) :=
  List.replicate 7 (0, .statement) ++ [(1, .statement)]

theorem stock_returned_once_two :
    ∃ c, exec (interleave (step twoRequests)) (init (Fin 2) .pending fun _ => 8)
        oneAfterTheOther = some c ∧
      (c.shared.stock 1 = 8 ∨ c.shared.stock 1 = 8 + quantityOf [(1, 2)] 1) := by
  have hrun : (exec (interleave (step twoRequests)) (init (Fin 2) .pending fun _ => 8)
      oneAfterTheOther).isSome := by decide
  obtain ⟨c, hc⟩ := Option.isSome_iff_exists.mp hrun
  exact ⟨c, hc, stock_returned_once [(1, 2)] (fun _ => List.Perm.refl _) hc (by decide) 1⟩

/-- Both read the pending order before either commits; then one runs to its end, and the
other after it. -/
def bothReadPending : List (Fin 2 × Event) :=
  [(0, .statement), (1, .statement)] ++ List.replicate 6 (0, .statement) ++
    List.replicate 6 (1, .statement)

/-- The stock grows from 8 to 12 although the order has only two units. -/
theorem stock_returned_twice :
    ¬ ∀ (events : List (Fin 2 × Event)) (c : Threads (Fin 2) (Shared (Fin 2)) SessionState),
      exec (interleave (step twoRequests)) (init (Fin 2) .pending fun _ => 8) events = some c →
      ∀ p, c.shared.stock p = 8 ∨ c.shared.stock p = 8 + quantityOf [(1, 2)] p := by
  intro h
  have hrun : (exec (interleave (step twoRequests)) (init (Fin 2) .pending fun _ => 8)
      bothReadPending).map (fun c => c.shared.stock 1) = some 12 := by decide
  obtain ⟨c, hc, hstock⟩ := Option.map_eq_some_iff.mp hrun
  have hp := h bothReadPending c hc 1
  rw [hstock] at hp
  revert hp
  decide

end Qiki.Concurrency.Cancellation
