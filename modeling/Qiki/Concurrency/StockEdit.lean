import Qiki.Admin.Chat
import Qiki.Transition.Threads

/-! Confirmed admin-chat edits of one product beside checkouts, cancellations and other edits
of it, statement by statement. -/
namespace Qiki.Concurrency.StockEdit

open Admin Orders Transition

/-- A request that writes the product: the confirmation of a pending change, an order of it,
the cancellation of such an order, or an edit in the admin pages. -/
inductive Request
  | confirm (data : Pending)
  | createOrder (quantity : ℕ)
  | cancelOrder (quantity : ℕ)
  | edit (changes : List Change)
  deriving DecidableEq, Repr

/-- The statement a session is about to send, or how it has ended. -/
inductive Phase
  | read
  | readAgain
  | update
  | refresh
  | audit
  | lock
  | write
  | commit
  | committed
  | stale
  | rolledBack
  deriving DecidableEq, Repr

/-- The committed row of the product and its lock. -/
structure Shared (ι : Type*) where
  product : Product
  locks : Locks Unit ι

/-- One database session: its statement, its copy of the row, whether it has sent an `UPDATE`,
and the committed stock at the instant of its write. -/
structure SessionState where
  phase : Phase
  copy : Product
  sent : Bool
  atWrite : Option ℤ

inductive Event
  | statement
  | rollback
  deriving DecidableEq, Repr

/-- The columns that a request of the admin assigns. -/
def Request.changes : Request → List Change
  | .confirm data => [data.instruction.change]
  | .edit changes => changes
  | .createOrder _ => []
  | .cancelOrder _ => []

/-- The assignments that a flush sends: those that differ from the loaded value. A price is
assigned as text and always differs. -/
def assignments (changes : List Change) (copy : Product) : List Change :=
  changes.filter fun u => match u with
    | .price _ => true
    | u => assign copy u ≠ copy

/-- The row that the session commits over the committed one. -/
def Request.written (r : Request) (copy current : Product) : Product :=
  match r with
  | .confirm data => (assignments [data.instruction.change] copy).foldl assign current
  | .edit changes => (assignments changes copy).foldl assign current
  | .createOrder quantity => { current with stockQuantity := copy.stockQuantity - quantity }
  | .cancelOrder quantity => { current with stockQuantity := copy.stockQuantity + quantity }

def Request.firstPhase : Request → Phase
  | .confirm _ => .read
  | .edit _ => .read
  | .createOrder _ => .lock
  | .cancelOrder _ => .lock

/-- The confirmation of a stock edit. -/
def Request.editsStock : Request → Bool
  | .confirm data => data.instruction.action = .updateStock
  | _ => false

section Step
variable {ι : Type*} [DecidableEq ι]

/-- The transaction ends without effect. -/
def stop (i : ι) (g : Shared ι) (t : SessionState) (phase : Phase) : Shared ι × SessionState :=
  ({ g with locks := g.locks.release i }, { t with phase := phase })

/-- The checks on the row that is read first: the guard of `_execute_pending`. -/
def onRead (i : ι) (r : Request) (g : Shared ι) (t : SessionState) : Shared ι × SessionState :=
  match r with
  | .confirm data =>
    if (validationError data.instruction).isSome then stop i g t .rolledBack
    else if (computeChange data.instruction g.product).1 ≠ data.beforeSnapshot then
      stop i g t .stale
    else (g, { t with phase := .readAgain, copy := g.product })
  | _ => (g, { t with phase := .readAgain, copy := g.product })

/-- The checks on the locked row: an order needs the product on sale and in stock. -/
def onLock (i : ι) (r : Request) (g : Shared ι) (t : SessionState) : Shared ι × SessionState :=
  match r with
  | .createOrder quantity =>
    if g.product.isActive && quantity ≤ g.product.stockQuantity then
      (g, { t with phase := .write, copy := g.product })
    else stop i g t .rolledBack
  | _ => (g, { t with phase := .write, copy := g.product })

/-- One statement of session `i`; `none` when it waits for the row lock or has ended.
`rollback` is any exception before the commit. -/
def step (requests : ι → Request) (i : ι) (g : Shared ι) (t : SessionState) :
    Event → Option (Shared ι × SessionState)
  | .rollback =>
    match t.phase with
    | .committed | .stale | .rolledBack => none
    | _ => some (stop i g t .rolledBack)
  | .statement =>
    match t.phase with
    | .read => some (onRead i (requests i) g t)
    -- `ProductRepository.update` selects the row again; a loaded row is not refreshed
    | .readAgain => some (g, { t with phase := .update })
    | .update =>
      let passed := { t with phase := .refresh, atWrite := some g.product.stockQuantity }
      if assignments (requests i).changes t.copy = [] then some (g, passed)
      else (g.locks.acquire () i).map fun locks =>
        ({ g with locks := locks }, { passed with sent := true })
    | .refresh =>
      match requests i with
      | .confirm _ => some (g, { t with phase := .audit })
      | _ => some (g, { t with phase := .commit })
    | .audit => some (g, { t with phase := .commit })
    | .lock =>
      (g.locks.acquire () i).map fun locks => onLock i (requests i) { g with locks := locks } t
    | .write => some (g, { t with phase := .commit, sent := true })
    | .commit =>
      some ({ product := (requests i).written t.copy g.product, locks := g.locks.release i },
        { t with phase := .committed })
    | .committed | .stale | .rolledBack => none

/-- All sessions before their first statement. -/
def init (requests : ι → Request) (product : Product) : Threads ι (Shared ι) SessionState where
  shared := ⟨product, fun _ => none⟩
  thread := fun i => ⟨(requests i).firstPhase, product, false, none⟩

/-- A confirmation between the check of the row and its `UPDATE`. -/
def Phase.inWindow (p : Phase) : Bool := p ∈ [.readAgain, .update]

/-- No transaction commits another stock while a confirmation of a stock edit stands between
its check and its `UPDATE`. -/
def NoCommitInWindow (requests : ι → Request) (c : Threads ι (Shared ι) SessionState)
    (e : ι × Event) : Prop :=
  e.2 = .statement → (c.thread e.1).phase = .commit →
    ((requests e.1).written (c.thread e.1).copy c.shared.product).stockQuantity ≠
      c.shared.product.stockQuantity →
    ∀ i, (requests i).editsStock = true → (c.thread i).phase.inWindow = false

end Step

/-- The phases behind the flush of the update, before the end of the transaction. -/
def Phase.flushed (p : Phase) : Bool := p ∈ [.refresh, .audit, .commit]

/-- The phases before anything is written, and the end as stale. -/
def Phase.unwritten (p : Phase) : Bool := p ∈ [.read, .readAgain, .update, .lock, .write, .stale]

/-- The stock at the instant of the confirmation's write is the approved one and stays so until
its commit; a confirmation that ends as stale has written nothing, and one that ends otherwise
has passed its write. -/
structure WritesApproved {ι : Type*} (data : Pending) (g : Shared ι) (t : SessionState) :
    Prop where
  approved : ∀ stock, t.atWrite = some stock → .stockQuantity stock = data.beforeSnapshot
  current : t.phase.flushed = true → t.sent = true →
    .stockQuantity g.product.stockQuantity = data.beforeSnapshot
  stale : t.phase = .stale → t.sent = false
  executed : t.phase = .committed → t.atWrite.isSome = true

section Invariant
variable {ι : Type*} {requests : ι → Request}

/-- The session is a confirmation of a stock edit. -/
def StockConfirm (requests : ι → Request) (i : ι) (data : Pending) : Prop :=
  requests i = .confirm data ∧ data.instruction.action = .updateStock

/-- A session that has sent a write holds the row lock; a confirmation in its window or behind
its write finds the approved stock. -/
structure SessionInv (requests : ι → Request) (i : ι) (g : Shared ι) (t : SessionState) :
    Prop where
  program : t.phase ∈ [.read, .readAgain, .update, .refresh, .audit] →
    (requests i).firstPhase = .read
  order : t.phase ∈ [.lock, .write] → (requests i).firstPhase = .lock
  unwritten : t.phase.unwritten = true → t.sent = false ∧ t.atWrite = none
  holds : t.phase = .write ∨ t.phase.flushed = true ∧ t.sent = true → g.locks () = some i
  unsent : t.phase.flushed = true → t.sent = false →
    ∀ p, (requests i).written t.copy p = p
  window : ∀ data, StockConfirm requests i data → t.phase.inWindow = true →
    .stockQuantity g.product.stockQuantity = data.beforeSnapshot
  approved : ∀ data, StockConfirm requests i data → ∀ stock, t.atWrite = some stock →
    .stockQuantity stock = data.beforeSnapshot
  current : ∀ data, StockConfirm requests i data → t.phase.flushed = true → t.sent = true →
    .stockQuantity g.product.stockQuantity = data.beforeSnapshot
  passed : ∀ data, StockConfirm requests i data →
    t.phase.flushed = true ∨ t.phase = .committed → t.atWrite.isSome = true

/-- A session that has ended without a commit. -/
theorem sessionInv_stop {i : ι} {g g' : Shared ι} {t : SessionState} {phase : Phase}
    (h : SessionInv requests i g t)
    (hphase : phase = .rolledBack ∨ phase = .stale ∧ t.phase.unwritten = true) :
    SessionInv requests i g' { t with phase := phase } := by
  have hunwritten : phase.unwritten = true → t.sent = false ∧ t.atWrite = none := by
    intro hp
    rcases hphase with rfl | ⟨rfl, hu⟩
    · cases hp
    · exact h.unwritten hu
  have hended : phase.flushed = false ∧ phase.inWindow = false ∧ phase ≠ .write ∧
      phase ≠ .committed ∧ phase ∉ [.read, .readAgain, .update, .refresh, .audit] ∧
      phase ∉ [.lock, .write] := by
    rcases hphase with rfl | ⟨rfl, -⟩ <;> decide
  obtain ⟨hflushed, hwindow, hwrite, hcommitted, hprogram, horder⟩ := hended
  refine ⟨fun hp => absurd hp hprogram, fun hp => absurd hp horder, hunwritten, ?_, ?_, ?_,
    h.approved, ?_, ?_⟩
  · rintro (hp | ⟨hp, -⟩)
    · exact absurd hp hwrite
    · exact absurd (hflushed.symm.trans hp) (by decide)
  · exact fun hp => absurd (hflushed.symm.trans hp) (by decide)
  · exact fun _ _ hp => absurd (hwindow.symm.trans hp) (by decide)
  · exact fun _ _ hp => absurd (hflushed.symm.trans hp) (by decide)
  · rintro data - (hp | hp)
    · exact absurd (hflushed.symm.trans hp) (by decide)
    · exact absurd hp hcommitted

/-- A flush without assignments leaves the row alone. -/
theorem written_of_nothing {r : Request} (hr : r.firstPhase = .read) {copy : Product}
    (h : assignments r.changes copy = []) (p : Product) : r.written copy p = p := by
  cases r with
  | confirm data =>
    show (assignments [data.instruction.change] copy).foldl assign p = p
    rw [show assignments [data.instruction.change] copy = [] from h]
    rfl
  | edit changes =>
    show (assignments changes copy).foldl assign p = p
    rw [show assignments changes copy = [] from h]
    rfl
  | createOrder quantity => cases hr
  | cancelOrder quantity => cases hr

/-- The session before its write, in a phase of its own program. -/
theorem sessionInv_unwritten {i : ι} {g : Shared ι} {t : SessionState}
    (hunwritten : t.sent = false ∧ t.atWrite = none) (hflushed : t.phase.flushed = false)
    (hcommitted : t.phase ≠ .committed)
    (hprogram : t.phase ∈ [.read, .readAgain, .update, .refresh, .audit] →
      (requests i).firstPhase = .read)
    (horder : t.phase ∈ [.lock, .write] → (requests i).firstPhase = .lock)
    (hlock : t.phase = .write → g.locks () = some i)
    (hwindow : ∀ data, StockConfirm requests i data → t.phase.inWindow = true →
      .stockQuantity g.product.stockQuantity = data.beforeSnapshot) :
    SessionInv requests i g t := by
  refine ⟨hprogram, horder, fun _ => hunwritten, ?_, ?_, hwindow, ?_, ?_, ?_⟩
  · rintro (hp | ⟨hp, -⟩)
    · exact hlock hp
    · exact absurd (hflushed.symm.trans hp) (by decide)
  · exact fun hp => absurd (hflushed.symm.trans hp) (by decide)
  · intro data _ stock hs
    rw [hunwritten.2] at hs
    cases hs
  · exact fun _ _ hp => absurd (hflushed.symm.trans hp) (by decide)
  · rintro data - (hp | hp)
    · exact absurd (hflushed.symm.trans hp) (by decide)
    · exact absurd hp hcommitted

variable [DecidableEq ι]

theorem sessionInv_onRead {i : ι} {g : Shared ι} {t : SessionState}
    (h : SessionInv requests i g t) (hp : t.phase = .read) :
    SessionInv requests i (onRead i (requests i) g t).1 (onRead i (requests i) g t).2 := by
  have hunwritten : t.sent = false ∧ t.atWrite = none := h.unwritten (by rw [hp]; rfl)
  have hprogram : (requests i).firstPhase = .read := h.program (by rw [hp]; decide)
  have hread : (∀ data, StockConfirm requests i data →
      .stockQuantity g.product.stockQuantity = data.beforeSnapshot) →
      SessionInv requests i g { t with phase := .readAgain, copy := g.product } := fun hsame =>
    sessionInv_unwritten hunwritten rfl (by simp) (fun _ => hprogram) (fun hc => by simp at hc)
      (fun hc => by cases hc) fun data hdata _ => hsame data hdata
  unfold onRead
  cases hr : requests i with
  | confirm data =>
    dsimp only
    split_ifs with hinvalid hstale
    · exact sessionInv_stop h (Or.inl rfl)
    · exact sessionInv_stop h (Or.inr ⟨rfl, by rw [hp]; rfl⟩)
    · refine hread fun data' hdata => ?_
      obtain ⟨hrequest, haction⟩ := hdata
      rw [hr] at hrequest
      cases hrequest
      have hbefore := not_not.mp hstale
      rw [computeChange, haction] at hbefore
      exact hbefore
  | createOrder quantity => exact hread fun data hd => by rw [StockConfirm, hr] at hd; cases hd.1
  | cancelOrder quantity => exact hread fun data hd => by rw [StockConfirm, hr] at hd; cases hd.1
  | edit changes => exact hread fun data hd => by rw [StockConfirm, hr] at hd; cases hd.1

theorem sessionInv_onLock {i : ι} {g : Shared ι} {t : SessionState}
    (h : SessionInv requests i g t) (hp : t.phase = .lock) {locks : Locks Unit ι}
    (hl : g.locks.acquire () i = some locks) :
    SessionInv requests i (onLock i (requests i) { g with locks := locks } t).1
      (onLock i (requests i) { g with locks := locks } t).2 := by
  have hunwritten : t.sent = false ∧ t.atWrite = none := h.unwritten (by rw [hp]; rfl)
  have horder : (requests i).firstPhase = .lock := h.order (by rw [hp]; decide)
  have hlocked : SessionInv requests i { g with locks := locks }
      { t with phase := .write, copy := g.product } :=
    sessionInv_unwritten hunwritten rfl (by simp) (fun hc => by simp at hc) (fun _ => horder)
      (fun _ => Locks.acquire_self hl) fun _ _ hc => by cases hc
  unfold onLock
  split
  · split_ifs
    · exact hlocked
    · exact sessionInv_stop h (Or.inl rfl)
  · exact hlocked

/-- The flush of an edit: without assignments no `UPDATE` is sent, else it waits for the lock. -/
theorem sessionInv_update {i : ι} {g : Shared ι} {t : SessionState}
    (h : SessionInv requests i g t) (hp : t.phase = .update) :
    (assignments (requests i).changes t.copy = [] →
      SessionInv requests i g
        { t with phase := .refresh, atWrite := some g.product.stockQuantity }) ∧
    ∀ locks, g.locks.acquire () i = some locks →
      SessionInv requests i { g with locks := locks }
        { t with phase := .refresh, atWrite := some g.product.stockQuantity, sent := true } := by
  have hunwritten : t.sent = false ∧ t.atWrite = none := h.unwritten (by rw [hp]; rfl)
  have hprogram : (requests i).firstPhase = .read := h.program (by rw [hp]; decide)
  have happroved : ∀ data, StockConfirm requests i data →
      .stockQuantity g.product.stockQuantity = data.beforeSnapshot := fun data hdata =>
    h.window data hdata (by rw [hp]; rfl)
  constructor
  · intro hnothing
    refine ⟨fun _ => hprogram, (fun hc => by simp at hc), (fun hc => nomatch hc), ?_,
      fun _ _ => written_of_nothing hprogram hnothing, (fun _ _ hc => nomatch hc), ?_,
      fun data hdata _ _ => happroved data hdata, fun _ _ _ => rfl⟩
    · rintro (hc | ⟨-, hc⟩)
      · cases hc
      · exact absurd (hunwritten.1.symm.trans hc) (by decide)
    · intro data hdata stock hs
      cases hs
      exact happroved data hdata
  · intro locks hl
    refine ⟨fun _ => hprogram, (fun hc => by simp at hc), (fun hc => nomatch hc),
      fun _ => Locks.acquire_self hl, (fun _ hc => nomatch hc), (fun _ _ hc => nomatch hc), ?_,
      fun data hdata _ _ => happroved data hdata, fun _ _ _ => rfl⟩
    intro data hdata stock hs
    cases hs
    exact happroved data hdata

omit [DecidableEq ι] in
/-- Behind the flush a session moves on without changing anything. -/
theorem sessionInv_flushed {i : ι} {g : Shared ι} {t : SessionState} {phase : Phase}
    (h : SessionInv requests i g t) (hp : t.phase = .refresh ∨ t.phase = .audit)
    (hnext : phase = .audit ∨ phase = .commit) :
    SessionInv requests i g { t with phase := phase } := by
  have hflushed : t.phase.flushed = true := by
    rcases hp with hp | hp <;> rw [hp] <;> rfl
  have hprogram : (requests i).firstPhase = .read := h.program (by
    rcases hp with hp | hp <;> rw [hp] <;> decide)
  refine ⟨fun _ => hprogram, fun hc => ?_, fun hc => ?_, fun hc => h.holds (Or.inr ⟨hflushed, ?_⟩),
    fun _ => h.unsent hflushed, fun _ _ hc => ?_, h.approved,
    fun data hdata _ => h.current data hdata hflushed,
    fun data hdata _ => h.passed data hdata (Or.inl hflushed)⟩
  · rcases hnext with rfl | rfl <;> simp at hc
  · rcases hnext with rfl | rfl <;> cases hc
  · rcases hc with hc | ⟨-, hc⟩
    · rcases hnext with rfl | rfl <;> cases hc
    · exact hc
  · rcases hnext with rfl | rfl <;> cases hc

/-- The thread invariant of the system. -/
abbrev Inv (requests : ι → Request) : Threads ι (Shared ι) SessionState → Prop :=
  ThreadInv (fun _ => True) (SessionInv requests)

theorem own_step {c : Threads ι (Shared ι) SessionState} {i : ι} {e : Event} {g' : Shared ι}
    {t' : SessionState} (hc : Inv requests c)
    (hs : step requests i c.shared (c.thread i) e = some (g', t')) :
    SessionInv requests i g' t' := by
  have h := hc.thread i
  cases e with
  | rollback =>
    have hstop : (g', t') = stop i c.shared (c.thread i) .rolledBack := by
      simp only [step] at hs
      split at hs <;> simp_all
    obtain ⟨rfl, rfl⟩ := Prod.mk.inj hstop
    exact sessionInv_stop h (Or.inl rfl)
  | statement =>
    cases hp : (c.thread i).phase with
    | read =>
      simp only [step, hp, Option.some.injEq] at hs
      have hread := sessionInv_onRead h hp
      rw [hs] at hread
      exact hread
    | readAgain =>
      simp only [step, hp, Option.some.injEq, Prod.mk.injEq] at hs
      obtain ⟨rfl, rfl⟩ := hs
      exact sessionInv_unwritten (h.unwritten (by rw [hp]; rfl)) rfl (by simp)
        (fun _ => h.program (by rw [hp]; decide)) (fun hc => by simp at hc)
        (fun hc => nomatch hc) fun data hdata _ => h.window data hdata (by rw [hp]; rfl)
    | update =>
      obtain ⟨hnothing, hsent⟩ := sessionInv_update h hp
      simp only [step, hp] at hs
      split_ifs at hs with ha
      · obtain ⟨rfl, rfl⟩ := Prod.mk.inj (Option.some.inj hs)
        exact hnothing ha
      · obtain ⟨locks, hl, hs⟩ := Option.map_eq_some_iff.mp hs
        obtain ⟨rfl, rfl⟩ := Prod.mk.inj hs
        exact hsent locks hl
    | refresh =>
      simp only [step, hp] at hs
      split at hs <;> obtain ⟨rfl, rfl⟩ := Prod.mk.inj (Option.some.inj hs)
      · exact sessionInv_flushed h (Or.inl hp) (Or.inl rfl)
      · exact sessionInv_flushed h (Or.inl hp) (Or.inr rfl)
    | audit =>
      simp only [step, hp, Option.some.injEq, Prod.mk.injEq] at hs
      obtain ⟨rfl, rfl⟩ := hs
      exact sessionInv_flushed h (Or.inr hp) (Or.inr rfl)
    | lock =>
      simp only [step, hp, Option.map_eq_some_iff] at hs
      obtain ⟨locks, hl, hs⟩ := hs
      have hlock := sessionInv_onLock h hp hl
      rw [hs] at hlock
      exact hlock
    | write =>
      simp only [step, hp, Option.some.injEq, Prod.mk.injEq] at hs
      obtain ⟨rfl, rfl⟩ := hs
      have horder : (requests i).firstPhase = .lock := h.order (by rw [hp]; decide)
      have hother : ∀ data, ¬ StockConfirm requests i data := fun data hdata => by
        rw [hdata.1] at horder
        cases horder
      exact ⟨fun hc => by simp at hc, fun hc => by simp at hc, (fun hc => nomatch hc),
        fun _ => h.holds (Or.inl hp), (fun _ hc => nomatch hc),
        fun data hdata => absurd hdata (hother data), fun data hdata => absurd hdata (hother data),
        fun data hdata => absurd hdata (hother data), fun data hdata => absurd hdata (hother data)⟩
    | commit =>
      simp only [step, hp, Option.some.injEq, Prod.mk.injEq] at hs
      obtain ⟨rfl, rfl⟩ := hs
      exact ⟨fun hc => by simp at hc, fun hc => by simp at hc, (fun hc => nomatch hc),
        (fun hc => by rcases hc with hc | ⟨hc, -⟩ <;> cases hc), (fun hc => nomatch hc),
        (fun _ _ hc => nomatch hc), h.approved, (fun _ _ hc => nomatch hc),
        fun data hdata _ => h.passed data hdata (Or.inl (by rw [hp]; rfl))⟩
    | committed => simp [step, hp] at hs
    | stale => simp [step, hp] at hs
    | rolledBack => simp [step, hp] at hs

theorem onRead_shared {i : ι} {r : Request} {g : Shared ι} {t : SessionState} :
    (onRead i r g t).1 = g ∨ (onRead i r g t).1 = { g with locks := g.locks.release i } := by
  unfold onRead
  split
  · split_ifs
    · exact Or.inr rfl
    · exact Or.inr rfl
    · exact Or.inl rfl
  · exact Or.inl rfl

theorem onLock_shared {i : ι} {r : Request} {g : Shared ι} {t : SessionState} :
    (onLock i r g t).1 = g ∨ (onLock i r g t).1 = { g with locks := g.locks.release i } := by
  unfold onLock
  split
  · split_ifs
    · exact Or.inl rfl
    · exact Or.inr rfl
  · exact Or.inl rfl

/-- A step leaves the others their locks, and only a commit changes the row. -/
theorem step_shared {i : ι} {g g' : Shared ι} {t t' : SessionState} {e : Event}
    (hs : step requests i g t e = some (g', t')) :
    (∀ j, j ≠ i → g.locks () = some j → g'.locks () = some j) ∧
      (g'.product = g.product ∨
        e = .statement ∧ t.phase = .commit ∧ g'.product = (requests i).written t.copy g.product) := by
  have hrelease : ∀ (l : Locks Unit ι) j, j ≠ i → l () = some j → l.release i () = some j :=
    fun l j hj hl => (Locks.release_other hj ()).mpr hl
  cases e with
  | rollback =>
    have hstop : (g', t') = stop i g t .rolledBack := by
      simp only [step] at hs
      split at hs <;> simp_all
    obtain ⟨rfl, rfl⟩ := Prod.mk.inj hstop
    exact ⟨hrelease g.locks, Or.inl rfl⟩
  | statement =>
    cases hp : t.phase with
    | read =>
      simp only [step, hp, Option.some.injEq] at hs
      have hshared := onRead_shared (i := i) (r := requests i) (g := g) (t := t)
      rw [hs] at hshared
      rcases hshared with rfl | rfl
      · exact ⟨fun _ _ hl => hl, Or.inl rfl⟩
      · exact ⟨hrelease g.locks, Or.inl rfl⟩
    | readAgain =>
      simp only [step, hp, Option.some.injEq, Prod.mk.injEq] at hs
      obtain ⟨rfl, rfl⟩ := hs
      exact ⟨fun _ _ hl => hl, Or.inl rfl⟩
    | update =>
      simp only [step, hp] at hs
      split_ifs at hs with ha
      · obtain ⟨rfl, rfl⟩ := Prod.mk.inj (Option.some.inj hs)
        exact ⟨fun _ _ hl => hl, Or.inl rfl⟩
      · obtain ⟨locks, hl, hs⟩ := Option.map_eq_some_iff.mp hs
        obtain ⟨rfl, rfl⟩ := Prod.mk.inj hs
        exact ⟨fun j hj => (Locks.acquire_other hl hj ()).mpr, Or.inl rfl⟩
    | refresh =>
      simp only [step, hp] at hs
      split at hs <;> obtain ⟨rfl, rfl⟩ := Prod.mk.inj (Option.some.inj hs)
      · exact ⟨fun _ _ hl => hl, Or.inl rfl⟩
      · exact ⟨fun _ _ hl => hl, Or.inl rfl⟩
    | audit =>
      simp only [step, hp, Option.some.injEq, Prod.mk.injEq] at hs
      obtain ⟨rfl, rfl⟩ := hs
      exact ⟨fun _ _ hl => hl, Or.inl rfl⟩
    | lock =>
      simp only [step, hp, Option.map_eq_some_iff] at hs
      obtain ⟨locks, hl, hs⟩ := hs
      have hshared := onLock_shared (i := i) (r := requests i) (g := { g with locks := locks }) (t := t)
      rw [hs] at hshared
      have hacquire : ∀ j, j ≠ i → g.locks () = some j → locks () = some j :=
        fun j hj => (Locks.acquire_other hl hj ()).mpr
      rcases hshared with rfl | rfl
      · exact ⟨hacquire, Or.inl rfl⟩
      · exact ⟨fun j hj hj' => hrelease locks j hj (hacquire j hj hj'), Or.inl rfl⟩
    | write =>
      simp only [step, hp, Option.some.injEq, Prod.mk.injEq] at hs
      obtain ⟨rfl, rfl⟩ := hs
      exact ⟨fun _ _ hl => hl, Or.inl rfl⟩
    | commit =>
      simp only [step, hp, Option.some.injEq, Prod.mk.injEq] at hs
      obtain ⟨rfl, rfl⟩ := hs
      exact ⟨hrelease g.locks, Or.inr ⟨rfl, rfl, rfl⟩⟩
    | committed => simp [step, hp] at hs
    | stale => simp [step, hp] at hs
    | rolledBack => simp [step, hp] at hs

/-- While a confirmation stands in its window no other stock is committed, and behind its
write it holds the lock that a commit needs. -/
theorem other_step {c : Threads ι (Shared ι) SessionState} {i j : ι} {e : Event}
    {g' : Shared ι} {t' : SessionState} (hc : Inv requests c)
    (hguard : NoCommitInWindow requests c (i, e)) (hj : j ≠ i)
    (hs : step requests i c.shared (c.thread i) e = some (g', t')) :
    SessionInv requests j g' (c.thread j) := by
  have h := hc.thread j
  obtain ⟨hlocks, hproduct⟩ := step_shared hs
  refine ⟨h.program, h.order, h.unwritten, fun hp => hlocks j hj (h.holds hp), h.unsent,
    fun data hdata hp => ?_, h.approved, fun data hdata hp hsent => ?_, h.passed⟩
  · rcases hproduct with hsame | ⟨rfl, hcommit, hwritten⟩
    · rw [hsame]
      exact h.window data hdata hp
    · by_cases hstock : ((requests i).written (c.thread i).copy c.shared.product).stockQuantity =
          c.shared.product.stockQuantity
      · rw [hwritten, hstock]
        exact h.window data hdata hp
      · have hedits : (requests j).editsStock = true := by
          rw [hdata.1]
          exact decide_eq_true hdata.2
        have hno := hguard rfl hcommit hstock j hedits
        exact absurd (hno.symm.trans hp) (by decide)
  · rcases hproduct with hsame | ⟨rfl, hcommit, hwritten⟩
    · rw [hsame]
      exact h.current data hdata hp hsent
    · have hflushed : (c.thread i).phase.flushed = true := by rw [hcommit]; rfl
      cases hsenti : (c.thread i).sent with
      | true =>
        -- both hold the row lock
        have hi := (hc.thread i).holds (Or.inr ⟨hflushed, hsenti⟩)
        rw [h.holds (Or.inr ⟨hp, hsent⟩)] at hi
        exact absurd (Option.some.inj hi) hj
      | false =>
        rw [hwritten, (hc.thread i).unsent hflushed hsenti]
        exact h.current data hdata hp hsent

omit [DecidableEq ι] in
theorem inv_init (requests : ι → Request) (product : Product) :
    Inv requests (init requests product) where
  shared := trivial
  thread := fun i => by
    have hfirst : (requests i).firstPhase = .read ∨ (requests i).firstPhase = .lock := by
      cases requests i <;> simp [Request.firstPhase]
    refine sessionInv_unwritten ⟨rfl, rfl⟩ ?_ ?_ (fun hp => ?_) (fun hp => ?_) (fun hp => ?_)
      fun _ _ hp => ?_
    · rcases hfirst with hf | hf <;> simp only [init, hf] <;> rfl
    · rcases hfirst with hf | hf <;> simp [init, hf]
    · rcases hfirst with hf | hf
      · exact hf
      · simp [init, hf] at hp
    · rcases hfirst with hf | hf
      · simp [init, hf] at hp
      · exact hf
    · rcases hfirst with hf | hf <;> simp [init, hf] at hp
    · rcases hfirst with hf | hf <;> simp [init, hf, Phase.inWindow] at hp

/-- However the statements of one confirmed stock edit, and of any number of orders,
cancellations and other edits, are interleaved: as long as no other stock is committed between
its check and its `UPDATE`, the confirmation writes only over the stock that was approved. -/
theorem stock_edit_approved {product : Product} {es : List (ι × Event)}
    {c : Threads ι (Shared ι) SessionState}
    (hrun : exec (interleave (step requests)) (init requests product) es = some c)
    (hguard : Guarded (interleave (step requests)) (NoCommitInWindow requests)
      (init requests product) es)
    {i : ι} {data : Pending} (hi : requests i = .confirm data)
    (haction : data.instruction.action = .updateStock) :
    WritesApproved data c.shared (c.thread i) := by
  have hstep : ∀ (c : Threads ι (Shared ι) SessionState) (e : ι × Event) c', Inv requests c →
      NoCommitInWindow requests c e → interleave (step requests) c e = some c' →
      Inv requests c' :=
    threadInv_step (fun hc _ hs => ⟨trivial, own_step hc hs⟩) fun hc hg => other_step hc hg
  have hinv : Inv requests c := Guarded.invariant hstep (inv_init requests product) hguard hrun
  have h := hinv.thread i
  exact ⟨h.approved data ⟨hi, haction⟩, h.current data ⟨hi, haction⟩,
    fun hp => (h.unwritten (by rw [hp]; rfl)).1,
    fun hp => h.passed data ⟨hi, haction⟩ (Or.inr hp)⟩

end Invariant

/-- Fifteen cylinders in stock. -/
def fifteenInStock : Product :=
  ⟨1, "GAS-ELF-12", "Gas Elf 12kg", "Elf", 12, .gas, "kg", 445000, none, 15, true⟩

/-- The admin has approved a change of the stock from 15 to 20. -/
def fifteenToTwenty : Pending where
  adminId := 7
  productId := 1
  instruction := { action := .updateStock, stockValue := some 20 }
  beforeSnapshot := .stockQuantity 15

/-- The admin confirms while a customer orders two cylinders. -/
def confirmAndOrder (i : Fin 2) : Request :=
  if i = 0 then .confirm fifteenToTwenty else .createOrder 2

instance {ι : Type*} [Fintype ι] (requests : ι → Request)
    (c : Threads ι (Shared ι) SessionState) (e : ι × Event) :
    Decidable (NoCommitInWindow requests c e) := by
  unfold NoCommitInWindow; infer_instance

/-- The confirmation runs to its commit before the order locks the row. -/
def confirmFirst : List (Fin 2 × Event) :=
  List.replicate 6 (0, .statement) ++ List.replicate 3 (1, .statement)

theorem stock_edit_approved_confirmFirst :
    ∃ c, exec (interleave (step confirmAndOrder)) (init confirmAndOrder fifteenInStock)
        confirmFirst = some c ∧
      c.shared.product.stockQuantity = 18 ∧ WritesApproved fifteenToTwenty c.shared (c.thread 0) := by
  have hrun : (exec (interleave (step confirmAndOrder)) (init confirmAndOrder fifteenInStock)
      confirmFirst).map (fun c => c.shared.product.stockQuantity) = some 18 := by decide +kernel
  obtain ⟨c, hc, hstock⟩ := Option.map_eq_some_iff.mp hrun
  exact ⟨c, hc, hstock, stock_edit_approved hc (by decide +kernel) rfl rfl⟩

/-- The order commits between the check and the `UPDATE` of the confirmation. -/
def orderInWindow : List (Fin 2 × Event) :=
  List.replicate 2 (0, .statement) ++ List.replicate 3 (1, .statement) ++
    List.replicate 4 (0, .statement)

/-- The confirmation overwrites the sale: the stock was 13, not 15, at its write. -/
theorem sale_overwritten :
    ¬ ∀ (es : List (Fin 2 × Event)) (c : Threads (Fin 2) (Shared (Fin 2)) SessionState),
      exec (interleave (step confirmAndOrder)) (init confirmAndOrder fifteenInStock) es = some c →
      WritesApproved fifteenToTwenty c.shared (c.thread 0) := by
  intro h
  have hrun : (exec (interleave (step confirmAndOrder)) (init confirmAndOrder fifteenInStock)
      orderInWindow).map (fun c => ((c.thread 0).atWrite, c.shared.product.stockQuantity)) =
      some (some 13, 20) := by decide +kernel
  obtain ⟨c, hc, hwrite⟩ := Option.map_eq_some_iff.mp hrun
  have happroved := (h _ c hc).approved 13 (Prod.mk.inj hwrite).1
  cases happroved

end Qiki.Concurrency.StockEdit
