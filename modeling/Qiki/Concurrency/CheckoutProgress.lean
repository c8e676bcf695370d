import Qiki.Concurrency.Checkout
import Qiki.Transition.LockOrder
import Qiki.Orders.StockLedger

/-! Concurrent checkouts always end: where they can block each other, and how long they run. -/
namespace Qiki.Concurrency.Checkout

open Orders Transition

/-- The order in which a checkout takes its locks: product rows, the coupon row, the number
key, the idempotency key. -/
def Resource.stage : Resource → ℕ
  | .product _ => 1
  | .coupon _ => 2
  | .numbers _ => 3
  | .key _ => 4

/-- The highest stage of what a request can have locked at a statement. -/
def Phase.stage : Phase → ℕ
  | .setIsolation | .findKey | .committed _ | .failed _ => 0
  | .lockProducts _ | .priceItems | .lockCoupon => 1
  | .countRedemptions _ | .lockStock .. | .writeStock .. | .lockNumbers => 2
  | .readNumber _ | .insertOrder _ => 3
  | .insertItems _ | .updateCoupon _ | .insertRedemption _ | .commit _ => 4

/-- The lines that are still to be taken from stock. -/
def Phase.openLines : Phase → List (Uuid × ℕ)
  | .lockStock line rest | .writeStock line rest => line :: rest
  | _ => []

/-- The products whose rows `get_many_for_update` has still to lock, of all in this order. -/
def Phase.rowsLeft (order : List Uuid) : Phase → List Uuid
  | .setIsolation | .findKey => order
  | .lockProducts todo => todo
  | _ => []

/-- The statements of an attempt from this one on, at most. -/
def Phase.statements (call : Call) : Phase → ℕ
  | .setIsolation => call.productIds.length + 2 * call.lines.length + 13
  | .findKey => call.productIds.length + 2 * call.lines.length + 12
  | .lockProducts todo => todo.length + 2 * call.lines.length + 11
  | .priceItems => 2 * call.lines.length + 10
  | .lockCoupon => 2 * call.lines.length + 9
  | .countRedemptions _ => 2 * call.lines.length + 8
  | .lockStock _ rest => 2 * rest.length + 9
  | .writeStock _ rest => 2 * rest.length + 8
  | .lockNumbers => 7
  | .readNumber _ => 6
  | .insertOrder _ => 5
  | .insertItems _ => 4
  | .updateCoupon _ => 3
  | .insertRedemption _ => 2
  | .commit _ => 1
  | .committed _ | .failed _ => 0

/-- The statements of one attempt, at most. -/
def Call.attemptStatements (call : Call) : ℕ :=
  call.productIds.length + 2 * call.lines.length + 13

/-- The events of a request from here on, at most. -/
def Txn.events (call : Call) (t : Txn) : ℕ :=
  t.phase.statements call + (2 - t.attempt) * call.attemptStatements

/-- What holds of a request between its statements: the locks it can have, the product rows
that it has locked for sure, and what its statement needs in order to be sent. -/
structure Steady {ι : Type*} (call : Call) (i : ι) (g : Shared ι) (t : Txn) : Prop where
  stage : ∀ r, g.locks r = some i → r.stage ≤ t.phase.stage
  rows : ∃ done, call.rowOrder t.attempt = done ++ t.phase.rowsLeft (call.rowOrder t.attempt) ∧
    ∀ p, g.locks (.product p) = some i → p ∈ done
  locked : ∀ s, t.snapshot = some s → 0 < t.phase.stage → t.phase.stage < 3 →
    ∀ p ∈ call.productIds, p ∉ t.phase.rowsLeft (call.rowOrder t.attempt) →
      (Table.find Product.id p s.store.products).isSome → g.locks (.product p) = some i
  lines : ∀ line ∈ t.phase.openLines, line ∈ call.lines
  snapshot : 0 < t.phase.stage → t.snapshot ≠ none
  coupon : ∀ o, t.phase = .updateCoupon o ∨ t.phase = .insertRedemption o → t.coupon ≠ none

/-- What an event of a request achieves: it keeps the facts above and uses up an event. -/
structure Moves {ι : Type*} (call : Call) (i : ι) (t : Txn) (r : Shared ι × Txn) : Prop where
  steady : Steady call i r.1 r.2
  events : r.2.events call < t.events call

section Events
variable {ι : Type*} {call : Call} {i : ι} {g g' : Shared ι} {t t' : Txn}

theorem events_next (ha : t'.attempt = t.attempt)
    (h : t'.phase.statements call < t.phase.statements call) :
    t'.events call < t.events call := by
  unfold Txn.events
  rw [ha]
  omega

/-- A transaction that has released everything. -/
theorem Steady.ended (hfree : ∀ r, g.locks r ≠ some i)
    (hphase : t.phase = .setIsolation ∨ (∃ o, t.phase = .committed o) ∨ ∃ e, t.phase = .failed e) :
    Steady call i g t := by
  have hstage : t.phase.stage = 0 := by
    rcases hphase with hp | ⟨o, hp⟩ | ⟨e, hp⟩ <;> rw [hp] <;> rfl
  have hlines : t.phase.openLines = [] := by
    rcases hphase with hp | ⟨o, hp⟩ | ⟨e, hp⟩ <;> rw [hp] <;> rfl
  refine ⟨fun r hr => absurd hr (hfree r), ?_, fun s _ hpos => ?_, fun line hl => ?_,
    fun hpos => ?_, fun o ho => ?_⟩
  · rcases hphase with hp | ⟨o, hp⟩ | ⟨e, hp⟩ <;> rw [hp]
    · exact ⟨[], rfl, fun p hl => absurd hl (hfree _)⟩
    · exact ⟨call.rowOrder t.attempt, (List.append_nil _).symm, fun p hl => absurd hl (hfree _)⟩
    · exact ⟨call.rowOrder t.attempt, (List.append_nil _).symm, fun p hl => absurd hl (hfree _)⟩
  · rw [hstage] at hpos
    exact absurd hpos (lt_irrefl 0)
  · rw [hlines] at hl
    cases hl
  · rw [hstage] at hpos
    exact absurd hpos (lt_irrefl 0)
  · rcases hphase with hp | ⟨o', hp⟩ | ⟨e, hp⟩ <;> rcases ho with ho | ho <;> rw [hp] at ho <;>
      cases ho

theorem Resource.stage_pos (r : Resource) : 0 < r.stage := by
  cases r <;> exact Nat.succ_pos _

/-- A session that holds a lock has not ended. -/
theorem Steady.active (h : Steady call i g t) {r : Resource} (hr : g.locks r = some i) :
    t.active := by
  have hpos : 0 < t.phase.stage := r.stage_pos.trans_le (h.stage r hr)
  cases hp : t.phase with
  | committed o => rw [hp] at hpos; exact absurd hpos (lt_irrefl 0)
  | failed e => rw [hp] at hpos; exact absurd hpos (lt_irrefl 0)
  | _ => rw [Txn.active, hp]

theorem Steady.free (h : Steady call i g t) (hstage : t.phase.stage = 0) (r : Resource) :
    g.locks r ≠ some i := by
  intro hr
  have hle := h.stage r hr
  rw [hstage] at hle
  exact absurd r.stage_pos (Nat.not_lt.mpr hle)

/-- The statements of the price, coupon, stock and order part: no row of
`get_many_for_update` is left, and the locks only grow. -/
theorem Steady.moves (h : Steady call i g t) (hpos : 0 < t.phase.stage)
    (hkeep : ∀ r, g.locks r = some i → g'.locks r = some i)
    (hnew : ∀ r, g'.locks r = some i → g.locks r = some i ∨
      r.stage ≤ t'.phase.stage ∧ ∀ p, r = .product p → p ∈ call.productIds)
    (ha : t'.attempt = t.attempt) (hs : t'.snapshot = t.snapshot)
    (hstage : t.phase.stage ≤ t'.phase.stage)
    (hrows : t.phase.rowsLeft (call.rowOrder t.attempt) = [])
    (hrows' : t'.phase.rowsLeft (call.rowOrder t.attempt) = [])
    (hlines : ∀ line ∈ t'.phase.openLines, line ∈ call.lines)
    (hcoupon : ∀ o, t'.phase = .updateCoupon o ∨ t'.phase = .insertRedemption o → t'.coupon ≠ none)
    (hlt : t'.phase.statements call < t.phase.statements call) : Moves call i t (g', t') := by
  obtain ⟨done, hdone, hheld⟩ := h.rows
  rw [hrows, List.append_nil] at hdone
  rw [← ha] at hrows'
  refine ⟨⟨fun r hr => ?_, ⟨done, ?_, fun p hl => ?_⟩,
    fun s hsn _ hlate p hp _ hsome => ?_, hlines, fun _ => ?_, hcoupon⟩, events_next ha hlt⟩
  · rcases hnew r hr with hold | ⟨hle, -⟩
    · exact (h.stage r hold).trans hstage
    · exact hle
  · rw [hrows', List.append_nil]
    exact ha ▸ hdone
  · rcases hnew _ hl with hold | ⟨-, hmem⟩
    · exact hheld p hold
    · exact hdone ▸ (call.mem_rowOrder t.attempt).mpr (hmem p rfl)
  · refine hkeep _ (h.locked s (hs ▸ hsn) hpos (hstage.trans_lt hlate) p hp ?_ hsome)
    rw [hrows]
    exact List.not_mem_nil
  · rw [hs]
    exact h.snapshot hpos

variable [DecidableEq ι]

theorem moves_raise (e : Exn) (hpos : 0 < t.phase.statements call) :
    Moves call i t (raise i e g t) := by
  unfold raise
  split_ifs with hretry
  · refine ⟨Steady.ended (fun r => Locks.release_self r) (Or.inl rfl), ?_⟩
    have hattempt : t.attempt < 2 := hretry.2
    have hleft : 2 - t.attempt = (2 - (t.attempt + 1)) + 1 := by omega
    show call.attemptStatements + (2 - (t.attempt + 1)) * call.attemptStatements <
      t.phase.statements call + (2 - t.attempt) * call.attemptStatements
    rw [hleft, Nat.succ_mul]
    omega
  · refine ⟨Steady.ended (fun r => Locks.release_self r) (Or.inr (Or.inr ⟨e, rfl⟩)), ?_⟩
    exact events_next rfl hpos

omit [DecidableEq ι] in
/-- Without a new lock. -/
theorem Steady.moves_same (h : Steady call i g t) (hpos : 0 < t.phase.stage)
    (ha : t'.attempt = t.attempt) (hs : t'.snapshot = t.snapshot)
    (hstage : t.phase.stage ≤ t'.phase.stage)
    (hrows : t.phase.rowsLeft (call.rowOrder t.attempt) = [])
    (hrows' : t'.phase.rowsLeft (call.rowOrder t.attempt) = [])
    (hlines : ∀ line ∈ t'.phase.openLines, line ∈ call.lines)
    (hcoupon : ∀ o, t'.phase = .updateCoupon o ∨ t'.phase = .insertRedemption o → t'.coupon ≠ none)
    (hlt : t'.phase.statements call < t.phase.statements call) : Moves call i t (g, t') :=
  h.moves hpos (fun _ hr => hr) (fun _ hr => Or.inl hr) ha hs hstage hrows hrows' hlines hcoupon hlt

/-- With the lock of `r`. -/
theorem Steady.moves_locked (h : Steady call i g t) {r : Resource} {locks : Locks Resource ι}
    (hl : g.locks.acquire r i = some locks) (hpos : 0 < t.phase.stage)
    (hr : r.stage ≤ t'.phase.stage) (hp : ∀ p, r = .product p → p ∈ call.productIds)
    (ha : t'.attempt = t.attempt) (hs : t'.snapshot = t.snapshot)
    (hstage : t.phase.stage ≤ t'.phase.stage)
    (hrows : t.phase.rowsLeft (call.rowOrder t.attempt) = [])
    (hrows' : t'.phase.rowsLeft (call.rowOrder t.attempt) = [])
    (hlines : ∀ line ∈ t'.phase.openLines, line ∈ call.lines)
    (hcoupon : ∀ o, t'.phase = .updateCoupon o ∨ t'.phase = .insertRedemption o → t'.coupon ≠ none)
    (hlt : t'.phase.statements call < t.phase.statements call) :
    Moves call i t ({ g with locks := locks }, t') := by
  refine h.moves hpos (fun r' hr' => Locks.acquire_own hl hr') (fun r' hr' => ?_) ha hs hstage hrows
    hrows' hlines hcoupon hlt
  rcases (Locks.acquire_own_iff hl).mp hr' with rfl | hold
  · exact Or.inr ⟨hr, hp⟩
  · exact Or.inl hold

end Events

/-- The lock that a statement waits for while another transaction has it. -/
def Phase.Wants : Phase → Resource → Prop
  | .lockProducts (p :: _), .product q => q = p
  | .lockCoupon, .coupon _ => True
  | .lockNumbers, .numbers _ => True
  | .insertOrder _, .key _ => True
  | _, _ => False

/-- Another session has the lock. -/
def Shared.Taken {ι : Type*} (g : Shared ι) (i : ι) (r : Resource) : Prop :=
  ∃ j, j ≠ i ∧ g.locks r = some j

/-- A statement is answered, or it waits for a lock of another session. -/
def Answered {ι : Type*} (call : Call) (i : ι) (g : Shared ι) (t : Txn)
    (answer : Option (Shared ι × Txn)) : Prop :=
  (∃ r, answer = some r ∧ Moves call i t r) ∨
    answer = none ∧ ∃ r, t.phase.Wants r ∧ g.Taken i r

section Statements
variable {ι : Type*} [DecidableEq ι] {call : Call} {i : ι} {g : Shared ι} {t : Txn} {s : Tables}
  {clock : Clock} {fresh : Uuid}

theorem acquire_or_taken (g : Shared ι) (i : ι) (r : Resource) :
    (∃ locks, g.locks.acquire r i = some locks) ∨ g.locks.acquire r i = none ∧ g.Taken i r := by
  cases h : g.locks.acquire r i with
  | some locks => exact Or.inl ⟨locks, rfl⟩
  | none =>
    refine Or.inr ⟨rfl, ?_⟩
    unfold Locks.acquire at h
    split_ifs at h with hfree
    rw [not_or] at hfree
    obtain ⟨j, hj⟩ := Option.ne_none_iff_exists'.mp hfree.1
    exact ⟨j, fun he => hfree.2 (he ▸ hj), hj⟩

theorem answered_acquire {r : Resource} {next : Locks Resource ι → Shared ι × Txn}
    (hwants : t.phase.Wants r)
    (hnext : ∀ locks, g.locks.acquire r i = some locks → Moves call i t (next locks)) :
    Answered call i g t ((g.locks.acquire r i).map next) := by
  rcases acquire_or_taken g i r with ⟨locks, hl⟩ | ⟨hl, htaken⟩
  · exact Or.inl ⟨next locks, by rw [hl]; rfl, hnext locks hl⟩
  · exact Or.inr ⟨by rw [hl]; rfl, r, hwants, htaken⟩

theorem answered_lockRow {r : Resource} {seen current : ℕ} {next : Shared ι → Shared ι × Txn}
    (hpos : 0 < t.phase.statements call) (hwants : t.phase.Wants r)
    (hnext : ∀ locks, g.locks.acquire r i = some locks →
      Moves call i t (next { g with locks := locks })) :
    Answered call i g t (lockRow i r seen current g t next) := by
  refine answered_acquire hwants fun locks hl => ?_
  by_cases hv : seen = current
  · rw [if_pos hv]
    exact hnext locks hl
  · rw [if_neg hv]
    exact moves_raise _ hpos

/-- A row that the session has locked already. -/
theorem answered_lockRow_own {r : Resource} {seen current : ℕ} {next : Shared ι → Shared ι × Txn}
    (hpos : 0 < t.phase.statements call) (hown : g.locks r = some i)
    (hnext : ∀ locks, g.locks.acquire r i = some locks →
      Moves call i t (next { g with locks := locks })) :
    Answered call i g t (lockRow i r seen current g t next) := by
  rcases acquire_or_taken g i r with ⟨locks, hl⟩ | ⟨hl, j, hj, htaken⟩
  · refine Or.inl ?_
    unfold lockRow
    rw [hl]
    by_cases hv : seen = current
    · exact ⟨_, by rw [Option.map_some, if_pos hv], hnext locks hl⟩
    · exact ⟨_, by rw [Option.map_some, if_neg hv], moves_raise _ hpos⟩
  · rw [hown] at htaken
    exact absurd (Option.some.inj htaken).symm hj

/-- Writes keep the keys of the product table. -/
theorem find_foldl_isSome (p : Uuid) (ws : List Write) (s : Store) :
    (Table.find Product.id p (ws.foldl Write.apply s).products).isSome =
      (Table.find Product.id p s.products).isSome := by
  induction ws generalizing s with
  | nil => rfl
  | cons w ws ih =>
    rw [List.foldl_cons, ih]
    cases w with
    | stock q v =>
      have hkey : ∀ r : Product, ({ r with stockQuantity := v } : Product).id = r.id := fun _ => rfl
      by_cases hq : p = q
      · subst hq
        exact (congrArg _ (Table.find_modify_self hkey)).trans Option.isSome_map
      · exact congrArg _ (Table.find_modify_ne hkey hq)
    | order o => rfl
    | coupon c n => rfl
    | redemption r => rfl

theorem line_mem_productIds {line : Uuid × ℕ} (h : line ∈ call.lines) :
    line.1 ∈ call.productIds := by
  have hmem : line.1 ∈ call.lines.map Prod.fst := List.mem_map_of_mem h
  rwa [Call.lines, mem_requestedByProduct, ← List.mem_dedup] at hmem

theorem answered_lockProducts {todo : List Uuid} (h : Steady call i g t)
    (hs : t.snapshot = some s) (hp : t.phase = .lockProducts todo) :
    Answered call i g t (statement call i clock fresh s g t) := by
  have hpos : 0 < t.phase.stage := by rw [hp]; exact Nat.one_pos
  have hleft : 0 < t.phase.statements call := by rw [hp]; exact Nat.succ_pos _
  have hlate : t.phase.stage < 3 := by rw [hp]; exact Nat.lt_of_sub_eq_succ rfl
  obtain ⟨done, hdone, hheld⟩ := h.rows
  have hlocked := h.locked s hs hpos hlate
  rw [hp] at hdone hlocked
  cases todo with
  | nil =>
    have hst : statement call i clock fresh s g t = some (g, { t with phase := .priceItems }) := by
      simp only [statement, hp]
    refine Or.inl ⟨_, hst, h.moves_same hpos rfl rfl (by rw [hp]; exact le_rfl) (by rw [hp]; rfl) rfl
      (fun l hl => by cases hl) (fun o ho => by rcases ho with ho | ho <;> cases ho) ?_⟩
    rw [hp]
    simp only [Phase.statements, List.length_nil]
    omega
  | cons p rest =>
    have hmove : ∀ g' : Shared ι, (∀ r, g.locks r = some i → g'.locks r = some i) →
        (∀ r, g'.locks r = some i → r = .product p ∨ g.locks r = some i) →
        ((Table.find Product.id p s.store.products).isSome → g'.locks (.product p) = some i) →
        Moves call i t (g', { t with phase := .lockProducts rest }) := by
      intro g' hkeep hnew hrow
      refine ⟨⟨fun r hr => ?_, ⟨done ++ [p], ?_, fun q hq => ?_⟩, fun s' hs' _ _ q hq hrest hsome => ?_,
        fun l hl => (by cases hl), fun _ => h.snapshot hpos,
        fun o ho => (by rcases ho with ho | ho <;> cases ho)⟩, ?_⟩
      · rcases hnew r hr with rfl | hold
        · exact le_rfl
        · have hle := h.stage r hold
          rw [hp] at hle
          exact hle
      · rw [hdone]
        simp [Phase.rowsLeft]
      · rcases hnew _ hq with he | hold
        · cases he
          simp
        · exact List.mem_append_left _ (hheld q hold)
      · obtain rfl : s = s' := Option.some.inj (hs.symm.trans hs')
        by_cases hqp : q = p
        · subst hqp
          exact hrow hsome
        · exact hkeep _ (hlocked q hq (fun hmem => (List.mem_cons.mp hmem).elim hqp hrest) hsome)
      · refine events_next rfl ?_
        rw [hp]
        simp only [Phase.statements, List.length_cons]
        omega
    simp only [statement, hp]
    cases hf : Table.find Product.id p s.store.products with
    | none =>
      exact Or.inl ⟨_, rfl, hmove g (fun _ hr => hr) (fun _ hr => Or.inr hr)
        fun hsome => by rw [hf] at hsome; cases hsome⟩
    | some row =>
      refine answered_lockRow hleft (by rw [hp]; rfl) fun locks hl => ?_
      exact hmove _ (fun r hr => Locks.acquire_own hl hr)
        (fun r hr => (Locks.acquire_own_iff hl).mp hr) fun _ => Locks.acquire_self hl

omit [DecidableEq ι] in
/-- The line at the head is taken from a row that the session has locked. -/
theorem Steady.ownLine (h : Steady call i g t) (hs : t.snapshot = some s) {line : Uuid × ℕ}
    {rest : List (Uuid × ℕ)} (hp : t.phase = .lockStock line rest)
    (hsome : (Table.find Product.id line.1 (t.view s).products).isSome) :
    g.locks (.product line.1) = some i := by
  have hline : line ∈ call.lines := h.lines line (by rw [hp]; exact List.mem_cons_self ..)
  refine h.locked s hs (by rw [hp]; exact Nat.two_pos) (by rw [hp]; exact Nat.lt_succ_self 2) line.1
    (line_mem_productIds hline) (by rw [hp]; exact List.not_mem_nil) ?_
  exact (find_foldl_isSome line.1 t.writes s.store).symm.trans hsome

theorem nextLine_openLines (lines : List (Uuid × ℕ)) : (nextLine lines).openLines = lines := by
  cases lines <;> rfl

theorem nextLine_stage (lines : List (Uuid × ℕ)) : (nextLine lines).stage = 2 := by
  cases lines <;> rfl

theorem nextLine_rowsLeft (order : List Uuid) (lines : List (Uuid × ℕ)) :
    (nextLine lines).rowsLeft order = [] := by
  cases lines <;> rfl

theorem nextLine_statements (lines : List (Uuid × ℕ)) :
    (nextLine lines).statements call = 2 * lines.length + 7 := by
  cases lines with
  | nil => rfl
  | cons line rest =>
    simp only [nextLine, Phase.statements, List.length_cons]
    omega

theorem nextLine_coupon (lines : List (Uuid × ℕ)) (o : Order) :
    ¬(nextLine lines = .updateCoupon o ∨ nextLine lines = .insertRedemption o) := by
  cases lines <;> rintro (h | h) <;> cases h

omit [DecidableEq ι] in
/-- From the coupon part to the stock part. -/
theorem Steady.moves_startDecrement (h : Steady call i g t) (hpos : 0 < t.phase.stage)
    (hstage : t.phase.stage ≤ 2) (hrows : t.phase.rowsLeft (call.rowOrder t.attempt) = [])
    (hlt : 2 * call.lines.length + 7 < t.phase.statements call)
    (coupon : Option (Coupon × Decimal)) :
    Moves call i t (g, startDecrement call t coupon) := by
  refine h.moves_same hpos rfl rfl ?_ hrows (nextLine_rowsLeft _ _) (fun l hl => ?_)
    (fun o ho => absurd ho (nextLine_coupon _ o)) ?_
  · exact hstage.trans_eq (nextLine_stage call.lines).symm
  · exact nextLine_openLines call.lines ▸ hl
  · exact (nextLine_statements call.lines).trans_lt hlt

theorem answered_priceItems (h : Steady call i g t) (hp : t.phase = .priceItems) :
    Answered call i g t (statement call i clock fresh s g t) := by
  have hpos : 0 < t.phase.stage := by rw [hp]; exact Nat.one_pos
  have hleft : 0 < t.phase.statements call := by rw [hp]; exact Nat.succ_pos _
  simp only [statement, hp]
  refine Or.inl ?_
  cases call.price s.store with
  | error e => exact ⟨_, rfl, moves_raise e hleft⟩
  | ok items =>
    cases call.data.couponCode with
    | none =>
      refine ⟨_, rfl, h.moves_startDecrement hpos (by rw [hp]; exact Nat.le_succ 1)
        (by rw [hp]; rfl) ?_ none⟩
      rw [hp]
      simp only [Phase.statements]
      omega
    | some code =>
      by_cases hc : call.coupons = true
      · refine ⟨_, if_pos hc, h.moves_same hpos rfl rfl (by rw [hp]; exact le_rfl) (by rw [hp]; rfl)
          rfl (fun l hl => by cases hl) (fun o ho => by rcases ho with ho | ho <;> cases ho) ?_⟩
        rw [hp]
        exact Nat.lt_succ_self _
      · exact ⟨_, if_neg hc, moves_raise _ hleft⟩

theorem answered_lockCoupon (h : Steady call i g t) (hp : t.phase = .lockCoupon) :
    Answered call i g t (statement call i clock fresh s g t) := by
  have hpos : 0 < t.phase.stage := by rw [hp]; exact Nat.one_pos
  have hleft : 0 < t.phase.statements call := by rw [hp]; exact Nat.succ_pos _
  simp only [statement, hp]
  cases Table.find Coupon.code (call.data.couponCode.getD "") s.store.coupons with
  | none => exact Or.inl ⟨_, rfl, moves_raise _ hleft⟩
  | some coupon =>
    refine answered_lockRow hleft (by rw [hp]; trivial) fun locks hl => ?_
    cases checkEligibility (some coupon) (call.subtotal s.store) clock.now with
    | error e => exact moves_raise e hleft
    | ok c =>
      refine h.moves_locked hl hpos le_rfl (fun p hr => by cases hr) rfl rfl
        (by rw [hp]; exact Nat.le_succ 1) (by rw [hp]; rfl) rfl (fun l hl => by cases hl)
        (fun o ho => by rcases ho with ho | ho <;> cases ho) ?_
      rw [hp]
      exact Nat.lt_succ_self _

theorem answered_countRedemptions {coupon : Coupon} (h : Steady call i g t)
    (hp : t.phase = .countRedemptions coupon) :
    Answered call i g t (statement call i clock fresh s g t) := by
  have hpos : 0 < t.phase.stage := by rw [hp]; exact Nat.two_pos
  have hleft : 0 < t.phase.statements call := by rw [hp]; exact Nat.succ_pos _
  simp only [statement, hp]
  refine Or.inl ?_
  split_ifs
  · exact ⟨_, rfl, moves_raise _ hleft⟩
  · cases checkPerUser coupon (call.user.map (·.id))
        (userRedemptions s.store.redemptions coupon.id) with
    | error e => exact ⟨_, rfl, moves_raise e hleft⟩
    | ok u =>
      refine ⟨_, rfl, h.moves_startDecrement hpos (by rw [hp]; exact le_rfl) (by rw [hp]; rfl) ?_ _⟩
      rw [hp]
      exact Nat.lt_succ_self _

theorem answered_lockStock {line : Uuid × ℕ} {rest : List (Uuid × ℕ)} (h : Steady call i g t)
    (hs : t.snapshot = some s) (hp : t.phase = .lockStock line rest) :
    Answered call i g t (statement call i clock fresh s g t) := by
  have hpos : 0 < t.phase.stage := by rw [hp]; exact Nat.two_pos
  have hleft : 0 < t.phase.statements call := by rw [hp]; exact Nat.succ_pos _
  have hown := h.ownLine hs hp
  have hlines := h.lines
  rw [hp] at hlines
  simp only [statement, hp]
  cases hf : Table.find Product.id line.1 (t.view s).products with
  | none => exact Or.inl ⟨_, rfl, moves_raise _ hleft⟩
  | some product =>
    refine answered_lockRow_own hleft (hown (by rw [hf]; rfl)) fun locks hl => ?_
    split_ifs
    · exact moves_raise _ hleft
    · refine h.moves_locked hl hpos (Nat.le_succ 1) (fun p hr => ?_) rfl rfl
        (by rw [hp]; exact le_rfl) (by rw [hp]; rfl) rfl hlines
        (fun o ho => by rcases ho with ho | ho <;> cases ho) (by rw [hp]; exact Nat.lt_succ_self _)
      cases hr
      exact line_mem_productIds (hlines line (List.mem_cons_self ..))

theorem answered_writeStock {line : Uuid × ℕ} {rest : List (Uuid × ℕ)} (h : Steady call i g t)
    (hp : t.phase = .writeStock line rest) :
    Answered call i g t (statement call i clock fresh s g t) := by
  have hpos : 0 < t.phase.stage := by rw [hp]; exact Nat.two_pos
  have hleft : 0 < t.phase.statements call := by rw [hp]; exact Nat.succ_pos _
  have hlines := h.lines
  rw [hp] at hlines
  simp only [statement, hp]
  refine Or.inl ?_
  cases Table.find Product.id line.1 (t.view s).products with
  | none => exact ⟨_, rfl, moves_raise _ hleft⟩
  | some product =>
    refine ⟨_, rfl, h.moves_same hpos rfl rfl ?_ (by rw [hp]; rfl) (nextLine_rowsLeft _ _)
      (fun l hl => ?_) (fun o ho => absurd ho (nextLine_coupon _ o)) ?_⟩
    · rw [hp]
      exact (nextLine_stage rest).ge
    · have hmem : l ∈ rest := nextLine_openLines rest ▸ hl
      exact hlines l (List.mem_cons_of_mem _ hmem)
    · rw [hp]
      exact (nextLine_statements rest).trans_lt (Nat.lt_succ_self _)

theorem answered_lockNumbers (h : Steady call i g t) (hp : t.phase = .lockNumbers) :
    Answered call i g t (statement call i clock fresh s g t) := by
  have hpos : 0 < t.phase.stage := by rw [hp]; exact Nat.two_pos
  have hleft : 0 < t.phase.statements call := by rw [hp]; exact Nat.succ_pos _
  simp only [statement, hp]
  split_ifs
  · exact Or.inl ⟨_, rfl, moves_raise _ hleft⟩
  · refine answered_acquire (r := .numbers clock.day) (by rw [hp]; trivial) fun locks hl => ?_
    exact h.moves_locked hl hpos le_rfl (fun p hr => by cases hr) rfl rfl
      (by rw [hp]; exact Nat.le_succ 2) (by rw [hp]; rfl) rfl (fun l hl => by cases hl)
      (fun o ho => by rcases ho with ho | ho <;> cases ho) (by rw [hp]; exact Nat.lt_succ_self _)

theorem answered_insertOrder {number : OrderNumber} (h : Steady call i g t)
    (hp : t.phase = .insertOrder number) :
    Answered call i g t (statement call i clock fresh s g t) := by
  have hpos : 0 < t.phase.stage := by rw [hp]; exact Nat.succ_pos _
  have hleft : 0 < t.phase.statements call := by rw [hp]; exact Nat.succ_pos _
  simp only [statement, hp]
  refine answered_acquire (r := .key call.key) (by rw [hp]; trivial) fun locks hl => ?_
  cases insertOrderCheck g.tables.store.orders (call.orderData s.store t.coupon) number with
  | error e => exact moves_raise e hleft
  | ok phone =>
    exact h.moves_locked hl hpos le_rfl (fun p hr => by cases hr) rfl rfl
      (by rw [hp]; exact Nat.le_succ 3) (by rw [hp]; rfl) rfl (fun l hl => by cases hl)
      (fun o ho => by rcases ho with ho | ho <;> cases ho) (by rw [hp]; exact Nat.lt_succ_self _)

theorem answered_insertItems {o : Order} (h : Steady call i g t) (hp : t.phase = .insertItems o) :
    Answered call i g t (statement call i clock fresh s g t) := by
  have hpos : 0 < t.phase.stage := by rw [hp]; exact Nat.succ_pos _
  simp only [statement, hp]
  refine Or.inl ?_
  cases hc : t.coupon with
  | none =>
    exact ⟨_, rfl, h.moves_same hpos rfl rfl (by rw [hp]; exact le_rfl) (by rw [hp]; rfl) rfl
      (fun l hl => by cases hl) (fun o ho => by rcases ho with ho | ho <;> cases ho)
      (by rw [hp]; exact Nat.lt_of_sub_eq_succ rfl)⟩
  | some c =>
    exact ⟨_, rfl, h.moves_same hpos rfl rfl (by rw [hp]; exact le_rfl) (by rw [hp]; rfl) rfl
      (fun l hl => by cases hl) (fun o _ => Option.some_ne_none c)
      (by rw [hp]; exact Nat.lt_succ_self _)⟩

theorem answered_updateCoupon {o : Order} (h : Steady call i g t) (hp : t.phase = .updateCoupon o) :
    Answered call i g t (statement call i clock fresh s g t) := by
  have hpos : 0 < t.phase.stage := by rw [hp]; exact Nat.succ_pos _
  obtain ⟨c, hc⟩ := Option.ne_none_iff_exists'.mp (h.coupon o (Or.inl hp))
  simp only [statement, hp, hc]
  exact Or.inl ⟨_, rfl, h.moves_same hpos rfl rfl (by rw [hp]; exact le_rfl) (by rw [hp]; rfl) rfl
    (fun l hl => by cases hl) (fun o _ => Option.some_ne_none c)
    (by rw [hp]; exact Nat.lt_succ_self _)⟩

theorem answered_insertRedemption {o : Order} (h : Steady call i g t)
    (hp : t.phase = .insertRedemption o) :
    Answered call i g t (statement call i clock fresh s g t) := by
  have hpos : 0 < t.phase.stage := by rw [hp]; exact Nat.succ_pos _
  obtain ⟨c, hc⟩ := Option.ne_none_iff_exists'.mp (h.coupon o (Or.inr hp))
  simp only [statement, hp, hc]
  exact Or.inl ⟨_, rfl, h.moves_same hpos rfl rfl (by rw [hp]; exact le_rfl) (by rw [hp]; rfl) rfl
    (fun l hl => by cases hl) (fun o ho => by rcases ho with ho | ho <;> cases ho)
    (by rw [hp]; exact Nat.lt_succ_self _)⟩

/-- A statement inside an attempt. -/
theorem answered_statement (h : Steady call i g t) (hs : t.snapshot = some s)
    (hpos : 0 < t.phase.stage) : Answered call i g t (statement call i clock fresh s g t) := by
  cases hp : t.phase with
  | setIsolation => rw [hp] at hpos; exact absurd hpos (lt_irrefl 0)
  | findKey => rw [hp] at hpos; exact absurd hpos (lt_irrefl 0)
  | lockProducts todo => exact answered_lockProducts h hs hp
  | priceItems => exact answered_priceItems h hp
  | lockCoupon => exact answered_lockCoupon h hp
  | countRedemptions coupon => exact answered_countRedemptions h hp
  | lockStock line rest => exact answered_lockStock h hs hp
  | writeStock line rest => exact answered_writeStock h hp
  | lockNumbers => exact answered_lockNumbers h hp
  | readNumber day =>
    simp only [statement, hp]
    refine Or.inl ⟨_, rfl, h.moves_same hpos rfl rfl
      (by rw [hp]; exact le_rfl) (by rw [hp]; rfl) rfl (fun l hl => by cases hl)
      (fun o ho => by rcases ho with ho | ho <;> cases ho) (by rw [hp]; exact Nat.lt_succ_self _)⟩
  | insertOrder number => exact answered_insertOrder h hp
  | insertItems o => exact answered_insertItems h hp
  | updateCoupon o => exact answered_updateCoupon h hp
  | insertRedemption o => exact answered_insertRedemption h hp
  | commit o =>
    simp only [statement, hp]
    refine Or.inl ⟨_, rfl, Steady.ended (fun r => Locks.release_self r)
      (Or.inr (Or.inl ⟨o, rfl⟩)), events_next rfl ?_⟩
    rw [hp]
    exact Nat.one_pos
  | committed o => rw [hp] at hpos; exact absurd hpos (lt_irrefl 0)
  | failed e => rw [hp] at hpos; exact absurd hpos (lt_irrefl 0)

end Statements

section Steps
variable {ι : Type*} [DecidableEq ι] {lateIsolation : Bool} {calls : ι → Call} {i : ι}
  {g g' : Shared ι} {t t' : Txn} {clock : Clock} {fresh : Uuid}

theorem answered_setIsolation (h : Steady (calls i) i g t) (hp : t.phase = .setIsolation) :
    Answered (calls i) i g t (step lateIsolation calls i g t (.statement clock fresh)) := by
  have hleft : 0 < t.phase.statements (calls i) := by rw [hp]; exact Nat.succ_pos _
  have hfree : ∀ r, g.locks r ≠ some i := h.free (by rw [hp]; rfl)
  simp only [step, hp]
  refine Or.inl ?_
  split_ifs
  · exact ⟨_, rfl, moves_raise _ hleft⟩
  · refine ⟨_, rfl, ⟨fun r hr => absurd hr (hfree r), ⟨[], rfl, fun p hl => absurd hl (hfree _)⟩,
      fun s _ hpos => absurd hpos (lt_irrefl 0), fun l hl => (by cases hl),
      fun hpos => absurd hpos (lt_irrefl 0), fun o ho => (by rcases ho with ho | ho <;> cases ho)⟩,
      events_next rfl ?_⟩
    rw [hp]
    exact Nat.lt_succ_self _

theorem answered_findKey (h : Steady (calls i) i g t) (hp : t.phase = .findKey) :
    Answered (calls i) i g t (step lateIsolation calls i g t (.statement clock fresh)) := by
  have hfree : ∀ r, g.locks r ≠ some i := h.free (by rw [hp]; rfl)
  simp only [step, hp]
  refine Or.inl ?_
  cases Table.find Order.idempotencyKey (calls i).key g.tables.store.orders with
  | some existing =>
    refine ⟨_, rfl, ⟨fun r hr => absurd hr (hfree r),
      ⟨(calls i).rowOrder t.attempt, (List.append_nil _).symm, fun p hl => absurd hl (hfree _)⟩,
      fun s _ _ hlate => absurd hlate (Nat.not_lt.mpr (Nat.le_succ 3)), fun l hl => (by cases hl),
      fun _ => Option.some_ne_none _, fun o ho => (by rcases ho with ho | ho <;> cases ho)⟩,
      events_next rfl ?_⟩
    rw [hp]
    simp only [Phase.statements]
    omega
  | none =>
    refine ⟨_, rfl, ⟨fun r hr => absurd hr (hfree r), ⟨[], rfl, fun p hl => absurd hl (hfree _)⟩,
      fun s _ _ _ p hp' hmem => absurd (((calls i).mem_rowOrder t.attempt).mpr hp') hmem,
      fun l hl => (by cases hl),
      fun _ => Option.some_ne_none _, fun o ho => (by rcases ho with ho | ho <;> cases ho)⟩,
      events_next rfl ?_⟩
    rw [hp]
    simp only [Phase.statements, (calls i).length_rowOrder t.attempt]
    omega

/-- The next statement of a request that has not ended. -/
theorem answered_step (h : Steady (calls i) i g t) (hactive : t.active) :
    Answered (calls i) i g t (step lateIsolation calls i g t (.statement clock fresh)) := by
  by_cases hpos : 0 < t.phase.stage
  · obtain ⟨s, hs⟩ := Option.ne_none_iff_exists'.mp (h.snapshot hpos)
    have hst : step lateIsolation calls i g t (.statement clock fresh) =
        statement (calls i) i clock fresh s g t := by
      cases hp : t.phase with
      | setIsolation => rw [hp] at hpos; exact absurd hpos (lt_irrefl 0)
      | findKey => rw [hp] at hpos; exact absurd hpos (lt_irrefl 0)
      | _ => simp only [step, hp, hs]
    rw [hst]
    exact answered_statement h hs hpos
  · cases hp : t.phase with
    | setIsolation => exact answered_setIsolation h hp
    | findKey => exact answered_findKey h hp
    | committed o => rw [Txn.active, hp] at hactive; cases hactive
    | failed e => rw [Txn.active, hp] at hactive; cases hactive
    | _ => rw [hp] at hpos; exact absurd (Nat.succ_pos _) hpos

theorem statements_pos (call : Call) (h : t.active) : 0 < t.phase.statements call := by
  cases hp : t.phase with
  | committed o => rw [Txn.active, hp] at h; cases h
  | failed e => rw [Txn.active, hp] at h; cases h
  | _ => exact Nat.succ_pos _

/-- Every event of a request keeps what holds of it and uses up an event. -/
theorem step_moves {e : Event} (h : Steady (calls i) i g t)
    (hs : step lateIsolation calls i g t e = some (g', t')) :
    Moves (calls i) i t (g', t') := by
  have hactive : t.active := by
    cases hp : t.phase with
    | committed o => cases e <;> cases hsn : t.snapshot <;> simp [step, statement, hp, hsn] at hs
    | failed e' => cases e <;> cases hsn : t.snapshot <;> simp [step, statement, hp, hsn] at hs
    | _ => rw [Txn.active, hp]
  have hleft := statements_pos (calls i) hactive
  have hend : ∀ e', Moves (calls i) i t
      ({ g with locks := g.locks.release i }, { t with phase := .failed e' }) := fun e' =>
    ⟨Steady.ended (fun r => Locks.release_self r) (Or.inr (Or.inr ⟨e', rfl⟩)), events_next rfl hleft⟩
  cases e with
  | statement clock fresh =>
    have hanswered : Answered (calls i) i g t
        (step lateIsolation calls i g t (.statement clock fresh)) := answered_step h hactive
    rcases hanswered with ⟨r, hr, hmoves⟩ | ⟨hnone, -⟩
    · obtain rfl : r = (g', t') := Option.some.inj (hr.symm.trans hs)
      exact hmoves
    · rw [hnone] at hs
      cases hs
  | serializationFailure =>
    cases hp : t.phase with
    | commit o => simp only [step, hp] at hs; cases hs; exact hend _
    | committed o => rw [Txn.active, hp] at hactive; cases hactive
    | failed e' => rw [Txn.active, hp] at hactive; cases hactive
    | _ =>
      simp only [step, hp] at hs
      exact Option.some.inj hs ▸ moves_raise _ hleft
  | fault e' =>
    cases hp : t.phase with
    | committed o => rw [Txn.active, hp] at hactive; cases hactive
    | failed e'' => rw [Txn.active, hp] at hactive; cases hactive
    | _ => simp only [step, hp] at hs; cases hs; exact hend _

omit [DecidableEq ι] in
/-- The events of another session. -/
theorem Steady.other {call : Call} {j : ι} (h : Steady call j g t)
    (hs : SharedStep i g g' t') (hj : j ≠ i) : Steady call j g' t := by
  obtain ⟨done, hdone, hheld⟩ := h.rows
  exact ⟨fun r hr => h.stage r ((hs.locks j hj r).mp hr),
    ⟨done, hdone, fun p hp => hheld p ((hs.locks j hj _).mp hp)⟩,
    fun s hsn hpos hlate p hp hmem hsome =>
      (hs.locks j hj _).mpr (h.locked s hsn hpos hlate p hp hmem hsome),
    h.lines, h.snapshot, h.coupon⟩

end Steps

section Runs
variable {ι : Type*} [DecidableEq ι] {lateIsolation : Bool} {calls : ι → Call} {tables : Tables}
  {events : List (ι × Event)} {c : Threads ι (Shared ι) Txn}

/-- The invariant of a run. -/
def AllSteady (calls : ι → Call) (c : Threads ι (Shared ι) Txn) : Prop :=
  ∀ i, Steady (calls i) i c.shared (c.thread i)

omit [DecidableEq ι] in
theorem allSteady_init (calls : ι → Call) (tables : Tables) :
    AllSteady calls (init ι tables) := fun _ =>
  Steady.ended (fun _ hr => by cases hr) (Or.inl rfl)

theorem allSteady_step {e : ι × Event} {c' : Threads ι (Shared ι) Txn} (h : AllSteady calls c)
    (hs : interleave (step lateIsolation calls) c e = some c') : AllSteady calls c' := by
  obtain ⟨i, a⟩ := e
  obtain ⟨s', t', ht, rfl⟩ := interleave_eq_some.mp hs
  intro j
  by_cases hj : j = i
  · subst hj
    show Steady (calls j) j s' (Function.update c.thread j t' j)
    rw [Function.update_self]
    exact (step_moves (h j) ht).steady
  · show Steady (calls j) j s' (Function.update c.thread i t' j)
    rw [Function.update_of_ne hj]
    exact (h j).other (step_shared ht) hj

theorem allSteady_exec
    (hr : exec (interleave (step lateIsolation calls)) (init ι tables) events = some c) :
    AllSteady calls c :=
  invariant_exec (fun _ _ _ h hs => allSteady_step h hs) (allSteady_init calls tables) hr

/-- No session can send its next statement. -/
def Stuck (lateIsolation : Bool) (calls : ι → Call) (c : Threads ι (Shared ι) Txn) (clock : Clock)
    (fresh : Uuid) : Prop :=
  ∀ i, step lateIsolation calls i c.shared (c.thread i) (.statement clock fresh) = none

/-- Another session's lock for which a session waits, and that session. -/
theorem AllSteady.blocked (h : AllSteady calls c) {clock : Clock} {fresh : Uuid}
    (hstuck : Stuck lateIsolation calls c clock fresh) {i : ι} (hi : (c.thread i).active) :
    ∃ r j, (c.thread i).phase.Wants r ∧ j ≠ i ∧ c.shared.locks r = some j ∧
      (c.thread j).active ∧ r.stage ≤ (c.thread j).phase.stage := by
  have hanswered : Answered (calls i) i c.shared (c.thread i)
      (step lateIsolation calls i c.shared (c.thread i) (.statement clock fresh)) :=
    answered_step (h i) hi
  rcases hanswered with ⟨r, hr, -⟩ | ⟨-, r, hw, j, hj, hl⟩
  · rw [hstuck i] at hr
    cases hr
  · exact ⟨r, j, hw, hj, hl, (h j).active hl, (h j).stage r hl⟩

theorem Phase.Wants.stage {phase : Phase} {r : Resource} (h : phase.Wants r) :
    r.stage = phase.stage + 1 ∨ ∃ p rest, phase = .lockProducts (p :: rest) ∧ r = .product p := by
  cases phase with
  | lockProducts todo =>
    cases todo with
    | nil => exact h.elim
    | cons p rest =>
      cases r with
      | product q => exact Or.inr ⟨p, rest, rfl, by rw [show q = p from h]⟩
      | _ => exact h.elim
  | lockCoupon => cases r with
    | coupon id => exact Or.inl rfl
    | _ => exact h.elim
  | lockNumbers => cases r with
    | numbers day => exact Or.inl rfl
    | _ => exact h.elim
  | insertOrder number => cases r with
    | key k => exact Or.inl rfl
    | _ => exact h.elim
  | _ => exact h.elim

theorem Phase.stage_le_four (phase : Phase) : phase.stage ≤ 4 := by
  cases phase <;> exact Nat.le_of_sub_eq_zero rfl

/-- Sessions that have the coupon row or one of the keys are not part of a deadlock. -/
theorem AllSteady.stage_lt_two (h : AllSteady calls c) {clock : Clock} {fresh : Uuid}
    (hstuck : Stuck lateIsolation calls c clock fresh) {i : ι} (hi : (c.thread i).active) :
    (c.thread i).phase.stage < 2 := by
  -- such a session waits for one that stands later: induction on the stages above it
  have hlate : ∀ n j, (c.thread j).active → 2 ≤ (c.thread j).phase.stage →
      4 ≤ (c.thread j).phase.stage + n → False := by
    intro n
    induction n with
    | zero =>
      intro j hj htwo hn
      obtain ⟨r, k, hw, -, -, -, hr⟩ := h.blocked hstuck hj
      have hk := (c.thread k).phase.stage_le_four
      rcases hw.stage with hnext | ⟨p, rest, hp, -⟩
      · omega
      · rw [hp] at htwo
        exact absurd htwo (Nat.not_le.mpr Nat.one_lt_two)
    | succ n ih =>
      intro j hj htwo hn
      obtain ⟨r, k, hw, -, -, hk, hr⟩ := h.blocked hstuck hj
      rcases hw.stage with hnext | ⟨p, rest, hp, -⟩
      · exact ih k hk (by omega) (by omega)
      · rw [hp] at htwo
        exact absurd htwo (Nat.not_le.mpr Nat.one_lt_two)
  by_contra hge
  exact hlate 4 i hi (Nat.not_lt.mp hge) (Nat.le_add_left 4 _)

/-- A request that waits in `get_many_for_update` for the row of `p`, which session `j` has. -/
def WaitsForRow (c : Threads ι (Shared ι) Txn) (i : ι) (p : Uuid) (j : ι) : Prop :=
  (∃ rest, (c.thread i).phase = .lockProducts (p :: rest)) ∧ j ≠ i ∧
    c.shared.locks (.product p) = some j

theorem AllSteady.waitsForRow (h : AllSteady calls c) {clock : Clock} {fresh : Uuid}
    (hstuck : Stuck lateIsolation calls c clock fresh) {i : ι} (hi : (c.thread i).active) :
    ∃ p j, WaitsForRow c i p j ∧ (c.thread j).active := by
  obtain ⟨r, j, hw, hj, hl, hactive, hr⟩ := h.blocked hstuck hi
  rcases hw.stage with hnext | ⟨p, rest, hp, rfl⟩
  · -- only the coupon statement stands at the first stage without being in the query
    have hlt := h.stage_lt_two hstuck hactive
    have hzero : (c.thread i).phase.stage = 0 := by omega
    cases hp : (c.thread i).phase <;> rw [hp] at hw hzero <;> first | exact hw.elim | cases hzero
  · exact ⟨p, j, ⟨⟨rest, hp⟩, hj, hl⟩, hactive⟩

theorem events_le (i : ι)
    (hr : exec (interleave (step lateIsolation calls)) (init ι tables) events = some c) :
    (events.filter fun e => e.1 = i).length ≤ 3 * (calls i).attemptStatements := by
  have hg : Guarded (interleave (step lateIsolation calls)) (fun _ _ => True) (init ι tables)
      events := guarded_of_forall (fun _ _ => trivial) _ events
  have hle := hg.steps_le_measure (fun i t => t.events (calls i))
    (fun _ _ _ h _ hs => allSteady_step h hs) (fun h _ hs => (step_moves (h _) hs).events) i
    (allSteady_init calls tables) hr
  have hstart : ((init ι tables).thread i).events (calls i) = 3 * (calls i).attemptStatements := by
    show (calls i).attemptStatements + 2 * (calls i).attemptStatements = _
    omega
  exact (Nat.le_add_right _ _).trans (hle.trans_eq hstart)

/-- Every request takes at most so many events, whatever the others do. In a state where no
session can go on, each that has not ended waits in `get_many_for_update` for a product row
of another such session: neither the coupon row, nor the number key, nor the unique
idempotency key is ever part of a deadlock. -/
theorem deadlock_only_on_products
    (hr : exec (interleave (step lateIsolation calls)) (init ι tables) events = some c) :
    (∀ i, (events.filter fun e => e.1 = i).length ≤ 3 * (calls i).attemptStatements) ∧
      ∀ clock fresh, Stuck lateIsolation calls c clock fresh → ∀ i, (c.thread i).active →
        ∃ p j, WaitsForRow c i p j ∧ (c.thread j).active :=
  ⟨fun i => events_le i hr, fun _ _ hstuck _ hi => (allSteady_exec hr).waitsForRow hstuck hi⟩

/-- The place of a product row in the common order. -/
def Resource.rank (rowOrder : Uuid → ℕ) : Resource → ℕ
  | .product p => rowOrder p
  | _ => 0

omit [DecidableEq ι] in
/-- What a waiting request has locked comes before the row that it waits for. -/
theorem Steady.rank_lt {call : Call} {i : ι} {g : Shared ι} {t : Txn} (h : Steady call i g t)
    {rowOrder : Uuid → ℕ}
    (horder : (call.rowOrder t.attempt).Pairwise fun p q => rowOrder p < rowOrder q)
    {p : Uuid} {rest : List Uuid} (hp : t.phase = .lockProducts (p :: rest)) {r : Resource}
    (hr : g.locks r = some i) : r.rank rowOrder < rowOrder p := by
  obtain ⟨done, hdone, hheld⟩ := h.rows
  have hle := h.stage r hr
  rw [hp] at hdone hle
  cases r with
  | product q =>
    have hsplit : call.rowOrder t.attempt = done ++ p :: rest := hdone
    rw [hsplit, List.pairwise_append] at horder
    exact horder.2.2 q (hheld q hr) p (List.mem_cons_self ..)
  | coupon id => exact absurd hle (Nat.not_le.mpr Nat.one_lt_two)
  | numbers day => exact absurd hle (Nat.not_le.mpr (Nat.lt_of_sub_eq_succ rfl))
  | key k => exact absurd hle (Nat.not_le.mpr (Nat.lt_of_sub_eq_succ rfl))

/-- When the requests take their product rows in one order, a run that cannot go on has
ended every request. -/
theorem ordered_checkouts_end [Finite ι] {rowOrder : Uuid → ℕ}
    (horder : ∀ i attempt,
      ((calls i).rowOrder attempt).Pairwise fun p q => rowOrder p < rowOrder q)
    (hr : exec (interleave (step lateIsolation calls)) (init ι tables) events = some c)
    {clock : Clock} {fresh : Uuid} (hstuck : Stuck lateIsolation calls c clock fresh) (i : ι) :
    (∃ o, (c.thread i).phase = .committed o) ∨ ∃ e, (c.thread i).phase = .failed e := by
  have hsteady := allSteady_exec hr
  have hrow : ∀ j, ∃ p, (c.thread j).active →
      (∃ rest, (c.thread j).phase = .lockProducts (p :: rest)) ∧
        ∃ k, c.shared.locks (.product p) = some k ∧ (c.thread k).active := by
    intro j
    by_cases hj : (c.thread j).active
    · obtain ⟨p, k, ⟨hp, -, hl⟩, hk⟩ := hsteady.waitsForRow hstuck hj
      exact ⟨p, fun _ => ⟨hp, k, hl, hk⟩⟩
    · exact ⟨0, fun h => absurd h hj⟩
  choose row hrow using hrow
  have hnone : {j | (c.thread j).active = true} = ∅ := by
    refine Locks.not_circular (l := c.shared.locks) (Resource.rank rowOrder)
      (fun j => .product (row j)) (fun j hj => ?_) fun j hj r hheld => ?_
    · obtain ⟨-, k, hl, hk⟩ := hrow j hj
      exact ⟨k, hk, hl⟩
    · obtain ⟨⟨rest, hp⟩, -⟩ := hrow j hj
      exact (hsteady j).rank_lt (horder j _) hp hheld
  have hi : ¬(c.thread i).active = true := fun h => by
    have hmem : i ∈ {j | (c.thread j).active = true} := h
    rw [hnone] at hmem
    exact hmem
  cases hp : (c.thread i).phase with
  | committed o => exact Or.inl ⟨o, rfl⟩
  | failed e => exact Or.inr ⟨e, rfl⟩
  | _ => exact absurd (by rw [Txn.active, hp]) hi

end Runs

/-- A guest's order of two cylinders; the payload lists the larger id first. -/
def pairCheckout : CheckoutRequest where
  items := [⟨2, 1, false⟩, ⟨1, 1, false⟩]
  customerName := "Lan"
  customerPhone := some "0901234567"
  deliveryAddress := "12 Lê Lợi"

def pairCylinder (id : Uuid) : Product where
  id := id
  sku := s!"GAS{id}"
  name := s!"Gas {id}"
  brand := "Petro"
  sizeKg := 12
  category := .gas
  unit := "bình"
  price := 400000
  salePrice := none
  stockQuantity := 10
  isActive := true

def pairTables : Tables where
  store := ⟨[pairCylinder 1, pairCylinder 2], [], [], [], [], [], 100⟩
  productVersion := fun _ => 0
  couponVersion := fun _ => 0

def pairNext (i : Fin 2) : Fin 2 × Event := (i, .statement ⟨0, 20260101⟩ (200 + 10 * i.val))

/-- The rows of the second guest's query come in the other order. -/
def crossedCalls (i : Fin 2) : Call where
  coupons := true
  data := pairCheckout
  user := none
  key := 30 + i.val
  rowOrder := fun _ => if i = 0 then [1, 2] else [2, 1]
  rowOrder_perm := fun _ => by
    revert i
    decide

/-- Both guests lock their first row and wait for the other one's. -/
def crossedRows : List (Fin 2 × Event) :=
  [0, 1, 0, 1, 0, 1].map pairNext

/-- A run in which both sessions wait for ever. -/
theorem deadlock_only_on_products_crossed : ∃ c, exec (interleave (step false crossedCalls))
    (init (Fin 2) pairTables) crossedRows = some c ∧
      Stuck false crossedCalls c ⟨0, 20260101⟩ 200 ∧ (∀ i, (c.thread i).active) ∧
        (∀ i, (crossedRows.filter fun e => e.1 = i).length ≤
          3 * (crossedCalls i).attemptStatements) ∧
        ∀ clock fresh, Stuck false crossedCalls c clock fresh → ∀ i, (c.thread i).active →
          ∃ p j, WaitsForRow c i p j ∧ (c.thread j).active := by
  have hrun : ((exec (interleave (step false crossedCalls)) (init (Fin 2) pairTables)
      crossedRows).map fun c => decide (∀ i, (step false crossedCalls i c.shared (c.thread i)
        (.statement ⟨0, 20260101⟩ 200)).isNone = true ∧ (c.thread i).active = true)) =
          some true := by decide +kernel
  obtain ⟨c, hc, hend⟩ := Option.map_eq_some_iff.mp hrun
  have hend := of_decide_eq_true hend
  exact ⟨c, hc, fun i => Option.isNone_iff_eq_none.mp (hend i).1, fun i => (hend i).2,
    deadlock_only_on_products hc⟩
/-- Both queries go through the index on the ids. -/
def inOrderCalls (i : Fin 2) : Call where
  coupons := true
  data := pairCheckout
  user := none
  key := 30 + i.val
  rowOrder := fun _ => [1, 2]
  rowOrder_perm := fun _ => by decide

/-- Both have their snapshots when the first one locks its rows; the second one waits until
the first has committed, is rolled back, and is served in its second attempt. -/
def inOrderRows : List (Fin 2 × Event) :=
  [0, 1, 0, 1, 0].map pairNext ++ List.replicate 12 (pairNext 0) ++
    List.replicate 16 (pairNext 1)

theorem ordered_checkouts_end_inOrder : ∃ c, exec (interleave (step false inOrderCalls))
    (init (Fin 2) pairTables) inOrderRows = some c ∧
      ((∃ o, (c.thread 1).phase = .committed o) ∨ ∃ e, (c.thread 1).phase = .failed e) := by
  have hrun : ((exec (interleave (step false inOrderCalls)) (init (Fin 2) pairTables)
      inOrderRows).map fun c => decide (∀ i, (step false inOrderCalls i c.shared (c.thread i)
        (.statement ⟨0, 20260101⟩ 200)).isNone = true)) = some true := by decide +kernel
  obtain ⟨c, hc, hstuck⟩ := Option.map_eq_some_iff.mp hrun
  have horder : ∀ i attempt, ((inOrderCalls i).rowOrder attempt).Pairwise fun p q => p < q := by
    intro i attempt
    show [1, 2].Pairwise fun p q => p < q
    decide
  exact ⟨c, hc, ordered_checkouts_end horder hc
    (fun i => Option.isNone_iff_eq_none.mp (of_decide_eq_true hstuck i)) 1⟩

end Qiki.Concurrency.Checkout
