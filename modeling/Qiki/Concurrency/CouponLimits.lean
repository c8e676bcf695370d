import Qiki.Concurrency.Checkout
import Qiki.Orders.StockLedger

/-! Coupon limits under any interleaving of checkouts. -/
namespace Qiki.Concurrency.Checkout

open Orders Transition

/-- The redemptions of one coupon, in the order in which they were committed. -/
def redemptionsOf (s : Store) (couponId : Uuid) : List CouponRedemption :=
  s.redemptions.filter fun r => r.couponId = couponId

/-- How often a user is among the redemptions. -/
def usesBy (rs : List CouponRedemption) (u : Uuid) : ℕ :=
  (rs.filter fun r => r.userId = some u).length

/-- `count_user_redemptions` counts the redemptions of the coupon by the user. -/
theorem usesBy_redemptionsOf (s : Store) (couponId u : Uuid) :
    usesBy (redemptionsOf s couponId) u = userRedemptions s.redemptions couponId u := by
  rw [usesBy, redemptionsOf, userRedemptions, List.filter_filter]
  congr 1
  refine List.filter_congr fun r _ => ?_
  rw [← Bool.decide_and, decide_eq_decide, and_comm]

/-- A history of redemptions under a coupon's limits: each was made while the number of
earlier ones was below `usage_limit` and, under `per_user_limit`, by a signed-in user with
fewer earlier ones than that. -/
inductive Redeemed (usageLimit perUserLimit : Option ℕ) : List CouponRedemption → Prop
  | none : Redeemed usageLimit perUserLimit []
  | redeem {rs : List CouponRedemption} (r : CouponRedemption)
      (earlier : Redeemed usageLimit perUserLimit rs)
      (usage : ∀ limit, usageLimit = some limit → rs.length < limit)
      (perUser : ∀ limit, perUserLimit = some limit →
        ∃ u, r.userId = some u ∧ usesBy rs u < limit) :
      Redeemed usageLimit perUserLimit (rs ++ [r])

theorem Redeemed.length_le {usageLimit perUserLimit : Option ℕ} {rs : List CouponRedemption}
    (h : Redeemed usageLimit perUserLimit rs) {limit : ℕ} (hl : usageLimit = some limit) :
    rs.length ≤ limit := by
  cases h with
  | none => exact Nat.zero_le _
  | redeem r earlier usage perUser =>
    rw [List.length_append, List.length_singleton]
    exact usage limit hl

theorem usesBy_append (rs : List CouponRedemption) (r : CouponRedemption) (u : Uuid) :
    usesBy (rs ++ [r]) u = usesBy rs u + if r.userId = some u then 1 else 0 := by
  by_cases h : r.userId = some u <;> simp [usesBy, h]

theorem Redeemed.usesBy_le {usageLimit perUserLimit : Option ℕ} {rs : List CouponRedemption}
    (h : Redeemed usageLimit perUserLimit rs) {limit : ℕ} (hl : perUserLimit = some limit)
    (u : Uuid) : usesBy rs u ≤ limit := by
  induction h with
  | none => exact Nat.zero_le _
  | redeem r earlier usage perUser ih =>
    rw [usesBy_append]
    split_ifs with hr
    · obtain ⟨v, hv, hlt⟩ := perUser limit hl
      obtain rfl : v = u := Option.some.inj (hv.symm.trans hr)
      exact hlt
    · exact ih

/-- The counter of a coupon and its redemptions agree and keep its limits. -/
structure WithinLimits (c : Coupon) (rs : List CouponRedemption) : Prop where
  count : c.usedCount = rs.length
  redeemed : Redeemed c.usageLimit c.perUserLimit rs

/-- The limits of the coupon with this id hold. -/
def CouponWithinLimits (couponId : Uuid) (s : Store) : Prop :=
  ∀ c ∈ s.coupons, c.id = couponId → WithinLimits c (redemptionsOf s c.id)

section Invariant
variable {ι : Type*} {calls : ι → Call} {lateIsolation : Bool} {couponId : Uuid}

/-- The committed tables: coupon ids are distinct and the coupon's limits hold. -/
structure CouponTables (couponId : Uuid) (g : Shared ι) : Prop where
  ids : (g.tables.store.coupons.map Coupon.id).Nodup
  limits : CouponWithinLimits couponId g.tables.store

/-- A snapshot shows a coupon as it is now, unless the coupon has changed version. -/
structure SnapshotOf (s : Tables) (g : Shared ι) : Prop where
  ids : (s.store.coupons.map Coupon.id).Nodup
  le : ∀ c, s.couponVersion c ≤ g.tables.couponVersion c
  same : ∀ c, s.couponVersion c = g.tables.couponVersion c →
    Table.find Coupon.id c s.store.coupons = Table.find Coupon.id c g.tables.store.coupons ∧
      redemptionsOf s.store c = redemptionsOf g.tables.store c

/-- A coupon whose row the session has locked at its current version and found usable. -/
structure Secured (i : ι) (g : Shared ι) (s : Tables) (c : Coupon) : Prop where
  locked : g.locks (.coupon c.id) = some i
  current : s.couponVersion c.id = g.tables.couponVersion c.id
  row : Table.find Coupon.id c.id s.store.coupons = some c
  unused : ∀ limit, c.usageLimit = some limit → c.usedCount < limit

/-- A secured coupon whose per-user limit leaves room for the caller. -/
structure Accepted (call : Call) (i : ι) (g : Shared ι) (s : Tables) (c : Coupon) : Prop
    extends Secured i g s c where
  perUser : ∀ limit, c.perUserLimit = some limit →
    ∃ u, call.user.map (·.id) = some u ∧ usesBy (redemptionsOf s.store c.id) u < limit

/-- Writes of stock and orders only. -/
def Plain (ws : List Write) : Prop := ∀ w ∈ ws, w.couponId = none

/-- What a session has written about its coupon when it stands at a statement. -/
def CouponWrites (call : Call) (t : Txn) : Prop :=
  match t.phase with
  | .insertRedemption _ => ∃ c d ws, t.coupon = some (c, d) ∧ Plain ws ∧
      t.writes = ws ++ [.coupon c.id (c.usedCount + 1)]
  | .commit _ => Plain t.writes ∨ ∃ c d ws orderId, t.coupon = some (c, d) ∧ Plain ws ∧
      t.writes = ws ++ [.coupon c.id (c.usedCount + 1)] ++
        [.redemption ⟨c.id, call.user.map (·.id), orderId⟩]
  | _ => Plain t.writes

/-- The invariant of a session whose attempt has a snapshot. -/
structure Reading (call : Call) (i : ι) (g : Shared ι) (s : Tables) (t : Txn) : Prop where
  snapshot : t.snapshot = some s
  view : SnapshotOf s g
  counting : ∀ c, t.phase = .countRedemptions c → Secured i g s c
  accepted : ∀ c d, t.coupon = some (c, d) → Accepted call i g s c
  writes : CouponWrites call t

/-- The invariant of one session. -/
def TxnInv (call : Call) (i : ι) (g : Shared ι) (t : Txn) : Prop :=
  match t.phase with
  | .setIsolation | .findKey => t.writes = [] ∧ t.coupon = none
  | .committed _ | .failed _ => True
  | _ => ∃ s, Reading call i g s t

/-- Nothing about coupons changes between the two shared states, as far as `i` can tell. -/
theorem Reading.mono {call : Call} {i : ι} {g g' : Shared ι} {s : Tables} {t : Txn}
    (h : Reading call i g s t) (ht : g'.tables = g.tables)
    (hl : ∀ r, g.locks r = some i → g'.locks r = some i) : Reading call i g' s t := by
  have hsec : ∀ c, Secured i g s c → Secured i g' s c := fun c hc =>
    ⟨hl _ hc.locked, by rw [ht]; exact hc.current, hc.row, hc.unused⟩
  refine ⟨h.snapshot, ⟨h.view.ids, by rw [ht]; exact h.view.le, by rw [ht]; exact h.view.same⟩,
    fun c hc => hsec c (h.counting c hc), fun c d hc => ?_, h.writes⟩
  have ha := h.accepted c d hc
  exact ⟨hsec c ha.toSecured, ha.perUser⟩

/-! What a commit does to coupons. -/

theorem foldl_plain {ws : List Write} (h : Plain ws) (s : Store) :
    (ws.foldl Write.apply s).coupons = s.coupons ∧
      (ws.foldl Write.apply s).redemptions = s.redemptions := by
  induction ws generalizing s with
  | nil => exact ⟨rfl, rfl⟩
  | cons w ws ih =>
    have hw := h w (List.mem_cons_self ..)
    obtain ⟨h₁, h₂⟩ := ih (fun w' hw' => h w' (List.mem_cons_of_mem _ hw')) (w.apply s)
    rw [List.foldl_cons, h₁, h₂]
    cases w with
    | stock p v => exact ⟨rfl, rfl⟩
    | order o => exact ⟨rfl, rfl⟩
    | coupon c n => cases hw
    | redemption r => cases hw

theorem couponVersion_plain {ws : List Write} (h : Plain ws) (tables : Tables) (c : Uuid) :
    (tables.commit ws).couponVersion c = tables.couponVersion c := by
  have hno : ¬ ∃ w ∈ ws, w.couponId = some c := by
    rintro ⟨w, hw, hc⟩
    rw [h w hw] at hc
    cases hc
  simp only [Tables.commit, if_neg hno, Nat.add_zero]

/-- The writes of a checkout that redeems coupon `c`. -/
def redeemingWrites (ws : List Write) (c : Coupon) (user : Option Uuid) (orderId : Uuid) :
    List Write :=
  ws ++ [.coupon c.id (c.usedCount + 1)] ++ [.redemption ⟨c.id, user, orderId⟩]

/-- The row of a coupon with one use more than the transaction has read. -/
def counted (c row : Coupon) : Coupon := { row with usedCount := c.usedCount + 1 }

theorem counted_id (c row : Coupon) : (counted c row).id = row.id := rfl

theorem foldl_redeeming {ws : List Write} (h : Plain ws) (c : Coupon) (user : Option Uuid)
    (orderId : Uuid) (s : Store) :
    ((redeemingWrites ws c user orderId).foldl Write.apply s).coupons =
        Table.modify Coupon.id c.id (counted c) s.coupons ∧
      ((redeemingWrites ws c user orderId).foldl Write.apply s).redemptions =
        s.redemptions ++ [⟨c.id, user, orderId⟩] := by
  obtain ⟨h₁, h₂⟩ := foldl_plain h s
  rw [redeemingWrites, List.foldl_append, List.foldl_append]
  simp only [List.foldl_cons, List.foldl_nil, Write.apply]
  rw [h₁, h₂]
  exact ⟨rfl, rfl⟩

theorem couponVersion_redeeming {ws : List Write} (h : Plain ws) (c : Coupon)
    (user : Option Uuid) (orderId : Uuid) (tables : Tables) (c' : Uuid) :
    (tables.commit (redeemingWrites ws c user orderId)).couponVersion c' =
      tables.couponVersion c' + if c.id = c' then 1 else 0 := by
  simp only [Tables.commit]
  by_cases hc : c.id = c'
  · have hsome : ∃ w ∈ redeemingWrites ws c user orderId, w.couponId = some c' :=
      ⟨.coupon c.id (c.usedCount + 1), by simp [redeemingWrites], by rw [← hc]; rfl⟩
    rw [if_pos hsome, if_pos hc]
  · have hno : ¬ ∃ w ∈ redeemingWrites ws c user orderId, w.couponId = some c' := by
      rintro ⟨w, hw, hwc⟩
      simp only [redeemingWrites, List.append_assoc, List.cons_append, List.nil_append,
        List.mem_append, List.mem_cons, List.not_mem_nil, or_false] at hw
      rcases hw with hw | rfl | rfl
      · rw [h w hw] at hwc
        cases hwc
      · exact hc (Option.some.inj hwc)
      · exact hc (Option.some.inj hwc)
    rw [if_neg hno, if_neg hc]

theorem redemptionsOf_append (s : Store) (rs : List CouponRedemption) (r : CouponRedemption)
    (c : Uuid) (h : s.redemptions = rs ++ [r]) :
    redemptionsOf s c = (rs.filter fun r => r.couponId = c) ++ if r.couponId = c then [r] else [] := by
  rw [redemptionsOf, h, List.filter_append]
  by_cases hr : r.couponId = c <;> simp [hr]

/-- The two kinds of commit: nothing about coupons, or one redemption of a coupon that the
session still has locked at its current version. -/
inductive CouponCommit (call : Call) (i : ι) (g : Shared ι) (writes : List Write) : Prop
  | plain (plain : Plain writes)
  | redeeming (s : Tables) (c : Coupon) (ws : List Write) (orderId : Uuid) (view : SnapshotOf s g)
      (accepted : Accepted call i g s c) (plain : Plain ws)
      (eq : writes = redeemingWrites ws c (call.user.map (·.id)) orderId)

theorem Reading.commit {call : Call} {i : ι} {g : Shared ι} {s : Tables} {t : Txn} {o : Order}
    (h : Reading call i g s t) (hp : t.phase = .commit o) :
    CouponCommit call i g t.writes := by
  have hw := h.writes
  unfold CouponWrites at hw
  rw [hp] at hw
  rcases hw with hw | ⟨c, d, ws, orderId, hc, hplain, heq⟩
  · exact .plain hw
  · exact .redeeming s c ws orderId h.view (h.accepted c d hc) hplain heq

/-- The committed row and history of a secured coupon. -/
theorem Secured.current_row {i : ι} {g : Shared ι} {s : Tables} {c : Coupon}
    (h : Secured i g s c) (hs : SnapshotOf s g) :
    Table.find Coupon.id c.id g.tables.store.coupons = some c ∧
      redemptionsOf s.store c.id = redemptionsOf g.tables.store c.id := by
  obtain ⟨hrow, hreds⟩ := hs.same c.id h.current
  exact ⟨by rw [← hrow]; exact h.row, hreds⟩

theorem couponTables_commit {call : Call} {i : ι} {g : Shared ι} {writes : List Write}
    (hg : CouponTables couponId g) (h : CouponCommit call i g writes)
    (locks : Locks Resource ι) : CouponTables couponId ⟨g.tables.commit writes, locks⟩ := by
  cases h with
  | plain plain =>
    obtain ⟨hc, hr⟩ := foldl_plain plain g.tables.store
    refine ⟨?_, ?_⟩
    · show (((writes.foldl Write.apply g.tables.store).coupons).map Coupon.id).Nodup
      rw [hc]
      exact hg.ids
    · intro c hmem hcoupon
      have hmem' : c ∈ (writes.foldl Write.apply g.tables.store).coupons := hmem
      rw [hc] at hmem'
      have hold := hg.limits c hmem' hcoupon
      rw [redemptionsOf] at hold ⊢
      rw [show (Tables.commit g.tables writes).store.redemptions = g.tables.store.redemptions
        from hr]
      exact hold
  | redeeming s c ws orderId view accepted plain eq =>
    subst eq
    obtain ⟨hc, hr⟩ := foldl_redeeming plain c (call.user.map (·.id)) orderId g.tables.store
    obtain ⟨hrow, hreds⟩ := accepted.toSecured.current_row view
    refine ⟨?_, ?_⟩
    · show (((redeemingWrites ws c _ orderId).foldl Write.apply g.tables.store).coupons.map
        Coupon.id).Nodup
      rw [hc, Table.map_modify fun row _ => counted_id c row]
      exact hg.ids
    · intro c₁ hmem hcoupon
      have hmem' : c₁ ∈ ((redeemingWrites ws c (call.user.map (·.id)) orderId).foldl Write.apply
        g.tables.store).coupons := hmem
      rw [hc, Table.mem_modify] at hmem'
      obtain ⟨r, hmr, rfl⟩ := hmem'
      have happ := redemptionsOf_append
        (Tables.commit g.tables (redeemingWrites ws c (call.user.map (·.id)) orderId)).store
        g.tables.store.redemptions ⟨c.id, call.user.map (·.id), orderId⟩
      by_cases hid : r.id = c.id
      · have hrc : r = c := by
          have hfind := Table.find_of_mem hg.ids hmr
          rw [hid, hrow] at hfind
          exact (Option.some.inj hfind).symm
        subst hrc
        rw [if_pos rfl]
        show WithinLimits _ (redemptionsOf _ r.id)
        rw [happ r.id hr, if_pos rfl]
        have hold := hg.limits r hmr (by rwa [if_pos rfl] at hcoupon)
        refine ⟨?_, hold.redeemed.redeem _ (fun limit hl => ?_) (fun limit hl => ?_)⟩
        · rw [List.length_append, List.length_singleton]
          exact congrArg (· + 1) hold.count
        · have hunused := accepted.unused limit hl
          rw [hold.count] at hunused
          exact hunused
        · have hper := accepted.perUser limit hl
          rw [hreds] at hper
          exact hper
      · rw [if_neg hid] at hcoupon
        rw [if_neg hid, happ r.id hr, if_neg (fun e => hid e.symm), List.append_nil]
        exact hg.limits r hmr hcoupon

/-- Another session's snapshot and lock survive the commit. -/
theorem reading_commit {call call' : Call} {i j : ι} {g : Shared ι} {s : Tables} {t : Txn}
    {writes : List Write} {locks : Locks Resource ι} (hj : j ≠ i)
    (hr : Reading call' j g s t) (h : CouponCommit call i g writes)
    (hl : ∀ r, g.locks r = some j → locks r = some j) :
    Reading call' j ⟨g.tables.commit writes, locks⟩ s t := by
  have hview : SnapshotOf s ⟨g.tables.commit writes, locks⟩ := by
    cases h with
    | plain plain =>
      obtain ⟨hc, hre⟩ := foldl_plain plain g.tables.store
      refine ⟨hr.view.ids, fun c => ?_, fun c hv => ?_⟩
      · rw [couponVersion_plain plain]
        exact hr.view.le c
      · rw [couponVersion_plain plain] at hv
        obtain ⟨h₁, h₂⟩ := hr.view.same c hv
        rw [h₁, h₂]
        exact ⟨by rw [← hc]; rfl, by rw [redemptionsOf, ← hre]; rfl⟩
    | redeeming s' c ws orderId view accepted plain eq =>
      subst eq
      obtain ⟨hc, hre⟩ := foldl_redeeming plain c (call.user.map (·.id)) orderId g.tables.store
      refine ⟨hr.view.ids, fun c' => ?_, fun c' hv => ?_⟩
      · rw [couponVersion_redeeming plain]
        exact (hr.view.le c').trans (Nat.le_add_right _ _)
      · rw [couponVersion_redeeming plain] at hv
        have hne : ¬ c.id = c' := by
          intro he
          rw [if_pos he] at hv
          have := hr.view.le c'
          omega
        rw [if_neg hne, Nat.add_zero] at hv
        obtain ⟨h₁, h₂⟩ := hr.view.same c' hv
        have happ := redemptionsOf_append
          (Tables.commit g.tables (redeemingWrites ws c (call.user.map User.id) orderId)).store
          g.tables.store.redemptions ⟨c.id, call.user.map User.id, orderId⟩ c' hre
        rw [h₁, h₂, happ, if_neg hne, List.append_nil]
        refine ⟨?_, rfl⟩
        have hfind : Table.find Coupon.id c' (Table.modify Coupon.id c.id (counted c)
            g.tables.store.coupons) = Table.find Coupon.id c' g.tables.store.coupons :=
          Table.find_modify_ne (counted_id c) fun e => hne e.symm
        rw [← hfind, ← hc]
        rfl
  have hsec : ∀ c, Secured j g s c → Secured j ⟨g.tables.commit writes, locks⟩ s c := by
    intro c hs
    refine ⟨hl _ hs.locked, ?_, hs.row, hs.unused⟩
    cases h with
    | plain plain =>
      rw [couponVersion_plain plain]
      exact hs.current
    | redeeming s' c' ws orderId view accepted plain eq =>
      subst eq
      have hne : ¬ c'.id = c.id := by
        intro he
        have hi := accepted.locked
        rw [he, hs.locked] at hi
        exact hj (Option.some.inj hi)
      rw [couponVersion_redeeming plain, if_neg hne]
      exact hs.current
  refine ⟨hr.snapshot, hview, fun c hc => hsec c (hr.counting c hc), fun c d hc => ?_, hr.writes⟩
  have ha := hr.accepted c d hc
  exact ⟨hsec c ha.toSecured, ha.perUser⟩

/-! One statement of the session itself. -/

theorem txnInv_raise [DecidableEq ι] {call : Call} {i : ι} {e : Exn} {g g' : Shared ι} {t : Txn} :
    TxnInv call i g' (raise i e g t).2 := by
  unfold raise
  split_ifs
  · exact ⟨rfl, rfl⟩
  · trivial

theorem Reading.locked [DecidableEq ι] {call : Call} {i : ι} {g : Shared ι} {s : Tables} {t : Txn}
    {r : Resource} {locks : Locks Resource ι} (h : Reading call i g s t)
    (hl : g.locks.acquire r i = some locks) : Reading call i { g with locks := locks } s t :=
  h.mono rfl fun _ hr => Locks.acquire_own hl hr

/-- The next phase keeps the snapshot and the coupon. -/
theorem Reading.next {call : Call} {i : ι} {g : Shared ι} {s : Tables} {t t' : Txn}
    (h : Reading call i g s t) (hs : t'.snapshot = t.snapshot) (hc : t'.coupon = t.coupon)
    (hp : ∀ c, t'.phase ≠ .countRedemptions c) (hw : CouponWrites call t') :
    Reading call i g s t' :=
  ⟨hs.trans h.snapshot, h.view, fun c hcount => absurd hcount (hp c),
    fun c d hcd => h.accepted c d (hc.symm.trans hcd), hw⟩

theorem CouponTables.congr {g g' : Shared ι} (h : CouponTables couponId g)
    (ht : g'.tables = g.tables) : CouponTables couponId g' :=
  ⟨by rw [ht]; exact h.ids, by rw [ht]; exact h.limits⟩

theorem Plain.append {ws : List Write} (h : Plain ws) {w : Write} (hw : w.couponId = none) :
    Plain (ws ++ [w]) := by
  intro w' hw'
  rcases List.mem_append.mp hw' with hw' | hw'
  · exact h w' hw'
  · rw [List.mem_singleton.mp hw']
    exact hw

/-- The statements at which a session has written nothing about coupons and secured none. -/
def Phase.quiet : Phase → Bool
  | .setIsolation | .findKey | .countRedemptions _ | .insertRedemption _ | .commit _ => false
  | _ => true

theorem nextLine_quiet (lines : List (Uuid × ℕ)) : (nextLine lines).quiet = true := by
  cases lines <;> rfl

theorem txnInv_quiet {call : Call} {i : ι} {g : Shared ι} {s : Tables} {t : Txn}
    (hp : t.phase.quiet = true) (hs : t.snapshot = some s) (hv : SnapshotOf s g)
    (ha : ∀ c d, t.coupon = some (c, d) → Accepted call i g s c) (hw : Plain t.writes) :
    TxnInv call i g t := by
  have hcount : ∀ c, t.phase ≠ .countRedemptions c := by
    intro c hc
    rw [hc] at hp
    cases hp
  have hwrites : CouponWrites call t := by
    unfold CouponWrites
    cases h : t.phase with
    | insertRedemption o => rw [h] at hp; cases hp
    | commit o => exact Or.inl hw
    | _ => exact hw
  have hr : Reading call i g s t := ⟨hs, hv, fun c hc => absurd hc (hcount c), ha, hwrites⟩
  unfold TxnInv
  cases h : t.phase with
  | setIsolation => rw [h] at hp; cases hp
  | findKey => rw [h] at hp; cases hp
  | committed o => trivial
  | failed e => trivial
  | _ => exact ⟨s, hr⟩

/-- The next phase is quiet: it keeps the snapshot and the coupon. -/
theorem Reading.quiet {call : Call} {i : ι} {g : Shared ι} {s : Tables} {t t' : Txn}
    (h : Reading call i g s t) (hp : t'.phase.quiet = true) (hs : t'.snapshot = t.snapshot)
    (hc : t'.coupon = t.coupon) (hw : Plain t'.writes) : TxnInv call i g t' :=
  txnInv_quiet hp (hs.trans h.snapshot) h.view
    (fun c d hcd => h.accepted c d (hc.symm.trans hcd)) hw

theorem insertRedemption_writes {call : Call} {t : Txn} {o : Order} {c : Coupon} {d : Decimal}
    {ws : List Write} (hp : t.phase = .insertRedemption o) (hc : t.coupon = some (c, d))
    (h : Plain ws) (hw : t.writes = ws ++ [.coupon c.id (c.usedCount + 1)]) :
    CouponWrites call t := by
  unfold CouponWrites
  rw [hp]
  exact ⟨c, d, ws, hc, h, hw⟩

theorem commit_writes {call : Call} {t : Txn} {o : Order} {c : Coupon} {d : Decimal}
    {ws : List Write} (hp : t.phase = .commit o) (hc : t.coupon = some (c, d)) (h : Plain ws)
    (hw : t.writes = ws ++ [.coupon c.id (c.usedCount + 1)] ++
      [.redemption ⟨c.id, call.user.map User.id, o.id⟩]) : CouponWrites call t := by
  unfold CouponWrites
  rw [hp]
  exact Or.inr ⟨c, d, ws, o.id, hc, h, hw⟩

theorem commit_writes_plain {call : Call} {t : Txn} {o : Order} (hp : t.phase = .commit o)
    (h : Plain t.writes) : CouponWrites call t := by
  unfold CouponWrites
  rw [hp]
  exact Or.inl h

/-- From the first query on, the invariant is that of a snapshot. -/
theorem Reading.inv {call : Call} {i : ι} {g : Shared ι} {s : Tables} {t : Txn}
    (h : Reading call i g s t) (h₁ : t.phase ≠ .setIsolation) (h₂ : t.phase ≠ .findKey) :
    TxnInv call i g t := by
  unfold TxnInv
  split
  · contradiction
  · contradiction
  · trivial
  · trivial
  · exact ⟨s, h⟩

theorem lockRow_inv [DecidableEq ι] {call : Call} {i : ι} {g g' : Shared ι} {t t' : Txn}
    {r : Resource} {seen current : ℕ} {next : Shared ι → Shared ι × Txn}
    (h : lockRow i r seen current g t next = some (g', t'))
    (hnext : ∀ locks, g.locks.acquire r i = some locks → seen = current →
      TxnInv call i (next { g with locks := locks }).1 (next { g with locks := locks }).2) :
    TxnInv call i g' t' := by
  obtain ⟨locks, hl, ⟨hv, h⟩ | ⟨-, h⟩⟩ := lockRow_eq_some h
  · have hn := hnext locks hl hv
    rw [h] at hn
    exact hn
  · have hraise : TxnInv call i g' (raise i Orders.serializationFailure
      { g with locks := locks } t).2 := txnInv_raise
    rw [h] at hraise
    exact hraise

theorem txnInv_of_raise [DecidableEq ι] {call : Call} {i : ι} {e : Exn} {g g' : Shared ι}
    {t t' : Txn} (h : some (raise i e g t) = some (g', t')) : TxnInv call i g' t' := by
  rw [← show (raise i e g t).2 = t' from congrArg Prod.snd (Option.some.inj h)]
  exact txnInv_raise

/-- The session's own statement keeps its invariant: a coupon is secured when its row is
locked at the version of the snapshot, accepted after the count of the user's redemptions,
and its counter and redemption are written last. -/
theorem statement_inv [DecidableEq ι] {call : Call} {i : ι} {g g' : Shared ι} {s : Tables}
    {t t' : Txn} {clock : Clock} {fresh : Uuid} (hr : Reading call i g s t)
    (h : statement call i clock fresh s g t = some (g', t')) : TxnInv call i g' t' := by
  have hw := hr.writes
  unfold statement at h
  unfold CouponWrites at hw
  cases hp : t.phase with
  | setIsolation => simp [hp] at h
  | findKey => simp [hp] at h
  | lockProducts todo =>
    rw [hp] at hw
    cases todo with
    | nil =>
      simp only [hp] at h
      cases h
      exact hr.quiet rfl rfl rfl hw
    | cons p rest =>
      simp only [hp] at h
      cases hf : Table.find Product.id p s.store.products with
      | none =>
        simp only [hf] at h
        cases h
        exact hr.quiet rfl rfl rfl hw
      | some row =>
        simp only [hf] at h
        exact lockRow_inv h fun locks hl _ =>
          (hr.locked hl).quiet rfl rfl rfl hw
  | priceItems =>
    rw [hp] at hw
    simp only [hp] at h
    cases hpr : call.price s.store with
    | error e =>
      simp only [hpr] at h
      exact txnInv_of_raise h
    | ok items =>
      simp only [hpr] at h
      cases hcode : call.data.couponCode with
      | none =>
        simp only [hcode] at h
        cases h
        exact txnInv_quiet (nextLine_quiet _) hr.snapshot hr.view (fun _ _ h => by cases h) hw
      | some code =>
        simp only [hcode] at h
        split_ifs at h
        · cases h
          exact hr.quiet rfl rfl rfl hw
        · exact txnInv_of_raise h
  | lockCoupon =>
    rw [hp] at hw
    simp only [hp] at h
    cases hf : Table.find Coupon.code (call.data.couponCode.getD "") s.store.coupons with
    | none =>
      simp only [hf] at h
      exact txnInv_of_raise h
    | some coupon =>
      simp only [hf] at h
      refine lockRow_inv h fun locks hl hv => ?_
      cases he : checkEligibility (some coupon) (call.subtotal s.store) clock.now with
      | error e => exact txnInv_raise
      | ok c =>
        obtain ⟨hc, hunused⟩ := checkEligibility_eq_ok he
        obtain rfl := Option.some.inj hc
        have hlocked := hr.locked hl
        have hrow := Table.find_of_mem hr.view.ids (Table.mem_of_find hf)
        refine Reading.inv (s := s) ?_ (fun h => by cases h) fun h => by cases h
        refine ⟨hr.snapshot, hlocked.view, fun c hc => ?_, hlocked.accepted, hw⟩
        obtain rfl : coupon = c := Phase.countRedemptions.inj hc
        exact ⟨Locks.acquire_self hl, hv, hrow, hunused⟩
  | countRedemptions coupon =>
    rw [hp] at hw
    simp only [hp] at h
    split_ifs at h
    · exact txnInv_of_raise h
    · cases hc : checkPerUser coupon (call.user.map (·.id))
          (userRedemptions s.store.redemptions coupon.id) with
      | error e =>
        simp only [hc] at h
        exact txnInv_of_raise h
      | ok u =>
        simp only [hc] at h
        cases h
        refine txnInv_quiet (nextLine_quiet _) hr.snapshot hr.view (fun c d hcd => ?_) hw
        obtain ⟨rfl, -⟩ := Prod.mk.inj (Option.some.inj hcd)
        refine ⟨hr.counting coupon hp, fun limit hl => ?_⟩
        obtain ⟨v, hv, hlt⟩ := checkPerUser_eq_ok hc hl
        refine ⟨v, hv, ?_⟩
        rw [usesBy_redemptionsOf]
        exact hlt
  | lockStock line rest =>
    rw [hp] at hw
    simp only [hp] at h
    cases hf : Table.find Product.id line.1 (t.view s).products with
    | none =>
      simp only [hf] at h
      exact txnInv_of_raise h
    | some product =>
      simp only [hf] at h
      refine lockRow_inv h fun locks hl _ => ?_
      split_ifs
      · exact txnInv_raise
      · exact (hr.locked hl).quiet rfl rfl rfl hw
  | writeStock line rest =>
    rw [hp] at hw
    simp only [hp] at h
    cases hf : Table.find Product.id line.1 (t.view s).products with
    | none =>
      simp only [hf] at h
      exact txnInv_of_raise h
    | some product =>
      simp only [hf] at h
      cases h
      exact hr.quiet (nextLine_quiet rest) rfl rfl (Plain.append hw rfl)
  | lockNumbers =>
    rw [hp] at hw
    simp only [hp] at h
    split_ifs at h
    · exact txnInv_of_raise h
    · obtain ⟨locks, hl, h⟩ := Option.map_eq_some_iff.mp h
      cases h
      exact (hr.locked hl).quiet rfl rfl rfl hw
  | readNumber day =>
    rw [hp] at hw
    simp only [hp] at h
    cases h
    exact hr.quiet rfl rfl rfl hw
  | insertOrder number =>
    rw [hp] at hw
    simp only [hp] at h
    obtain ⟨locks, hl, h⟩ := Option.map_eq_some_iff.mp h
    cases hi : insertOrderCheck g.tables.store.orders (call.orderData s.store t.coupon) number with
    | error e =>
      simp only [hi] at h
      exact txnInv_of_raise (congrArg some h)
    | ok phone =>
      simp only [hi] at h
      cases h
      exact (hr.locked hl).quiet rfl rfl rfl (Plain.append hw rfl)
  | insertItems o =>
    rw [hp] at hw
    simp only [hp] at h
    cases hc : t.coupon with
    | none =>
      simp only [hc] at h
      cases h
      refine Reading.inv (s := s) ?_ (fun h => by cases h) fun h => by cases h
      exact hr.next rfl hc.symm (fun _ h => by cases h) (commit_writes_plain rfl hw)
    | some c =>
      simp only [hc] at h
      cases h
      exact hr.quiet rfl rfl hc.symm hw
  | updateCoupon o =>
    rw [hp] at hw
    simp only [hp] at h
    cases hc : t.coupon with
    | none => simp [hc] at h
    | some c =>
      obtain ⟨coupon, discount⟩ := c
      simp only [hc] at h
      cases h
      refine Reading.inv (s := s) ?_ (fun h => by cases h) fun h => by cases h
      exact hr.next rfl hc.symm (fun _ h => by cases h) (insertRedemption_writes rfl rfl hw rfl)
  | insertRedemption o =>
    rw [hp] at hw
    obtain ⟨c, d, ws, hc, hplain, heq⟩ := hw
    simp only [hp, hc] at h
    cases h
    have hall : t.writes ++ [Write.redemption ⟨c.id, call.user.map User.id, o.id⟩] =
        ws ++ [.coupon c.id (c.usedCount + 1)] ++
          [.redemption ⟨c.id, call.user.map User.id, o.id⟩] := by rw [heq]
    refine Reading.inv (s := s) ?_ (fun h => by cases h) fun h => by cases h
    exact hr.next rfl hc.symm (fun _ h => by cases h) (commit_writes rfl rfl hplain hall)
  | commit o =>
    simp only [hp] at h
    cases h
    trivial
  | committed o => simp [hp] at h
  | failed e => simp [hp] at h

/-! Any event, seen by the session itself and by the others. -/

/-- A session at its commit has a snapshot. -/
theorem TxnInv.reading {call : Call} {i : ι} {g : Shared ι} {t : Txn} {o : Order}
    (h : TxnInv call i g t) (hp : t.phase = .commit o) : ∃ s, Reading call i g s t := by
  unfold TxnInv at h
  rw [hp] at h
  exact h

theorem TxnInv.imp {call : Call} {i : ι} {g g' : Shared ι} {t : Txn}
    (h : TxnInv call i g t) (hr : ∀ s, Reading call i g s t → Reading call i g' s t) : TxnInv call i g' t := by
  unfold TxnInv at h ⊢
  split at h
  · exact h
  · exact h
  · trivial
  · trivial
  · obtain ⟨s, hs⟩ := h
    exact ⟨s, hr s hs⟩

section Events
variable [DecidableEq ι] {i j : ι} {g g' : Shared ι} {t t' : Txn} {e : Event}

theorem couponTables_step (hg : CouponTables couponId g) (ht : TxnInv (calls i) i g t)
    (h : step lateIsolation calls i g t e = some (g', t')) : CouponTables couponId g' := by
  obtain ⟨htables | ⟨o, hp, htables⟩, -⟩ := step_shared h
  · exact hg.congr htables
  · obtain ⟨s, hr⟩ := ht.reading hp
    exact (couponTables_commit hg (hr.commit hp) g'.locks).congr htables

theorem txnInv_step (hg : CouponTables couponId g) (ht : TxnInv (calls i) i g t)
    (h : step lateIsolation calls i g t e = some (g', t')) : TxnInv (calls i) i g' t' := by
  unfold step at h
  cases e with
  | statement clock fresh =>
    unfold TxnInv at ht
    cases hp : t.phase with
    | setIsolation =>
      simp only [hp] at h ht
      split_ifs at h
      · exact txnInv_of_raise h
      · cases h
        exact ht
    | findKey =>
      simp only [hp] at h ht
      have hview : SnapshotOf g.tables g := ⟨hg.ids, fun _ => le_refl _, fun _ _ => ⟨rfl, rfl⟩⟩
      have hplain : Plain t.writes := by
        intro w hw
        rw [ht.1] at hw
        cases hw
      have hnone : ∀ c d, t.coupon = some (c, d) → Accepted (calls i) i g g.tables c := by
        intro c d hc
        rw [ht.2] at hc
        cases hc
      cases hf : Table.find Order.idempotencyKey (calls i).key g.tables.store.orders with
      | none =>
        simp only [hf] at h
        cases h
        exact txnInv_quiet rfl rfl hview hnone hplain
      | some o =>
        simp only [hf] at h
        cases h
        refine Reading.inv (s := g.tables) ?_ (fun h => by cases h) fun h => by cases h
        exact ⟨rfl, hview, fun _ hc => (by cases hc), hnone, commit_writes_plain rfl hplain⟩
    | _ =>
      simp only [hp] at h ht
      first
      | obtain ⟨s, hr⟩ := ht
        rw [hr.snapshot] at h
        exact statement_inv hr h
      | cases hs : t.snapshot with
        | none => simp [hs] at h
        | some s => simp [hs, statement, hp] at h
  | serializationFailure =>
    cases hp : t.phase with
    | committed o => simp [hp] at h
    | failed e => simp [hp] at h
    | commit o =>
      simp only [hp] at h
      cases h
      trivial
    | _ =>
      simp only [hp] at h
      exact txnInv_of_raise h
  | fault e =>
    cases hp : t.phase with
    | committed o => simp [hp] at h
    | failed e => simp [hp] at h
    | _ =>
      simp only [hp] at h
      cases h
      trivial

/-- Another session cannot change what a session has secured. -/
theorem txnInv_other (hj : j ≠ i) {tj : Txn} (htj : TxnInv (calls j) j g tj)
    (ht : TxnInv (calls i) i g t) (h : step lateIsolation calls i g t e = some (g', t')) :
    TxnInv (calls j) j g' tj := by
  obtain ⟨htables | ⟨o, hp, htables⟩, hlocks⟩ := step_shared h
  · exact htj.imp fun s hr => hr.mono htables fun r hl => (hlocks j hj r).mpr hl
  · obtain ⟨s, hri⟩ := ht.reading hp
    refine htj.imp fun s hr => ?_
    have hcommit : Reading (calls j) j ⟨g.tables.commit t.writes, g'.locks⟩ s tj :=
      reading_commit hj hr (hri.commit hp) fun r hl => (hlocks j hj r).mpr hl
    exact hcommit.mono htables fun r hl => hl

theorem couponTables_run {tables : Tables} {events : List (ι × Event)}
    {c : Threads ι (Shared ι) Txn} (ids : (tables.store.coupons.map Coupon.id).Nodup)
    (limits : CouponWithinLimits couponId tables.store)
    (h : exec (interleave (step lateIsolation calls)) (init ι tables) events = some c) :
    CouponTables couponId c.shared := by
  have hinit : ThreadInv (CouponTables couponId) (fun i g t => TxnInv (calls i) i g t) (init ι tables) :=
    ⟨⟨ids, limits⟩, fun _ => ⟨rfl, rfl⟩⟩
  refine (threadInv_exec ?_ ?_ hinit h).shared
  · intro c i e g' t' hc hst
    exact ⟨couponTables_step hc.shared (hc.thread i) hst,
      txnInv_step hc.shared (hc.thread i) hst⟩
  · intro c i j e g' t' hc hj hst
    exact txnInv_other hj (hc.thread j) (hc.thread i) hst

end Events

end Invariant

/-- In every committed state of any interleaving of checkouts the counter of a coupon that was
within its limits is the number of its redemptions, and these were made within the limits. -/
theorem coupon_limits {ι : Type*} [DecidableEq ι] (lateIsolation : Bool) (calls : ι → Call)
    (tables : Tables) (ids : (tables.store.coupons.map Coupon.id).Nodup)
    {events : List (ι × Event)} {c : Threads ι (Shared ι) Txn}
    (h : exec (interleave (step lateIsolation calls)) (init ι tables) events = some c)
    {coupon : Coupon} (hc : coupon ∈ c.shared.tables.store.coupons)
    (limits : CouponWithinLimits coupon.id tables.store) :
    let rs := redemptionsOf c.shared.tables.store coupon.id
    coupon.usedCount = rs.length ∧ Redeemed coupon.usageLimit coupon.perUserLimit rs ∧
      (∀ limit, coupon.usageLimit = some limit → coupon.usedCount ≤ limit) ∧
      ∀ limit, coupon.perUserLimit = some limit → ∀ u, usesBy rs u ≤ limit := by
  have hw := (couponTables_run ids limits h).limits coupon hc rfl
  refine ⟨hw.count, hw.redeemed, fun limit hl => ?_, fun limit hl u => ?_⟩
  · rw [hw.count]
    exact hw.redeemed.length_le hl
  · exact hw.redeemed.usesBy_le hl u

/-- A coupon of 10 percent for one redemption, one for each customer. -/
def welcomeCoupon : Coupon where
  id := 7
  code := "WELCOME"
  discountType := .percent
  value := 10
  minOrder := 0
  maxDiscount := none
  usageLimit := some 1
  usedCount := 0
  perUserLimit := some 1
  active := true
  startsAt := none
  endsAt := none

def couponTables : Tables where
  store := { tenCylinders.store with coupons := [welcomeCoupon] }
  productVersion := fun _ => 0
  couponVersion := fun _ => 0

/-- Two customers with the same coupon. -/
def couponCalls (i : Fin 2) : Call where
  coupons := true
  data := { cylinderCheckout 1 with couponCode := some "WELCOME" }
  user := some
    { id := 20 + i.val
      role := .customer
      fullName := none
      phone := none
      address := none
      deliveryNotes := none }
  key := 30 + i.val

/-- The second customer's snapshot is taken before the first one commits. -/
def couponRace : List (Fin 2 × Event) :=
  let next (i : Fin 2) : Fin 2 × Event := (i, .statement ⟨0, 20260101⟩ (100 + 10 * i.val))
  [next 0, next 0, next 1, next 1] ++ List.replicate 14 (next 0) ++ List.replicate 7 (next 1)

theorem coupon_limits_race : ∃ c, exec (interleave (step true couponCalls))
      (init (Fin 2) couponTables) couponRace = some c ∧
    ∀ coupon ∈ c.shared.tables.store.coupons,
      coupon.usedCount = (redemptionsOf c.shared.tables.store coupon.id).length := by
  have hrun : (exec (interleave (step true couponCalls)) (init (Fin 2) couponTables)
      couponRace).isSome := by decide +kernel
  obtain ⟨c, hc⟩ := Option.isSome_iff_exists.mp hrun
  have hlimits : ∀ couponId, CouponWithinLimits couponId couponTables.store := by
    intro couponId coupon hmem _
    rw [List.mem_singleton.mp hmem]
    exact ⟨rfl, .none⟩
  exact ⟨c, hc, fun coupon hmem =>
    (coupon_limits true couponCalls couponTables (by decide) hc hmem (hlimits coupon.id)).1⟩

end Qiki.Concurrency.Checkout
