import Qiki.Orders.Deliveries
import Qiki.Transition.Threads

/-! Concurrent status changes of one delivery at READ COMMITTED, statement by statement. -/
namespace Qiki.Concurrency.FinishedDelivery

open Orders Transition

/-- The endpoint of a request: `update_delivery_status` or `driver_update_status`. -/
inductive Kind
  | staff (orderId : Uuid) (newStatus : DeliveryStatus)
  | driver (actorId : Uuid) (isAdmin : Bool) (outcome : DriverOutcome) (lat lng : Option Decimal)
  deriving DecidableEq, Repr

structure Request where
  kind : Kind
  notes : Option String
  now : Timestamp
  deriving DecidableEq, Repr

def Request.newStatus (r : Request) : DeliveryStatus :=
  match r.kind with
  | .staff _ newStatus => newStatus
  | .driver _ _ outcome _ _ => outcome.status

def Request.location (r : Request) : Option (Decimal × Decimal) :=
  match r.kind with
  | .staff _ _ => none
  | .driver _ _ _ lat lng => bothCoordinates lat lng

/-- The delivery is the one of the order in the path, or the driver's own. -/
def Request.mayTouch (r : Request) (d : Delivery) : Bool :=
  match r.kind with
  | .staff orderId _ => d.orderId = orderId
  | .driver actorId isAdmin _ _ _ => isAdmin || d.driverId = some actorId

/-- The checks made on the delivery's row right after it is read. -/
def Request.accepts (r : Request) (d : Delivery) : Bool :=
  r.mayTouch d && decide (r.newStatus ∈ deliveryStatusTransitions d.status)

/-- The columns that the request's `UPDATE deliveries` writes. -/
def Request.write (r : Request) (d : Delivery) : Delivery :=
  d.withStatus r.newStatus r.notes r.location r.now

/-- A row that a statement may lock. -/
inductive Row
  | delivery
  | order
  deriving DecidableEq, Repr

/-- The committed rows of the delivery and its order, and the row locks. -/
structure Shared (ι : Type*) where
  delivery : Delivery
  order : Order
  locks : Locks Row ι

/-- The statement a session is about to send. -/
inductive Phase
  | readDelivery
  | writeDelivery
  | readOrder
  | writeOrder
  | readAgain
  | commit
  | committed
  | rolledBack
  deriving DecidableEq, Repr

/-- One database session: its statement, its copies of the two rows and whether the roll-up
has changed the order's. -/
structure SessionState where
  phase : Phase
  delivery : Delivery
  order : Order
  orderChanged : Bool

inductive Event
  | statement
  | rollback
  deriving DecidableEq, Repr

/-- No later transition leaves these statuses. -/
def finished (s : DeliveryStatus) : Bool := s ∈ [.delivered, .failed, .cancelled]

section Step
variable {ι : Type*} [DecidableEq ι]

/-- The transaction ends without effect. -/
def abort (i : ι) (g : Shared ι) (t : SessionState) : Shared ι × SessionState :=
  ({ g with locks := g.locks.release i }, { t with phase := .rolledBack })

/-- `_roll_up_order_status` in the session: `get_with_order` has loaded the driver's copy of
the order together with the delivery, and a row that is loaded is not read again. -/
def rollUp (others : List Delivery) (r : Request) (g : Shared ι) (t : SessionState) :
    SessionState :=
  let order := match r.kind with
    | .staff _ _ => g.order
    | .driver _ _ _ _ _ => t.order
  let rolled := order.rollUp (t.delivery :: others) r.now
  { t with
    phase := if rolled = order then .readAgain else .writeOrder
    order := rolled
    orderChanged := rolled ≠ order }

/-- `COMMIT`: the rows get the columns that the session has written. -/
def publish (i : ι) (r : Request) (g : Shared ι) (t : SessionState) : Shared ι where
  delivery := r.write g.delivery
  order := if t.orderChanged then
      { g.order with status := t.order.status, deliveredAt := t.order.deliveredAt }
    else g.order
  locks := g.locks.release i

/-- One statement of session `i`; `none` when it waits for a row lock or has ended. `others`
are the order's other deliveries. `rollback` is any exception before the commit. -/
def step (others : List Delivery) (requests : ι → Request) (i : ι) (g : Shared ι)
    (t : SessionState) : Event → Option (Shared ι × SessionState)
  | .rollback =>
    match t.phase with
    | .committed | .rolledBack => none
    | _ => some (abort i g t)
  | .statement =>
    match t.phase with
    | .readDelivery =>
      -- a plain `SELECT`: no lock, the last committed row; the check is made on this copy
      if (requests i).accepts g.delivery then
        some (g, { t with
          phase := .writeDelivery
          delivery := (requests i).write g.delivery
          order := g.order })
      else some (abort i g t)
    | .writeDelivery =>
      (g.locks.acquire .delivery i).map fun locks =>
        ({ g with locks := locks }, { t with phase := .readOrder })
    | .readOrder => some (g, rollUp others (requests i) g t)
    | .writeOrder =>
      (g.locks.acquire .order i).map fun locks =>
        ({ g with locks := locks }, { t with phase := .readAgain })
    | .readAgain => some (g, { t with phase := .commit })
    | .commit => some (publish i (requests i) g t, { t with phase := .committed })
    | .committed | .rolledBack => none

/-- All sessions before their first statement. -/
def init (ι : Type*) (delivery : Delivery) (order : Order) : Threads ι (Shared ι) SessionState where
  shared := ⟨delivery, order, fun _ => none⟩
  thread := fun _ => ⟨.readDelivery, delivery, order, false⟩

/-- No `UPDATE deliveries` gets the row lock of a delivery that is already finished. -/
def UpdatesUnfinished (c : Threads ι (Shared ι) SessionState) (e : ι × Event) : Prop :=
  e.2 = .statement → (c.thread e.1).phase = .writeDelivery →
    finished c.shared.delivery.status = false

end Step

section Invariant
variable {ι : Type*} {others : List Delivery} {requests : ι → Request}

/-- The statements between the `UPDATE` of the delivery and the end of the transaction. -/
def Phase.writing (p : Phase) : Bool := p ∈ [.readOrder, .writeOrder, .readAgain, .commit]

/-- A session that has updated the delivery holds its row lock, and the committed row is not
finished. -/
def SessionInv (i : ι) (g : Shared ι) (t : SessionState) : Prop :=
  t.phase.writing = true →
    g.locks .delivery = some i ∧ finished g.delivery.status = false

theorem sessionInv_of_idle {i : ι} {g : Shared ι} {t : SessionState}
    (h : t.phase.writing = false) : SessionInv i g t := by
  intro hw
  rw [h] at hw
  cases hw

variable [DecidableEq ι]

/-- What one step of session `i` does to the committed delivery. -/
theorem step_cases {i : ι} {g g' : Shared ι} {t t' : SessionState} {e : Event}
    (h : step others requests i g t e = some (g', t')) :
    (t'.phase.writing = false ∧ g'.delivery = g.delivery ∧
      (g'.locks = g.locks ∨ g'.locks = g.locks.release i)) ∨
    (e = .statement ∧ t.phase = .writeDelivery ∧ g'.delivery = g.delivery ∧
      g.locks.acquire .delivery i = some g'.locks) ∨
    (t.phase.writing = true ∧ g'.delivery = g.delivery ∧
      (g'.locks = g.locks ∨ g.locks.acquire .order i = some g'.locks)) ∨
    (t.phase = .commit ∧ t'.phase = .committed ∧ g'.locks = g.locks.release i) := by
  cases e with
  | rollback =>
    have hab : (g', t') = abort i g t := by
      simp only [step] at h
      split at h <;> simp_all
    obtain ⟨rfl, rfl⟩ := Prod.mk.inj hab
    exact Or.inl ⟨rfl, rfl, Or.inr rfl⟩
  | statement =>
    cases hp : t.phase with
    | readDelivery =>
      simp only [step, hp] at h
      split_ifs at h <;> obtain ⟨rfl, rfl⟩ := Prod.mk.inj (Option.some.inj h)
      · exact Or.inl ⟨rfl, rfl, Or.inl rfl⟩
      · exact Or.inl ⟨rfl, rfl, Or.inr rfl⟩
    | writeDelivery =>
      simp only [step, hp, Option.map_eq_some_iff] at h
      obtain ⟨locks, hl, h⟩ := h
      obtain ⟨rfl, rfl⟩ := Prod.mk.inj h
      exact Or.inr (Or.inl ⟨rfl, rfl, rfl, hl⟩)
    | readOrder =>
      simp only [step, hp] at h
      obtain ⟨rfl, rfl⟩ := Prod.mk.inj (Option.some.inj h)
      exact Or.inr (Or.inr (Or.inl ⟨rfl, rfl, Or.inl rfl⟩))
    | writeOrder =>
      simp only [step, hp, Option.map_eq_some_iff] at h
      obtain ⟨locks, hl, h⟩ := h
      obtain ⟨rfl, rfl⟩ := Prod.mk.inj h
      exact Or.inr (Or.inr (Or.inl ⟨rfl, rfl, Or.inr hl⟩))
    | readAgain =>
      simp only [step, hp] at h
      obtain ⟨rfl, rfl⟩ := Prod.mk.inj (Option.some.inj h)
      exact Or.inr (Or.inr (Or.inl ⟨rfl, rfl, Or.inl rfl⟩))
    | commit =>
      simp only [step, hp] at h
      obtain ⟨rfl, rfl⟩ := Prod.mk.inj (Option.some.inj h)
      exact Or.inr (Or.inr (Or.inr ⟨rfl, rfl, rfl⟩))
    | committed => simp [step, hp] at h
    | rolledBack => simp [step, hp] at h

/-- The thread invariant of the system. -/
abbrev Inv : Threads ι (Shared ι) SessionState → Prop := ThreadInv (fun _ => True) SessionInv

/-- A session that writes keeps its lock; its `UPDATE` finds an unfinished row. -/
theorem own_step {c : Threads ι (Shared ι) SessionState} {i : ι} {e : Event} {g' : Shared ι}
    {t' : SessionState} (hc : Inv c) (hg : UpdatesUnfinished c (i, e))
    (hs : step others requests i c.shared (c.thread i) e = some (g', t')) :
    SessionInv i g' t' := by
  rcases step_cases hs with ⟨hidle, -, -⟩ | ⟨rfl, hp, hd, hl⟩ | ⟨hw, hd, hl⟩ | ⟨-, hp', -⟩
  · exact sessionInv_of_idle hidle
  · intro _
    rw [hd]
    exact ⟨Locks.acquire_self hl, hg rfl hp⟩
  · intro _
    obtain ⟨hlock, hopen⟩ := hc.thread i hw
    rw [hd]
    rcases hl with hl | hl
    · exact ⟨hl ▸ hlock, hopen⟩
    · exact ⟨Locks.acquire_own hl hlock, hopen⟩
  · exact sessionInv_of_idle (by rw [hp']; rfl)

/-- While session `j` holds the delivery's lock, no other session commits. -/
theorem other_step {c : Threads ι (Shared ι) SessionState} {i j : ι} {e : Event}
    {g' : Shared ι} {t' : SessionState} (hc : Inv c) (hj : j ≠ i)
    (hs : step others requests i c.shared (c.thread i) e = some (g', t')) :
    SessionInv j g' (c.thread j) := by
  intro hw
  obtain ⟨hlock, hopen⟩ := hc.thread j hw
  have hrelease : c.shared.locks.release i .delivery = some j :=
    (Locks.release_other hj _).mpr hlock
  rcases step_cases hs with ⟨-, hd, hl⟩ | ⟨-, -, hd, hl⟩ | ⟨-, hd, hl⟩ | ⟨hp, -, -⟩
  · rw [hd]
    rcases hl with hl | hl
    · exact ⟨hl ▸ hlock, hopen⟩
    · exact ⟨hl ▸ hrelease, hopen⟩
  · rw [hd]
    exact ⟨(Locks.acquire_other hl hj _).mpr hlock, hopen⟩
  · rw [hd]
    rcases hl with hl | hl
    · exact ⟨hl ▸ hlock, hopen⟩
    · exact ⟨(Locks.acquire_other hl hj _).mpr hlock, hopen⟩
  · -- the committing session holds the lock that `j` holds
    have hlocki := (hc.thread i (by rw [hp]; rfl)).1
    rw [hlock] at hlocki
    exact absurd (Option.some.inj hlocki) hj

/-- A committed terminal status survives every guarded step. -/
theorem status_step {c c' : Threads ι (Shared ι) SessionState} {e : ι × Event} (hc : Inv c)
    (hfin : finished c.shared.delivery.status = true)
    (hs : interleave (step others requests) c e = some c') :
    c'.shared.delivery.status = c.shared.delivery.status := by
  obtain ⟨i, e⟩ := e
  obtain ⟨g', t', ht, rfl⟩ := interleave_eq_some.mp hs
  rcases step_cases ht with ⟨-, hd, -⟩ | ⟨-, -, hd, -⟩ | ⟨-, hd, -⟩ | ⟨hp, -, -⟩
  · rw [hd]
  · rw [hd]
  · rw [hd]
  · have hopen := (hc.thread i (by rw [hp]; rfl)).2
    rw [hfin] at hopen
    cases hopen

omit [DecidableEq ι] in
theorem inv_init (delivery : Delivery) (order : Order) : Inv (init ι delivery order) where
  shared := trivial
  thread := fun _ => sessionInv_of_idle rfl

/-- However the statements of any number of status changes of one delivery are interleaved:
as long as no `UPDATE` gets the lock of a finished delivery, a terminal status that is
committed at one point of the run is the committed status at every later point. -/
theorem finished_stays {delivery : Delivery} {order : Order} {before after : List (ι × Event)}
    {c c' : Threads ι (Shared ι) SessionState}
    (hbefore : exec (interleave (step others requests)) (init ι delivery order) before = some c)
    (hafter : exec (interleave (step others requests)) c after = some c')
    (hguard : Guarded (interleave (step others requests)) UpdatesUnfinished
      (init ι delivery order) (before ++ after))
    (hfinished : finished c.shared.delivery.status = true) :
    c'.shared.delivery.status = c.shared.delivery.status := by
  have hstep : ∀ (c : Threads ι (Shared ι) SessionState) (e : ι × Event) c', Inv c →
      UpdatesUnfinished c e → interleave (step others requests) c e = some c' → Inv c' :=
    threadInv_step (fun hc hg hs => ⟨trivial, own_step hc hg hs⟩) fun hc _ => other_step hc
  obtain ⟨hg₁, hg₂⟩ := hguard.split hbefore
  have hc : Inv c := Guarded.invariant hstep (inv_init delivery order) hg₁ hbefore
  have hkeep : ∀ (d : Threads ι (Shared ι) SessionState) (e : ι × Event) d',
      Inv d ∧ d.shared.delivery.status = c.shared.delivery.status → UpdatesUnfinished d e →
      interleave (step others requests) d e = some d' →
      Inv d' ∧ d'.shared.delivery.status = c.shared.delivery.status := by
    intro d e d' hd hg hs
    refine ⟨hstep d e d' hd.1 hg hs, ?_⟩
    rw [status_step hd.1 (hd.2.symm ▸ hfinished) hs, hd.2]
  exact (Guarded.invariant hkeep ⟨hc, rfl⟩ hg₂ hafter).2

end Invariant

/-- An order of one cylinder, carried by one delivery that is under way with driver 7. -/
def oneCylinder : Order where
  id := 100
  orderNumber := ⟨20260101, 1⟩
  userId := none
  customerName := "Lan"
  customerPhone := "0901234567"
  customerEmail := none
  deliveryAddress := "12 Le Loi"
  deliveryWard := none
  deliveryDistrict := none
  deliveryCity := "TP. Hồ Chí Minh"
  deliveryNotes := none
  differentRecipientName := none
  differentRecipientPhone := none
  subtotal := 400000
  shippingFee := 0
  discountAmount := 0
  couponId := none
  couponCode := none
  totalAmount := 400000
  vatInvoiceRequested := false
  vatInfo := none
  paymentMethod := .cod
  status := .shipping
  source := .website
  referralConversationId := none
  idempotencyKey := 55
  customerNotes := none
  internalNotes := none
  cancelledAt := none
  cancelledReason := none
  deliveredAt := none
  items := [⟨101, some 1, "Gas 12kg", none, none, 1, 400000, 400000, false⟩]

def underWay : Delivery where
  id := 102
  orderId := 100
  code := (⟨20260101, 1⟩, 1)
  status := .shipping
  driverId := some 7
  scheduledAt := none
  deliveredAt := none
  notes := none
  lastLocation := none
  items := [⟨101, 1⟩]

/-- The driver reports `delivered`, the staff `cancelled`. -/
def driverAndStaff (i : Fin 2) : Request where
  kind := if i = 0 then .driver 7 false .delivered none none else .staff 100 .cancelled
  notes := none
  now := 5

instance {ι : Type*} [DecidableEq ι] (c : Threads ι (Shared ι) SessionState) (e : ι × Event) :
    Decidable (UpdatesUnfinished c e) := by
  unfold UpdatesUnfinished; infer_instance

/-- The driver's transaction, six statements from its first `SELECT` to its `COMMIT`. -/
def driverOnly : List (Fin 2 × Event) := List.replicate 6 (0, .statement)

/-- The staff read the delivery only after the driver has committed. -/
theorem finished_stays_delivered :
    ∃ c c', exec (interleave (step [] driverAndStaff)) (init (Fin 2) underWay oneCylinder)
        driverOnly = some c ∧
      exec (interleave (step [] driverAndStaff)) c [(1, .statement)] = some c' ∧
      c.shared.delivery.status = .delivered ∧
      c'.shared.delivery.status = c.shared.delivery.status := by
  have hrun : (exec (interleave (step [] driverAndStaff)) (init (Fin 2) underWay oneCylinder)
      driverOnly).map (fun c => (c.shared.delivery.status,
        (exec (interleave (step [] driverAndStaff)) c [(1, .statement)]).isSome)) =
      some (.delivered, true) := by decide +kernel
  obtain ⟨c, hc, hstatus⟩ := Option.map_eq_some_iff.mp hrun
  obtain ⟨hdelivered, hnext⟩ := Prod.mk.inj hstatus
  obtain ⟨c', hc'⟩ := Option.isSome_iff_exists.mp hnext
  refine ⟨c, c', hc, hc', hdelivered, finished_stays hc hc' (by decide +kernel) ?_⟩
  rw [hdelivered]
  rfl

/-- Both read the delivery under way; then the driver's transaction runs to its end, and the
staff's after it. -/
def bothReadUnderWay : List (Fin 2 × Event) := [(0, .statement), (1, .statement)] ++
  List.replicate 5 (0, .statement)

/-- The committed `delivered` becomes `cancelled`. -/
theorem delivered_replaced :
    ¬ ∀ (before after : List (Fin 2 × Event)) (c c' : Threads (Fin 2) (Shared (Fin 2)) SessionState),
      exec (interleave (step [] driverAndStaff)) (init (Fin 2) underWay oneCylinder) before =
        some c →
      exec (interleave (step [] driverAndStaff)) c after = some c' →
      finished c.shared.delivery.status = true →
      c'.shared.delivery.status = c.shared.delivery.status := by
  intro h
  have hrun : (exec (interleave (step [] driverAndStaff)) (init (Fin 2) underWay oneCylinder)
      bothReadUnderWay).map (fun c => (c.shared.delivery.status,
        (exec (interleave (step [] driverAndStaff)) c (List.replicate 4 (1, .statement))).map
          fun c' => c'.shared.delivery.status)) =
      some (.delivered, some .cancelled) := by decide +kernel
  obtain ⟨c, hc, hstatus⟩ := Option.map_eq_some_iff.mp hrun
  obtain ⟨hdelivered, hnext⟩ := Prod.mk.inj hstatus
  obtain ⟨c', hc', hcancelled⟩ := Option.map_eq_some_iff.mp hnext
  have hsame := h _ _ c c' hc hc' (by rw [hdelivered]; rfl)
  rw [hcancelled, hdelivered] at hsame
  cases hsame

end Qiki.Concurrency.FinishedDelivery
