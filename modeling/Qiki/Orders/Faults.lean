import Qiki.Orders.CreateOrder

/-! Where a serialization failure stops a service call, and that a guest's call does not
notice whether the session's objects have expired. -/
namespace Qiki.Orders

variable {α β : Type} {guest : Prop} {user : Option User}

/-- A call that runs to the end without failures sends some statements; a failure at one
of these ends the call with that failure, a failure elsewhere is not noticed, and for a
guest neither is the expiry of the session's objects. -/
structure Statementwise (guest : Prop) (m : Db α) (s : Session) (a : α) (t : Session) : Prop where
  noFault : t.failAt = none
  expired : t.expired = s.expired
  sent : s.statements ≤ t.statements
  inside : ∀ k, s.statements ≤ k → k < t.statements →
    m { s with failAt := some k } = .error serializationFailure
  outside : ∀ k, k < s.statements ∨ t.statements ≤ k →
    m { s with failAt := some k } = .ok (a, { t with failAt := some k })
  unexpired : guest → ∀ b, m { s with expired := b } = .ok (a, { t with expired := b })

/-- A call that a failure can only stop, never change. -/
structure StopsAtFault (guest : Prop) (m : Db α) : Prop where
  run : ∀ s a t, s.failAt = none → m s = .ok (a, t) → Statementwise guest m s a t
  faultFree : ∀ s a t, m s = .ok (a, t) →
    m { s with failAt := none } = .ok (a, { t with failAt := none })

theorem bind_eq_error {x : Db α} {f : α → Db β} {s : Session} {e : Exn} (h : x s = .error e) :
    (x >>= f) s = .error e := by
  change (x s >>= fun p => f p.1 p.2) = _
  rw [h]
  rfl

theorem bind_of_eq_ok {x : Db α} {f : α → Db β} {s t : Session} {a : α} (h : x s = .ok (a, t)) :
    (x >>= f) s = f a t := by
  change (x s >>= fun p => f p.1 p.2) = _
  rw [h]
  rfl

theorem StopsAtFault.bind {x : Db α} {f : α → Db β} (hx : StopsAtFault guest x)
    (hf : ∀ a, StopsAtFault guest (f a)) : StopsAtFault guest (x >>= f) := by
  refine ⟨fun s b u hs h => ?_, fun s b u h => ?_⟩
  · obtain ⟨a, t, ha, hb⟩ := bind_eq_ok.mp h
    have h₁ := hx.run s a t hs ha
    have h₂ := (hf a).run t b u h₁.noFault hb
    refine ⟨h₂.noFault, h₂.expired.trans h₁.expired, h₁.sent.trans h₂.sent, ?_, ?_, ?_⟩
    · intro k hlo hhi
      by_cases hk : k < t.statements
      · exact bind_eq_error (h₁.inside k hlo hk)
      · rw [bind_of_eq_ok (h₁.outside k (Or.inr (not_lt.mp hk)))]
        exact h₂.inside k (not_lt.mp hk) hhi
    · intro k hk
      have hk₁ : k < s.statements ∨ t.statements ≤ k := hk.imp_right h₂.sent.trans
      have hk₂ : k < t.statements ∨ u.statements ≤ k := hk.imp_left fun h => h.trans_le h₁.sent
      rw [bind_of_eq_ok (h₁.outside k hk₁)]
      exact h₂.outside k hk₂
    · intro hu e
      rw [bind_of_eq_ok (h₁.unexpired hu e)]
      exact h₂.unexpired hu e
  · obtain ⟨a, t, ha, hb⟩ := bind_eq_ok.mp h
    rw [bind_of_eq_ok (hx.faultFree s a t ha)]
    exact (hf a).faultFree t b u hb

/-- A call that neither sends a statement nor looks at the failure point. -/
theorem StopsAtFault.of_silent {m : Db α}
    (hfail : ∀ s f, m { s with failAt := f } =
      (m s).map fun p => (p.1, { p.2 with failAt := f }))
    (hkeep : ∀ s a t, m s = .ok (a, t) → t.failAt = s.failAt ∧ t.expired = s.expired ∧
      t.statements = s.statements)
    (hguest : guest → ∀ s a t, m s = .ok (a, t) →
      ∀ b, m { s with expired := b } = .ok (a, { t with expired := b })) :
    StopsAtFault guest m := by
  have hsame : ∀ s f a t, m s = .ok (a, t) →
      m { s with failAt := f } = .ok (a, { t with failAt := f }) := by
    intro s f a t h
    rw [hfail, h]
    rfl
  refine ⟨fun s a t hs h => ?_, fun s a t h => hsame s none a t h⟩
  obtain ⟨hf, he, hc⟩ := hkeep s a t h
  refine ⟨hf.trans hs, he, hc.ge, ?_, fun k _ => hsame s (some k) a t h,
    fun hu => hguest hu s a t h⟩
  intro k hlo hhi
  omega

theorem stopsAtFault_pure (a : α) : StopsAtFault guest (pure a : Db α) :=
  .of_silent (fun _ _ => rfl)
    (fun s b t h => by obtain ⟨rfl, rfl⟩ := pure_eq_ok.mp h; exact ⟨rfl, rfl, rfl⟩)
    (fun _ s b t h e => by obtain ⟨rfl, rfl⟩ := pure_eq_ok.mp h; rfl)

theorem stopsAtFault_raise (e : Exn) : StopsAtFault guest (raise e : Db α) :=
  .of_silent (fun _ _ => rfl) (fun _ _ _ h => absurd h raise_ne_ok)
    (fun _ _ _ _ h => absurd h raise_ne_ok)

theorem stopsAtFault_getStore : StopsAtFault guest getStore :=
  .of_silent (fun _ _ => rfl)
    (fun s b t h => by obtain ⟨rfl, rfl⟩ := getStore_eq_ok.mp h; exact ⟨rfl, rfl, rfl⟩)
    (fun _ s b t h e => by obtain ⟨rfl, rfl⟩ := getStore_eq_ok.mp h; rfl)

theorem stopsAtFault_setStore (store : Store) : StopsAtFault guest (setStore store) :=
  .of_silent (fun _ _ => rfl)
    (fun s b t h => by rw [setStore_eq_ok.mp h]; exact ⟨rfl, rfl, rfl⟩)
    (fun _ s b t h e => by rw [setStore_eq_ok.mp h]; rfl)

theorem stopsAtFault_liftCheck (r : Except Exn α) : StopsAtFault guest (liftCheck r) :=
  .of_silent (fun _ _ => by cases r <;> rfl)
    (fun s b t h => by obtain ⟨-, rfl⟩ := liftCheck_eq_ok.mp h; exact ⟨rfl, rfl, rfl⟩)
    (fun _ s b t h e => by obtain ⟨rfl, rfl⟩ := liftCheck_eq_ok.mp h; rfl)

theorem stopsAtFault_readUserId : StopsAtFault (user = none) (readUserId user) := by
  refine .of_silent (fun s f => ?_) (fun s a t h => ?_) (fun hu s a t h b => ?_)
  · cases user with
    | none => rfl
    | some u => cases he : s.expired <;> simp [readUserId, he, Except.map]
  · obtain ⟨rfl, -, -⟩ := readUserId_eq_ok h
    exact ⟨rfl, rfl, rfl⟩
  · subst hu
    cases h
    rfl

theorem stopsAtFault_execute : StopsAtFault guest execute := by
  refine ⟨fun s a t hs h => ?_, fun s a t h => ?_⟩
  · unfold execute at h
    rw [hs, if_neg (by simp)] at h
    cases h
    refine ⟨rfl, rfl, Nat.le_succ _, fun k hlo hhi => ?_, fun k hk => ?_, fun _ b => ?_⟩
    · have hk : k = s.statements := by
        have : k < s.statements + 1 := hhi
        omega
      simp [execute, hk]
    · have hk : ¬ k = s.statements := by
        have : k < s.statements ∨ s.statements + 1 ≤ k := hk
        omega
      simp [execute, hk]
    · simp [execute, hs]
  · unfold execute at h
    split_ifs at h
    cases h
    simp [execute]

theorem stopsAtFault_setTransactionSerializable :
    StopsAtFault guest setTransactionSerializable := by
  refine ⟨fun s a t hs h => ?_, fun s a t h => ?_⟩
  · unfold setTransactionSerializable at h
    rw [hs, if_neg (by simp)] at h
    split_ifs at h with hq
    cases h
    refine ⟨rfl, rfl, Nat.le_succ _, fun k hlo hhi => ?_, fun k hk => ?_, fun _ b => ?_⟩
    · have hk : k = s.statements := by
        have : k < s.statements + 1 := hhi
        omega
      simp [setTransactionSerializable, hk]
    · have hk : ¬ k = s.statements := by
        have : k < s.statements ∨ s.statements + 1 ≤ k := hk
        omega
      simp only [setTransactionSerializable, Option.some.injEq, hk, if_false, if_neg hq]
    · simp [setTransactionSerializable, hs, hq]
  · unfold setTransactionSerializable at h
    split_ifs at h with hf hq
    cases h
    simp [setTransactionSerializable, hq]

theorem stopsAtFault_decrementStock (p : Uuid) (q : ℕ) : StopsAtFault guest (decrementStock p q) := by
  refine stopsAtFault_execute.bind fun _ => stopsAtFault_getStore.bind fun s => ?_
  cases Table.find Product.id p s.products with
  | none => exact stopsAtFault_raise _
  | some row =>
    dsimp only
    split_ifs
    · exact stopsAtFault_raise _
    · exact stopsAtFault_execute.bind fun _ => stopsAtFault_setStore _

theorem stopsAtFault_decrementAll (lines : List (Uuid × ℕ)) :
    StopsAtFault guest (decrementAll lines) := by
  induction lines with
  | nil => exact stopsAtFault_pure ()
  | cons l ls ih => exact (stopsAtFault_decrementStock l.1 l.2).bind fun _ => ih

theorem stopsAtFault_applyCoupon (code : String) (subtotal : Decimal)
    (now : Timestamp) : StopsAtFault (user = none) (applyCoupon code subtotal user now) := by
  have hlimit : ∀ coupon, StopsAtFault (user = none) (enforcePerUserLimit coupon user) := by
    intro coupon
    unfold enforcePerUserLimit
    cases coupon.perUserLimit with
    | none => exact stopsAtFault_pure ()
    | some limit =>
      cases user with
      | none => exact stopsAtFault_liftCheck _
      | some u =>
        exact stopsAtFault_readUserId.bind fun _ => stopsAtFault_execute.bind fun _ =>
          stopsAtFault_getStore.bind fun _ => stopsAtFault_liftCheck _
  have hfind : StopsAtFault (user = none) (getByCodeForUpdate code) :=
    stopsAtFault_execute.bind fun _ => stopsAtFault_getStore.bind fun _ => stopsAtFault_pure _
  exact hfind.bind fun _ => (stopsAtFault_liftCheck _).bind fun coupon =>
    (hlimit coupon).bind fun _ => stopsAtFault_pure _

theorem stopsAtFault_applyCheckoutCoupon (coupons : Bool) (code : Option String)
    (subtotal : Decimal) (now : Timestamp) :
    StopsAtFault (user = none) (applyCheckoutCoupon coupons code subtotal user now) := by
  unfold applyCheckoutCoupon
  cases code with
  | none => exact stopsAtFault_pure _
  | some code =>
    dsimp only
    split_ifs
    · exact stopsAtFault_raise _
    · exact (stopsAtFault_applyCoupon code subtotal now).bind fun _ => stopsAtFault_pure _

theorem stopsAtFault_createWithItems (d : OrderData) (items : List ItemData) (clock : Clock) :
    StopsAtFault guest (createWithItems d items clock) := by
  have hnumber : StopsAtFault guest (nextOrderNumber clock.day) :=
    stopsAtFault_execute.bind fun _ => stopsAtFault_execute.bind fun _ =>
      stopsAtFault_getStore.bind fun _ => stopsAtFault_pure _
  exact hnumber.bind fun _ => stopsAtFault_execute.bind fun _ =>
    stopsAtFault_getStore.bind fun _ => (stopsAtFault_liftCheck _).bind fun _ =>
      stopsAtFault_execute.bind fun _ => (stopsAtFault_setStore _).bind fun _ =>
        stopsAtFault_execute.bind fun _ => stopsAtFault_pure _

theorem stopsAtFault_recordCheckoutRedemption (coupon : Option Coupon) (orderId : Uuid) : StopsAtFault (user = none) (recordCheckoutRedemption coupon user orderId) := by
  cases coupon with
  | none => exact stopsAtFault_pure ()
  | some coupon =>
    exact stopsAtFault_readUserId.bind fun _ => stopsAtFault_execute.bind fun _ =>
      stopsAtFault_execute.bind fun _ => stopsAtFault_getStore.bind fun _ =>
        stopsAtFault_setStore _

theorem stopsAtFault_getByIdempotencyKey (key : Uuid) :
    StopsAtFault guest (getByIdempotencyKey key) :=
  stopsAtFault_execute.bind fun _ => stopsAtFault_getStore.bind fun _ => stopsAtFault_pure _

theorem stopsAtFault_getManyForUpdate (productIds : List Uuid) :
    StopsAtFault guest (getManyForUpdate productIds) :=
  stopsAtFault_execute.bind fun _ => stopsAtFault_getStore.bind fun _ => stopsAtFault_pure _

theorem stopsAtFault_createOrder (coupons : Bool) (data : CheckoutRequest) (key : Uuid)
    (clock : Clock) : StopsAtFault (user = none) (createOrder coupons data user key clock) := by
  refine stopsAtFault_setTransactionSerializable.bind fun _ =>
    (stopsAtFault_getByIdempotencyKey key).bind fun found => ?_
  cases found with
  | some existing => exact stopsAtFault_pure existing
  | none =>
    exact (stopsAtFault_getManyForUpdate _).bind fun products =>
      (stopsAtFault_liftCheck _).bind fun _ => (stopsAtFault_liftCheck _).bind fun items =>
        (stopsAtFault_applyCheckoutCoupon _ _ _ _).bind fun r =>
          (stopsAtFault_decrementAll _).bind fun _ => stopsAtFault_readUserId.bind fun _ =>
            (stopsAtFault_createWithItems _ _ _).bind fun order =>
              (stopsAtFault_recordCheckoutRedemption _ _).bind fun _ => stopsAtFault_pure order

theorem StopsAtFault.keepsExpired {m : Db α} (hm : StopsAtFault guest m) {s t : Session} {a : α}
    (h : m s = .ok (a, t)) : t.expired = s.expired :=
  (hm.run _ _ _ rfl (hm.faultFree s a t h)).expired

end Qiki.Orders
