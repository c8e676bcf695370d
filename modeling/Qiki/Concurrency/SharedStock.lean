import Qiki.Concurrency.Serializability
import Qiki.Orders.StockLedger

/-! What concurrent checkouts sell: nothing twice, nothing that is not on the shelf. -/
namespace Qiki.Concurrency.Checkout

open Orders Transition

section Serial
variable {ι : Type*} {calls : ι → Call} {initial s t : Store} {v : Served ι}

/-- A checkout that is served alone stored `o`; `uuid4` moved the other row ids on to `n`. -/
def Filed (call : Call) (clock : Clock) (s t : Store) (o : Order) (n : Uuid) : Prop :=
  Created call.data call.key clock.day { s with nextId := o.id } { t with nextId := n } o

/-- A checkout of a serial run answers the stored order of its key, or stores a new one. -/
theorem serveNext_cases (h : serveNext calls s v = some t) :
    (Table.find Order.idempotencyKey (calls v.session).key s.orders = some v.order ∧ t = s) ∨
    (Table.find Order.idempotencyKey (calls v.session).key s.orders = none ∧
      (∃ n, Filed (calls v.session) v.clock s t v.order n) ∧
      ((s.products.map Product.id).Nodup → (∀ p ∈ s.products, 0 ≤ p.stockQuantity) →
        ∀ p ∈ t.products, 0 ≤ p.stockQuantity)) := by
  unfold serveNext at h
  split at h
  · rename_i u o halone
    split_ifs at h with ho
    cases h
    subst ho
    rw [Call.alone, Prod.mk.injEq] at halone
    obtain ⟨hstore, hanswer⟩ := halone
    obtain ⟨τ, hτ, hleft⟩ := getDb_ok (Prod.ext rfl hanswer)
    have ht : { τ.store with nextId := s.nextId } = t := by
      rw [hleft]
      exact hstore
    rcases createOrder_eq_ok hτ with ⟨hfound, hsame⟩ | ⟨hnew, hcreated, hnonneg⟩
    · rw [hsame] at ht
      exact Or.inl ⟨hfound, ht.symm⟩
    · rw [← ht]
      exact Or.inr ⟨hnew, ⟨τ.store.nextId, hcreated⟩, hnonneg⟩
  · cases h

/-- What a serial run has sold: its new orders hold what the shelf has lost. -/
structure Sales (calls : ι → Call) (initial : Store) (served : List (Served ι)) (placed : List Order)
    (s : Store) : Prop where
  orders : s.orders = initial.orders ++ placed
  products : s.products = initial.products.map fun p =>
    { p with stockQuantity := p.stockQuantity - outstanding placed p.id }
  nonneg : ∀ p ∈ s.products, 0 ≤ p.stockQuantity
  requested : ∀ o ∈ placed, ∃ v ∈ served, v.order = o ∧
    o.lines = (requestedByProduct (calls v.session).data.items).map fun l => (l.1, (l.2 : ℤ))
  answered : ∀ v ∈ served,
    Table.find Order.idempotencyKey (calls v.session).key s.orders = some v.order

theorem find_append_of_some {key : Uuid} {o o' : Order} {orders : List Order}
    (h : Table.find Order.idempotencyKey key orders = some o) :
    Table.find Order.idempotencyKey key (orders ++ [o']) = some o := by
  rw [Table.find] at h ⊢
  rw [List.find?_append, h, Option.some_or]

theorem find_append_of_none {key : Uuid} {o : Order} {orders : List Order}
    (h : Table.find Order.idempotencyKey key orders = none) (ho : o.idempotencyKey = key) :
    Table.find Order.idempotencyKey key (orders ++ [o]) = some o := by
  rw [Table.find] at h ⊢
  rw [List.find?_append, h, Option.none_or, List.find?_singleton, if_pos (by simpa using ho)]

theorem Sales.ids {served : List (Served ι)} {placed : List Order}
    (hn : (initial.products.map Product.id).Nodup) (hs : Sales calls initial served placed s) :
    (s.products.map Product.id).Nodup := by
  rw [hs.products, List.map_map]
  exact hn

/-- A repeated key sells nothing. -/
theorem Sales.repeated {served : List (Served ι)} {placed : List Order}
    (hs : Sales calls initial served placed s)
    (hfound : Table.find Order.idempotencyKey (calls v.session).key s.orders = some v.order) :
    Sales calls initial (served ++ [v]) placed s := by
  refine ⟨hs.orders, hs.products, hs.nonneg, fun o ho => ?_, fun u hu => ?_⟩
  · obtain ⟨u, hu, horder⟩ := hs.requested o ho
    exact ⟨u, List.mem_append_left _ hu, horder⟩
  · rcases List.mem_append.mp hu with hu | hu
    · exact hs.answered u hu
    · rw [List.mem_singleton.mp hu]
      exact hfound

/-- A new order takes its lines from the shelf. -/
theorem Sales.filed {served : List (Served ι)} {placed : List Order} {n : Uuid}
    (hs : Sales calls initial served placed s)
    (hnew : Table.find Order.idempotencyKey (calls v.session).key s.orders = none)
    (hstored : Filed (calls v.session) v.clock s t v.order n)
    (hnonneg : ∀ p ∈ t.products, 0 ≤ p.stockQuantity) :
    Sales calls initial (served ++ [v]) (placed ++ [v.order]) t := by
  have horders : t.orders = s.orders ++ [v.order] := hstored.orders
  have hproducts : t.products = adjustAll (v.order.lines.map fun l => (l.1, -l.2)) s.products :=
    hstored.products
  refine ⟨?_, ?_, hnonneg, fun o ho => ?_, fun u hu => ?_⟩
  · rw [horders, hs.orders, List.append_assoc]
  · rw [hproducts]
    refine balance_adjustAll hs.products fun p => ?_
    rw [outstanding_append, quantityOf_neg, Order.held, hstored.status, if_neg (by decide)]
    omega
  · rcases List.mem_append.mp ho with ho | ho
    · obtain ⟨u, hu, horder⟩ := hs.requested o ho
      exact ⟨u, List.mem_append_left _ hu, horder⟩
    · rw [List.mem_singleton.mp ho]
      exact ⟨v, List.mem_append_right _ (List.mem_singleton_self v), rfl, hstored.lines⟩
  · rw [horders]
    rcases List.mem_append.mp hu with hu | hu
    · exact find_append_of_some (hs.answered u hu)
    · rw [List.mem_singleton.mp hu]
      exact find_append_of_none hnew hstored.idempotencyKey

/-- The run lemma, by induction on the checkouts served so far. -/
theorem sales_exec (hn : (initial.products.map Product.id).Nodup)
    (hnonneg : ∀ p ∈ initial.products, 0 ≤ p.stockQuantity) (served : List (Served ι)) :
    ∀ s, exec (serveNext calls) initial served = some s →
      ∃ placed, Sales calls initial served placed s := by
  induction served using List.reverseRecOn with
  | nil =>
    rintro s h
    cases h
    refine ⟨[], (List.append_nil _).symm, ?_, hnonneg, fun o ho => ?_, fun v hv => ?_⟩
    · simp [outstanding]
    · cases ho
    · cases hv
  | append_singleton served v ih =>
    intro t h
    obtain ⟨s, hs, hnext⟩ := exec_append.mp h
    obtain ⟨u, hu, hlast⟩ := exec_cons.mp hnext
    cases hlast
    obtain ⟨placed, hsales⟩ := ih s hs
    rcases serveNext_cases hu with ⟨hfound, rfl⟩ | ⟨hnew, ⟨n, hstored⟩, hkept⟩
    · exact ⟨placed, hsales.repeated hfound⟩
    · exact ⟨placed ++ [v.order], hsales.filed hnew hstored (hkept (hsales.ids hn) hsales.nonneg)⟩

end Serial

/-- After any interleaving of checkouts, with retries and faults, each stock is what it was less
what the new orders hold, and never negative; each new order is the answer of a session and holds
what that session asked for; and a session that committed has answered the stored order of its key,
so that sessions of one key have all answered one order. -/
theorem concurrent_sales {ι : Type*} [DecidableEq ι] (lateIsolation : Bool) (calls : ι → Call)
    (tables : Tables) (products : (tables.store.products.map Product.id).Nodup)
    (coupons : (tables.store.coupons.map Coupon.id).Nodup)
    (nonneg : ∀ p ∈ tables.store.products, 0 ≤ p.stockQuantity) {events : List (ι × Event)}
    {c : Threads ι (Shared ι) Txn}
    (h : exec (interleave (step lateIsolation calls)) (init ι tables) events = some c) :
    ∃ placed : List Order, c.shared.tables.store.orders = tables.store.orders ++ placed ∧
      c.shared.tables.store.products = tables.store.products.map (fun p =>
        { p with stockQuantity := p.stockQuantity - outstanding placed p.id }) ∧
      (∀ p ∈ c.shared.tables.store.products, 0 ≤ p.stockQuantity) ∧
      (∀ o ∈ placed, ∃ i, (c.thread i).phase = .committed o ∧
        o.lines = (requestedByProduct (calls i).data.items).map fun l => (l.1, (l.2 : ℤ))) ∧
      ∀ i o, (c.thread i).phase = .committed o →
        Table.find Order.idempotencyKey (calls i).key c.shared.tables.store.orders = some o := by
  obtain ⟨served, hserved, -⟩ := exists_commitsInOrder (consistent_init products coupons) h
  obtain ⟨placed, hsales⟩ := sales_exec products nonneg served _ hserved.tables
  refine ⟨placed, hsales.orders, hsales.products, hsales.nonneg, fun o ho => ?_, fun i o hi => ?_⟩
  · obtain ⟨v, hv, horder, hlines⟩ := hsales.requested o ho
    exact ⟨v.session, (hserved.committed_iff v.session o).mpr ⟨v, hv, rfl, horder⟩, hlines⟩
  · obtain ⟨v, hv, hsession, horder⟩ := (hserved.committed_iff i o).mp hi
    rw [← hsession, ← horder]
    exact hsales.answered v hv

theorem concurrent_sales_race : ∃ c, exec (interleave (step true couponCalls))
      (init (Fin 2) couponTables) couponRace = some c ∧
    ∃ placed : List Order, c.shared.tables.store.orders = couponTables.store.orders ++ placed ∧
      c.shared.tables.store.products = couponTables.store.products.map (fun p =>
        { p with stockQuantity := p.stockQuantity - outstanding placed p.id }) ∧
      (∀ p ∈ c.shared.tables.store.products, 0 ≤ p.stockQuantity) ∧
      (∀ o ∈ placed, ∃ i, (c.thread i).phase = .committed o ∧
        o.lines = (requestedByProduct (couponCalls i).data.items).map fun l => (l.1, (l.2 : ℤ))) ∧
      ∀ i o, (c.thread i).phase = .committed o →
        Table.find Order.idempotencyKey (couponCalls i).key c.shared.tables.store.orders =
          some o := by
  have hrun : (exec (interleave (step true couponCalls)) (init (Fin 2) couponTables)
      couponRace).isSome := by decide +kernel
  obtain ⟨c, hc⟩ := Option.isSome_iff_exists.mp hrun
  exact ⟨c, hc, concurrent_sales true couponCalls couponTables (by decide) (by decide)
    (by decide) hc⟩

end Qiki.Concurrency.Checkout
