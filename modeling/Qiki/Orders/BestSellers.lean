import Qiki.Orders.StockLedger
import Qiki.Collections.FirstRows

/-! The best-seller list of the storefront and its cache, against the units that are gone from
the shelf. -/
namespace Qiki.Orders

open FirstRows Transition

variable {κ : Type*} [LinearOrder κ]

/-- `JOIN order_items ON product_id`, for one order. -/
def orderedLines (items : List OrderItem) : List (Uuid × ℕ) :=
  items.filterMap fun i => i.productId.map fun p => (p, i.quantity)

/-- `JOIN orders … WHERE status != 'cancelled'` -/
def soldLines (orders : List Order) : List (Uuid × ℕ) :=
  (orders.filter fun o => o.status ≠ .cancelled).flatMap fun o => orderedLines o.items

def totalSold (orders : List Order) (productId : Uuid) : ℕ :=
  (((soldLines orders).filter fun l => l.1 = productId).map Prod.snd).sum

/-- The groups of the query: active products with a line, and their `total_sold`. -/
def bestSellerRows (s : Store) : List (Product × ℕ) :=
  (s.products.filter fun p => p.isActive && (p.id ∈ (soldLines s.orders).map Prod.fst)).map
    fun p => (p, totalSold s.orders p.id)

/-- `ORDER BY total_sold DESC, name ASC`, under the collation of the database. -/
def bestSellerKey (collate : String → κ) (row : Product × ℕ) : ℕᵒᵈ ×ₗ κ :=
  toLex (OrderDual.toDual row.2, collate row.1.name)

/-- What `get_best_sellers` may return: products that sold equally under one name come in any
order. -/
def GetBestSellers (collate : String → κ) (limit : ℕ) (s : Store) (rows : List (Product × ℕ)) :
    Prop :=
  IsFirst (bestSellerKey collate) limit (bestSellerRows s) rows

def bestSellersCacheTtlSeconds : ℕ := 60

/-- The tables and `_best_sellers_cache`. -/
structure Storefront where
  store : Store
  cache : ℕ → Option (Timestamp × List (Product × ℕ))

inductive Visit
  | request (r : Request)
  /-- `GET /orders/best-sellers`; `fresh` is what the query returns if it is sent. -/
  | bestSellers (now : Timestamp) (limit : ℕ) (fresh : List (Product × ℕ))

/-- `best_sellers`: the answer, and the cache afterwards. -/
def bestSellers (now : Timestamp) (limit : ℕ) (fresh : List (Product × ℕ)) (f : Storefront) :
    List (Product × ℕ) × Storefront :=
  match f.cache limit with
  | some (cachedAt, products) =>
    if now - cachedAt < bestSellersCacheTtlSeconds then (products, f)
    else (fresh, { f with cache := Function.update f.cache limit (some (now, fresh)) })
  | none => (fresh, { f with cache := Function.update f.cache limit (some (now, fresh)) })

def visit (f : Storefront) : Visit → Storefront
  | .request r => { f with store := (serve f.store r).1 }
  | .bestSellers now limit fresh => (bestSellers now limit fresh f).2

def visitAll (f : Storefront) (vs : List Visit) : Storefront := vs.foldl visit f

/-- The database answers the query from the tables as they are. -/
def Visit.Answered (collate : String → κ) (f : Storefront) : Visit → Prop
  | .request _ => True
  | .bestSellers _ limit fresh => GetBestSellers collate limit f.store fresh

/-- The requests among the visits. -/
def requests : List Visit → List Request
  | [] => []
  | .request r :: vs => r :: requests vs
  | .bestSellers .. :: vs => requests vs

/-! Units sold and units gone. -/

theorem quantityOf_natCast (lines : List (Uuid × ℕ)) (p : Uuid) :
    quantityOf (lines.map fun l => (l.1, (l.2 : ℤ))) p =
      (((lines.filter fun l => l.1 = p).map Prod.snd).sum : ℕ) := by
  induction lines with
  | nil => rfl
  | cons l lines ih =>
    rw [List.map_cons, quantityOf_cons, ih]
    by_cases h : l.1 = p <;> simp [h]

theorem itemLines_eq (items : List OrderItem) :
    itemLines items = (orderedLines items).map fun l => (l.1, (l.2 : ℤ)) := by
  simp only [itemLines, orderedLines, List.map_filterMap, Option.map_map]
  rfl

theorem totalSold_cons (o : Order) (orders : List Order) (p : Uuid) :
    (totalSold (o :: orders) p : ℤ) = o.held p + totalSold orders p := by
  unfold totalSold soldLines
  by_cases hc : o.status = .cancelled
  · rw [List.filter_cons_of_neg (by simpa using hc)]
    simp [Order.held, hc]
  · rw [List.filter_cons_of_pos (by simpa using hc), List.flatMap_cons, List.filter_append,
      List.map_append, List.sum_append, Nat.cast_add, Order.held, if_neg hc, Order.lines_eq,
      itemLines_eq, quantityOf_natCast]

theorem totalSold_eq_outstanding (orders : List Order) (p : Uuid) :
    (totalSold orders p : ℤ) = outstanding orders p := by
  induction orders with
  | nil => rfl
  | cons o orders ih =>
    rw [totalSold_cons, ih]
    simp [outstanding]

theorem totalSold_eq_zero {orders : List Order} {p : Uuid}
    (h : p ∉ (soldLines orders).map Prod.fst) : totalSold orders p = 0 := by
  have hnone : (soldLines orders).filter (fun l => l.1 = p) = [] := by
    refine List.filter_eq_nil_iff.mpr fun l hl he => h ?_
    exact List.mem_map.mpr ⟨l, hl, of_decide_eq_true he⟩
  rw [totalSold, hnone]
  rfl

/-- A best-seller list that is true of the tables `s`, in a shop that opened with the products
`initial`. -/
structure CountsShelf (initial : List Product) (s : Store) (limit : ℕ)
    (rows : List (Product × ℕ)) : Prop where
  atMost : rows.length ≤ limit
  gone : ∀ r ∈ rows, r.1 ∈ s.products ∧ r.1.isActive ∧
    ∃ p ∈ initial, p.id = r.1.id ∧ (r.2 : ℤ) = p.stockQuantity - r.1.stockQuantity
  descending : rows.Pairwise fun r r' => r'.2 ≤ r.2
  /-- An active product that is not on the list has sold nothing, or no more than each of
  the `limit` products that are. -/
  complete : ∀ q ∈ s.products, q.isActive → (∀ r ∈ rows, r.1 ≠ q) →
    ∀ p ∈ initial, p.id = q.id → p.stockQuantity = q.stockQuantity ∨
      rows.length = limit ∧ ∀ r ∈ rows, p.stockQuantity - q.stockQuantity ≤ r.2

/-- What a product has sold is what is gone from its shelf. -/
theorem sold_eq_gone {c : Catalog} {s : Store} (h : LedgerInv c.products s) {p q : Product}
    (hp : p ∈ c.products) (hq : q ∈ s.products) (hid : p.id = q.id) :
    (totalSold s.orders q.id : ℤ) = p.stockQuantity - q.stockQuantity := by
  have hb := h.balance
  rw [hb] at hq
  obtain ⟨p', hp', rfl⟩ := List.mem_map.mp hq
  obtain rfl : p = p' := List.inj_on_of_nodup_map c.ids hp hp' hid
  rw [totalSold_eq_outstanding]
  simp

theorem exists_initial {c : Catalog} {s : Store} (h : LedgerInv c.products s) {q : Product}
    (hq : q ∈ s.products) : ∃ p ∈ c.products, p.id = q.id := by
  rw [h.balance] at hq
  obtain ⟨p, hp, rfl⟩ := List.mem_map.mp hq
  exact ⟨p, hp, rfl⟩

theorem countsShelf_of_getBestSellers {collate : String → κ} {c : Catalog} {s : Store} {limit : ℕ}
    {rows : List (Product × ℕ)} (hs : LedgerInv c.products s)
    (h : GetBestSellers collate limit s rows) : CountsShelf c.products s limit rows := by
  have hrow : ∀ r ∈ rows, r.1 ∈ s.products ∧ r.1.isActive ∧ r.2 = totalSold s.orders r.1.id := by
    intro r hr
    obtain ⟨p, hp, rfl⟩ := List.mem_map.mp (h.mem_rows hr)
    have hcond := List.mem_filter.mp hp
    exact ⟨hcond.1, ((Bool.and_eq_true _ _).mp hcond.2).1, rfl⟩
  refine ⟨?_, fun r hr => ?_, ?_, fun q hq hactive hnot p hp hid => ?_⟩
  · rw [h.length]
    exact min_le_left _ _
  · obtain ⟨hmem, hactive, hsold⟩ := hrow r hr
    obtain ⟨p, hp, hid⟩ := exists_initial hs hmem
    exact ⟨hmem, hactive, p, hp, hid, by rw [hsold]; exact sold_eq_gone hs hp hmem hid⟩
  · refine h.inOrder.imp fun {r r'} hle => ?_
    rcases (Prod.Lex.toLex_le_toLex).mp hle with hlt | ⟨heq, -⟩
    · exact (OrderDual.toDual_lt_toDual.mp hlt).le
    · exact (OrderDual.toDual_inj.mp heq).ge
  · have hgone := sold_eq_gone hs hp hq hid
    by_cases hline : q.id ∈ (soldLines s.orders).map Prod.fst
    · -- its group is one that the limit has cut off
      have hmem : (q, totalSold s.orders q.id) ∈ bestSellerRows s :=
        List.mem_map_of_mem (List.mem_filter.mpr ⟨hq, by simp [hactive, hline]⟩)
      have habsent : (q, totalSold s.orders q.id) ∉ rows := fun hr => hnot _ hr rfl
      refine Or.inr ⟨h.length_of_not_mem hmem habsent, fun r hr => ?_⟩
      rw [← hgone]
      rcases (Prod.Lex.toLex_le_toLex).mp (h.le_of_not_mem hmem habsent hr) with hlt | ⟨heq, -⟩
      · exact_mod_cast (OrderDual.toDual_lt_toDual.mp hlt).le
      · exact_mod_cast (OrderDual.toDual_inj.mp heq).ge
    · rw [totalSold_eq_zero hline] at hgone
      exact Or.inl (by omega)

/-! The cache. -/

theorem store_visitAll (f : Storefront) (vs : List Visit) :
    (visitAll f vs).store = serveAll f.store (requests vs) := by
  induction vs generalizing f with
  | nil => rfl
  | cons v vs ih =>
    show (visitAll (visit f v) vs).store = _
    rw [ih]
    cases v with
    | request r => rfl
    | bestSellers now limit fresh =>
      have hsame : (visit f (.bestSellers now limit fresh)).store = f.store := by
        simp only [visit, bestSellers]
        cases f.cache limit with
        | none => rfl
        | some e =>
          obtain ⟨cachedAt, products⟩ := e
          dsimp only
          split_ifs <;> rfl
      rw [hsame]
      rfl

/-- A cached list was the answer of the database at the moment of an earlier visit. -/
def CachedFrom (before : List Visit) (f : Storefront) : Prop :=
  ∀ limit cachedAt products, f.cache limit = some (cachedAt, products) →
    ∃ pre post, before = pre ++ .bestSellers cachedAt limit products :: post

theorem CachedFrom.more {before : List Visit} {f : Storefront} (h : CachedFrom before f)
    (v : Visit) : CachedFrom (before ++ [v]) f := by
  intro limit cachedAt products hc
  obtain ⟨pre, post, rfl⟩ := h limit cachedAt products hc
  exact ⟨pre, post ++ [v], by simp⟩

theorem cachedFrom_visit {before : List Visit} {f : Storefront} (h : CachedFrom before f)
    (v : Visit) : CachedFrom (before ++ [v]) (visit f v) := by
  cases v with
  | request r => exact h.more _
  | bestSellers now limit fresh =>
    have hwritten : CachedFrom (before ++ [.bestSellers now limit fresh])
        { f with cache := Function.update f.cache limit (some (now, fresh)) } := by
      intro limit' cachedAt products hc
      have hentry : Function.update f.cache limit (some (now, fresh)) limit' =
          some (cachedAt, products) := hc
      by_cases hl : limit' = limit
      · subst hl
        rw [Function.update_self] at hentry
        cases hentry
        exact ⟨before, [], rfl⟩
      · rw [Function.update_of_ne hl] at hentry
        exact h.more _ limit' cachedAt products hentry
    show CachedFrom _ (bestSellers now limit fresh f).2
    unfold bestSellers
    cases hf : f.cache limit with
    | none => exact hwritten
    | some e =>
      obtain ⟨cachedAt, products⟩ := e
      dsimp only
      split_ifs
      · exact h.more _
      · exact hwritten

theorem cachedFrom_visitAll {f : Storefront} (vs : List Visit) :
    ∀ {before : List Visit}, CachedFrom before f → CachedFrom (before ++ vs) (visitAll f vs) := by
  induction vs generalizing f with
  | nil => intro before h; rwa [List.append_nil]
  | cons v vs ih =>
    intro before h
    have hstep := ih (cachedFrom_visit h v)
    rwa [List.append_assoc] at hstep

/-- A run in which the database answers every query from the tables as they are. -/
def Served (collate : String → κ) (f : Storefront) (vs : List Visit) : Prop :=
  Guarded (fun f v => some (visit f v)) (fun f v => v.Answered collate f) f vs

theorem Served.answered {collate : String → κ} {f : Storefront} {pre post : List Visit} {v : Visit}
    (h : Served collate f (pre ++ v :: post)) : v.Answered collate (visitAll f pre) :=
  (h.split (exec_some visit f pre)).2.1

/-- Every answer of the best-seller endpoint was computed less than a minute before, from the
tables of that moment, and counts for each product exactly the units that were gone from its
shelf by then. -/
theorem best_sellers_count_shelf (collate : String → κ) (c : Catalog) (vs : List Visit)
    (now : Timestamp) (limit : ℕ) (fresh : List (Product × ℕ))
    (hserved : Served collate ⟨c.store, fun _ => none⟩ (vs ++ [.bestSellers now limit fresh])) :
    ∃ pre cachedAt post, vs ++ [.bestSellers now limit fresh] =
        pre ++ .bestSellers cachedAt limit
          (bestSellers now limit fresh (visitAll ⟨c.store, fun _ => none⟩ vs)).1 :: post ∧
      now < cachedAt + bestSellersCacheTtlSeconds ∧
      CountsShelf c.products (serveAll c.store (requests pre)) limit
        (bestSellers now limit fresh (visitAll ⟨c.store, fun _ => none⟩ vs)).1 := by
  have hempty : CachedFrom [] ⟨c.store, fun _ => none⟩ := fun _ _ _ hc => by cases hc
  have hcached : CachedFrom vs (visitAll ⟨c.store, fun _ => none⟩ vs) :=
    cachedFrom_visitAll vs hempty
  have hright : ∀ pre cachedAt rows post, vs ++ [.bestSellers now limit fresh] =
      pre ++ .bestSellers cachedAt limit rows :: post →
      CountsShelf c.products (serveAll c.store (requests pre)) limit rows := by
    intro pre cachedAt rows post hsplit
    rw [hsplit] at hserved
    have hanswered := hserved.answered
    have hstore := store_visitAll ⟨c.store, fun _ => none⟩ pre
    have hquery : GetBestSellers collate limit (serveAll c.store (requests pre)) rows :=
      hstore ▸ hanswered
    exact countsShelf_of_getBestSellers (ledgerInv_serveAll c (requests pre)) hquery
  have hnow : now < now + bestSellersCacheTtlSeconds :=
    Nat.lt_add_of_pos_right (Nat.succ_pos _)
  unfold bestSellers
  cases hf : (visitAll ⟨c.store, fun _ => none⟩ vs).cache limit with
  | none => exact ⟨vs, now, [], rfl, hnow, hright vs now fresh [] rfl⟩
  | some e =>
    obtain ⟨cachedAt, products⟩ := e
    dsimp only
    split_ifs with hage
    · obtain ⟨pre, post, hsplit⟩ := hcached limit cachedAt products hf
      have hall : vs ++ [.bestSellers now limit fresh] = pre ++ .bestSellers cachedAt limit products ::
          (post ++ [.bestSellers now limit fresh]) := by
        rw [hsplit]
        simp
      have hage' : now < cachedAt + bestSellersCacheTtlSeconds := lt_add_of_tsub_lt_left hage
      exact ⟨pre, cachedAt, _, hall, hage', hright pre cachedAt products _ hall⟩
    · exact ⟨vs, now, [], rfl, hnow, hright vs now fresh [] rfl⟩

/-- A guest buys three cylinders, and the storefront asks for its best sellers. -/
def soldThree : List Visit :=
  [.request ⟨.createOrder true (cylinderCheckout 3) none 55, ⟨0, 20260101⟩⟩]

def threeSold : List (Product × ℕ) :=
  (serveAll tenCylinders.store (requests soldThree)).products.map fun p => (p, 3)

theorem soldThree_served : Served id ⟨tenCylinders.store, fun _ => none⟩
    (soldThree ++ [.bestSellers 5 8 threeSold]) := by
  have hrows : bestSellerRows (visitAll ⟨tenCylinders.store, fun _ => none⟩ soldThree).store =
      threeSold := by decide +kernel
  obtain ⟨row, hone⟩ : ∃ row, threeSold = [row] :=
    List.length_eq_one_iff.mp (by decide +kernel)
  refine ⟨trivial, fun f hf => ⟨?_, fun _ _ => trivial⟩⟩
  obtain rfl := Option.some.inj hf
  refine ⟨threeSold, List.Perm.of_eq hrows.symm, ?_, ?_⟩
  · rw [hone]
    exact List.pairwise_singleton _ row
  · rw [hone]
    rfl

theorem best_sellers_count_shelf_three : ∃ pre cachedAt post,
    soldThree ++ [.bestSellers 5 8 threeSold] = pre ++ .bestSellers cachedAt 8
      (bestSellers 5 8 threeSold (visitAll ⟨tenCylinders.store, fun _ => none⟩ soldThree)).1 :: post ∧
    5 < cachedAt + bestSellersCacheTtlSeconds ∧
    CountsShelf tenCylinders.products (serveAll tenCylinders.store (requests pre)) 8
      (bestSellers 5 8 threeSold (visitAll ⟨tenCylinders.store, fun _ => none⟩ soldThree)).1 :=
  best_sellers_count_shelf id tenCylinders soldThree 5 8 threeSold soldThree_served

end Qiki.Orders
