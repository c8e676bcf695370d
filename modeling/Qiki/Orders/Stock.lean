import Qiki.Orders.Session

/-! Stock rows: the locked read-modify-write of one product and of a list of lines. -/
namespace Qiki.Orders

/-- The rows after one line's change of stock. -/
def adjustStock (productId : Uuid) (change : ℤ) (products : List Product) : List Product :=
  Table.modify Product.id productId
    (fun p => { p with stockQuantity := p.stockQuantity + change }) products

/-- Sum of the quantities listed for one product. -/
def quantityOf (lines : List (Uuid × ℤ)) (productId : Uuid) : ℤ :=
  ((lines.filter fun l => l.1 = productId).map Prod.snd).sum

@[simp] theorem quantityOf_nil (p : Uuid) : quantityOf [] p = 0 := rfl

theorem quantityOf_cons (l : Uuid × ℤ) (ls : List (Uuid × ℤ)) (p : Uuid) :
    quantityOf (l :: ls) p = (if l.1 = p then l.2 else 0) + quantityOf ls p := by
  by_cases h : l.1 = p <;> simp [quantityOf, h]

theorem quantityOf_append (ls ms : List (Uuid × ℤ)) (p : Uuid) :
    quantityOf (ls ++ ms) p = quantityOf ls p + quantityOf ms p := by
  simp [quantityOf]

theorem quantityOf_neg (ls : List (Uuid × ℤ)) (p : Uuid) :
    quantityOf (ls.map fun l => (l.1, -l.2)) p = -quantityOf ls p := by
  induction ls with
  | nil => rfl
  | cons l ls ih =>
    rw [List.map_cons, quantityOf_cons, quantityOf_cons, ih]
    split_ifs <;> omega

theorem quantityOf_nonneg {ls : List (Uuid × ℤ)} (h : ∀ l ∈ ls, 0 ≤ l.2) (p : Uuid) :
    0 ≤ quantityOf ls p := by
  induction ls with
  | nil => exact le_refl 0
  | cons l ls ih =>
    have hl := h l (List.mem_cons_self ..)
    have hls := ih fun l' hl' => h l' (List.mem_cons_of_mem _ hl')
    rw [quantityOf_cons]
    split_ifs <;> omega

/-- The rows after a list of changes, taken one at a time. -/
def adjustAll (lines : List (Uuid × ℤ)) (products : List Product) : List Product :=
  lines.foldl (fun rows l => adjustStock l.1 l.2 rows) products

/-- A list of changes moves each product by its total. -/
theorem adjustAll_eq (lines : List (Uuid × ℤ)) (products : List Product) :
    adjustAll lines products =
      products.map fun p =>
        { p with stockQuantity := p.stockQuantity + quantityOf lines p.id } := by
  induction lines generalizing products with
  | nil => simp [adjustAll]
  | cons l ls ih =>
    have hstep : adjustAll (l :: ls) products = adjustAll ls (adjustStock l.1 l.2 products) := rfl
    rw [hstep, ih, adjustStock, Table.modify, List.map_map]
    refine List.map_congr_left fun p _ => ?_
    simp only [Function.comp_apply, quantityOf_cons]
    by_cases h : p.id = l.1
    · simp only [h, if_true, Product.mk.injEq, true_and, and_true]
      omega
    · have h' : ¬l.1 = p.id := fun e => h e.symm
      simp [h, h']

theorem ids_adjustStock (productId : Uuid) (change : ℤ) (products : List Product) :
    (adjustStock productId change products).map Product.id = products.map Product.id :=
  Table.map_modify fun _ _ => rfl

def getManyForUpdate (productIds : List Uuid) : Db (List Product) := do
  execute
  let s ← getStore
  return s.products.filter fun p => p.id ∈ productIds

/-- `decrement_stock`: the row is locked, read, checked and written. -/
def decrementStock (productId : Uuid) (quantity : ℕ) : Db Unit := do
  execute
  let s ← getStore
  match Table.find Product.id productId s.products with
  | none => raise (.notFound "Product not found" "product_not_found")
  | some product =>
    if product.stockQuantity < quantity then
      raise (.insufficientStock
        s!"Insufficient stock: requested {quantity}, available {product.stockQuantity}")
    else do
      execute
      setStore { s with products := adjustStock productId (-quantity) s.products }

def incrementStock (productId : Uuid) (quantity : ℕ) : Db Unit := do
  execute
  let s ← getStore
  match Table.find Product.id productId s.products with
  | none => raise (.notFound "Product not found" "product_not_found")
  | some _ => do
    execute
    setStore { s with products := adjustStock productId quantity s.products }

/-- What a successful decrement has checked and written. -/
theorem decrementStock_eq_ok {p : Uuid} {q : ℕ} {s t : Session} {u : Unit}
    (h : decrementStock p q s = .ok (u, t)) :
    (∃ row, Table.find Product.id p s.store.products = some row ∧ (q : ℤ) ≤ row.stockQuantity) ∧
      t.store = { s.store with products := adjustStock p (-q) s.store.products } := by
  unfold decrementStock at h
  obtain ⟨_, s₁, h₁, h⟩ := bind_eq_ok.mp h
  obtain ⟨_, s₂, h₂, h⟩ := bind_eq_ok.mp h
  obtain ⟨rfl, rfl⟩ := getStore_eq_ok.mp h₂
  rw [execute_store h₁] at h
  cases hrow : Table.find Product.id p s.store.products with
  | none => simp [hrow] at h
  | some row =>
    simp only [hrow] at h
    by_cases hq : row.stockQuantity < q
    · simp [hq] at h
    · rw [if_neg hq] at h
      obtain ⟨_, s₃, h₃, h⟩ := bind_eq_ok.mp h
      exact ⟨⟨row, rfl, not_lt.mp hq⟩, by rw [setStore_eq_ok.mp h]⟩

theorem incrementStock_eq_ok {p : Uuid} {q : ℕ} {s t : Session} {u : Unit}
    (h : incrementStock p q s = .ok (u, t)) :
    t.store = { s.store with products := adjustStock p q s.store.products } := by
  unfold incrementStock at h
  obtain ⟨_, s₁, h₁, h⟩ := bind_eq_ok.mp h
  obtain ⟨_, s₂, h₂, h⟩ := bind_eq_ok.mp h
  obtain ⟨rfl, rfl⟩ := getStore_eq_ok.mp h₂
  rw [execute_store h₁] at h
  cases hrow : Table.find Product.id p s.store.products with
  | none => simp [hrow] at h
  | some row =>
    simp only [hrow] at h
    obtain ⟨_, s₃, h₃, h⟩ := bind_eq_ok.mp h
    rw [setStore_eq_ok.mp h]

/-- `for product_id, quantity in ...: await decrement_stock(...)` -/
def decrementAll : List (Uuid × ℕ) → Db Unit
  | [] => pure ()
  | l :: lines => do
    decrementStock l.1 l.2
    decrementAll lines

theorem decrementAll_eq_ok {lines : List (Uuid × ℕ)} {s t : Session} {u : Unit}
    (h : decrementAll lines s = .ok (u, t)) :
    t.store = { s.store with
      products := adjustAll (lines.map fun l => (l.1, -(l.2 : ℤ))) s.store.products } := by
  induction lines generalizing s with
  | nil =>
    obtain ⟨-, rfl⟩ := pure_eq_ok.mp h
    rfl
  | cons l ls ih =>
    rw [decrementAll] at h
    obtain ⟨_, s₁, h₁, h⟩ := bind_eq_ok.mp h
    rw [ih h, (decrementStock_eq_ok h₁).2]
    rfl

/-- The check under the row lock keeps every stock value nonnegative. -/
theorem decrementAll_nonneg {lines : List (Uuid × ℕ)} {s t : Session} {u : Unit}
    (h : decrementAll lines s = .ok (u, t)) (hn : (s.store.products.map Product.id).Nodup)
    (hs : ∀ p ∈ s.store.products, 0 ≤ p.stockQuantity) :
    ∀ p ∈ t.store.products, 0 ≤ p.stockQuantity := by
  induction lines generalizing s with
  | nil =>
    obtain ⟨-, rfl⟩ := pure_eq_ok.mp h
    exact hs
  | cons l ls ih =>
    rw [decrementAll] at h
    obtain ⟨_, s₁, h₁, h⟩ := bind_eq_ok.mp h
    obtain ⟨⟨row, hrow, hq⟩, hst⟩ := decrementStock_eq_ok h₁
    have hp : s₁.store.products = adjustStock l.1 (-l.2) s.store.products := by rw [hst]
    refine ih h (by rw [hp, ids_adjustStock]; exact hn) fun p hps => ?_
    rw [hp, adjustStock, Table.mem_modify] at hps
    obtain ⟨r, hr, rfl⟩ := hps
    by_cases hid : r.id = l.1
    · have hrr : r = row := by
        have hfind := Table.find_of_mem hn hr
        rw [hid, hrow] at hfind
        exact (Option.some.inj hfind).symm
      rw [if_pos hid, hrr]
      show 0 ≤ row.stockQuantity + -(l.2 : ℤ)
      omega
    · rw [if_neg hid]
      exact hs r hr

end Qiki.Orders
