import Mathlib.Data.String.Basic
import Qiki.Catalog.Storefront
import Qiki.Collections.FirstRows
import Qiki.Collections.Pages

/-! The pages of the grouped catalog: one category straight from the database, both merged in
memory. -/
namespace Qiki.Catalog

open Orders FirstRows

/-- What `ORDER BY name` answers: the rows by the collation of the database, and rows with equal names
always in the same order. -/
structure OrderByName {κ : Type} [LinearOrder κ] (collate : String → κ) {α : Type}
    (name : α → String) where
  rows : List α → List α
  perm : ∀ l, (rows l).Perm l
  inOrder : ∀ l, InOrder (fun a => collate (name a)) (rows l)

structure ProductParentListResponse where
  items : List ProductParentSummary
  total : ℕ
  page : ℕ
  limit : ℕ
  hasMore : Bool
  deriving DecidableEq, Repr

def Shop.gasProducts (shop : Shop) : List Product :=
  shop.activeProducts.filter fun product => product.category = .gas

section
variable {κ : Type} [LinearOrder κ] {collate : String → κ}
variable (productsByName : OrderByName collate Product.name)
variable (parentsByName : OrderByName collate ProductParent.name)
variable (shop : Shop)

/-- `list_products` for a category, by name. -/
def listProducts (category : Category) (skip limit : ℕ) : List Product × ℕ :=
  let rows := shop.activeProducts.filter fun product => product.category = category
  (((productsByName.rows rows).drop skip).take limit, rows.length)

def listParents (category : Category) (skip limit : ℕ) : List ProductParent × ℕ :=
  let rows := shop.parents.filter fun parent => parent.isActive && parent.category = category
  (((parentsByName.rows rows).drop skip).take limit, rows.length)

def listIndividual (category : Category) (skip limit : ℕ) : List ProductParentSummary × ℕ :=
  let (products, total) := listProducts productsByName shop category skip limit
  (products.map summarizeProduct, total)

def listGrouped (category : Category) (skip limit : ℕ) : List ProductParentSummary × ℕ :=
  let (parents, total) := listParents parentsByName shop category skip limit
  (parents.map summarizeParent, total)

def combinedFetchLimit : ℕ := 100

def sortedByName (cards : List ProductParentSummary) : List ProductParentSummary :=
  cards.insertionSort fun a b => a.name ≤ b.name

def listGroupedCatalog (category : Option Category) (skip limit : ℕ) : ProductParentListResponse :=
  let page := if limit ≠ 0 then skip / limit + 1 else 1
  match category with
  | some .gas =>
    let (items, total) := listIndividual productsByName shop .gas skip limit
    { items, total, page, limit, hasMore := skip + items.length < total }
  | some .nuocUong =>
    let (items, total) := listGrouped parentsByName shop .nuocUong skip limit
    { items, total, page, limit, hasMore := skip + items.length < total }
  | none =>
    let (gasItems, _) := listIndividual productsByName shop .gas 0 combinedFetchLimit
    let (waterItems, _) := listGrouped parentsByName shop .nuocUong 0 combinedFetchLimit
    let combined := sortedByName (gasItems ++ waterItems)
    let total := combined.length
    let items := (combined.drop skip).take limit
    { items, total, page, limit, hasMore := skip + items.length < total }

/-- The pages from `skip` on, until one has no more. -/
def ReadsPages (category : Option Category) (limit : ℕ) : ℕ → List ProductParentListResponse → Prop :=
  Pages.Reads (listGroupedCatalog productsByName parentsByName shop category · limit) (·.hasMore) limit

/-- The cards that the pages of a category are cut from. -/
def catalogCards : Option Category → List ProductParentSummary
  | some .gas => (productsByName.rows shop.gasProducts).map summarizeProduct
  | some .nuocUong => (parentsByName.rows shop.waterParents).map summarizeParent
  | none =>
    sortedByName (((productsByName.rows shop.gasProducts).take combinedFetchLimit).map summarizeProduct ++
      ((parentsByName.rows shop.waterParents).take combinedFetchLimit).map summarizeParent)

/-- Every card once, by name, and every page tells how many there are. -/
structure CoversOnce (cards : List ProductParentSummary) (pages : List ProductParentListResponse) :
    Prop where
  once : (pages.flatMap (·.items)).Perm cards
  inOrder : InOrder (·.name) (pages.flatMap (·.items))
  total : ∀ page ∈ pages, page.total = cards.length

/-- The pages without a category come to an end, and they show every active gas product and every
active water parent. -/
def PagesCoverOnce (limit : ℕ) : Prop :=
  (∃ pages, ReadsPages productsByName parentsByName shop none limit 0 pages) ∧
    ∀ pages, ReadsPages productsByName parentsByName shop none limit 0 pages →
      CoversOnce shop.groupedCatalog pages

variable {productsByName parentsByName shop} {category : Option Category} {skip limit : ℕ}

theorem length_groupedCatalog :
    shop.groupedCatalog.length = shop.gasProducts.length + shop.waterParents.length := by
  rw [Shop.groupedCatalog, List.length_append, List.length_map, List.length_map]
  rfl

theorem length_sortedByName (cards : List ProductParentSummary) :
    (sortedByName cards).length = cards.length := List.length_insertionSort _ _

/-- Each branch cuts its page from the cards of its category. -/
theorem listGroupedCatalog_items (category : Option Category) (skip limit : ℕ) :
    (listGroupedCatalog productsByName parentsByName shop category skip limit).items =
      Pages.rows (catalogCards productsByName parentsByName shop category) skip limit := by
  rcases category with _ | (_ | _)
  · simp only [listGroupedCatalog, catalogCards, Pages.rows, listIndividual, listProducts, listGrouped,
      listParents, List.drop_zero]
    rfl
  · simp only [listGroupedCatalog, catalogCards, Pages.rows, listIndividual, listProducts,
      List.map_take, List.map_drop]
    rfl
  · simp only [listGroupedCatalog, catalogCards, Pages.rows, listGrouped, listParents,
      List.map_take, List.map_drop]
    rfl

theorem listGroupedCatalog_total (category : Option Category) (skip limit : ℕ) :
    (listGroupedCatalog productsByName parentsByName shop category skip limit).total =
      (catalogCards productsByName parentsByName shop category).length := by
  rcases category with _ | (_ | _)
  · simp only [listGroupedCatalog, catalogCards, listIndividual, listProducts, listGrouped,
      listParents, List.drop_zero]
    rfl
  · rw [catalogCards, List.length_map, (productsByName.perm _).length_eq]
    rfl
  · rw [catalogCards, List.length_map, (parentsByName.perm _).length_eq]
    rfl

theorem listGroupedCatalog_hasMore (category : Option Category) (skip limit : ℕ) :
    (listGroupedCatalog productsByName parentsByName shop category skip limit).hasMore =
      Pages.hasMore (catalogCards productsByName parentsByName shop category) skip limit := by
  have hdefinition :
      (listGroupedCatalog productsByName parentsByName shop category skip limit).hasMore =
        decide (skip +
          (listGroupedCatalog productsByName parentsByName shop category skip limit).items.length <
          (listGroupedCatalog productsByName parentsByName shop category skip limit).total) := by
    rcases category with _ | (_ | _) <;> rfl
  rw [hdefinition, listGroupedCatalog_items, listGroupedCatalog_total, Pages.hasMore]

/-- The pages put together are the cards of the category, and every page reports their number. -/
theorem ReadsPages.cards {pages : List ProductParentListResponse}
    (h : ReadsPages productsByName parentsByName shop category limit 0 pages) :
    pages.flatMap (·.items) = catalogCards productsByName parentsByName shop category ∧
      ∀ page ∈ pages,
        page.total = (catalogCards productsByName parentsByName shop category).length := by
  constructor
  · have hitems := Pages.Reads.items (fun s => listGroupedCatalog_hasMore category s limit)
      (fun s => listGroupedCatalog_items category s limit) h
    rwa [List.drop_zero] at hitems
  · intro page hpage
    obtain ⟨s, rfl⟩ := h.mem hpage
    exact listGroupedCatalog_total category s limit

theorem exists_readsPages (hlimit : 0 < limit) (category : Option Category) :
    ∃ pages, ReadsPages productsByName parentsByName shop category limit 0 pages :=
  Pages.exists_reads (fun s => listGroupedCatalog_hasMore category s limit) hlimit 0

theorem length_catalogCards_none :
    (catalogCards productsByName parentsByName shop none).length =
      min 100 shop.gasProducts.length + min 100 shop.waterParents.length := by
  rw [catalogCards, length_sortedByName, List.length_append, List.length_map, List.length_map,
    List.length_take, List.length_take, (productsByName.perm _).length_eq,
    (parentsByName.perm _).length_eq, combinedFetchLimit]

theorem inOrder_sortedByName (cards : List ProductParentSummary) :
    InOrder (·.name) (sortedByName cards) := List.pairwise_insertionSort _ _

/-- Nothing is cut off from a category of up to a hundred cards. -/
theorem catalogCards_none_perm (hgas : shop.gasProducts.length ≤ 100)
    (hwater : shop.waterParents.length ≤ 100) :
    (catalogCards productsByName parentsByName shop none).Perm shop.groupedCatalog := by
  have hproducts : (productsByName.rows shop.gasProducts).take combinedFetchLimit =
      productsByName.rows shop.gasProducts := by
    apply List.take_of_length_le
    rwa [(productsByName.perm _).length_eq]
  have hparents : (parentsByName.rows shop.waterParents).take combinedFetchLimit =
      parentsByName.rows shop.waterParents := by
    apply List.take_of_length_le
    rwa [(parentsByName.perm _).length_eq]
  rw [catalogCards, hproducts, hparents]
  refine (List.perm_insertionSort _ _).trans ?_
  exact ((productsByName.perm _).map _).append ((parentsByName.perm _).map _)

/-- The cards of a category are those of its table. -/
theorem catalogCards_some_perm (c : Category) :
    (catalogCards productsByName parentsByName shop (some c)).Perm
      (shop.groupedCatalog.filter (·.category = c)) := by
  have hgas : ∀ card ∈ shop.gasProducts.map summarizeProduct, card.category = .gas := by
    intro card hcard
    obtain ⟨product, hproduct, rfl⟩ := List.mem_map.mp hcard
    exact of_decide_eq_true (List.mem_filter.mp hproduct).2
  have hwater : ∀ card ∈ shop.waterParents.map summarizeParent, card.category = .nuocUong := by
    intro card hcard
    obtain ⟨parent, hparent, rfl⟩ := List.mem_map.mp hcard
    have hboth := (List.mem_filter.mp hparent).2
    exact of_decide_eq_true (Bool.and_eq_true_iff.mp hboth).2
  have hcatalog : shop.groupedCatalog =
      shop.gasProducts.map summarizeProduct ++ shop.waterParents.map summarizeParent := rfl
  rw [hcatalog, List.filter_append]
  cases c with
  | gas =>
    have hkeep := List.filter_eq_self.mpr fun card hcard => decide_eq_true (hgas card hcard)
    have hdrop : (shop.waterParents.map summarizeParent).filter (·.category = .gas) = [] := by
      refine List.filter_eq_nil_iff.mpr fun card hcard => ?_
      simp [hwater card hcard]
    rw [hkeep, hdrop, List.append_nil]
    exact (productsByName.perm _).map _
  | nuocUong =>
    have hdrop : (shop.gasProducts.map summarizeProduct).filter (·.category = .nuocUong) = [] := by
      refine List.filter_eq_nil_iff.mpr fun card hcard => ?_
      simp [hgas card hcard]
    have hkeep := List.filter_eq_self.mpr fun card hcard => decide_eq_true (hwater card hcard)
    rw [hkeep, hdrop, List.nil_append]
    exact (parentsByName.perm _).map _

/-- With a category the pages are never cut off. -/
theorem category_pages {c : Category} {pages : List ProductParentListResponse}
    (h : ReadsPages productsByName parentsByName shop (some c) limit 0 pages) :
    (pages.flatMap (·.items)).Perm (shop.groupedCatalog.filter (·.category = c)) ∧
      ∀ page ∈ pages, page.total = (shop.groupedCatalog.filter (·.category = c)).length := by
  have hcards : (catalogCards productsByName parentsByName shop (some c)).Perm
      (shop.groupedCatalog.filter (·.category = c)) := catalogCards_some_perm c
  obtain ⟨hitems, htotal⟩ := h.cards
  constructor
  · rwa [hitems]
  · intro page hpage
    rw [htotal page hpage, hcards.length_eq]

/-- As many cards as the catalog has are left when each category is cut off at a hundred. -/
theorem PagesCoverOnce.length (h : PagesCoverOnce productsByName parentsByName shop limit) :
    min 100 shop.gasProducts.length + min 100 shop.waterParents.length =
      shop.gasProducts.length + shop.waterParents.length := by
  obtain ⟨⟨pages, hpages⟩, hcovers⟩ := h
  have honce := (hcovers pages hpages).once.length_eq
  rwa [hpages.cards.1, length_catalogCards_none, length_groupedCatalog] at honce

end

/-- For every page size, the pages without a category show every card once exactly when neither
category has more than a hundred. -/
theorem grouped_pages_cover {κ : Type} [LinearOrder κ] {collate : String → κ}
    (productsByName : OrderByName collate Product.name)
    (parentsByName : OrderByName collate ProductParent.name) (shop : Shop) {limit : ℕ}
    (hlimit : 1 ≤ limit) :
    PagesCoverOnce productsByName parentsByName shop limit ↔
      shop.gasProducts.length ≤ 100 ∧ shop.waterParents.length ≤ 100 := by
  constructor
  · intro h
    have hlength := h.length
    omega
  · rintro ⟨hgas, hwater⟩
    refine ⟨exists_readsPages hlimit none, fun pages hpages => ?_⟩
    obtain ⟨hitems, htotal⟩ := hpages.cards
    have hperm : (catalogCards productsByName parentsByName shop none).Perm shop.groupedCatalog :=
      catalogCards_none_perm hgas hwater
    constructor
    · rwa [hitems]
    · rw [hitems]
      exact inOrder_sortedByName _
    · intro page hpage
      rw [htotal page hpage, hperm.length_eq]

/-! A database that collates as the code does, and shops with one cylinder after the other. -/

def byName {α : Type} (name : α → String) : OrderByName id name where
  rows := fun l => l.insertionSort fun a b => name a ≤ name b
  perm := fun l => List.perm_insertionSort _ l
  inOrder := fun l => List.pairwise_insertionSort (fun a b => name a ≤ name b) l

def gasShop (n : ℕ) : Shop where
  products := (List.range n).map fun i =>
    { id := i
      sku := "GAS12"
      name := "Bình gas 12kg"
      brand := "Elf Gas"
      sizeKg := 12
      category := .gas
      unit := "kg"
      price := 450000
      salePrice := none
      stockQuantity := 10
      isActive := true }
  parents := []

theorem grouped_pages_cover_gasShop :
    PagesCoverOnce (byName Product.name) (byName ProductParent.name) (gasShop 30) 20 :=
  (grouped_pages_cover (byName Product.name) (byName ProductParent.name) (gasShop 30)
    (by decide : 1 ≤ 20)).mpr ⟨by decide +kernel, by decide +kernel⟩

/-- Of a hundred and one cylinders the pages show and count a hundred. -/
theorem grouped_catalog_cut_off :
    (gasShop 101).gasProducts.length = 101 ∧
      (listGroupedCatalog (byName Product.name) (byName ProductParent.name) (gasShop 101) none 0
        100).total = 100 ∧
      ¬ ∀ (collate : String → String) (productsByName : OrderByName collate Product.name)
        (parentsByName : OrderByName collate ProductParent.name) (shop : Shop) (limit : ℕ),
        1 ≤ limit → limit ≤ 100 → PagesCoverOnce productsByName parentsByName shop limit := by
  have hgas : (gasShop 101).gasProducts.length = 101 := by decide +kernel
  have hwater : (gasShop 101).waterParents.length = 0 := rfl
  refine ⟨hgas, ?_, fun hclaim => ?_⟩
  · rw [listGroupedCatalog_total, length_catalogCards_none, hgas, hwater]
    rfl
  · have hlength := (hclaim id (byName Product.name) (byName ProductParent.name) (gasShop 101) 20
      (by decide) (by decide)).length
    rw [hgas, hwater] at hlength
    exact absurd hlength (by decide)

end Qiki.Catalog
