import Qiki.Chat.PriceAnswers
import Qiki.Collections.FirstRows

/-! The catalog query behind `find_products`, against a filter of the whole catalog. -/
namespace Qiki.Chat

open Unicode Orders Catalog FirstRows

/-! `list_products`; `lower` is the lower case of the database. -/

/-- `LIKE`: `%` stands for any text, `_` for one character, and a backslash takes what follows it
literally. -/
def like : Text → Text → Bool
  | [], s => s.isEmpty
  | '\\' :: c :: pattern, s => s.head? = some c && like pattern s.tail
  | '%' :: pattern, s => s.tails.any (like pattern)
  | '_' :: pattern, s => !s.isEmpty && like pattern s.tail
  | c :: pattern, s => s.head? = some c && like pattern s.tail

def ilike (lower : Text → Text) (s pattern : Text) : Bool := like (lower pattern) (lower s)

section
variable (db : Database) (lower : Text → Text)

/-- The conditions of `list_products` for the parameters that `find_products` sets. -/
def sqlMatches (params : ProductSearchParams) (p : Product) : Bool :=
  p.isActive &&
    (params.brand.all fun brand =>
      brand.isEmpty || ilike lower p.brand ("%" ++ Text.strip db.space brand ++ "%")) &&
    (params.category.all fun category => p.category = category) &&
    (params.minPrice.all fun low => low ≤ p.price) &&
    (params.maxPrice.all fun high => p.price ≤ high) &&
    (params.sizeKg.all fun size => p.sizeKg = size)

/-- The database answers each query with the first of its rows by price; rows with equal prices come
in any order. -/
def AnswersSearch (products : List Product) (search : ProductSearchParams → List Product) : Prop :=
  ∀ params, IsFirst Product.price params.limit (products.filter (sqlMatches db lower params))
    (search params)

/-- `find_products(query, limit=limit)` -/
def findProductsUpTo (search : ProductSearchParams → List Product) (limit : ℕ) (query : ProductQuery) :
    List Product :=
  filterProducts db (search { searchParams query with limit := limit }) query

def activeProducts (products : List Product) : List Product := products.filter (·.isActive)

/-- Whatever the order of equal prices, `find_products` gives the first `limit` products of
`filter_products` of the whole catalog. -/
def EqualsWholeFilter (products : List Product) (limit : ℕ) (query : ProductQuery) : Prop :=
  ∀ search, AnswersSearch db lower products search →
    IsFirst Product.price limit (filterProducts db (activeProducts products) query)
      (findProductsUpTo db search limit query)

/-- The rows from which the database takes the first. -/
def searchedRows (products : List Product) (query : ProductQuery) : List Product :=
  products.filter (sqlMatches db lower (searchParams query))

/-- Every product that matches is a row of the query, and so few rows are as cheap that it is among
the first. -/
def MatchesFit (products : List Product) (limit : ℕ) (query : ProductQuery) : Prop :=
  ∀ p ∈ activeProducts products, matchesQuery db query p = true →
    sqlMatches db lower (searchParams query) p = true ∧
      ((searchedRows db lower products query).countP fun r => r.price ≤ p.price) ≤ limit

/-- There are enough rows, all that may be among the first match, and a product that matches without
being a row is no cheaper than these. -/
def FirstRowsMatch (products : List Product) (limit : ℕ) (query : ProductQuery) : Prop :=
  limit ≤ (searchedRows db lower products query).length ∧
    (∀ p ∈ activeProducts products, sqlMatches db lower (searchParams query) p = true →
      ((searchedRows db lower products query).countP fun r => r.price < p.price) < limit →
        matchesQuery db query p = true) ∧
    ∀ p ∈ activeProducts products, matchesQuery db query p = true →
      sqlMatches db lower (searchParams query) p = false →
        limit ≤ (searchedRows db lower products query).countP fun r => r.price ≤ p.price

/-- A table whose rows with equal prices come in its own order. -/
def tableSearch (products : List Product) (params : ProductSearchParams) : List Product :=
  ((products.filter (sqlMatches db lower params)).insertionSort fun a b => a.price ≤ b.price).take
    params.limit

variable {db lower} {products : List Product}

theorem answersSearch_tableSearch : AnswersSearch db lower products (tableSearch db lower products) :=
  fun _ => ⟨_, List.perm_insertionSort _ _, List.pairwise_insertionSort _ _, rfl⟩

/-- Any first rows may be the answer to a query. -/
theorem exists_answersSearch (params : ProductSearchParams) {page : List Product}
    (h : IsFirst Product.price params.limit (products.filter (sqlMatches db lower params)) page) :
    ∃ search, AnswersSearch db lower products search ∧ search params = page := by
  refine ⟨fun params' => if params' = params then page else tableSearch db lower products params',
    fun params' => ?_, if_pos rfl⟩
  dsimp only
  split_ifs with heq
  · rw [heq]
    exact h
  · exact answersSearch_tableSearch params'

/-- Rows in the order of their prices are filtered without being moved. -/
theorem filterProducts_of_inOrder {page : List Product} (h : InOrder Product.price page)
    (query : ProductQuery) : filterProducts db page query = page.filter (matchesQuery db query) :=
  (h.filter _).insertionSort_eq

theorem activeProducts_filter (query : ProductQuery) :
    (activeProducts products).filter (sqlMatches db lower (searchParams query)) =
      searchedRows db lower products query := by
  rw [activeProducts, List.filter_filter, searchedRows]
  refine List.filter_congr fun p _ => ?_
  cases hactive : p.isActive with
  | true => rw [Bool.and_true]
  | false => simp [sqlMatches, hactive]

theorem equalsWholeFilter_iff_pages {limit : ℕ} {query : ProductQuery} :
    EqualsWholeFilter db lower products limit query ↔
      ∀ page, IsFirst Product.price limit (searchedRows db lower products query) page →
        IsFirst Product.price limit ((activeProducts products).filter (matchesQuery db query))
          (page.filter (matchesQuery db query)) := by
  have hrows {page : List Product} :
      IsFirst Product.price limit (filterProducts db (activeProducts products) query) page ↔
        IsFirst Product.price limit ((activeProducts products).filter (matchesQuery db query)) page :=
    isFirst_congr (List.perm_insertionSort _ _)
  constructor
  · intro h page hpage
    obtain ⟨search, hsearch, hanswer⟩ :=
      exists_answersSearch { searchParams query with limit := limit } hpage
    have hfirst := h search hsearch
    rw [findProductsUpTo, hanswer, filterProducts_of_inOrder hpage.inOrder] at hfirst
    exact hrows.mp hfirst
  · intro h search hsearch
    have hpage := hsearch { searchParams query with limit := limit }
    rw [findProductsUpTo, filterProducts_of_inOrder hpage.inOrder]
    exact hrows.mpr (h _ hpage)

end

/-- For every message, `find_products` agrees with the filter of the whole catalog exactly when the
products that match are among the first rows of the query, or these all match and are the first of
those that match. -/
theorem findProducts_eq_wholeFilter (db : Database) (lower : Text → Text) {products : List Product}
    (hids : (products.map Product.id).Nodup) (limit : ℕ) (text : Text) (brands : List Text) :
    EqualsWholeFilter db lower products limit (parseProductQuery db text brands) ↔
      MatchesFit db lower products limit (parseProductQuery db text brands) ∨
        FirstRowsMatch db lower products limit (parseProductQuery db text brands) := by
  have hnodup : (activeProducts products).Nodup := (List.Nodup.of_map _ hids).filter _
  rw [equalsWholeFilter_iff_pages]
  simp only [MatchesFit, FirstRowsMatch, ← activeProducts_filter]
  exact isFirst_filter_iff hnodup

/-! A brand that is entered once with and once without its accents. -/

def cylinderOf (id : Uuid) (brand : String) (price : Decimal) : Product where
  id := id
  sku := "GAS12"
  name := "Bình gas 12kg"
  brand := brand
  sizeKg := 12
  category := .gas
  unit := "kg"
  price := price
  salePrice := none
  stockQuantity := 10
  isActive := true

/-- The lower case of the database, for the characters of the example. -/
def lowerVi : Text → Text := Unicode.lower Vietnamese.database

def elfShop : List Product := [cylinderOf 1 "Elf Gas" 450000, cylinderOf 2 "Petro" 420000]

def cheapestElf : ProductQuery :=
  parseProductQuery Vietnamese.database "Gas Elf 12kg rẻ nhất" (catalogBrands elfShop)

theorem findProducts_eq_wholeFilter_elf :
    EqualsWholeFilter Vietnamese.database lowerVi elfShop 20 cheapestElf := by
  have hids : (elfShop.map Product.id).Nodup := by decide
  refine (findProducts_eq_wholeFilter Vietnamese.database lowerVi hids 20 "Gas Elf 12kg rẻ nhất"
    (catalogBrands elfShop)).mpr (Or.inl ?_)
  unfold MatchesFit
  decide +kernel

def accentedShop : List Product :=
  [cylinderOf 1 "Sai Gon Petro" 450000, cylinderOf 2 "Sài Gòn Petro" 420000]

def cheapestSaiGon : ProductQuery :=
  parseProductQuery Vietnamese.database "Gas Sài Gòn Petro 12kg rẻ nhất" (catalogBrands accentedShop)

/-- Both products match without accents, but only one is a row of the query. -/
theorem accented_brand_missed :
    findProductsUpTo Vietnamese.database (tableSearch Vietnamese.database lowerVi accentedShop) 20
        cheapestSaiGon = [cylinderOf 1 "Sai Gon Petro" 450000] ∧
      filterProducts Vietnamese.database (activeProducts accentedShop) cheapestSaiGon =
        [cylinderOf 2 "Sài Gòn Petro" 420000, cylinderOf 1 "Sai Gon Petro" 450000] ∧
      ¬ ∀ (db : Database) (lower : Text → Text) (products : List Product) (text : Text),
        (products.map Product.id).Nodup → EqualsWholeFilter db lower products 20
          (parseProductQuery db text (catalogBrands (activeProducts products))) := by
  have hfound : findProductsUpTo Vietnamese.database
      (tableSearch Vietnamese.database lowerVi accentedShop) 20 cheapestSaiGon =
        [cylinderOf 1 "Sai Gon Petro" 450000] := by decide +kernel
  have hwhole : filterProducts Vietnamese.database (activeProducts accentedShop) cheapestSaiGon =
      [cylinderOf 2 "Sài Gòn Petro" 420000, cylinderOf 1 "Sai Gon Petro" 450000] := by decide +kernel
  refine ⟨hfound, hwhole, fun hclaim => ?_⟩
  have hfirst := hclaim Vietnamese.database lowerVi accentedShop "Gas Sài Gòn Petro 12kg rẻ nhất"
    (by decide) _ answersSearch_tableSearch
  have hlength := hfirst.length
  change (findProductsUpTo Vietnamese.database _ 20 cheapestSaiGon).length =
    min 20 (filterProducts Vietnamese.database (activeProducts accentedShop) cheapestSaiGon).length
    at hlength
  rw [hfound, hwhole] at hlength
  cases hlength

end Qiki.Chat
