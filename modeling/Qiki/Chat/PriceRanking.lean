import Qiki.Chat.ProductSearch

/-! The answers to price questions, against the prices that are charged. -/
namespace Qiki.Chat

open Unicode Orders Catalog FirstRows

/-- What an answer to a price question says. -/
inductive PriceAnswer
  | noMatch
  | cheapest (p : Product)
  | mostExpensive (p : Product)
  | listed (ps : List Product)
  deriving DecidableEq, Repr

/-- The answer for the products that `find_products` returns, in their order. -/
def priceAnswer (kind : PriceKind) (found : List Product) : PriceAnswer :=
  match found.head?, found.getLast? with
  | some first, some last =>
    match kind with
    | .cheapest => .cheapest first
    | .mostExpensive => .mostExpensive last
    | _ => .listed (found.take 5)
  | _, _ => .noMatch

section
variable (db : Database) (query : ProductQuery)

def PriceAnswer.text (language : Language) : PriceAnswer → Text
  | .noMatch => match language with
    | .en => "Sorry, the store doesn't have an option matching your request yet. " ++
      "Please take a look at the price list below."
    | .vi => "Dạ hiện cửa hàng chưa có loại phù hợp với yêu cầu của bạn. " ++
      "Bạn tham khảo bảng giá bên dưới giúp Qiki nhé ạ."
  | .cheapest p => superlativePriceMessage db query p
      (match language with | .en => "cheapest" | .vi => "rẻ nhất") language
  | .mostExpensive p => superlativePriceMessage db query p
      (match language with | .en => "most expensive" | .vi => "đắt nhất") language
  | .listed ps => priceRangeMessage db query ps language

/-- The conditions of `filter_products` other than those on the price. -/
def asksFor (p : Product) : Bool :=
  (query.brand.all fun brand => (stripAccents db p.brand).contains (stripAccents db brand)) &&
    (query.sizeKg.all fun size => p.sizeKg = size) &&
    (query.category.all fun category => p.category = category) &&
    (!query.isSpecific || query.colour.all fun colour => hasWord db (stripAccents db p.name) colour)

def withinBounds (price : Decimal) : Bool :=
  ((priceBounds query).1.all fun low => low ≤ price) &&
    ((priceBounds query).2.all fun high => price ≤ high)

/-- The answer is right about the prices that are charged. -/
def PriceAnswer.Right (products : List Product) : PriceAnswer → Prop
  | .noMatch => ∀ p ∈ activeProducts products, asksFor db query p = true →
      withinBounds query p.effectivePrice = false
  | .cheapest p => (p ∈ activeProducts products ∧ asksFor db query p = true) ∧
      ∀ b ∈ activeProducts products, asksFor db query b = true → p.effectivePrice ≤ b.effectivePrice
  | .mostExpensive p => (p ∈ activeProducts products ∧ asksFor db query p = true) ∧
      ∀ b ∈ activeProducts products, asksFor db query b = true → b.effectivePrice ≤ p.effectivePrice
  | .listed ps => ∀ p ∈ ps, withinBounds query p.effectivePrice = true

/-- Whatever the order of equal prices, the message is a right answer. -/
def AnsweredRight (lower : Text → Text) (products catalogProducts : List Product) (content : Text)
    (language : Language) : Prop :=
  let query := parseProductQuery db content (catalogBrands catalogProducts)
  ∀ search kind, AnswersSearch db lower products search → query.priceKind = some kind →
    let answer := priceAnswer kind (findProducts db search query)
    priceInquiryMessage db search content catalogProducts language =
        some (answer.text db query language) ∧ answer.Right db query products

/-! What has to hold of the catalog. -/

section
variable (lower : Text → Text) (products : List Product)

/-- The rows of the query with a smaller list price. -/
def cheaperRows (p : Product) : ℕ :=
  (searchedRows db lower products query).countP fun r => r.price < p.price

/-- A row that matches and may be among the first twenty. -/
def MayBeFound (p : Product) : Prop :=
  (p ∈ searchedRows db lower products query ∧ matchesQuery db query p = true) ∧
    cheaperRows db query lower products p < 20

/-- Twenty rows may come before the row, none of which matches. -/
def MayBeMissed (p : Product) : Prop :=
  20 ≤ ahead Product.price (matchesQuery db query) (searchedRows db lower products query) p

/-- Where every row that matches may be missed, nothing that is charged within the bounds matches. -/
def NothingMissed : Prop :=
  (∀ p ∈ searchedRows db lower products query, matchesQuery db query p = true →
    MayBeMissed db query lower products p) →
  ∀ p ∈ activeProducts products, asksFor db query p = true →
    withinBounds query p.effectivePrice = false

/-- What list prices say of the products is true of the prices charged. -/
def RanksCharged : PriceKind → Prop
  | .cheapest => ∀ p, MayBeFound db query lower products p →
      (∀ b ∈ searchedRows db lower products query, matchesQuery db query b = true →
        p.price ≤ b.price) →
      ∀ b ∈ activeProducts products, asksFor db query b = true → p.effectivePrice ≤ b.effectivePrice
  | .mostExpensive => ∀ p, MayBeFound db query lower products p →
      (∀ b ∈ searchedRows db lower products query, matchesQuery db query b = true →
        p.price < b.price → MayBeMissed db query lower products b) →
      ∀ b ∈ activeProducts products, asksFor db query b = true → b.effectivePrice ≤ p.effectivePrice
  | _ => ∀ p, MayBeFound db query lower products p →
      ((searchedRows db lower products query).countP fun r =>
        matchesQuery db query r && r.price < p.price) < 5 →
      withinBounds query p.effectivePrice = true

end

variable {db query}

theorem matchesQuery_eq (p : Product) :
    matchesQuery db query p = (asksFor db query p && withinBounds query p.price) := by
  simp only [matchesQuery, asksFor, withinBounds, Bool.and_assoc]

/-- A list names its first five products. -/
theorem priceRangeMessage_take (found : List Product) (language : Language) :
    priceRangeMessage db query (found.take 5) language = priceRangeMessage db query found language := by
  have htake : (found.take 5).take 5 = found.take 5 := by rw [List.take_take, min_self]
  unfold priceRangeMessage
  rw [htake]

theorem priceInquiryMessage_eq {content : Text} {catalogProducts : List Product} {kind : PriceKind}
    (search : ProductSearchParams → List Product) (language : Language)
    (hquery : parseProductQuery db content (catalogBrands catalogProducts) = query)
    (hkind : query.priceKind = some kind) :
    priceInquiryMessage db search content catalogProducts language =
      some ((priceAnswer kind (findProducts db search query)).text db query language) := by
  unfold priceInquiryMessage
  rw [hquery]
  dsimp only
  generalize findProducts db search query = found
  rw [hkind]
  unfold priceAnswer
  cases found.head? with
  | none => cases language <;> rfl
  | some first =>
    cases found.getLast? with
    | none => cases language <;> rfl
    | some last =>
      cases kind
      case cheapest => rfl
      case mostExpensive => rfl
      all_goals exact congrArg some (priceRangeMessage_take found language).symm

theorem priceAnswer_right {products found : List Product} {kind : PriceKind} :
    (priceAnswer kind found).Right db query products ↔
      (found = [] → PriceAnswer.noMatch.Right db query products) ∧ match kind with
        | .cheapest => ∀ p, found.head? = some p → (PriceAnswer.cheapest p).Right db query products
        | .mostExpensive =>
          ∀ p, found.getLast? = some p → (PriceAnswer.mostExpensive p).Right db query products
        | _ => ∀ p ∈ found.take 5, withinBounds query p.effectivePrice = true := by
  cases found with
  | nil => cases kind <;> simp [priceAnswer]
  | cons p found =>
    have hlast : (p :: found).getLast? = some ((p :: found).getLast (List.cons_ne_nil _ _)) :=
      List.getLast?_eq_some_getLast (List.cons_ne_nil _ _)
    have hsome : (priceAnswer kind (p :: found)) = match kind with
        | .cheapest => .cheapest p
        | .mostExpensive => .mostExpensive ((p :: found).getLast (List.cons_ne_nil _ _))
        | _ => .listed ((p :: found).take 5) := by
      simp only [priceAnswer, List.head?_cons, hlast]
    rw [hsome]
    refine Iff.trans ?_ (and_iff_right fun h => absurd h (List.cons_ne_nil _ _)).symm
    cases kind with
    | cheapest => simp
    | mostExpensive => simp [hlast]
    | _ => exact Iff.rfl

section
variable {lower : Text → Text} {products : List Product}

theorem mem_searchedRows {p : Product} (h : p ∈ searchedRows db lower products query) :
    p ∈ activeProducts products := by
  obtain ⟨hp, hsql⟩ := List.mem_filter.mp h
  simp only [sqlMatches, Bool.and_eq_true] at hsql
  exact List.mem_filter.mpr ⟨hp, hsql.1.1.1.1.1⟩

theorem asksFor_of_matchesQuery {p : Product} (h : matchesQuery db query p = true) :
    asksFor db query p = true := by
  rw [matchesQuery_eq, Bool.and_eq_true] at h
  exact h.1

/-- The answer is right for all first rows exactly when the list prices rank the products as the
charged ones do. -/
theorem forall_pages_right (hids : (products.map Product.id).Nodup) (kind : PriceKind) :
    (∀ page, IsFirst Product.price 20 (searchedRows db lower products query) page →
      (priceAnswer kind (page.filter (matchesQuery db query))).Right db query products) ↔
      NothingMissed db query lower products ∧ RanksCharged db query lower products kind := by
  have hnodup : (searchedRows db lower products query).Nodup := (List.Nodup.of_map _ hids).filter _
  have hask {p : Product}
      (h : p ∈ searchedRows db lower products query ∧ matchesQuery db query p = true) :
      p ∈ activeProducts products ∧ asksFor db query p = true :=
    ⟨mem_searchedRows h.1, asksFor_of_matchesQuery h.2⟩
  simp only [priceAnswer_right, forall_and]
  refine and_congr ?_ ?_
  · rw [NothingMissed]
    simp only [MayBeMissed]
    rw [← exists_filter_eq_nil]
    constructor
    · rintro h ⟨page, hpage, hnone⟩
      exact h page hpage hnone
    · intro h page hpage hnone
      exact h ⟨page, hpage, hnone⟩
  · have hrange : (∀ page, IsFirst Product.price 20 (searchedRows db lower products query) page →
        ∀ p ∈ (page.filter (matchesQuery db query)).take 5,
          withinBounds query p.effectivePrice = true) ↔
        ∀ p, MayBeFound db query lower products p →
          ((searchedRows db lower products query).countP fun r =>
            matchesQuery db query r && r.price < p.price) < 5 →
          withinBounds query p.effectivePrice = true := by
      constructor
      · intro h p hfound hfew
        obtain ⟨page, hpage, hmem⟩ :=
          (exists_mem_filter_take hnodup).mpr ⟨hfound.1, hfound.2, hfew⟩
        exact h page hpage p hmem
      · intro h page hpage p hmem
        obtain ⟨hrow, hcount, hfew⟩ := (exists_mem_filter_take hnodup).mp ⟨page, hpage, hmem⟩
        exact h p ⟨hrow, hcount⟩ hfew
    cases kind with
    | cheapest =>
      constructor
      · intro h p hfound hleast
        obtain ⟨page, hpage, hhead⟩ := (exists_filter_head hnodup).mpr ⟨hfound.1, hfound.2, hleast⟩
        exact (h page hpage p hhead).2
      · intro h page hpage p hhead
        obtain ⟨hrow, hcount, hleast⟩ := (exists_filter_head hnodup).mp ⟨page, hpage, hhead⟩
        exact ⟨hask hrow, h p ⟨hrow, hcount⟩ hleast⟩
    | mostExpensive =>
      constructor
      · intro h p hfound hmissed
        obtain ⟨page, hpage, hlast⟩ := (exists_filter_last hnodup).mpr ⟨hfound.1, hfound.2, hmissed⟩
        exact (h page hpage p hlast).2
      · intro h page hpage p hlast
        obtain ⟨hrow, hcount, hmissed⟩ := (exists_filter_last hnodup).mp ⟨page, hpage, hlast⟩
        exact ⟨hask hrow, h p ⟨hrow, hcount⟩ hmissed⟩
    | _ => exact hrange

end

end

/-- For every message with a price intent, the answer is right about the prices charged exactly when
nothing that matches is missed and the list prices of the products that may be found rank them as the
charged prices do. -/
theorem price_answer_right (db : Database) (lower : Text → Text) {products : List Product}
    (hids : (products.map Product.id).Nodup) (catalogProducts : List Product) (content : Text)
    (language : Language) :
    AnsweredRight db lower products catalogProducts content language ↔
      ∀ kind, (parseProductQuery db content (catalogBrands catalogProducts)).priceKind = some kind →
        NothingMissed db (parseProductQuery db content (catalogBrands catalogProducts)) lower
          products ∧
        RanksCharged db (parseProductQuery db content (catalogBrands catalogProducts)) lower products
          kind := by
  unfold AnsweredRight
  generalize hquery : parseProductQuery db content (catalogBrands catalogProducts) = query
  dsimp only
  constructor
  · intro h kind hkind
    refine (forall_pages_right hids kind).mp fun page hpage => ?_
    obtain ⟨search, hsearch, hanswer⟩ := exists_answersSearch (searchParams query) hpage
    have hright := (h search kind hsearch hkind).2
    rwa [findProducts, hanswer, filterProducts_of_inOrder hpage.inOrder] at hright
  · intro h search kind hsearch hkind
    have hpage := hsearch (searchParams query)
    refine ⟨priceInquiryMessage_eq search language hquery hkind, ?_⟩
    rw [findProducts, filterProducts_of_inOrder hpage.inOrder]
    exact (forall_pages_right hids kind).mpr (h kind hkind) _ hpage

/-! A sale. -/

def elfCylinder : Product := cylinderOf 1 "Elf Gas" 450000

theorem price_answer_right_elf : AnsweredRight Vietnamese.database lowerVi elfShop elfShop
    "Gas Elf 12kg rẻ nhất" .vi := by
  have hids : (elfShop.map Product.id).Nodup := by decide
  refine (price_answer_right Vietnamese.database lowerVi hids elfShop "Gas Elf 12kg rẻ nhất" .vi).mpr
    fun kind hkind => ?_
  change cheapestElf.priceKind = some kind at hkind
  change NothingMissed Vietnamese.database cheapestElf lowerVi elfShop ∧
    RanksCharged Vietnamese.database cheapestElf lowerVi elfShop kind
  have hcheapest : cheapestElf.priceKind = some .cheapest := by decide +kernel
  obtain rfl := Option.some.inj (hcheapest.symm.trans hkind)
  have hrows : searchedRows Vietnamese.database lowerVi elfShop cheapestElf = [elfCylinder] := by
    decide +kernel
  have hasked : (activeProducts elfShop).filter (asksFor Vietnamese.database cheapestElf) =
      [elfCylinder] := by decide +kernel
  constructor
  · intro hmissed
    have hmatches : matchesQuery Vietnamese.database cheapestElf elfCylinder = true := by decide +kernel
    have hmany : 20 ≤ ahead Product.price (matchesQuery Vietnamese.database cheapestElf)
        (searchedRows Vietnamese.database lowerVi elfShop cheapestElf) elfCylinder :=
      hmissed elfCylinder (by rw [hrows]; exact List.mem_singleton_self _) hmatches
    have hfew := hmany.trans (List.countP_le_length)
    rw [hrows] at hfew
    exact absurd hfew (by decide)
  · rintro p ⟨⟨hp, -⟩, -⟩ - b hb hask
    rw [hrows, List.mem_singleton] at hp
    have hmem : b ∈ (activeProducts elfShop).filter (asksFor Vietnamese.database cheapestElf) :=
      List.mem_filter.mpr ⟨hb, hask⟩
    rw [hasked, List.mem_singleton] at hmem
    rw [hp, hmem]

/-- The dearer cylinder is on sale. -/
def saleShop : List Product :=
  [elfCylinder, { cylinderOf 2 "Petro" 470000 with salePrice := some 400000 }]

def cheapestTwelve : ProductQuery :=
  parseProductQuery Vietnamese.database "Gas 12kg rẻ nhất" (catalogBrands (activeProducts saleShop))

/-- The cheapest cylinder is the one on sale, and the answer names the other. -/
theorem sale_not_cheapest :
    priceAnswer .cheapest (findProducts Vietnamese.database
        (tableSearch Vietnamese.database lowerVi saleShop) cheapestTwelve) = .cheapest elfCylinder ∧
      ¬ ∀ (db : Database) (lower : Text → Text) (products : List Product) (content : Text)
        (language : Language), (products.map Product.id).Nodup →
        AnsweredRight db lower products (activeProducts products) content language := by
  have hanswer : priceAnswer .cheapest (findProducts Vietnamese.database
      (tableSearch Vietnamese.database lowerVi saleShop) cheapestTwelve) = .cheapest elfCylinder := by
    decide +kernel
  refine ⟨hanswer, fun hclaim => ?_⟩
  have hkind : cheapestTwelve.priceKind = some .cheapest := by decide +kernel
  have hright := (hclaim Vietnamese.database lowerVi saleShop "Gas 12kg rẻ nhất" .vi (by decide)
    (tableSearch Vietnamese.database lowerVi saleShop) .cheapest answersSearch_tableSearch hkind).2
  change (priceAnswer .cheapest (findProducts Vietnamese.database
    (tableSearch Vietnamese.database lowerVi saleShop) cheapestTwelve)).Right _ cheapestTwelve _ at hright
  rw [hanswer] at hright
  have hle := hright.2 { cylinderOf 2 "Petro" 470000 with salePrice := some 400000 } (by decide)
    (by decide +kernel)
  revert hle
  decide +kernel

end Qiki.Chat
