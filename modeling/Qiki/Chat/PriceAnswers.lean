import Qiki.Chat.Replies

/-! Answers to product and price questions that need no language model. -/
namespace Qiki.Chat

open Unicode Orders Catalog

/-- The filters that `find_products` passes to the catalog query, ordered by price. -/
structure ProductSearchParams where
  brand : Option Text
  category : Option Category
  sizeKg : Option Decimal
  minPrice : Option Decimal
  maxPrice : Option Decimal
  limit : ℕ
  deriving DecidableEq, Repr

def allowedSizes : List Decimal := [6, 12, 45]

/-- The parameters of the query in `find_products`: a gas size that the shop does not stock
is left to `filter_products`. -/
def searchParams (query : ProductQuery) : ProductSearchParams where
  brand := query.brand
  category := query.category
  sizeKg := query.sizeKg.filter fun size =>
    query.category = some .nuocUong || allowedSizes.contains size
  minPrice := (priceBounds query).1
  maxPrice := (priceBounds query).2
  limit := 20

/-- The distinct brands of the catalog, sorted. -/
def catalogBrands (products : List Product) : List Text :=
  ((products.map fun product => (product.brand : Text)).dedup).insertionSort fun a b => a ≤ b

def priceScopeLabel (query : ProductQuery) (language : Language) : Text :=
  let water := query.category = some .nuocUong
  let scope : List Text :=
    if water then [match language with | .en => "water" | .vi => "nước"]
    else if query.category = some .gas || query.sizeKg.isSome then ["gas"] else []
  let size : List Text := query.sizeKg.toList.map fun size =>
    formatDecimal size ++ if water then "lít" else "kg"
  if (scope ++ size).isEmpty then match language with | .en => "product" | .vi => "sản phẩm"
  else Text.join " " (scope ++ size)

section
variable (db : Database)

def superlativePriceMessage (query : ProductQuery) (product : Product) (label : Text)
    (language : Language) : Text :=
  let scope := priceScopeLabel query language
  let name := formatProductDisplayName db product
  let price := formatVnd product.effectivePrice
  match language with
  | .en => "The " ++ label ++ " " ++ scope ++ " option is " ++ name ++ " (" ++
      (product.brand : Text) ++ "), priced at " ++ price ++ "."
  | .vi => "Dạ loại " ++ scope ++ " " ++ label ++ " là " ++ name ++ " (" ++
      (product.brand : Text) ++ "), giá " ++ price ++ " ạ."

/-- `around`, `under` or `over` in front of the amount. -/
def rangeWord (kind : Option PriceKind) (language : Language) : Text :=
  match kind, language with
  | some .around, .en => "around "
  | some .under, .en => "under "
  | some .over, .en => "over "
  | some .around, .vi => "tầm "
  | some .under, .vi => "dưới "
  | some .over, .vi => "trên "
  | _, _ => []

def priceRangeMessage (query : ProductQuery) (matched : List Product) (language : Language) :
    Text :=
  let scope := priceScopeLabel query language
  let amount := (query.priceValue.map formatVnd).getD []
  let phrase := rangeWord query.priceKind language ++ amount
  let options := Text.join "; " ((matched.take 5).map fun product =>
    formatProductDisplayName db product ++ " (" ++ formatVnd product.effectivePrice ++ ")")
  match language with
  | .en => "The " ++ scope ++ " options " ++ phrase ++ " are: " ++ options ++ "."
  | .vi => "Dạ loại " ++ scope ++ " " ++ phrase ++ " có: " ++ options ++ " ạ."

/-- `find_products`, with the rows that the catalog query returns. -/
def findProducts (search : ProductSearchParams → List Product) (query : ProductQuery) :
    List Product :=
  filterProducts db (search (searchParams query)) query

def priceInquiryMessage (search : ProductSearchParams → List Product) (content : Text)
    (catalogProducts : List Product) (language : Language) : Option Text :=
  let query := parseProductQuery db content (catalogBrands catalogProducts)
  let found := findProducts db search query
  match query.priceKind with
  | none => none
  | some kind =>
    match found.head?, found.getLast? with
    | some first, some last =>
      match kind with
      | .cheapest => some (superlativePriceMessage db query first
          (match language with | .en => "cheapest" | .vi => "rẻ nhất") language)
      | .mostExpensive => some (superlativePriceMessage db query last
          (match language with | .en => "most expensive" | .vi => "đắt nhất") language)
      | _ => some (priceRangeMessage db query found language)
    | _, _ => some (match language with
      | .en => "Sorry, the store doesn't have an option matching your request yet. " ++
        "Please take a look at the price list below."
      | .vi => "Dạ hiện cửa hàng chưa có loại phù hợp với yêu cầu của bạn. " ++
        "Bạn tham khảo bảng giá bên dưới giúp Qiki nhé ạ.")

/-- The list of `_catalog_list_message` under its header, by brand and then by price. -/
def catalogList (header : Text) (items : List Product) : Option Text :=
  let ordered := items.insertionSort fun a b =>
    normalizeMatchText db a.brand < normalizeMatchText db b.brand ∨
      (normalizeMatchText db a.brand = normalizeMatchText db b.brand ∧
        a.effectivePrice ≤ b.effectivePrice)
  let lines := ordered.map fun product => "- " ++ formatProductDisplayName db product ++ " - " ++
    formatVnd product.effectivePrice
  if items.isEmpty then none
  else some (Text.join "\n"
    ((header :: lines).concat "Bạn muốn đặt hãng/màu nào để Qiki báo giá và lên đơn nhé?"))

def catalogListMessage (query : Text) (catalogProducts : List Product) : Option Text :=
  let normalizedQuery := normalizeWeightUnits db (normalizeMatchText db query)
  if !isCatalogListQuery normalizedQuery ||
      queryMentionsProductBrand db normalizedQuery catalogProducts then none
  else match extractGasSizeQuery db normalizedQuery with
    | some size =>
      if (availableGasSizes catalogProducts).contains size then
        catalogList db ("Cửa hàng Gas Quốc Cường có các loại gas " ++ formatDecimal size ++ "kg sau:")
          (gasProductsForSize catalogProducts size)
      else none
    | none =>
      if categoryFilterFromQuery normalizedQuery = some .nuocUong then
        catalogList db "Cửa hàng Gas Quốc Cường có các loại nước uống sau:"
          (catalogProducts.filter fun product => product.category = .nuocUong)
      else none

def isBrowseQuery (normalizedQuery : Text) : Bool :=
  isBareCategoryQuery db (some normalizedQuery) || normalizedQuery.containsAny catalogBrowseCues

/-- The size of the product occurs in the query. -/
def sizeHit (normalizedQuery : Text) (product : Product) : Bool :=
  let sizeValue := normalizeMatchText db (formatDecimal product.sizeKg)
  let unitValue := normalizeMatchText db product.unit
  let words := tokens normalizedQuery
  normalizedQuery.contains (sizeValue ++ "kg") ||
    (withoutBlanks normalizedQuery).contains (sizeValue ++ unitValue) ||
    (words.contains sizeValue && words.contains unitValue)

def selectCardProducts (query : Text) (products : List Product) : List Product :=
  let normalizedQuery := normalizeWeightUnits db (normalizeMatchText db query)
  let categoryFilter := categoryFilterFromQuery normalizedQuery
  let candidates : List Product := match categoryFilter with
    | some category => products.filter fun product => product.category = category
    | none => products
  let byBrand := candidates.filter (brandHit db normalizedQuery)
  let bySize := candidates.filter (sizeHit db normalizedQuery)
  if normalizedQuery.isEmpty then products
  else if candidates.isEmpty then []
  else match [byBrand.filter (sizeHit db normalizedQuery), byBrand, bySize].find? (!·.isEmpty) with
    | some group => group
    | none => if categoryFilter.isSome || isBrowseQuery db normalizedQuery then candidates else []

/-! The price list that goes into a prompt. -/

def formatProductCatalogLine (product : Product) : Text :=
  let stock := if 0 < product.stockQuantity then
    "còn " ++ (toString product.stockQuantity).toList ++ " bình" else "tạm hết hàng"
  let category : Text := if product.category = .nuocUong then "nước uống" else "gas"
  "- " ++ formatProductDisplayName db product ++ " (" ++ (product.brand : Text) ++ ", " ++ category ++
    "): " ++ formatVnd product.effectivePrice ++ ", " ++ stock

def buildProductCatalogContext (products : List Product) : Option Text :=
  if products.isEmpty then none
  else some (Text.join "\n"
    ("Bảng giá sản phẩm hiện có:" :: products.map (formatProductCatalogLine db)))

def queryAwareCatalogContext (content : Text) (catalogProducts : List Product) : Option Text :=
  let query := parseProductQuery db content (catalogBrands catalogProducts)
  let narrowed := filterProducts db catalogProducts query
  buildProductCatalogContext db
    (if query.isSpecific && !narrowed.isEmpty then narrowed else catalogProducts)

end

end Qiki.Chat
