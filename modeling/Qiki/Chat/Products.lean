import Qiki.Chat.Cues

/-! Catalog products as chat texts: how they are shown, and which one a text means. -/
namespace Qiki.Chat

open Unicode Regex Orders Catalog

/-! Numbers as texts. -/

/-- The digits after the point until nothing is left. -/
def fractionDigits : ℕ → ℚ → Text
  | 0, _ => []
  | n + 1, x =>
    if x = 0 then []
    else Text.ofNat (x * 10).floor.toNat ++ fractionDigits n (x * 10 - (x * 10).floor)

/-- `_format_decimal`; a finite decimal has fewer digits after the point than its
denominator has bits. -/
def formatDecimal (value : Decimal) : Text :=
  let whole := |value|.floor
  let fraction := fractionDigits (Nat.log2 value.den + 1) (|value| - whole)
  (if value < 0 then "-" else "") ++ Text.ofNat whole.toNat ++
    if fraction.isEmpty then [] else '.' :: fraction

/-- Digits in groups of three, least significant digit first. -/
def groupDigits : Text → Text
  | a :: b :: c :: d :: rest => a :: b :: c :: '.' :: groupDigits (d :: rest)
  | short => short

def formatVnd (price : Decimal) : Text :=
  -- `int` rounds towards zero
  let whole := |price|.floor.toNat
  (if price ≤ -1 then "-" else "") ++ (groupDigits (Text.ofNat whole).reverse).reverse ++ "đ"

/-- `value.replace(" ", "")` -/
def withoutBlanks (value : Text) : Text := value.filter (· ≠ ' ')

section
variable (db : Database)

def formatProductDisplayName (product : Product) : Text :=
  let size := formatDecimal product.sizeKg ++ " " ++ (product.unit : Text)
  let normalizedName := withoutBlanks (lower db product.name)
  if normalizedName.contains (withoutBlanks (lower db size)) then product.name
  else (product.name : Text) ++ " " ++ size

/-! Matching a text with a product. -/

def genericProductMatchTokens : List Text :=
  ["binh", "gas", "chai", "can", "thung", "lit", "nuoc", "uong", "kg"]

/-- `token.isdigit()` of a token of letters and digits. -/
def isNumberToken (token : Text) : Bool := token.all Char.isDigit

/-- The names under which `_match_product` knows a product. -/
def matchFields (product : Product) : List Text :=
  let size := formatDecimal product.sizeKg
  [product.name, product.brand, product.sku, formatProductDisplayName db product,
    size ++ "kg", size ++ " " ++ (product.unit : Text), size ++ (product.unit : Text)]

def haystack (product : Product) : Text :=
  Text.join [' '] ((matchFields db product).map (normalizeMatchText db))

/-- A word of the query that points to this product. -/
def specificTokenHit (query haystack : Text) : Bool :=
  (tokens query).any fun token => !genericProductMatchTokens.contains token &&
    !isNumberToken token && 2 ≤ token.length && (tokens haystack).contains token

def matchScore (query haystack : Text) : ℕ :=
  (if !query.isEmpty && haystack.contains query then 4 else 0) +
    (tokens query).countP fun token => !isNumberToken token && 2 ≤ token.length &&
      (tokens haystack).contains token

/-- One round of the loop of `_match_product`: only a higher score replaces the best. -/
def betterMatch (query : Text) (best : Option Product × ℕ) (product : Product) :
    Option Product × ℕ :=
  let fields := haystack db product
  let score := matchScore query fields
  if specificTokenHit query fields && best.2 < score then (some product, score) else best

def matchProduct (productQuery : Option Text) (products : List Product) : Option Product :=
  if present productQuery then
    (products.foldl (betterMatch db (normalizeMatchText db (productQuery.getD []))) (none, 0)).1
  else none

def matchOrderItems (items : List ChatOrderItem) (products : List Product) :
    List (ChatOrderItem × Option Product) :=
  items.map fun item => (item, matchProduct db item.product products)

def findMatchingItemIndex (items : List ChatOrderItem) (candidate : ChatOrderItem)
    (products : List Product) : Option ℕ :=
  match matchProduct db candidate.product products with
  | none => none
  | some candidateProduct => items.findIdx? fun item =>
      (matchProduct db item.product products).any fun found => found.id = candidateProduct.id

end

def matchedOrderProducts (matched : List (ChatOrderItem × Option Product)) :
    List (ChatOrderItem × Product) :=
  matched.filterMap fun m => m.2.map fun product => (m.1, product)

/-! Categories, brands and sizes in a query. -/

def categoryFilterFromQuery (normalizedQuery : Text) : Option Category :=
  let words := tokens normalizedQuery
  let wantsWater := words.contains "nuoc"
  let wantsGas := words.contains "gas"
  if wantsWater && !wantsGas then some .nuocUong
  else if wantsGas && !wantsWater then some .gas
  else none

section
variable (db : Database)

def isBareCategoryQuery (query : Option Text) : Bool :=
  present query && ([ "nuoc", "nuoc uong", "gas", "binh gas"] : List Text).contains
    (normalizeMatchText db (query.getD []))

def isBareGasItem (item : ChatOrderItem) : Bool :=
  let normalized := normalizeMatchText db item.text
  isBareCategoryQuery db (some normalized) && categoryFilterFromQuery normalized = some .gas

def isIncompleteAddItem (item : ChatOrderItem) : Bool := item.product.isNone || isBareGasItem db item

/-- The brand, or a word of it other than `gas`, occurs in the query. -/
def brandHit (normalizedQuery : Text) (product : Product) : Bool :=
  let normalizedBrand := normalizeMatchText db product.brand
  let distinctive := (tokens normalizedBrand).filter (· ≠ ("gas" : Text))
  !distinctive.isEmpty && (distinctive.any (tokens normalizedQuery).contains ||
    normalizedQuery.contains normalizedBrand)

def queryMentionsProductBrand (normalizedQuery : Text) (products : List Product) : Bool :=
  products.any fun product => product.category = .gas && brandHit db normalizedQuery product

def normalizeWeightUnits (normalizedQuery : Text) : Text :=
  sub ⟨db, false⟩ (sizeRe ["kg", "ki", "ky"]) (fun found => (found.group 1).getD [] ++ "kg")
    normalizedQuery

def extractGasSizeQuery (normalizedQuery : Text) : Option Decimal :=
  (firstGroup db sizeKgRe (normalizeWeightUnits db normalizedQuery)).bind (parseDecimal db)

/-- `(?:loai\s*)?([1-9][0-9]?)` -/
def sizeChoiceRe : Regex := seq (optional (seq (literal "loai") (star true space)))
  (group 1 (seq (oneOf false [.range '1' '9']) (optional (oneOf false [.range '0' '9']))))

def extractGasSizeChoice (normalizedQuery : Text) : Option Decimal :=
  match extractGasSizeQuery db normalizedQuery with
  | some size => some size
  | none => ((fullmatch ⟨db, false⟩ sizeChoiceRe normalizedQuery).bind fun found =>
      found.group 1).bind (parseDecimal db)

end

def gasProductsForSize (products : List Product) (size : Decimal) : List Product :=
  products.filter fun product => product.category = .gas && product.sizeKg = size

def availableGasSizes (products : List Product) : List Decimal :=
  (((products.filter fun product => product.category = .gas).map (·.sizeKg)).dedup).insertionSort
    (· ≤ ·)

def formatSizeOptions (sizes : List Decimal) : Text := Text.join ", " (sizes.map formatDecimal)

def gasSizeInquiryMessage (db : Database) (query : Text) (products : List Product) :
    Option Text :=
  let sizes := availableGasSizes products
  let normalizedQuery := normalizeMatchText db query
  if sizes.length < 2 then none
  else if categoryFilterFromQuery normalizedQuery ≠ some .gas then none
  else
    let requestedSize := extractGasSizeQuery db normalizedQuery
    let sizeOptions := formatSizeOptions sizes
    if requestedSize.any fun size => !sizes.contains size then
      some ("Dạ cửa hàng chỉ có gas loại " ++ sizeOptions ++
        " kg thôi ạ. Bạn chọn loại nào giúp Qiki nhé.")
    else if requestedSize.isNone && !queryMentionsProductBrand db normalizedQuery products then
      some ("Cửa hàng Gas Quốc Cường có gas loại " ++ sizeOptions ++
        " kg. Bạn muốn loại bao nhiêu kg ạ?")
    else none

/-! Quantities in a message. -/

section
variable (db : Database)

/-- `words` of `_extract_quantity_candidate` -/
def numberWords : List (Text × ℕ) :=
  [("mot", 1), ("hai", 2), ("ba", 3), ("bon", 4), ("tu", 4), ("nam", 5)]

/-- `\bword\s*(binh|chai|can|thung)?\b` -/
def numberWordRe (word : Text) : Regex := seqOf [wordBoundary, literal word, star true space,
  optional (altOf [literal "binh", literal "chai", literal "can", literal "thung"]), wordBoundary]

def extractQuantityCandidate (content : Text) : Option ℕ :=
  let normalized := normalizeMatchText db content
  match firstGroup db (sizeRe ["binh", "chai", "can", "thung", "nuoc", "gas"]) normalized with
  | some digits => Text.toNat db.digit digits
  | none => (numberWords.find? fun w =>
      (search ⟨db, false⟩ (numberWordRe w.1) normalized).isSome).map Prod.snd

/-- `\s*([1-9][0-9]?)\b` -/
def leadingQuantityRe : Regex := seqOf [star true space,
  group 1 (seq (oneOf false [.range '1' '9']) (optional (oneOf false [.range '0' '9']))),
  wordBoundary]

def extractLeadingQuantityCandidate (content : Text) : Option ℕ :=
  ((matchStart ⟨db, false⟩ leadingQuantityRe content).bind fun found => found.group 1).bind
    (Text.toNat db.digit)

/-! Which intent a message has that names a product. -/

def isShortCatalogProductPhrase (normalized : Text) (product : Product) : Bool :=
  let compact := withoutBlanks normalized
  let candidates := [normalizeMatchText db product.brand, normalizeMatchText db product.name,
    normalizeMatchText db (formatProductDisplayName db product), normalizeMatchText db product.sku]
  let normalizedBrand := normalizeMatchText db product.brand
  let sizeValue := normalizeMatchText db (formatDecimal product.sizeKg)
  let unitValue := normalizeMatchText db product.unit
  if hasProductQuestionCue db normalized then false
  else if ((candidates.filter (!·.isEmpty)).map withoutBlanks).contains compact then true
  else if !normalizedBrand.isEmpty && normalizedBrand.isPrefixOf normalized then
    compact.contains (sizeValue ++ "kg") || compact.contains (sizeValue ++ unitValue)
  else false

/-- What the catalog says about the intent of a message. -/
inductive CatalogOverride
  | productInquiry | placeOrder
  deriving DecidableEq, Repr

def catalogProductIntentOverride (content : Text) (products : List Product) :
    Option CatalogOverride :=
  let normalized := normalizeMatchText db content
  if isBareCategoryQuery db (some normalized) then none
  else match matchProduct db (some content) products with
    | none => none
    | some product =>
      let quantity := (extractQuantityCandidate db content).or
        (extractLeadingQuantityCandidate db content)
      if hasProductQuestionCue db normalized then some .productInquiry
      else if quantity.any (0 < ·) || hasOrderActionCue normalized ||
          isShortCatalogProductPhrase db normalized product then some .placeOrder
      else none

end

end Qiki.Chat
