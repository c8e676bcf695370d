import Qiki.Orders.Model
import Qiki.Text.Regex
import Mathlib.Data.List.Sort

/-! Product and price questions in a message. -/
namespace Qiki

open Unicode

def stripAccents (db : Database) (text : Text) : Text :=
  (nfd db (Text.replace "đ" "d" (lower db text))).filter fun c => db.combiningClass c = 0

namespace Catalog

open Regex Orders

inductive PriceKind
  | cheapest | mostExpensive | around | under | over
  deriving DecidableEq, Repr

/-- Colour words that appear inside a product name, without accents. -/
def colourKeywords : List Text := ["do", "xam", "vang", "bien", "xanh", "nau", "bo", "trang"]

structure ProductQuery where
  brand : Option Text := none
  sizeKg : Option Decimal := none
  category : Option Category := none
  colour : Option Text := none
  priceKind : Option PriceKind := none
  priceValue : Option Decimal := none
  deriving DecidableEq, Repr

def ProductQuery.isSpecific (q : ProductQuery) : Bool := q.brand.isSome || q.sizeKg.isSome

/-- `Decimal(text)` of digits with at most one point between them. -/
def parseDecimal (db : Database) (text : Text) : Option Decimal :=
  let whole := text.takeWhile (· ≠ '.')
  let fraction := (text.dropWhile (· ≠ '.')).drop 1
  (Text.toNat db.digit (whole ++ fraction)).map fun n => n / 10 ^ fraction.length

/-- `[.,]` -/
def pointOrComma : Regex := oneOf false [.char '.', .char ',']

/-- `[.\s]` -/
def pointOrSpace : Regex := oneOf false [.char '.', .space]

/-- `(\d+(?:[.,]\d+)?)\s*(?:tr|trieu)\b` -/
def millionRe : Regex := seqOf [
  group 1 (seq (plus digit) (optional (seq pointOrComma (plus digit)))), star true space,
  altOf [literal "tr", literal "trieu"], wordBoundary]

/-- `(\d+)\s*(?:k|nghin|ngan)\b` -/
def thousandRe : Regex := seqOf [group 1 (plus digit), star true space,
  altOf [literal "k", literal "nghin", literal "ngan"], wordBoundary]

/-- `\b(\d{1,3}(?:[.\s]\d{3})+)\b` -/
def groupedRe : Regex := seqOf [wordBoundary,
  group 1 (seq (upToTimes digit 1 2) (plus (seq pointOrSpace (times digit 3)))), wordBoundary]

/-- `\b(\d{4,7})\b` -/
def bareRe : Regex := seqOf [wordBoundary, group 1 (upToTimes digit 4 3), wordBoundary]

/-- `\b([1-9][0-9]?)\s*unit\b` -/
def sizeRe (units : List Text) : Regex := seqOf [wordBoundary,
  group 1 (seq (oneOf false [.range '1' '9']) (optional (oneOf false [.range '0' '9']))),
  star true space, altOf (units.map literal), wordBoundary]

def sizeKgRe : Regex := sizeRe ["kg"]

def sizeLitreRe : Regex := sizeRe ["lit", "l"]

section
variable (db : Database)

/-- Group 1 of the first match. -/
def firstGroup (r : Regex) (text : Text) : Option Text :=
  (search ⟨db, false⟩ r text).bind fun found => found.group 1

def hasWord (normalized word : Text) : Bool :=
  (search ⟨db, false⟩ (seqOf [wordBoundary, literal word, wordBoundary]) normalized).isSome

def parsePriceValue (text : Text) : Option Decimal :=
  let normalized := stripAccents db text
  match firstGroup db millionRe normalized with
  | some amount => (parseDecimal db (Text.replace "," "." amount)).map (· * 1000000)
  | none => match firstGroup db thousandRe normalized with
    | some amount => (parseDecimal db amount).map (· * 1000)
    | none => match firstGroup db groupedRe normalized with
      | some amount => parseDecimal db (amount.filter fun c => c ≠ '.' && !db.space c)
      | none => match firstGroup db bareRe normalized with
        | some amount => parseDecimal db amount
        | none => none

def priceKind (normalized : Text) : Option PriceKind :=
  if ["re nhat", "thap nhat"].any fun w => hasWord db normalized w then some .cheapest
  else if ["dat nhat", "mac nhat", "cao nhat"].any fun w => hasWord db normalized w then
    some .mostExpensive
  else if ["duoi", "toi da", "khong qua", "re hon"].any fun w => hasWord db normalized w then
    some .under
  else if ["tren", "toi thieu", "hon"].any fun w => hasWord db normalized w then some .over
  else if ["tam", "khoang"].any fun w => hasWord db normalized w then some .around
  else none

/-- `_category` -/
def categoryOf (normalized : Text) (hasSizeKg hasSizeLitre : Bool) : Option Category :=
  if hasSizeLitre || normalized.contains "nuoc" then some .nuocUong
  else if hasSizeKg || normalized.contains "gas" then some .gas
  else none

/-- `_match_brand`: the longest brand whose distinctive part occurs, the first of equals. -/
def matchBrand (normalized : Text) (brands : List Text) : Option Text :=
  (brands.foldl (fun (best : Option Text × ℕ) brand =>
    let distinctive := Text.strip db.space (Text.replace "gas" "" (stripAccents db brand))
    if !distinctive.isEmpty && normalized.contains distinctive && best.2 < distinctive.length then
      (some brand, distinctive.length)
    else best) (none, 0)).1

/-- The kinds that need an amount. -/
def PriceKind.needsValue (k : PriceKind) : Bool := k ∈ [.around, .under, .over]

def parseProductQuery (text : Text) (brands : List Text) : ProductQuery :=
  let normalized := stripAccents db text
  let kgMatch := firstGroup db sizeKgRe normalized
  let litreMatch := firstGroup db sizeLitreRe normalized
  let kind := priceKind db normalized
  let value := if kind.any PriceKind.needsValue then parsePriceValue db text else none
  { brand := matchBrand db normalized brands
    sizeKg := (kgMatch.or litreMatch).bind (parseDecimal db)
    category := categoryOf normalized kgMatch.isSome litreMatch.isSome
    colour := colourKeywords.find? fun colour => hasWord db normalized colour
    -- a range without an amount is not actionable
    priceKind := if kind.any PriceKind.needsValue && value.isNone then none else kind
    priceValue := value }

def priceBounds (q : ProductQuery) : Option Decimal × Option Decimal :=
  match q.priceKind, q.priceValue with
  | some .around, some value => (some (value - value * (6 / 100)), some (value + value * (6 / 100)))
  | some .under, some value => (none, some value)
  | some .over, some value => (some value, none)
  | _, _ => (none, none)

/-- The conditions that `filter_products` puts on one product. -/
def matchesQuery (q : ProductQuery) (p : Product) : Bool :=
  (q.brand.all fun brand => (stripAccents db p.brand).contains (stripAccents db brand)) &&
    (q.sizeKg.all fun size => p.sizeKg = size) &&
    (q.category.all fun category => p.category = category) &&
    -- a colour counts only beside a brand or a size
    (!q.isSpecific || q.colour.all fun colour => hasWord db (stripAccents db p.name) colour) &&
    ((priceBounds q).1.all fun low => low ≤ p.price) &&
    ((priceBounds q).2.all fun high => p.price ≤ high)

def filterProducts (products : List Product) (q : ProductQuery) : List Product :=
  (products.filter (matchesQuery db q)).insertionSort fun a b => a.price ≤ b.price

end

end Catalog

end Qiki
