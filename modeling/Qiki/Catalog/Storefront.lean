import Qiki.Orders.Amounts
import Qiki.Agent.Tools
import Qiki.Chat.PriceAnswers

/-! Prices outside the chat texts: the cards of the grouped catalog, the rows of a price alert,
the cards of the chat and the cart of a reorder. -/
namespace Qiki.Catalog

open Orders Chat

/-- A parent product with the products that belong to it. -/
structure ProductParent where
  id : Uuid
  name : String
  brand : String
  category : Category
  isActive : Bool
  variants : List Product
  deriving DecidableEq, Repr

/-- A card of the grouped catalog. -/
structure ProductParentSummary where
  id : Uuid
  name : String
  brand : String
  category : Category
  minPrice : Decimal
  maxPrice : Decimal
  variantCount : ℕ
  inStock : Bool
  deriving DecidableEq, Repr

def ProductParent.activeVariants (parent : ProductParent) : List Product :=
  parent.variants.filter (·.isActive)

def summarizeParent (parent : ProductParent) : ProductParentSummary :=
  let prices := parent.activeVariants.map (·.price)
  { id := parent.id
    name := parent.name
    brand := parent.brand
    category := parent.category
    minPrice := prices.min?.getD 0
    maxPrice := prices.max?.getD 0
    variantCount := parent.activeVariants.length
    inStock := parent.activeVariants.any fun variant => 0 < variant.stockQuantity }

def summarizeProduct (product : Product) : ProductParentSummary where
  id := product.id
  name := product.name
  brand := product.brand
  category := product.category
  minPrice := product.price
  maxPrice := product.price
  variantCount := 1
  inStock := 0 < product.stockQuantity

/-- The product tables. -/
structure Shop where
  products : List Product
  parents : List ProductParent

def Shop.activeProducts (shop : Shop) : List Product := shop.products.filter (·.isActive)

/-- The parents that `list_grouped_catalog` shows as one card. -/
def Shop.waterParents (shop : Shop) : List ProductParent :=
  shop.parents.filter fun parent => parent.isActive && parent.category = .nuocUong

/-- The cards over all pages of `list_grouped_catalog`: gas product by product, water by parent. -/
def Shop.groupedCatalog (shop : Shop) : List ProductParentSummary :=
  (shop.activeProducts.filter fun product => product.category = .gas).map summarizeProduct ++
    shop.waterParents.map summarizeParent

/-- `s.rstrip(c)` -/
def rstrip (c : Char) (s : Text) : Text := (s.reverse.dropWhile (· = c)).reverse

/-- `PriceAlertService._display_name`; the zeros of a whole number are stripped as well. -/
def alertDisplayName (product : Product) : Text :=
  let sizeText := rstrip '.' (rstrip '0' (formatDecimal product.sizeKg))
  (product.brand : Text) ++ " " ++ (product.name : Text) ++ " " ++ sizeText ++ (product.unit : Text)

/-- A row of the price table in the e-mail. -/
def gasPriceRow (product : Product) : Text × Text :=
  (alertDisplayName product, formatVnd product.price)

/-- `_build_gas_price_rows` of the active catalog. -/
def buildGasPriceRows (catalog : List Product) : List (Text × Text) :=
  (catalog.filter fun product => product.category = .gas).map gasPriceRow

/-- `ProductCardResponse` -/
structure ProductCard where
  id : Uuid
  name : String
  brand : String
  sizeKg : Decimal
  unit : String
  price : Decimal
  sku : String
  stockQuantity : ℤ
  deriving DecidableEq, Repr

def productToCard (product : Product) : ProductCard where
  id := product.id
  name := product.name
  brand := product.brand
  sizeKg := product.sizeKg
  unit := product.unit
  price := product.effectivePrice
  sku := product.sku
  stockQuantity := product.stockQuantity

inductive SkipReason
  | inactive | outOfStock | notFound
  deriving DecidableEq, Repr

structure SkippedReorderItem where
  productId : Option Uuid
  productName : String
  reason : SkipReason
  deriving DecidableEq, Repr

structure ReorderItem where
  productId : Uuid
  sku : String
  name : String
  brand : String
  sizeKg : Decimal
  category : Category
  unit : String
  price : Decimal
  quantity : ℕ
  stockQuantity : ℤ
  deriving DecidableEq, Repr

/-- One line of a past order, at the price and the stock of today. -/
def reorderLine (products : List Product) (line : OrderItem) :
    Except SkippedReorderItem ReorderItem :=
  match line.productId.bind fun id => Table.find Product.id id products with
  | none => .error ⟨line.productId, line.productName, .notFound⟩
  | some product =>
    if !product.isActive then .error ⟨some product.id, product.name, .inactive⟩
    else if product.stockQuantity ≤ 0 then .error ⟨some product.id, product.name, .outOfStock⟩
    else .ok {
      productId := product.id
      sku := product.sku
      name := product.name
      brand := product.brand
      sizeKg := product.sizeKg
      category := product.category
      unit := product.unit
      price := product.effectivePrice
      -- never more than is in stock
      quantity := min line.quantity product.stockQuantity.toNat
      stockQuantity := product.stockQuantity }

def reorder (orders : List Order) (products : List Product) (orderId : Uuid) (currentUser : User) :
    Except Exn (List ReorderItem × List SkippedReorderItem) :=
  match Table.find Order.id orderId orders with
  | none => .error (.notFound "Order not found" "order_not_found")
  | some order =>
    if order.userId ≠ some currentUser.id then
      .error (.forbidden "Order access denied" "order_forbidden")
    else
      let lines := order.items.map (reorderLine products)
      .ok (lines.filterMap Except.toOption,
        lines.filterMap fun line => match line with
          | .error skipped => some skipped
          | .ok _ => none)

end Qiki.Catalog
