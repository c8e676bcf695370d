import Qiki.Arithmetic.Double
import Qiki.Admin.Chat
import Qiki.Client.SseFrames
import Qiki.Orders.CheckoutPayload
import Qiki.Orders.Coupons

/-! The cart of the shop page, the coupon of its checkout, and the totals beside them. Its numbers
are binary64: each result is rounded. -/
namespace Qiki.Client

open Orders Rounding

def waterDeliveryFeePerUnit : ℚ := 5000

/-- `effectivePriceValue`; a price that is no number counts as missing. -/
def effectivePriceValue (price : ℚ) (salePrice : Option ℚ) : ℚ :=
  match salePrice with
  | some sale => if 0 < sale ∧ sale < price then sale else price
  | none => price

structure CartItem where
  productId : Uuid
  name : String
  brand : String
  category : Option Category
  sizeKg : ℚ
  unit : String
  /-- The unit price when the product came into the cart. -/
  price : ℚ
  listPrice : Option ℚ
  quantity : ℤ
  deriving DecidableEq, Repr

/-- `calculateCartShipping`: water is charged by the unit. -/
def calculateCartShipping (items : List CartItem) : ℚ :=
  let waterUnits := (items.filter fun item => item.category = some .nuocUong).foldl
    (fun sum item => double (sum + item.quantity)) 0
  double (waterDeliveryFeePerUnit * waterUnits)

/-- `addItem`: a product that is in the cart already keeps its price. -/
def addItem (product : Product) (quantity : ℤ) (items : List CartItem) : List CartItem :=
  if (items.find? fun item => item.productId = product.id).isSome then
    Table.modify CartItem.productId product.id
      (fun item => { item with quantity := item.quantity + quantity }) items
  else items ++ [{
    productId := product.id
    name := product.name
    brand := product.brand
    category := some product.category
    sizeKg := double product.sizeKg
    unit := product.unit
    price := effectivePriceValue (double product.price) (product.salePrice.map double)
    listPrice := some (double product.price)
    quantity := quantity }]

def removeItem (productId : Uuid) (items : List CartItem) : List CartItem :=
  items.filter fun item => item.productId ≠ productId

def updateQuantity (productId : Uuid) (quantity : ℤ) (items : List CartItem) : List CartItem :=
  if quantity ≤ 0 then removeItem productId items
  else Table.modify CartItem.productId productId (fun item => { item with quantity := quantity }) items

def getTotal (items : List CartItem) : ℚ :=
  items.foldl (fun sum item => double (sum + double (item.price * item.quantity))) 0

/-! The coupon. -/

structure CouponValidateResponse where
  code : String
  discountType : DiscountType
  value : Decimal
  discountAmount : Decimal
  minOrder : Decimal
  deriving DecidableEq, Repr

/-- `CouponValidateRequest` and `validate_coupon`; `none` is an error of the request. The stored codes
are in upper case, so the second `upper().strip()` of the lookup changes none that it finds. -/
def validateCoupon (r : PayloadReader) (coupons : List Coupon) (now : Timestamp) (code : String)
    (subtotal : Decimal) : Option CouponValidateResponse :=
  if hasLength 1 50 code && 0 ≤ subtotal then
    match checkEligibility (Table.find Coupon.code (r.upperStrip code) coupons) subtotal now with
    | .ok coupon => some {
        code := coupon.code
        discountType := coupon.discountType
        value := coupon.value
        discountAmount := computeDiscount coupon subtotal
        minOrder := coupon.minOrder }
    | .error _ => none
  else none

/-- The cart store, the coupon fields of the checkout store, and the coupon requests that have not
been answered, with the subtotal that each of them sent. -/
structure ShopPage where
  items : List CartItem := []
  couponCode : Option String := none
  discountAmount : ℚ := 0
  validating : List (String × Decimal) := []
  deriving DecidableEq, Repr

def ShopPage.setCoupon (page : ShopPage) (code : String) (discount : ℚ) : ShopPage :=
  { page with couponCode := some code, discountAmount := discount }

def ShopPage.clearCoupon (page : ShopPage) : ShopPage :=
  { page with couponCode := none, discountAmount := 0 }

/-- What happens on the page. The requests are answered in any order, each with the coupons as they
are then, or fail. -/
inductive ShopEvent
  | addItem (product : Product) (quantity : ℤ)
  | removeItem (productId : Uuid)
  | updateQuantity (productId : Uuid) (quantity : ℤ)
  | clearCart
  | applyCoupon (codeInput : Text)
  | couponAnswered (request : ℕ) (coupons : List Coupon) (now : Timestamp)
  | couponFailed (request : ℕ)
  | removeCoupon
  | resetCheckout
  /-- The browser loads the page anew: of the stores only the cart is kept. -/
  | reload

section
variable (r : PayloadReader)

def ShopPage.apply (page : ShopPage) : ShopEvent → ShopPage
  | .addItem product quantity => { page with items := Client.addItem product quantity page.items }
  | .removeItem productId => { page with items := Client.removeItem productId page.items }
  | .updateQuantity productId quantity =>
    { page with items := Client.updateQuantity productId quantity page.items }
  | .clearCart => { page with items := [] }
  | .applyCoupon codeInput =>
    let code := trim codeInput
    if code.isEmpty then page
    else { page with
      validating := page.validating ++ [(String.ofList code, shortest (getTotal page.items))] }
  | .couponAnswered request coupons now =>
    match page.validating[request]? with
    | none => page
    | some (code, subtotal) =>
      let page := { page with validating := page.validating.eraseIdx request }
      match validateCoupon r coupons now code subtotal with
      | some result => page.setCoupon result.code (double result.discountAmount)
      | none => page.clearCoupon
  | .couponFailed request =>
    if request < page.validating.length then
      { page with validating := page.validating.eraseIdx request }.clearCoupon
    else page
  | .removeCoupon => page.clearCoupon
  | .resetCheckout => page.clearCoupon
  | .reload => { items := page.items }

/-- The page after a visit that began with an empty cart. -/
def ShopPage.after (events : List ShopEvent) : ShopPage := events.foldl (ShopPage.apply r) {}

end

/-! What `OrderSummarySidebar` shows and `ConfirmStep` sends. -/

def ShopPage.subtotal (page : ShopPage) : ℚ := getTotal page.items

def ShopPage.shippingFee (page : ShopPage) : ℚ := calculateCartShipping page.items

def ShopPage.discount (page : ShopPage) : ℚ :=
  if page.couponCode.any (· ≠ "") then min page.discountAmount page.subtotal else 0

def ShopPage.total (page : ShopPage) : ℚ :=
  max 0 (double (double (page.subtotal + page.shippingFee) - page.discount))

/-- `formatPrice`: whole đồng, halves away from zero. -/
def formatPrice (amount : ℚ) : Text :=
  (if amount < 0 then ['-'] else []) ++
    (Admin.groupThousands (Text.ofNat (halfAway |amount|).toNat) ++ ['\u00a0', '₫'])

/-- The payload: the lines of the cart, the coupon, and the fields of the form. -/
def ShopPage.payload (page : ShopPage) (form : CheckoutPayload) : CheckoutPayload :=
  { form with
    items := page.items.map fun item => ⟨item.productId, item.quantity, false⟩
    couponCode := page.couponCode }

end Qiki.Client
