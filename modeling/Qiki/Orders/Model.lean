import Mathlib
import Qiki.Collections.Table

/-! Rows of the shop's tables and the request payloads of the order endpoints. Foreign
keys are kept as in the tables; an order carries its `items`, which are never
written after the order is created. -/
namespace Qiki

abbrev Uuid := ℕ

/-- Seconds since the epoch, UTC. -/
abbrev Timestamp := ℕ

/-- Python's `Decimal`, which the code only adds, multiplies and compares. -/
abbrev Decimal := ℚ

namespace Orders

inductive OrderStatus
  | pending | confirmed | shipping | delivered | cancelled
  deriving DecidableEq, Repr

def allowedStatusTransitions : OrderStatus → List OrderStatus
  | .pending => [.confirmed, .cancelled]
  | .confirmed => [.shipping, .cancelled]
  | .shipping => [.delivered, .cancelled]
  | .delivered => []
  | .cancelled => []

/-- `Order.can_be_cancelled` -/
def OrderStatus.canBeCancelled (s : OrderStatus) : Bool := s ∈ [.pending, .confirmed]

/-- The customer's cancel is one of the staff transitions. -/
theorem cancelled_mem_of_canBeCancelled {s : OrderStatus} (h : s.canBeCancelled) :
    OrderStatus.cancelled ∈ allowedStatusTransitions s := by
  cases s <;> simp_all [OrderStatus.canBeCancelled, allowedStatusTransitions]

inductive DeliveryStatus
  | pending | shipping | delivered | failed | cancelled
  deriving DecidableEq, Repr

def deliveryStatusTransitions : DeliveryStatus → List DeliveryStatus
  | .pending => [.shipping, .delivered, .failed, .cancelled]
  | .shipping => [.delivered, .failed, .cancelled]
  | .delivered => []
  | .failed => []
  | .cancelled => []

inductive Role
  | customer | staff | admin | driver
  deriving DecidableEq, Repr

structure User where
  id : Uuid
  role : Role
  fullName : Option String
  phone : Option String
  address : Option String
  deliveryNotes : Option String
  deriving DecidableEq, Repr

def User.isStaff (u : User) : Bool := u.role ∈ [.staff, .admin]

def User.isAdmin (u : User) : Bool := u.role = .admin

def User.isDriver (u : User) : Bool := u.role ∈ [.driver, .admin]

inductive Category
  | gas | nuocUong
  deriving DecidableEq, Repr

structure Product where
  id : Uuid
  sku : String
  name : String
  brand : String
  sizeKg : Decimal
  category : Category
  unit : String
  price : Decimal
  salePrice : Option Decimal
  stockQuantity : ℤ
  isActive : Bool
  deriving DecidableEq, Repr

/-- `effective_price`: the sale price wins only when `0 < sale_price < price`. -/
def effectivePrice (price : Decimal) (salePrice : Option Decimal) : Decimal :=
  match salePrice with
  | some s => if 0 < s ∧ s < price then s else price
  | none => price

def Product.effectivePrice (p : Product) : Decimal := Orders.effectivePrice p.price p.salePrice

structure OrderItem where
  id : Uuid
  productId : Option Uuid
  productName : String
  productBrand : Option String
  productSizeKg : Option Decimal
  quantity : ℕ
  unitPrice : Decimal
  subtotal : Decimal
  isExchange : Bool
  deriving DecidableEq, Repr

inductive PaymentMethod
  | cod | bankTransfer
  deriving DecidableEq, Repr

inductive OrderSource
  | website | chatbot
  deriving DecidableEq, Repr

structure VatInfo where
  companyName : String
  taxCode : String
  address : String
  deriving DecidableEq, Repr

/-- `GB-<day>-<counter>`: the day and the counter determine the text. -/
structure OrderNumber where
  day : ℕ
  counter : ℕ
  deriving DecidableEq, Repr

/-- Left-pad with zeros, as the format spec `0<width>d` does. -/
def zeroPad (width : ℕ) (digits : String) : String :=
  String.ofList (List.replicate (width - digits.length) '0') ++ digits

/-- `day` is the `%Y%m%d` number of the day; the counter is padded to three digits. -/
def OrderNumber.render (n : OrderNumber) : String :=
  "GB-" ++ toString n.day ++ "-" ++ zeroPad 3 (toString n.counter)

structure OrderItemCreate where
  productId : Uuid
  quantity : ℕ
  isExchange : Bool := false
  deriving DecidableEq, Repr

/-- A payload that passed `CheckoutRequest`. `customerPhone` is `none` for the empty
phone, which the validator turns into `None`. -/
structure CheckoutRequest where
  items : List OrderItemCreate
  customerName : String
  customerPhone : Option String
  customerEmail : Option String := none
  deliveryAddress : String
  deliveryWard : Option String := none
  deliveryDistrict : Option String := none
  deliveryCity : String := "TP. Hồ Chí Minh"
  deliveryNotes : Option String := none
  differentRecipientName : Option String := none
  differentRecipientPhone : Option String := none
  paymentMethod : PaymentMethod := .cod
  vatInvoiceRequested : Bool := false
  vatInfo : Option VatInfo := none
  customerNotes : Option String := none
  source : OrderSource := .website
  referralConversationId : Option Uuid := none
  couponCode : Option String := none
  deriving DecidableEq, Repr

structure Order where
  id : Uuid
  orderNumber : OrderNumber
  userId : Option Uuid
  customerName : String
  customerPhone : String
  customerEmail : Option String
  deliveryAddress : String
  deliveryWard : Option String
  deliveryDistrict : Option String
  deliveryCity : String
  deliveryNotes : Option String
  differentRecipientName : Option String
  differentRecipientPhone : Option String
  subtotal : Decimal
  shippingFee : Decimal
  discountAmount : Decimal
  couponId : Option Uuid
  couponCode : Option String
  totalAmount : Decimal
  vatInvoiceRequested : Bool
  vatInfo : Option VatInfo
  paymentMethod : PaymentMethod
  status : OrderStatus
  source : OrderSource
  referralConversationId : Option Uuid
  idempotencyKey : Uuid
  customerNotes : Option String
  internalNotes : Option String
  cancelledAt : Option Timestamp
  cancelledReason : Option String
  deliveredAt : Option Timestamp
  items : List OrderItem
  deriving DecidableEq, Repr

structure DeliveryItem where
  orderItemId : Uuid
  quantity : ℕ
  deriving DecidableEq, Repr

structure Delivery where
  id : Uuid
  orderId : Uuid
  code : OrderNumber × ℕ
  status : DeliveryStatus
  driverId : Option Uuid
  scheduledAt : Option Timestamp
  deliveredAt : Option Timestamp
  notes : Option String
  lastLocation : Option (Decimal × Decimal)
  items : List DeliveryItem
  deriving DecidableEq, Repr

inductive DiscountType
  | percent | fixed
  deriving DecidableEq, Repr

structure Coupon where
  id : Uuid
  code : String
  discountType : DiscountType
  value : Decimal
  minOrder : Decimal
  maxDiscount : Option Decimal
  usageLimit : Option ℕ
  usedCount : ℕ
  perUserLimit : Option ℕ
  active : Bool
  startsAt : Option Timestamp
  endsAt : Option Timestamp
  deriving DecidableEq, Repr

structure CouponRedemption where
  couponId : Uuid
  userId : Option Uuid
  orderId : Uuid
  deriving DecidableEq, Repr

/-- The tables the order, delivery and coupon services read and write. Rows stand in
the order they were inserted; `nextId` supplies fresh primary keys. -/
structure Store where
  products : List Product
  orders : List Order
  deliveries : List Delivery
  coupons : List Coupon
  redemptions : List CouponRedemption
  users : List User
  nextId : Uuid
  deriving DecidableEq, Repr

/-- `f"{order.order_number}-D{n}"`, kept as the pair that determines it. -/
def Delivery.codeText (d : Delivery) : String :=
  d.code.1.render ++ "-D" ++ toString d.code.2

/-- `order.deliveries`, oldest first. -/
def Store.deliveriesOf (s : Store) (orderId : Uuid) : List Delivery :=
  s.deliveries.filter fun d => d.orderId = orderId

end Orders

end Qiki
