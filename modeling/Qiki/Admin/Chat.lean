import Qiki.Admin.Parser

/-! The admin chat: a message is planned into a pending change, and a confirmation applies it. -/
namespace Qiki.Admin

open Unicode Catalog Orders

def pendingTtlSeconds : ℕ := 300

structure AdminChatRequest where
  message : Text
  confirm : Bool
  pendingToken : Option Text
  deriving DecidableEq, Repr

inductive AdminChatStatus
  | confirmRequired | executed | notFound | ambiguous | invalid | unrecognized | expired | stale
  deriving DecidableEq, Repr

structure AdminActionPreview where
  action : AdminAction
  productId : Uuid
  productName : Text
  sku : Text
  field : Text
  currentValue : Text
  newValue : Text
  deriving DecidableEq, Repr

structure AdminChatResponse where
  status : AdminChatStatus
  reply : Text
  pendingToken : Option Text := none
  action : Option AdminActionPreview := none
  deriving DecidableEq, Repr

/-- One column of a product with a value: a snapshot of it, or what an update assigns. -/
inductive Change
  | price (value : Decimal)
  | stockQuantity (value : ℤ)
  | isActive (value : Bool)
  deriving DecidableEq, Repr

/-! Replies. -/

def unrecognizedReply : Text := "Mình chưa hiểu yêu cầu quản trị. Bạn có thể nói ví dụ: " ++
  "\"đổi giá Elf 12kg thành 460000\", \"cập nhật tồn Petrolimex 12kg thành 20\", " ++
  "hoặc \"ẩn sản phẩm Gas Đại Hải 12kg\"."

def notFoundReply : Text := "Mình không tìm thấy sản phẩm phù hợp. Bạn nêu rõ hơn theo tên + " ++
  "dung tích hoặc mã SKU giúp mình nhé."

def expiredReply : Text :=
  "Phiên xác nhận đã hết hạn hoặc không hợp lệ. Bạn gửi lại yêu cầu giúp mình nhé."

def staleReply : Text := "Sản phẩm này vừa được thay đổi bởi một thao tác khác, nên Qiki chưa " ++
  "áp dụng để tránh ghi đè. Bạn gửi lại yêu cầu để mình báo giá/tồn mới nhất nhé."

/-- Digits in groups of three, from the right, with points. -/
def groupThousands (digits : Text) : Text :=
  if digits.length ≤ 3 then digits
  else groupThousands (digits.take (digits.length - 3)) ++ "." ++
    digits.drop (digits.length - 3)
termination_by digits.length
decreasing_by simp; omega

/-- `str(n)` of an integer. -/
def intText (n : ℤ) : Text := if n < 0 then "-" ++ Text.ofNat n.natAbs else Text.ofNat n.natAbs

def formatVnd (value : Decimal) : Text :=
  let whole : ℤ := if value < 0 then -(-value).floor else value.floor
  (if whole < 0 then "-".toList else []) ++ groupThousands (Text.ofNat whole.natAbs) ++ "đ"

def activeText (active : Bool) : Text := if active then "hiển thị" else "ẩn"

/-- A validated instruction as the change it asks for. -/
def ParsedInstruction.change (parsed : ParsedInstruction) : Change :=
  match parsed.action with
  | .updatePrice => .price (parsed.priceValue.getD 0)
  | .updateStock => .stockQuantity (parsed.stockValue.getD 0)
  | .setActive => .isActive (parsed.activeValue.getD false)

/-- The product's value in the column of an action. -/
def currentValue (action : AdminAction) (p : Product) : Change :=
  match action with
  | .updatePrice => .price p.price
  | .updateStock => .stockQuantity p.stockQuantity
  | .setActive => .isActive p.isActive

/-- `_compute_change`: the value before, and the value after that the update assigns. -/
def computeChange (parsed : ParsedInstruction) (p : Product) : Change × Change :=
  (currentValue parsed.action p, parsed.change)

def Change.field : Change → Text
  | .price _ => "price"
  | .stockQuantity _ => "stock_quantity"
  | .isActive _ => "is_active"

/-- A value as the preview shows it. -/
def Change.shown : Change → Text
  | .price value => formatVnd value
  | .stockQuantity value => intText value
  | .isActive value => activeText value

def buildPreview (parsed : ParsedInstruction) (p : Product) : AdminActionPreview where
  action := parsed.action
  productId := p.id
  productName := p.name
  sku := p.sku
  field := parsed.change.field
  currentValue := (currentValue parsed.action p).shown
  newValue := parsed.change.shown

def confirmPrompt (parsed : ParsedInstruction) (p : Product) : Text :=
  let label : Text := p.name ++ " (" ++ p.sku ++ ")"
  match parsed.change with
  | .price value => "Xác nhận đổi giá " ++ label ++ ": " ++ formatVnd p.price ++ " → " ++
      formatVnd value ++ "?"
  | .stockQuantity value => "Xác nhận cập nhật tồn kho " ++ label ++ ": " ++
      intText p.stockQuantity ++ " → " ++ intText value ++ "?"
  | .isActive true => "Xác nhận hiển thị lại sản phẩm " ++ label ++ "?"
  | .isActive false => "Xác nhận ẩn sản phẩm " ++ label ++ "?"

def executedReply (parsed : ParsedInstruction) (productName : Text) : Text :=
  match parsed.change with
  | .price value => "Đã đổi giá " ++ productName ++ " thành " ++ formatVnd value ++ "."
  | .stockQuantity value => "Đã cập nhật tồn kho " ++ productName ++ " thành " ++
      intText value ++ "."
  | .isActive true => "Đã hiển thị lại sản phẩm " ++ productName ++ "."
  | .isActive false => "Đã ẩn sản phẩm " ++ productName ++ "."

def ambiguousReply (candidates : List Product) : Text :=
  let listed := Text.join "; " ((candidates.take 5).map fun p =>
    (p.name ++ " (" ++ p.sku ++ ")").toList)
  "Có nhiều sản phẩm khớp yêu cầu. Bạn nêu rõ mã SKU giúp mình nhé. " ++
    "Các sản phẩm gần đúng: " ++ listed ++ "."

def validationError (parsed : ParsedInstruction) : Option Text :=
  match parsed.action with
  | .updatePrice =>
    if parsed.priceValue.all fun value => value ≤ 0 then
      some "Giá phải lớn hơn 0. Bạn kiểm tra lại số tiền giúp mình nhé."
    else none
  | .updateStock =>
    if parsed.stockValue.all fun value => value < 0 then
      some "Tồn kho không thể là số âm. Bạn nhập lại số lượng giúp mình nhé."
    else none
  | .setActive => none

/-! Planning. -/

section Planning
variable (db : Database)

/-- `_match`: by SKU, else by brand or size. -/
def matchProducts (message : Text) (catalog : List Product) : List Product :=
  let normalized := stripAccents db message
  let skuMatches := catalog.filter fun p =>
    4 ≤ p.sku.length && normalized.contains (stripAccents db p.sku)
  if !skuMatches.isEmpty then skuMatches
  else
    let brands := ((catalog.map (·.brand)).dedup.insertionSort fun a b => ¬ b < a).map String.toList
    let query := parseProductQuery db message brands
    if !query.isSpecific then [] else filterProducts db catalog query

/-- `_plan` up to the preview: the one product and the instruction, or a reply. -/
def plan (catalog : List Product) (message : Text) :
    Except AdminChatResponse (Product × ParsedInstruction) :=
  match parseAdminInstruction db message with
  | none => .error { status := .unrecognized, reply := unrecognizedReply }
  | some parsed =>
    match matchProducts db message (catalog.insertionSort fun a b => ¬ b.name < a.name) with
    | [] => .error { status := .notFound, reply := notFoundReply }
    | [product] =>
      match validationError parsed with
      | some error => .error { status := .invalid, reply := error }
      | none => .ok (product, parsed)
    | candidates => .error { status := .ambiguous, reply := ambiguousReply candidates }

end Planning

/-- The payload that `_store_pending` keeps in Redis. -/
structure Pending where
  adminId : Uuid
  productId : Uuid
  instruction : ParsedInstruction
  beforeSnapshot : Change
  deriving DecidableEq, Repr

/-! Execution. -/

/-- A row of `admin_audit_logs`. -/
structure AdminAuditLog where
  adminId : Uuid
  action : AdminAction
  targetId : Uuid
  before : Change
  after : Change
  deriving DecidableEq, Repr

/-- A price in its `Numeric(10, 2)` column. -/
def columnPrice (value : Decimal) : Decimal := (value * 100 + 1 / 2).floor / 100

/-- `UPDATE products` of one column. -/
def assign (p : Product) : Change → Product
  | .price value => { p with price := columnPrice value }
  | .stockQuantity value => { p with stockQuantity := value }
  | .isActive value => { p with isActive := value }

/-- The columns hold the values: `Numeric(10, 2)` and `Integer`. -/
def columnsHold (p : Product) : Bool :=
  p.price < 10 ^ 8 && -2 ^ 31 ≤ p.stockQuantity && p.stockQuantity < 2 ^ 31

/-- `ProductResponse.model_validate`, on the columns of the model. -/
def responseValid (p : Product) : Bool :=
  0 < p.price && 0 ≤ p.stockQuantity && p.salePrice.all (fun s => 0 < s && s < p.price) &&
    (p.category ≠ .gas || p.sizeKg ∈ [6, 12, 45])

/-- `_execute_pending` behind the claim of the token: it replies, it raises, or it changes
the catalog and writes the audit entry. -/
inductive Execution
  | replied (response : AdminChatResponse)
  | raised
  | applied (catalog : List Product) (audit : AdminAuditLog) (response : AdminChatResponse)

def executePending (catalog : List Product) (admin : User) (data : Pending) : Execution :=
  match Table.find Product.id data.productId catalog with
  | none => .replied { status := .notFound, reply := notFoundReply }
  | some product =>
    match validationError data.instruction with
    | some error => .replied { status := .invalid, reply := error }
    | none =>
      let (before, after) := computeChange data.instruction product
      if before ≠ data.beforeSnapshot then .replied { status := .stale, reply := staleReply }
      else if !admin.isAdmin then .raised
      else if !columnsHold (assign product after) || !responseValid (assign product after) then
        .raised
      else .applied (Table.modify Product.id data.productId (fun p => assign p after) catalog)
        ⟨admin.id, data.instruction.action, data.productId, before, after⟩
        { status := .executed, reply := executedReply data.instruction product.name }

end Qiki.Admin
