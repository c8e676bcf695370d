import Qiki.Chat.Extraction

/-! The items of a chat order under the operations of a turn. -/
namespace Qiki.Chat

open Unicode Orders

def firstOrderItem (slots : Option ChatOrderSlots) : Option ChatOrderItem :=
  slots.bind fun s => s.items.head?

def withOrderItems (slots : ChatOrderSlots) (items : List ChatOrderItem) : ChatOrderSlots :=
  { slots with items := items, confirmed := false }

def appendOrderItem (slots : ChatOrderSlots) (candidate : ChatOrderItem) : ChatOrderSlots :=
  withOrderItems slots (slots.items ++ [candidate])

section
variable (db : Database)

def dropIncompleteAddItems (slots : ChatOrderSlots) : ChatOrderSlots :=
  withOrderItems slots (slots.items.filter (!isIncompleteAddItem db ·))

/-- An item overwritten by a candidate, as far as the candidate says anything. -/
def overwriteItem (candidate existing : ChatOrderItem) : ChatOrderItem :=
  ⟨orElse candidate.product existing.product, orQuantity candidate.quantity existing.quantity⟩

def replaceFirstMatchingItem (slots : ChatOrderSlots) (candidate : ChatOrderItem)
    (products : List Product) : ChatOrderSlots :=
  if slots.items.isEmpty then withOrderItems slots [candidate]
  else
    let replaceIndex := (findMatchingItemIndex db slots.items candidate products).getD 0
    withOrderItems slots (slots.items.modify replaceIndex (overwriteItem candidate))

def mergeExistingItem (products : List Product) (slots : ChatOrderSlots)
    (candidate : ChatOrderItem) : ChatOrderSlots :=
  match findMatchingItemIndex db slots.items candidate products with
  | none => withOrderItems slots (slots.items ++ [candidate])
  | some i => withOrderItems slots (slots.items.modify i (overwriteItem candidate))

def appendOrderItems (slots : ChatOrderSlots) (candidates : List ChatOrderItem)
    (products : List Product) : ChatOrderSlots :=
  withOrderItems slots (candidates.foldl (fun items candidate =>
    mergeCandidateItems db items candidate products) slots.items)

def removeOrderItem (slots : ChatOrderSlots) (candidate : ChatOrderItem)
    (products : List Product) : ChatOrderSlots :=
  match findMatchingItemIndex db slots.items candidate products with
  | none => slots
  | some i => withOrderItems slots (slots.items.eraseIdx i)

def pendingChangeItem (previousItems pendingItems : List ChatOrderItem)
    (products : List Product) : Option ChatOrderItem :=
  (pendingItems.find? fun item =>
    (findMatchingItemIndex db previousItems item products).isNone).or pendingItems.head?

/-- What the message does with the items it names. -/
inductive ItemsOperation
  | remove | add | replace | set | mergeExisting | ambiguous
  deriving DecidableEq, Repr

def detectOrderItemOperation (content : Text) (previousSlots : Option ChatOrderSlots)
    (candidate : ChatOrderItem) (products : List Product) : Option ItemsOperation :=
  let normalized := normalizeMatchText db content
  let previousItems := (previousSlots.map (·.items)).getD []
  if !present candidate.product then none
  else if hasRemoveCue normalized then some .remove
  else if hasAddCue normalized then some .add
  else if hasReplaceCue normalized then some .replace
  else if previousItems.isEmpty then some .set
  else if (findMatchingItemIndex db previousItems candidate products).isSome then
    some .mergeExisting
  else some .ambiguous

def detectOrderItemsOperation (content : Text) (previousSlots : Option ChatOrderSlots)
    (candidates : List ChatOrderItem) (products : List Product) : Option ItemsOperation :=
  let productItems := candidates.filter fun item => present item.product
  let normalized := normalizeMatchText db content
  let previousItems := (previousSlots.map (·.items)).getD []
  if productItems.isEmpty then none
  else if hasRemoveCue normalized then some .remove
  else if hasAddCue normalized then some .add
  else if hasReplaceCue normalized then some .replace
  else if previousItems.isEmpty then some .set
  else if productItems.all fun item =>
      (findMatchingItemIndex db previousItems item products).isSome then some .mergeExisting
  else match productItems with
    | [item] => detectOrderItemOperation db content previousSlots item products
    | _ => some .ambiguous

/-! Progress of an order. -/

def orderSlotsProgressed (previousSlots slots : ChatOrderSlots) : Bool := previousSlots ≠ slots

def isUnproductiveOrderTurn (content : Text) (previousSlots slots : ChatOrderSlots)
    (candidates : List ChatOrderItem) : Bool :=
  let normalized := normalizeMatchText db content
  if !candidates.isEmpty then false
  else if isOrderCancelRequest normalized || isAffirmation db content || isNegation db content ||
      hasAddCue normalized || hasReplaceCue normalized || hasRemoveCue normalized then false
  else !orderSlotsProgressed previousSlots slots

def missingOrderSlots (slots : ChatOrderSlots) (matched : List (ChatOrderItem × Option Product)) :
    List Text :=
  (if slots.items.isEmpty || matched.any (·.2.isNone) then ["sản phẩm"] else []) ++
  ((if slots.items.any (·.quantity.isNone) then ["số lượng"] else []) ++
  ((if !present slots.customerName then ["tên người nhận"] else []) ++
  ((if !present slots.customerPhone then ["số điện thoại"] else []) ++
  ((if !present slots.deliveryAddress then
    ["địa chỉ giao hàng chi tiết (số nhà, tên/số đường, khu phố, phường)"] else []) ++
  (if !present slots.paymentMethod then ["hình thức thanh toán"] else [])))))

end

end Qiki.Chat
