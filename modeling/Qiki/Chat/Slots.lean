import Qiki.Data.Json
import Qiki.Orders.Model
import Qiki.Text.Unicode

/-! Order details collected in a chat, and the form in which a message stores them. -/
namespace Qiki.Chat

open Unicode Orders

/-- What the code takes from Python: the character database, `str` of values other than
texts, integers and booleans, `json.loads` (`none` is a `JSONDecodeError`), `str` of an id
and `uuid5` in the URL namespace. -/
structure Runtime where
  db : Database
  str : Json → Text
  loads : Text → Option Json
  uuidText : Uuid → Text
  uuid5 : Text → Uuid

/-- One product line in a chat order. -/
structure ChatOrderItem where
  product : Option Text := none
  quantity : Option ℕ := none
  deriving DecidableEq, Repr

/-- Order details extracted from chat history. -/
structure ChatOrderSlots where
  items : List ChatOrderItem := []
  customerName : Option Text := none
  customerPhone : Option Text := none
  deliveryAddress : Option Text := none
  deliveryNotes : Option Text := none
  paymentMethod : Option Text := none
  confirmed : Bool := false
  deriving DecidableEq, Repr

/-- `bool(value)` of an optional text. -/
def present (value : Option Text) : Bool := value.any fun t => !t.isEmpty

/-- `a or b` -/
def orElse (a b : Option Text) : Option Text := if present a then a else b

/-- `a or b` of quantities. -/
def orQuantity (a b : Option ℕ) : Option ℕ := if a.any (0 < ·) then a else b

@[simp] theorem orElse_of_present {a b : Option Text} (h : present a) : orElse a b = a := by
  simp [orElse, h]

@[simp] theorem orElse_of_not_present {a b : Option Text} (h : present a = false) :
    orElse a b = b := by
  simp [orElse, h]

def ChatOrderItem.text (item : ChatOrderItem) : Text := item.product.getD []

section Text
variable (db : Database)

/-- A letter or digit that the normal form keeps. -/
def isMatchChar (c : Char) : Bool := ('a' ≤ c && c ≤ 'z') || ('0' ≤ c && c ≤ '9')

/-- Lower case with `đ` as `d` and without marks. -/
def foldAccents (value : Text) : Text := withoutMarks db (Text.replace "đ" "d" (lower db value))

/-- `_normalize_match_text`: `re.sub(r"[^a-z0-9]+", " ", ...).strip()` leaves the runs of
letters and digits, one space between two. -/
def normalizeMatchText (value : Text) : Text :=
  Text.join [' '] (Text.words (fun c => !isMatchChar c) (foldAccents db value))

/-- `text.split()` of a normalised text. -/
def tokens (normalized : Text) : List Text := Text.words (· == ' ') normalized

/-- `int(text)`: blanks around it, a sign and single underscores between digits are allowed;
a text of more than 4300 digits is refused. -/
def parseInt (text : Text) : Option ℤ :=
  let body := Text.strip db.space text
  let (negative, digits) := match body with
    | '+' :: rest => (false, rest)
    | '-' :: rest => (true, rest)
    | rest => (false, rest)
  let plain := digits.filter (· ≠ '_')
  if (digits.splitOn '_').any List.isEmpty || 4300 < plain.length then none
  else (Text.toNat db.digit plain).map fun n => if negative then -(n : ℤ) else n

end Text

section Values
variable (rt : Runtime)

/-- `str(value)` -/
def Runtime.strOf (value : Json) : Text :=
  match value with
  | .null => "None"
  | .str s => s
  | .int n => (toString n).toList
  | .bool b => if b then "True" else "False"
  | other => rt.str other

/-- The text, or nothing when it is empty. -/
def nonEmpty (text : Text) : Option Text := if text.isEmpty then none else some text

def optionalStr (value : Json) : Option Text :=
  match value with
  | .null => none
  | value => nonEmpty (Text.strip rt.db.space (rt.strOf value))

/-- `_optional_int`; the text of a boolean, a float, a list or an object is no integer. -/
def optionalInt (value : Json) : Option ℕ :=
  let parsed : Option ℤ := match value with
    | .int n => some n
    | .str s => parseInt rt.db s
    | _ => none
  parsed.bind fun n => if 0 < n then some n.toNat else none

def itemsFromMetadata (payload : Json) : List ChatOrderItem :=
  match payload with
  | .arr values => values.filterMap fun value =>
      match value with
      | .obj _ =>
        let parsed : ChatOrderItem :=
          ⟨optionalStr rt (value.getOrNull "product"), optionalInt rt (value.getOrNull "quantity")⟩
        if present parsed.product || parsed.quantity.isSome then some parsed else none
      | _ => none
  | _ => []

/-- `items`, or the one item that older payloads carry in `product` and `quantity`. -/
def itemsOrLegacyItem (payload : Json) : List ChatOrderItem :=
  let items := itemsFromMetadata rt (payload.getOrNull "items")
  if items.isEmpty then
    let legacyItem : ChatOrderItem :=
      ⟨optionalStr rt (payload.getOrNull "product"), optionalInt rt (payload.getOrNull "quantity")⟩
    if present legacyItem.product || legacyItem.quantity.isSome then [legacyItem] else []
  else items

def slotsFromMetadata (payload : Json) : Option ChatOrderSlots :=
  match payload with
  | .obj _ => some {
      items := itemsOrLegacyItem rt payload
      customerName := optionalStr rt (payload.getOrNull "customer_name")
      customerPhone := optionalStr rt (payload.getOrNull "customer_phone")
      deliveryAddress := optionalStr rt (payload.getOrNull "delivery_address")
      deliveryNotes := optionalStr rt (payload.getOrNull "delivery_notes")
      paymentMethod := optionalStr rt (payload.getOrNull "payment_method") }
  | _ => none

end Values

/-- `data[key] = value` for a value that is present. -/
def textField (key : Text) (value : Option Text) : List (Text × Json) :=
  match value with
  | some t => if t.isEmpty then [] else [(key, .str t)]
  | none => []

/-- The entry of one item in `_items_to_metadata`. -/
def itemFields (item : ChatOrderItem) : List (Text × Json) :=
  textField "product" item.product ++
    match item.quantity with
    | some n => [("quantity", .int n)]
    | none => []

def itemsToMetadata (items : List ChatOrderItem) : List Json :=
  (items.map itemFields).filterMap fun fields => if fields.isEmpty then none else some (.obj fields)

/-- `payload["items"]`, when there are any. -/
def itemsField (items : List ChatOrderItem) : List (Text × Json) :=
  if (itemsToMetadata items).isEmpty then [] else [("items", .arr (itemsToMetadata items))]

def slotsToMetadata (slots : Option ChatOrderSlots) : List (Text × Json) :=
  match slots with
  | none => []
  | some slots =>
    itemsField slots.items ++
      textField "customer_name" slots.customerName ++
      textField "customer_phone" slots.customerPhone ++
      textField "delivery_address" slots.deliveryAddress ++
      textField "delivery_notes" slots.deliveryNotes ++
      textField "payment_method" slots.paymentMethod

section Merge
variable (db : Database)

/-- The item that an incoming one is merged into by `_merge_order_items`. -/
def sameTextIndex (merged : List ChatOrderItem) (incoming : ChatOrderItem) : Option ℕ :=
  let incomingKey := normalizeMatchText db incoming.text
  if incomingKey.isEmpty then none
  else merged.findIdx? fun item => normalizeMatchText db item.text = incomingKey

def mergeOrderItem (merged : List ChatOrderItem) (incoming : ChatOrderItem) :
    List ChatOrderItem :=
  match sameTextIndex db merged incoming with
  | none => merged ++ [incoming]
  | some i => merged.modify i fun current =>
      ⟨orElse incoming.product current.product, orQuantity incoming.quantity current.quantity⟩

def mergeOrderItems (current incoming : List ChatOrderItem) : List ChatOrderItem :=
  if incoming.isEmpty then current
  else if current.isEmpty then incoming
  else incoming.foldl (mergeOrderItem db) current

/-- One round of `_merge_order_slots`. -/
def mergeSource (merged source : ChatOrderSlots) : ChatOrderSlots where
  items := mergeOrderItems db merged.items source.items
  customerName := orElse source.customerName merged.customerName
  customerPhone := orElse source.customerPhone merged.customerPhone
  deliveryAddress := orElse source.deliveryAddress merged.deliveryAddress
  deliveryNotes := orElse source.deliveryNotes merged.deliveryNotes
  paymentMethod := orElse source.paymentMethod merged.paymentMethod
  confirmed := merged.confirmed || source.confirmed

/-- `_merge_order_slots` of two sources. -/
def mergeOrderSlots (first second : Option ChatOrderSlots) : ChatOrderSlots :=
  ([first, second].filterMap id).foldl (mergeSource db) {}

end Merge

end Qiki.Chat
