import Qiki.Chat.AddressLookup
import Qiki.Chat.PhoneNumber
import Qiki.Chat.Products

/-! What a message says about an order: contact data, delivery time, products and quantities. -/
namespace Qiki.Chat

open Unicode Regex Orders Catalog AddressLookup

/-- `text.strip(" ,.;:-")` -/
def stripPunctuation (text : Text) : Text := Text.strip (" ,.;:-".toList.contains ·) text

/-- `[A-Za-zÀ-ỹ]` -/
def letterClasses : List CharClass := [.range 'A' 'Z', .range 'a' 'z', .range 'À' 'ỹ']

/-- `[A-Za-zÀ-ỹ]+` -/
def wordRe : Regex := plus (oneOf false letterClasses)

/-- `\+?\d[\d\s.-]{1,}\d` -/
def phoneRe : Regex := seqOf [optional (literal "+"), digit,
  plus (oneOf false [.digit, .space, .char '.', .char '-']), digit]

/-! Phone numbers. -/

section
variable (db : Database)

def extractPhoneCandidate (content : Text) : Option Text :=
  (finditer ⟨db, false⟩ phoneRe content).findSome? fun found =>
    let candidate := Text.strip db.space found.text
    let digits := candidate.filter fun c => (db.digit c).isSome
    if 3 ≤ digits.length then some (if candidate.head? = some '+' then '+' :: digits else digits)
    else none

def withPhoneCandidate (slots : ChatOrderSlots) (content : Text) : ChatOrderSlots :=
  match extractPhoneCandidate db content with
  | none => slots
  | some candidate =>
    if present slots.customerPhone &&
        (validatePhone db (slots.customerPhone.getD [])).isSome then slots
    else { slots with customerPhone := some candidate }

/-! Addresses. -/

def stripTrailingPaymentWords (value : Text) : Text :=
  let paymentWords : List Text := ["ck", "cod", "cash", "banking", "bank", "chuyển khoản",
    "chuyen khoan", "tiền mặt", "tien mat", "thanh toán khi nhận", "thanh toan khi nhan",
    "trả khi nhận", "tra khi nhan", "ship cod"]
  let pattern := seqOf [star true space, optional (oneOf false ([',', '.', ';', '-'].map .char)),
    star true space, altOf (paymentWords.map literal), star true space, finish]
  Text.strip db.space (sub ⟨db, true⟩ pattern (fun _ => []) value)

/-- `[A-Za-zÀ-ỹ0-9\s,./\-]` -/
def addressChar : Regex := oneOf false
  (letterClasses ++ [.range '0' '9', .space, .char ',', .char '.', .char '/', .char '-'])

/-- A house number up to a street, ward or quarter marker, and what follows it. -/
def addressRe : Regex := group 1 (seqOf [wordBoundary, plus digit, star false addressChar,
  altOf [literal "đường", literal "duong", literal "hẻm", literal "hem",
    seqOf [literal "khu", star true space, literal "phố"],
    seqOf [literal "khu", star true space, literal "pho"],
    seq (literal "kp") (optional (literal ".")), literal "phường", literal "phuong", literal "p."],
  star true addressChar])

/-- `\b(?:địa chỉ|dia chi)\s+(.+)$` -/
def addressMarkerRe : Regex := seqOf [wordBoundary, altOf [literal "địa chỉ", literal "dia chi"],
  plus space, group 1 (plus anyChar), finish]

def extractDeliveryAddressCandidate (content : Text) : Option Text :=
  let group1 (pattern : Regex) := (search ⟨db, true⟩ pattern content).bind fun found => found.group 1
  ((group1 addressRe).or (group1 addressMarkerRe)).bind fun candidate =>
    nonEmpty (stripPunctuation (collapseSpaces db (stripTrailingPaymentWords db candidate)))

def addressMarkerTokens : List Text :=
  ["duong", "phuong", "quan", "hem", "ngo", "xa", "ap", "kp", "tphcm", "tp"]

def addressMarkerPhrases : List Text := ["khu pho", "thanh pho", "so nha"]

def segmentLooksLikeAddress (segment : Text) : Bool :=
  let normalized := normalizeMatchText db segment
  (tokens normalized).any addressMarkerTokens.contains || normalized.containsAny addressMarkerPhrases

def addressHasNonAddressNoise (address : Text) : Bool :=
  let normalized := normalizeMatchText db address
  let words := tokens normalized
  let noise : List Text := ["ten", "sdt", "ck", "cod", "cash", "banking", "bank", "gas", "kg", "lit"]
  let compact := address.filter fun c => !db.space c && c ≠ '.' && c ≠ '-'
  words.any noise.contains || (search ⟨db, false⟩ (times digit 9) compact).isSome ||
    normalized.containsAny ["chuyen khoan", "tien mat", "thanh toan"]

def addressSegmentFromContent (content : Text) : Option Text :=
  let separators := plus (oneOf false ([',', '\n', ';'].map .char))
  let parts := ((split ⟨db, false⟩ separators content).filter (segmentLooksLikeAddress db)).map
    (Text.strip (" .;:-".toList.contains ·))
  if parts.isEmpty then none
  else
    let joined := stripTrailingPaymentWords db (Text.join ", " (parts.filter (!·.isEmpty)))
    nonEmpty (stripPunctuation (collapseSpaces db joined))

def sanitizeDeliveryAddress (address : Option Text) (content : Text) : Option Text :=
  if !present address || !addressHasNonAddressNoise db (address.getD []) then address
  else match addressSegmentFromContent db content with
    | some segment => if addressHasNonAddressNoise db segment then address else some segment
    | none => address

def selectDeliveryAddress (extractedAddress inferredAddress : Option Text) : Option Text :=
  if !present inferredAddress then extractedAddress
  else if !present extractedAddress then inferredAddress
  else
    let extracted := extractedAddress.getD []
    let inferred := inferredAddress.getD []
    let extractedZone := resolveWardDeliveryZone db extracted
    let inferredZone := resolveWardDeliveryZone db inferred
    if inferredZone.isSome && extractedZone.isNone then inferredAddress
    else if inferredZone.isSome && extractedZone.isSome && extracted.length < inferred.length then
      inferredAddress
    else extractedAddress

/-! Names. -/

/-- The words of a name, if there are one to three besides the ignored ones. -/
def nameWords (ignored : List Text) (text : Text) : Option Text :=
  let words := ((findall ⟨db, false⟩ wordRe text).filter fun word =>
    !ignored.contains (normalizeMatchText db word)).map (Text.strip db.space)
  if words.isEmpty || 3 < words.length then none else some (Text.join [' '] words)

def cleanNameCandidate (value : Text) : Option Text :=
  nameWords db ["ok", "okay", "giao", "dat", "dathang", "don", "dia", "chi", "sdt", "so", "phone"]
    value

def extractExplicitNameCandidate (content : Text) : Option Text :=
  let labels : List Text := ["tên", "ten", "mình tên", "minh ten", "tôi tên", "toi ten",
    "người nhận", "nguoi nhan"]
  let pattern := seqOf [wordBoundary, altOf (labels.map literal), plus space,
    group 1 (seq (oneOf false letterClasses)
      (upToTimes (oneOf false (letterClasses ++ [.space, .char '\'', .char '.', .char '-'])) 0 40))]
  ((search ⟨db, true⟩ pattern content).bind fun found => found.group 1).bind fun candidate =>
    (cleanNameCandidate db candidate).map (title db)

def extractLeadingNameBeforeAddress (content : Text) : Option Text :=
  (extractDeliveryAddressCandidate db content).bind fun address =>
    match Text.find (lower db content) (lower db address) with
    | none | some 0 => none
    | some addressIndex =>
      let labels : List Text := ["tên", "ten", "mình", "minh", "tôi", "toi", "là", "la"]
      let lead := stripPunctuation (content.take addressIndex)
      let withoutPhone := sub ⟨db, false⟩ phoneRe (fun _ => [' ']) lead
      let withoutLabels := sub ⟨db, true⟩ (anyWord labels) (fun _ => [' ']) withoutPhone
      (cleanNameCandidate db withoutLabels).map (title db)

def extractNameCandidate (content : Text) (paymentMethod : Option Text) : Option Text :=
  match extractExplicitNameCandidate db content, extractLeadingNameBeforeAddress db content with
  | some name, _ => some name
  | none, some name => some name
  | none, none =>
    if paymentMethod.isNone then none
    else
      let withoutPhone := sub ⟨db, false⟩ phoneRe (fun _ => [' ']) content
      let withoutCodes := sub ⟨db, true⟩ (anyWord ["cod", "cash", "ck"]) (fun _ => [' '])
        withoutPhone
      let text := sub ⟨db, false⟩
        (anyWord ["tiền mặt", "tien mat", "chuyển khoản", "chuyen khoan"]) (fun _ => [' '])
        withoutCodes
      (nameWords db ["ok", "okay", "dong", "dung", "roi", "phai", "thanh", "toan"] text).map
        (title db)

def withOrderCues (slots : ChatOrderSlots) (content : Text) : ChatOrderSlots :=
  let paymentMethod := orElse slots.paymentMethod (extractPaymentCandidate db content)
  { slots with
    customerName := orElse (extractNameCandidate db content paymentMethod) slots.customerName
    paymentMethod := paymentMethod }

/-! Delivery times. -/

/-- `sáng|sang|trưa|trua|chiều|chieu|tối|toi`, then `nay` or `mai`. -/
def periodRe : Regex := seqOf [
  altOf (["sáng", "sang", "trưa", "trua", "chiều", "chieu", "tối", "toi"].map
    fun s => literal s.toList),
  plus space, altOf [literal "nay", literal "mai"]]

/-- `(?:sau|trước|truoc)\s+\d{1,2}\s*h(?:\d{2})?` -/
def hourRe : Regex := seqOf [altOf [literal "sau", literal "trước", literal "truoc"], plus space,
  upToTimes digit 1 1, star true space, literal "h", optional (times digit 2)]

/-- The patterns of `_extract_delivery_time_candidate`, in the order in which they are tried. -/
def deliveryTimePatterns : List Regex := [
  seqOf [wordBoundary, literal "giao", plus space, group 1 periodRe, wordBoundary],
  seqOf [wordBoundary, literal "giao", plus space, group 1 hourRe, wordBoundary],
  seqOf [wordBoundary, group 1 periodRe, wordBoundary],
  seqOf [wordBoundary, group 1 hourRe, wordBoundary]]

def extractDeliveryTimeCandidate (content : Text) : Option Text :=
  (deliveryTimePatterns.findSome? fun pattern =>
    (search ⟨db, true⟩ pattern (lower db content)).bind fun found => found.group 1).map
      (Text.strip (" .,;:!?".toList.contains ·))

def withDeliveryTimeCandidate (slots : ChatOrderSlots) (content : Text) : ChatOrderSlots :=
  { slots with
    deliveryNotes := orElse slots.deliveryNotes (extractDeliveryTimeCandidate db content) }

/-- `\b(\d{1,2})\s*(?:hourUnit)?\s*(?:-|den)\s*(\d{1,2})\s*h?\b` -/
def hourRangeRe (hourUnit : Regex) : Regex := seqOf [wordBoundary, group 1 (upToTimes digit 1 1),
  star true space, optional hourUnit, star true space, altOf [literal "-", literal "den"],
  star true space, group 2 (upToTimes digit 1 1), star true space, optional (literal "h"),
  wordBoundary]

/-- The two hours of a range such as `7-8h`, when both are between 1 and `last`. -/
def hourRange (hourUnit : Regex) (last : ℕ) (text : Text) : Option (ℕ × ℕ) :=
  (search ⟨db, false⟩ (hourRangeRe hourUnit) text).bind fun found =>
    ((found.group 1).bind (Text.toNat db.digit)).bind fun start =>
      ((found.group 2).bind (Text.toNat db.digit)).bind fun stop =>
        if 1 ≤ start ∧ start ≤ last ∧ 1 ≤ stop ∧ stop ≤ last then some (start, stop) else none

/-- `f"{start}-{end}h"` -/
def formatHourRange (range : ℕ × ℕ) : Text :=
  Text.ofNat range.1 ++ "-" ++ Text.ofNat range.2 ++ "h"

def ambiguousDeliveryPeriods : List Text := ["sang", "trua", "chieu", "toi", "dem"]

def extractAmbiguousDeliveryTimeWindow (content : Text) : Option Text :=
  if (tokens (normalizeMatchText db content)).any ambiguousDeliveryPeriods.contains then none
  else
    -- h|g(?:io)?
    let hourUnit := alt (literal "h") (seq (literal "g") (optional (literal "io")))
    (hourRange db hourUnit 12 (foldAccents db content)).map formatHourRange

end

/-! Items. -/

section
variable (db : Database)

def mergeCandidateItems (current : List ChatOrderItem) (incoming : ChatOrderItem)
    (products : List Product) : List ChatOrderItem :=
  if current.isEmpty then [incoming]
  else match findMatchingItemIndex db current incoming products with
    | none => current ++ [incoming]
    | some i => current.modify i fun item =>
        ⟨orElse item.product incoming.product, item.quantity.or incoming.quantity⟩

def splitOrderItemSegments (content : Text) : List Text :=
  let normalized := normalizeMatchText db content
  let joiners : List Text := ["cong them", "lay them", "them vao", "them", "va", "voi"]
  let pattern := alt (anyWord joiners) (oneOf false [.char ',', .char '+'])
  if normalized.isEmpty then []
  else
    let segments := ((split ⟨db, false⟩ pattern normalized).map (Text.strip db.space)).filter
      (!·.isEmpty)
    if segments.isEmpty then [normalized] else segments

/-- The words that `_category_order_item_from_segment` skips. -/
def fillerWords : List Text := ["a", "dat", "di", "khi", "mua", "lay", "cho", "toi", "minh", "can",
  "muon", "luon", "nhe", "nua", "them", "voi"]

def categoryOrderItemFromSegment (segment : Text) : Option ChatOrderItem :=
  let normalized := normalizeMatchText db segment
  let quantity := extractLeadingQuantityCandidate db normalized
  let rest := match quantity.bind fun _ => matchStart ⟨db, false⟩ leadingQuantityRe normalized with
    | some found => Text.strip db.space found.stop.rest
    | none => normalized
  let categoryText := Text.join [' '] ((tokens rest).filter (!fillerWords.contains ·))
  if isBareCategoryQuery db (some categoryText) then
    let product : Text :=
      if categoryFilterFromQuery categoryText = some .nuocUong then "nước uống" else "gas"
    some ⟨some product, quantity⟩
  else none

/-- The item that a text names: a product with a quantity, or a quantity alone. -/
def itemFromText (text : Text) (products : List Product) : Option ChatOrderItem :=
  let matched := matchProduct db (some text) products
  let quantity := match extractQuantityCandidate db text with
    | some n => some n
    | none => if matched.isSome then extractLeadingQuantityCandidate db text else none
  match quantity with
  | none => none
  | some n => some ⟨matched.map (formatProductDisplayName db), some n⟩

/-- One segment in the loop of `_infer_order_slots`. -/
def inferSegment (products : List Product) (items : List ChatOrderItem) (segment : Text) :
    List ChatOrderItem :=
  if segmentLooksLikeAddress db segment then items
  else match categoryOrderItemFromSegment db segment with
    | some categoryItem => mergeCandidateItems db items categoryItem products
    | none => match itemFromText db segment products with
      | some item => mergeCandidateItems db items item products
      | none => items

def inferOrderSlots (content : Text) (products : List Product) : ChatOrderSlots :=
  let items := (splitOrderItemSegments db content).foldl (inferSegment db products) []
  if items.isEmpty && !segmentLooksLikeAddress db content then
    { items := (itemFromText db content products).toList }
  else { items := items }

/-- The test of `_is_product_mentioned_in_content` for one name. -/
def isMentioned (content candidate : Text) : Bool :=
  let normalizedContent := normalizeMatchText db content
  let normalizedCandidate := normalizeMatchText db candidate
  let candidateTokens := (tokens normalizedCandidate).filter (3 ≤ ·.length)
  !normalizedCandidate.isEmpty && (normalizedContent.contains normalizedCandidate ||
    (!candidateTokens.isEmpty && candidateTokens.all (tokens normalizedContent).contains))

/-- `_is_product_mentioned_in_content` for a product. -/
def isProductMentionedInContent (content : Text) (product : Product) : Bool :=
  let size := formatDecimal product.sizeKg
  ([product.name, product.brand, product.sku, formatProductDisplayName db product, size ++ "kg",
    size ++ " " ++ (product.unit : Text)] : List Text).any (isMentioned db content)

/-- One extracted item in the loop of `_combine_current_message_slots`: an item whose product
the message does not mention is dropped, and a named product replaces a bare category. -/
def combineItem (content : Text) (products : List Product) (items : List ChatOrderItem)
    (extracted : ChatOrderItem) : List ChatOrderItem :=
  if present extracted.product then
    let extractedProduct := matchProduct db extracted.product products
    let mentioned := extractedProduct.any (isProductMentionedInContent db content) ||
      isMentioned db content extracted.text
    let onlyCategory := match items with
      | [item] => isBareCategoryQuery db item.product
      | _ => false
    if !mentioned then items
    else if onlyCategory && extractedProduct.isSome && !isBareCategoryQuery db extracted.product then
      mergeCandidateItems db [] extracted products
    else mergeCandidateItems db items extracted products
  else mergeCandidateItems db items extracted products

def combineCurrentMessageSlots (inferredSlots extractedSlots : ChatOrderSlots) (content : Text)
    (products : List Product) : ChatOrderSlots :=
  { extractedSlots with
    items := extractedSlots.items.foldl (combineItem db content products) inferredSlots.items
    deliveryAddress := sanitizeDeliveryAddress db
      (selectDeliveryAddress db extractedSlots.deliveryAddress
        (extractDeliveryAddressCandidate db content)) content }

end

/-! The reply of the language model. -/

section
variable (rt : Runtime)

/-- `\{.*\}` with `re.DOTALL`. -/
def objectRe : Regex := seqOf [literal "\x7b", star true (oneOf true []), literal "\x7d"]

def parseJsonObject (text : Text) : Json :=
  let parsed := (rt.loads text).or
    ((search ⟨rt.db, false⟩ objectRe text).bind fun found => rt.loads found.text)
  match parsed with
  | some (.obj fields) => .obj fields
  | _ => .obj []

/-- `_extract_order_slots`, from the text that the model returned. -/
def extractOrderSlots (response : Text) : ChatOrderSlots :=
  let payload := parseJsonObject rt response
  { items := itemsOrLegacyItem rt payload
    customerName := optionalStr rt (payload.getOrNull "customer_name")
    customerPhone := optionalStr rt (payload.getOrNull "customer_phone")
    deliveryAddress := optionalStr rt (payload.getOrNull "delivery_address")
    deliveryNotes := optionalStr rt (payload.getOrNull "delivery_notes")
    paymentMethod := optionalStr rt (payload.getOrNull "payment_method")
    confirmed := normalizeConfirmation rt.db (payload.getOrNull "confirmed") }

end

end Qiki.Chat
