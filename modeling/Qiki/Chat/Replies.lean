import Qiki.Chat.History
import Qiki.Safety.Checker

/-! The texts with which an order turn answers. -/
namespace Qiki.Chat

open Unicode Orders

def formatPhoneDisplay (phone : Text) : Text :=
  if ("+84" : Text).isPrefixOf phone then '0' :: phone.drop 3 else phone

def formatPostOrderChangeText (db : Database) (content : Text) : Text :=
  match extractPaymentCandidate db content with
  | none => "thay đổi thông tin đơn"
  | some method =>
    if method = "bank_transfer" then "đổi sang **chuyển khoản**"
    else "đổi sang **thanh toán khi nhận hàng (COD)**"

def formatOrderItemLabel (item : Option ChatOrderItem) : Text :=
  match item.bind fun i => i.product with
  | none => "sản phẩm mới"
  | some product => if product.isEmpty then "sản phẩm mới" else product

def formatAddOrReplaceQuestion (oldItem : Option ChatOrderItem) (newItem : ChatOrderItem) : Text :=
  let newLabel := formatOrderItemLabel (some newItem)
  "Bạn muốn **thêm** " ++ newLabel ++ " vào đơn, hay **đổi** " ++ formatOrderItemLabel oldItem ++
    " sang " ++ newLabel ++ "? Bạn nhắn 'thêm' hoặc 'đổi' giúp Qiki nhé."

def formatPendingChangeClarification : Text :=
  "Bạn nhắn **đúng** để đổi, **không** để giữ nguyên, hoặc **thêm** để đặt thêm nhé."

/-- `_format_product_change_question`; a label is never empty. -/
def formatProductChangeQuestion (previousProduct : Text) (pendingSlots : ChatOrderSlots) : Text :=
  "Bạn muốn đổi sang **" ++ formatOrderItemLabel (firstOrderItem (some pendingSlots)) ++
    "** thay cho **" ++ previousProduct ++ "** ban đầu phải không ạ?"

def formatCategoryProductQuestion (db : Database) (query : Text) : Text :=
  match categoryFilterFromQuery (normalizeMatchText db query) with
  | some .nuocUong => "Bạn muốn đặt loại nước uống nào? Qiki gửi các lựa chọn bên dưới nhé."
  | some .gas => "Bạn muốn đặt loại gas nào? Qiki gửi các lựa chọn bên dưới nhé."
  | none => "Bạn muốn đặt sản phẩm nào? Qiki gửi các lựa chọn bên dưới nhé."

/-- The part of a contact question about one field. -/
def contactPart (before : Text) (value : Option Text) (after : Text) : List Text :=
  if present value then [before ++ value.getD [] ++ after] else []

def formatAccountContactQuestion (slots : Option ChatOrderSlots) (includeSavedAddress : Bool) :
    Text :=
  match slots with
  | none => "Bạn cho Qiki xin tên người nhận và số điện thoại để lên đơn nhé."
  | some slots =>
    let parts := contactPart "tên người nhận là **" slots.customerName "** (theo tài khoản)" ++
      (contactPart "số **" (slots.customerPhone.map formatPhoneDisplay) "**" ++
      (if includeSavedAddress then
        contactPart "giao tới địa chỉ đã lưu **" slots.deliveryAddress "**" else []))
    let detail : Text := if parts.isEmpty then "thông tin tài khoản" else Text.join ", " parts
    "Dạ " ++ detail ++ " phải không ạ? Nếu khác bạn cho Qiki biết nhé."

def formatReusableContactQuestion (slots : Option ChatOrderSlots) : Text :=
  match slots with
  | none => "Bạn vẫn dùng thông tin giao hàng như lần trước phải không ạ?"
  | some slots =>
    let parts := contactPart "người nhận **" slots.customerName "**" ++
      (contactPart "số **" (slots.customerPhone.map formatPhoneDisplay) "**" ++
      contactPart "giao tới **" slots.deliveryAddress "**")
    let detail : Text := if parts.isEmpty then "thông tin giao hàng cũ" else Text.join ", " parts
    "Bạn vẫn dùng " ++ detail ++ " như lần trước phải không ạ? Nếu khác bạn gửi lại giúp Qiki nhé."

/-- The missing slots as one phrase. -/
def listMissing (missing : List Text) : Text :=
  match missing with
  | [only] => only
  | _ => Text.join ", " missing.dropLast ++ " và " ++ missing.getLastD []

def formatMissingSlotQuestion (missing : List Text) : Text :=
  "Bạn cho Qiki xin thêm " ++ listMissing missing ++ " để lên đơn nhé."

def formatOrderOfftopicMessage (missing : List Text) : Text :=
  "Qiki chưa rõ ý bạn ạ. Mình đang chờ " ++ listMissing missing ++
    " để hoàn tất đơn - bạn gửi giúp nhé, hoặc nhắn **huỷ** nếu muốn dừng đặt hàng."

def formatInvalidPhoneQuestion (phone : Text) : Text :=
  "Số **" ++ phone ++ "** có vẻ chưa đúng định dạng SĐT Việt Nam " ++
    "(10 số, đầu 03/05/07/08/09). Bạn cho Qiki xin lại SĐT nhé."

/-! The order summary. -/

/-- What `_format_order_summary` is given to show. -/
structure OrderSummary where
  items : List (ChatOrderItem × Product)
  customerName : Text
  phone : Text
  address : Text
  paymentMethod : PaymentMethod
  deriving DecidableEq, Repr

def waterItemQuantity (items : List (ChatOrderItem × Product)) : ℕ :=
  ((items.filter fun i => i.2.category = .nuocUong).map fun i => i.1.quantity.getD 0).sum

def waterDeliveryFee (items : List (ChatOrderItem × Product)) : Decimal :=
  5000 * waterItemQuantity items

/-- `_effective_price(product) * quantity` -/
def lineTotal (i : ChatOrderItem × Product) : Decimal := i.2.effectivePrice * i.1.quantity.getD 0

def summaryLine (i : ChatOrderItem × Product) : Text :=
  "- " ++ (i.2.name : Text) ++ " (" ++ (i.2.brand : Text) ++ ") × " ++
    Text.ofNat (i.1.quantity.getD 0) ++ " — " ++ formatVnd (lineTotal i)

/-- The words of a summary in one language. -/
structure SummaryTexts where
  opening : Text
  waterFee : Text
  perBottle : Text
  bottles : Text
  subtotal : Text
  recipient : Text
  phone : Text
  address : Text
  payment : Text
  bankTransfer : Text
  note : Text
  prompt : Text

/-- The texts of `_format_order_summary` and `_format_order_summary_en`. -/
def summaryTexts : Language → SummaryTexts
  | .vi => {
      opening := "Qiki tóm tắt đơn hàng của bạn:"
      waterFee := "Phí giao nước"
      perBottle := "5k/bình"
      bottles := "bình nước"
      subtotal := "Tạm tính"
      recipient := "Người nhận"
      phone := "Số điện thoại"
      address := "Địa chỉ"
      payment := "Thanh toán"
      bankTransfer := "chuyển khoản"
      note := "- Ghi chú: Phí lên lầu +5.000đ/lầu (nếu có), nhân viên báo khi giao."
      prompt := "Bạn xác nhận đặt đơn này không?" }
  | .en => {
      opening := "Qiki's summary of your order:"
      waterFee := "Water delivery fee"
      perBottle := "5k/bottle"
      bottles := "water bottles"
      subtotal := "Subtotal"
      recipient := "Recipient"
      phone := "Phone"
      address := "Address"
      payment := "Payment"
      bankTransfer := "bank transfer"
      note := "- Note: Extra +5,000đ/floor for carrying upstairs (if any); staff confirm on delivery."
      prompt := "Would you like to confirm this order?" }

/-- `- label: **value**` -/
def labelled (label value : Text) : Text := "- " ++ label ++ ": **" ++ value ++ "**"

def formatOrderSummary (summary : OrderSummary) (language : Language) : Text :=
  let texts := summaryTexts language
  let fee := waterDeliveryFee summary.items
  let subtotal := (summary.items.map lineTotal).sum + fee
  let feeLine := "- " ++ texts.waterFee ++ ": +" ++ formatVnd fee ++ " (" ++ texts.perBottle ++
    " × " ++ Text.ofNat (waterItemQuantity summary.items) ++ " " ++ texts.bottles ++ ")"
  let fields := [labelled texts.subtotal (formatVnd subtotal),
    labelled texts.recipient summary.customerName,
    labelled texts.phone (formatPhoneDisplay summary.phone),
    labelled texts.address summary.address,
    labelled texts.payment
      (if summary.paymentMethod = .cod then "COD" else texts.bankTransfer)]
  Text.join "\n" ([texts.opening] ++ summary.items.map summaryLine ++
    (if fee ≠ 0 then [feeLine] else []) ++ fields ++ (if fee ≠ 0 then [texts.note] else []) ++
    [[], texts.prompt])

def deliveryNotesWithWaterFee (db : Database) (deliveryNotes : Option Text)
    (items : List (ChatOrderItem × Product)) : Option Text :=
  let feeNote : Text := "[Phí giao nước +5k/bình; lên lầu +5k/lầu]"
  if waterDeliveryFee items ≤ 0 then deliveryNotes
  else if present deliveryNotes then
    some (Text.strip db.space (feeNote ++ " " ++ deliveryNotes.getD []))
  else some feeNote

/-! Business hours. -/

/-- Seconds since the epoch on the clock of `VN_TIMEZONE`. -/
def vnClock (now : Timestamp) : ℕ := now + 7 * 3600

/-- `weekday()`: the first day of the epoch was a Thursday. -/
def weekday (vnTime : ℕ) : ℕ := (vnTime / 86400 + 3) % 7

/-- `_business_hours_for_weekday`, in seconds of the day. -/
def businessHoursForWeekday (weekday : ℕ) : ℕ × ℕ :=
  (if weekday < 5 then 6 * 3600 + 30 * 60 else 7 * 3600 + 30 * 60, 20 * 3600)

def isBusinessOpen (vnTime : ℕ) : Bool :=
  let hours := businessHoursForWeekday (weekday vnTime)
  hours.1 ≤ vnTime % 86400 && vnTime % 86400 < hours.2

def formatOrderCallbackSentence (now : Timestamp) (deliveryNotes : Option Text) : Text :=
  if present deliveryNotes then
    let noted := "Qiki đã ghi chú giao theo khung giờ bạn đề xuất (**" ++ deliveryNotes.getD [] ++
      "**), "
    if isBusinessOpen (vnClock now) then
      noted ++ "nhân viên sẽ gọi lại xác nhận sớm nhất. Cảm ơn bạn!"
    else "Hiện đã ngoài giờ làm việc. " ++ noted ++
      "ngày mai nhân viên sẽ gọi lại xác nhận sớm nhất. Cảm ơn bạn!"
  else if isBusinessOpen (vnClock now) then
    "**Nhân viên sẽ liên hệ lại xác nhận đơn trong thời gian sớm nhất.** Cảm ơn bạn!"
  else "Hiện đã ngoài giờ làm việc. **Ngày mai nhân viên sẽ gọi lại xác nhận đơn và hẹn giờ giao " ++
    "trong thời gian sớm nhất.** Cảm ơn bạn!"

/-! Notes for a follow-up by the staff. -/

def followupPeriodLabels : List (Text × Text) :=
  [("sang", "sáng"), ("trua", "trưa"), ("chieu", "chiều"), ("toi", "tối")]

section
variable (db : Database)

/-- `\b(\d{1,2})\s*h(\d{2})?\b` -/
def singleHourRe : Regex := .seqOf [.wordBoundary, .group 1 (.upToTimes .digit 1 1),
  .star true .space, .literal "h", .optional (.group 2 (.times .digit 2)), .wordBoundary]

/-- `hours_text` for a single hour. -/
def singleHourText (asciiText : Text) : Option Text :=
  (Regex.search ⟨db, false⟩ singleHourRe asciiText).bind fun single =>
    ((single.group 1).bind (Text.toNat db.digit)).bind fun hour =>
      if 1 ≤ hour ∧ hour ≤ 24 then some (Text.ofNat hour ++ "h" ++ (single.group 2).getD [])
      else none

def extractFollowupWindow (content : Text) : Option Text × Option Text :=
  let asciiText := foldAccents db content
  -- h|gio?
  let hourUnit := Regex.alt (.literal "h") (.seq (.literal "gi") (.optional (.literal "o")))
  let hoursText := ((hourRange db hourUnit 24 asciiText).map formatHourRange).or
    (singleHourText db asciiText)
  match hoursText with
  | none => (none, none)
  | some hours =>
    let words := Text.words db.space asciiText
    let period := (followupPeriodLabels.find? fun l => words.contains l.1).map Prod.snd
    let day : Option Text := if words.contains "mai" then some "mai" else none
    (some (Text.join " " (hours :: (period.toList ++ day.toList))), period)

end

/-- A note of type `chat_followup_note`. -/
structure FollowupNote where
  noteType : Text
  declinedCallback : Bool
  timeWindow : Option Text
  period : Option Text
  staffReminder : Text
  deriving DecidableEq, Repr

def formatFollowupReminder (noteType : Text) (windowText : Option Text) (declined : Bool) : Text :=
  if noteType = "delivery_window" && present windowText then
    let base := "Giao " ++ windowText.getD []
    if declined then base ++ " (khách không cần gọi lại)" else base
  else if declined then "Khách không cần gọi lại"
  else if present windowText then "Gọi lại " ++ windowText.getD []
  else "Khách yêu cầu gọi lại"

def buildFollowupNote (noteType : Text) (windowText period : Option Text) (declined : Bool) :
    FollowupNote :=
  ⟨noteType, declined, windowText.filter (!·.isEmpty), period.filter (!·.isEmpty),
    formatFollowupReminder noteType windowText declined⟩

/-- The note as it is stored. -/
def FollowupNote.toJson (note : FollowupNote) : Json :=
  .obj (("type", .str chatFollowupNoteMetadataType) :: ("note_type", .str note.noteType) ::
    ("declined_callback", .bool note.declinedCallback) ::
    (textField "time_window" note.timeWindow ++ (textField "period" note.period).concat
      ("staff_reminder", .str note.staffReminder)))

/-- `_detect_followup_request`; `placesOrder` tells whether the intent is `place_order`. -/
def detectFollowupRequest (db : Database) (content : Text) (placesOrder : Bool) :
    Option FollowupNote :=
  let normalized := normalizeMatchText db content
  let mentionsDelivery := (tokens normalized).contains "giao"
  let window := extractFollowupWindow db content
  if isCallbackDecline normalized then
    let noteType : Text :=
      if mentionsDelivery && present window.1 then "delivery_window" else "callback"
    some (buildFollowupNote noteType window.1 window.2 true)
  else if mentionsCallback normalized && present window.1 then
    some (buildFollowupNote "callback" window.1 window.2 false)
  else if mentionsDelivery && present window.1 && !placesOrder then
    some (buildFollowupNote "delivery_window" window.1 window.2 false)
  else none

def orderDeliveryFollowupNote (db : Database) (deliveryNotes : Option Text) : Option FollowupNote :=
  if present deliveryNotes then
    let notes := deliveryNotes.getD []
    let window := extractFollowupWindow db notes
    some (buildFollowupNote "delivery_window" (orElse window.1 (some (Text.strip db.space notes)))
      window.2 false)
  else none

def formatFollowupReply (note : FollowupNote) (language : Language) : Text :=
  let window := note.timeWindow.getD []
  let periodMissing := note.timeWindow.isSome && note.period.isNone
  match language with
  | .vi =>
    if note.noteType = "delivery_window" then
      if periodMissing then "Dạ Qiki ghi nhận giao khoảng **" ++ window ++ "** — bạn muốn buổi " ++
        "sáng hay buổi tối ạ? Nhân viên sẽ giao đúng khung giờ."
      else "Dạ Qiki đã ghi chú " ++
        (if note.timeWindow.isSome then "giao **" ++ window ++ "**"
          else "khung giờ giao bạn đề xuất") ++
        ", nhân viên sẽ giao đúng khung giờ." ++
        (if note.declinedCallback then (" Qiki sẽ không gọi lại nữa nhé." : Text) else "") ++
        " Cảm ơn bạn!"
    else if note.declinedCallback then "Dạ Qiki đã ghi nhận bạn không cần gọi lại ạ. Cảm ơn bạn!"
    else if periodMissing then "Dạ Qiki ghi nhận gọi lại khoảng **" ++ window ++
      "** — bạn muốn buổi sáng hay buổi tối ạ?"
    else "Dạ Qiki đã ghi chú gọi lại " ++
      (if note.timeWindow.isSome then "**" ++ window ++ "**" else "sớm nhất") ++
      ", nhân viên sẽ gọi lại cho bạn. Cảm ơn bạn!"
  | .en =>
    if note.noteType = "delivery_window" then
      if periodMissing then "Qiki has noted delivery around **" ++ window ++
        "** — would you prefer the morning or the evening? Our staff will deliver within that window."
      else "Qiki has noted " ++
        (if note.timeWindow.isSome then "delivery **" ++ window ++ "**"
          else "the delivery window you suggested") ++
        "; our staff will deliver within that window." ++
        (if note.declinedCallback then (" Qiki won't call back again." : Text) else "") ++
        " Thank you!"
    else if note.declinedCallback then
      "Qiki has noted that you don't need a callback. Thank you!"
    else if periodMissing then "Qiki has noted a callback around **" ++ window ++
      "** — would you prefer the morning or the evening?"
    else "Qiki has noted a callback " ++
      (if note.timeWindow.isSome then "**" ++ window ++ "**" else "as soon as possible") ++
      "; our staff will call you back. Thank you!"

end Qiki.Chat
