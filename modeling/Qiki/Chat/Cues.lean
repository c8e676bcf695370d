import Qiki.Chat.Slots
import Qiki.Catalog.ProductQuery

/-! Cues in a message: phrases looked for in its normalised text. -/
namespace Qiki.Chat

open Unicode Orders Catalog

/-! Cues in a text that is already normalised. -/

def hasOrderActionCue (normalized : Text) : Bool := normalized.containsAny
  ["dat", "mua", "lay", "doi qua", "doi sang", "chuyen qua", "chuyen sang"]

def hasAddCue (normalized : Text) : Bool := normalized.containsAny
  ["them", "them vao", "them mot", "them 1", "lay them", "cong them", "co them", "va "]

def isCancelAddRequest (normalized : Text) : Bool := normalized.containsAny
  ["thoi khong them", "thoi ko them", "khong them nua", "ko them nua", "khoi them",
    "khong lay them", "ko lay them nua", "khong lay them nua", "khoi lay them"]

def hasReplaceCue (normalized : Text) : Bool := normalized.containsAny
  ["doi", "doi sang", "doi qua", "doi thanh", "thay", "thay bang"]

def hasRemoveCue (normalized : Text) : Bool := normalized.containsAny ["bo", "xoa", "huy"]

def isOrderCancelRequest (normalized : Text) : Bool :=
  ([ "huy", "huy don", "huy dat", "thoi khong dat", "khong dat nua", "dung dat",
      "khong mua nua"] : List Text).contains normalized ||
    normalized.containsAny
      ["huy don", "huy dat", "thoi khong dat", "khong dat nua", "dung dat", "khong mua nua"]

def mentionsCallback (normalized : Text) : Bool := normalized.containsAny
  ["goi lai", "goi cho", "goi minh", "goi tui", "goi em", "goi gium", "goi giup", "call lai",
    "lien he lai"]

def isCallbackDecline (normalized : Text) : Bool := normalized.containsAny
  ["khong can goi", "khoi goi", "dung goi", "khong goi lai", "khong phai goi",
    "khong can lien he"]

def catalogListCues : List Text := [
  "cac loai", "nhung loai", "loai nao", "cac hang", "nhung hang", "danh sach", "tat ca", "menu",
  "co nhung", "gom nhung", "bao nhieu loai", "co gi"]

def catalogBrowseCues : List Text := catalogListCues.concat "san pham"

def isCatalogListQuery (normalizedQuery : Text) : Bool := normalizedQuery.containsAny catalogListCues

section
variable (db : Database)

def hasProductQuestionCue (normalized : Text) : Bool :=
  ([ "gia", "bao nhieu", "co ban", "con hang", "loai nao", "san pham nao"] : List Text).any
    (hasWord db normalized)

/-! Cues in a message as it was written. -/

/-- The short answers that count as a yes on their own. -/
def affirmations : List Text :=
  ["dung", "dung r", "dung roi", "ok", "okay", "uh", "u", "phai", "phai roi", "xac nhan"]

/-- The phrases that count as a yes wherever they stand. -/
def affirmativePhrases : List Text := ["dung roi", "phai roi", "xac nhan", "dong y", "chot don"]

def isAffirmation (content : Text) : Bool :=
  let normalized := normalizeMatchText db content
  affirmations.contains normalized || normalized.containsAny affirmativePhrases

def isNegation (content : Text) : Bool :=
  let normalized := normalizeMatchText db content
  ([ "ko", "khong", "k", "ko phai", "khong phai", "thoi", "khong doi",
      "giu nguyen"] : List Text).contains normalized ||
    normalized.containsAny ["ko phai", "khong phai", "khong doi", "giu nguyen"]

def isKeepPreviousProductRequest (content : Text) : Bool :=
  (normalizeMatchText db content).containsAny
    ["giu cu", "giu san pham cu", "lay cu", "lay san pham cu", "khong doi", "khong doi nua"]

def extractPaymentCandidate (content : Text) : Option Text :=
  let normalized := normalizeMatchText db content
  let words := tokens normalized
  if words.contains "cod" ||
      normalized.containsAny ["tien mat", "nhan hang", "thanh toan khi nhan", "tra khi nhan",
        "ship cod", "giao tra tien", "nhan hang tra tien"] then some "cod"
  else if words.contains "ck" || words.contains "banking" || words.contains "bank" ||
      normalized.contains "chuyen khoan" || words.contains "khoan" then some "bank_transfer"
  else none

def normalizePaymentMethod (paymentMethod : Text) : Option PaymentMethod :=
  let normalized := normalizeMatchText db paymentMethod
  if ([ "cod", "cash", "tien mat"] : List Text).contains normalized ||
      normalized.contains "nhan hang" then some .cod
  else if ([ "bank transfer", "bank_transfer", "chuyen khoan", "ck", "bank",
        "banking"] : List Text).contains normalized ||
      normalized.contains "khoan" then some .bankTransfer
  else none

def isPostOrderChangeRequest (content : Text) : Bool :=
  let normalized := normalizeMatchText db content
  ((extractPaymentCandidate db content).isSome &&
      normalized.containsAny ["doi", "doi sang", "chuyen sang", "thay doi", "sua", "cap nhat"]) ||
    normalized.containsAny ["doi thong tin", "sua thong tin", "cap nhat thong tin",
      "doi hinh thuc", "sua hinh thuc"]

def isExplicitHumanRequest (content : Text) : Bool :=
  (normalizeMatchText db content).containsAny
    ["gap nhan vien", "gap nguoi that", "cho gap nhan vien", "cho gap nguoi that",
      "goi nhan vien", "goi nguoi that", "chuyen nhan vien", "chuyen nguoi that",
      "can nhan vien", "keu nhan vien", "keu nguoi", "noi chuyen voi nhan vien", "gap nguoi",
      "can gap nguoi", "muon gap nhan vien"]

def normalizeConfirmation (value : Json) : Bool :=
  match value with
  | .bool b => b
  | .str s => ([ "true", "yes", "y", "ok", "okay", "dong y", "xac nhan", "dung", "dung r",
      "dung roi"] : List Text).contains (normalizeMatchText db s)
  | _ => false

end

end Qiki.Chat
