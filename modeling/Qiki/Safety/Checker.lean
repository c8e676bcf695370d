import Qiki.Text.Regex
import Qiki.Text.Vietnamese

/-! `SafetyChecker`: emergency keywords and patterns, and the fixed emergency texts. -/
namespace Qiki

/-- The languages of the shop's texts. -/
inductive Language
  | vi | en
  deriving DecidableEq, Repr

namespace Safety

open Unicode Regex

def safetyEmergencyResponseVi : Text := Text.join ['\n'] [
  "⚠️ CẢNH BÁO AN TOÀN ⚠️",
  "",
  "Đây có thể là tình huống NGUY HIỂM. Vui lòng thực hiện NGAY các bước sau:",
  "",
  "1. KHÔNG bật/tắt bất kỳ thiết bị điện nào (kể cả công tắc đèn, quạt)",
  "2. KHÔNG sử dụng lửa, KHÔNG hút thuốc",
  "3. Mở RỘNG cửa sổ và cửa ra vào để thông gió",
  "4. Đóng van bình gas NẾU có thể tiếp cận an toàn",
  "5. Sơ tán mọi người ra khỏi khu vực, đến nơi thoáng đãng",
  "6. KHÔNG bật điện thoại trong khu vực nghi ngờ rò gas",
  "",
  "🚨 GỌI NGAY các số khẩn cấp:",
  "- Cảnh sát PCCC: 114",
  "- Cấp cứu: 115",
  "- Hotline Gas Quốc Cường: 090 3026306",
  "",
  "⛔ KHÔNG tự xử lý. Hãy gọi kỹ thuật viên chuyên nghiệp.",
  "",
  "Tôi đang chuyển cuộc trò chuyện này đến nhân viên hỗ trợ. Vui lòng chờ trong giây lát.",
  "Bạn có an toàn không?"]

def safetyEmergencyResponseEn : Text := Text.join ['\n'] [
  "⚠️ SAFETY WARNING ⚠️",
  "",
  "This may be a DANGEROUS situation. Please do the following NOW:",
  "",
  "1. Do NOT switch any electrical device on/off (including light switches, fans)",
  "2. Do NOT use fire, do NOT smoke",
  "3. Open windows and doors WIDE to ventilate",
  "4. Close the gas cylinder valve IF you can reach it safely",
  "5. Evacuate everyone from the area to an open space",
  "6. Do NOT use your phone inside the suspected gas-leak area",
  "",
  "🚨 CALL these emergency numbers NOW:",
  "- Fire department: 114",
  "- Emergency medical: 115",
  "- Gas Quốc Cường hotline: 090 3026306",
  "",
  "⛔ Do NOT handle it yourself. Call a professional technician.",
  "",
  "I'm transferring this conversation to a support agent. Please wait a moment.",
  "Are you safe?"]

def getEmergencyResponse : Language → Text
  | .vi => safetyEmergencyResponseVi
  | .en => safetyEmergencyResponseEn

def emergencyKeywordsVi : List Text := [
  "rò gas", "ro gas", "rò rỉ gas", "ro ri gas", "rò khí gas", "xì gas", "xi gas", "thoát gas",
  "thoat gas", "khí gas thoát", "khi gas thoat", "gas thoát ra", "gas thoat ra",
  "gas đang thoát", "gas dang thoat", "gas tràn", "gas tran", "mùi gas", "mui gas",
  "ngửi thấy gas", "ngui thay gas", "ngửi mùi gas", "ngui mui gas", "gas nồng nặc",
  "gas nong nac", "bốc mùi gas", "boc mui gas", "cháy", "chay", "cháy nổ", "chay no",
  "phát nổ", "phat no", "nổ bình gas", "no binh gas", "nổ gas", "no gas", "gas nổ", "gas no",
  "bình gas nổ", "binh gas no", "bốc lửa", "boc lua", "bắt lửa", "bat lua", "đang cháy",
  "dang chay", "lửa cháy", "lua chay", "ngạt", "ngat", "khó thở", "kho tho", "ngạt thở",
  "ngat tho", "ngạt khí", "ngat khi", "khẩn cấp", "khan cap", "nguy hiểm", "nguy hiem",
  "cấp cứu", "cap cuu", "tai nạn", "tai nan"]

def emergencyKeywordsEn : List Text := [
  "gas leak", "gas leaking", "leaking gas", "smell gas", "smell of gas", "gas smell",
  "smelling gas", "explosion", "explode", "exploded", "on fire", "catching fire", "fire",
  "burning", "suffocat", "can't breathe", "cannot breathe", "cant breathe", "choking",
  "emergency", "dangerous"]

/-- `[xyz]` -/
def oneOfChars (chars : List Char) : Regex := oneOf false (chars.map .char)

/-- `.*` -/
def anything : Regex := star true anyChar

def suspiciousPatterns : List Regex := [
  -- c[oó].*gas.*tho[aá]t ra
  seqOf [literal "c", oneOfChars ['o', 'ó'], anything, literal "gas", anything, literal "tho",
    oneOfChars ['a', 'á'], literal "t ra"],
  -- gas.*tho[aá]t ra
  seqOf [literal "gas", anything, literal "tho", oneOfChars ['a', 'á'], literal "t ra"],
  -- gas.*r[iỉ].*ra ngo[aà]i
  seqOf [literal "gas", anything, literal "r", oneOfChars ['i', 'ỉ'], anything, literal "ra ngo",
    oneOfChars ['a', 'à'], literal "i"],
  -- b[iì]nh gas.*h[oỏ]ng.*n[aặ]ng
  seqOf [literal "b", oneOfChars ['i', 'ì'], literal "nh gas", anything, literal "h",
    oneOfChars ['o', 'ỏ'], literal "ng", anything, literal "n", oneOfChars ['a', 'ặ'],
    literal "ng"],
  -- b[iì]nh gas.*ph[iì].*kh[ií]
  seqOf [literal "b", oneOfChars ['i', 'ì'], literal "nh gas", anything, literal "ph",
    oneOfChars ['i', 'ì'], anything, literal "kh", oneOfChars ['i', 'í']],
  -- van gas.*kh[oó]a.*kh[oô]ng.*[dđ][uư][oợ]c
  seqOf [literal "van gas", anything, literal "kh", oneOfChars ['o', 'ó'], literal "a", anything,
    literal "kh", oneOfChars ['o', 'ô'], literal "ng", anything, oneOfChars ['d', 'đ'],
    oneOfChars ['u', 'ư'], oneOfChars ['o', 'ợ'], literal "c"],
  -- d[aâ]y.*gas.*n[uứ]t
  seqOf [literal "d", oneOfChars ['a', 'â'], literal "y", anything, literal "gas", anything,
    literal "n", oneOfChars ['u', 'ứ'], literal "t"]]

def apostropheFold (c : Char) : Char :=
  if c ∈ ['’', '‘', 'ʼ', '＇', '\u0060'] then '\'' else c

/-- What a check found, and how. -/
inductive DetectedVia
  | keyword | none
  deriving DecidableEq, Repr

inductive Severity
  | none | critical
  deriving DecidableEq, Repr

inductive SuggestedAction
  | normalResponse | emergencyResponse
  deriving DecidableEq, Repr

structure SafetyResult where
  isEmergency : Bool
  severity : Severity
  suggestedAction : SuggestedAction
  detectedVia : DetectedVia
  matchedPattern : Option Text
  deriving DecidableEq, Repr

section Check
variable (db : Database)

def normalize (query : Text) : Text :=
  Text.join [' '] (Text.words db.space ((lower db (nfc db query)).map apostropheFold))

def asciiFold (query : Text) : Text :=
  lower db (Text.replace "Đ" "D" (Text.replace "đ" "d" (withoutMarks db query)))

/-- The keyword occurs in the normalised query, as it is or without its marks. -/
def keywordMatches (queryLower queryAscii keyword : Text) : Bool :=
  queryLower.contains (normalize db keyword) ||
    queryAscii.contains (asciiFold db (normalize db keyword))

def checkKeywords (query : Text) : Option Text :=
  let queryLower := normalize db query
  let queryAscii := asciiFold db queryLower
  (emergencyKeywordsVi ++ emergencyKeywordsEn).find? (keywordMatches db queryLower queryAscii)

def checkPatterns (query : Text) : Option Text :=
  let normalized := normalize db query
  let asciiQuery := asciiFold db normalized
  let mode : Mode := { db := db, ignoreCase := true }
  (suspiciousPatterns.findSome? fun pattern =>
    (search mode pattern normalized).or (search mode pattern asciiQuery)).map Match.text

def emergencyResult (matched : Text) : SafetyResult where
  isEmergency := true
  severity := .critical
  suggestedAction := .emergencyResponse
  detectedVia := .keyword
  matchedPattern := some matched

/-- `SafetyChecker.check_query` -/
def checkQuery (query : Text) : SafetyResult :=
  match checkKeywords db query with
  | some keyword => emergencyResult keyword
  | none =>
    match checkPatterns db query with
    | some matched => emergencyResult matched
    | none => ⟨false, .none, .normalResponse, .none, none⟩

/-- The query is an emergency when a keyword or a pattern was found. -/
theorem checkQuery_isEmergency (query : Text) :
    (checkQuery db query).isEmergency =
      ((checkKeywords db query).isSome || (checkPatterns db query).isSome) := by
  unfold checkQuery
  cases checkKeywords db query with
  | some keyword => rfl
  | none => cases checkPatterns db query <;> rfl

end Check

/-! Queries without a keyword. -/

/-- The keywords, and the one that a keyword becomes without its marks. -/
def plainKeywords : List Text := ("ro khi gas" : Text) :: (emergencyKeywordsVi ++ emergencyKeywordsEn)

/-- Every keyword is in normal form, and without its marks it is one of `plainKeywords`. -/
theorem keyword_forms : (emergencyKeywordsVi ++ emergencyKeywordsEn).all (fun k =>
    normalize Vietnamese.database k = k &&
      plainKeywords.contains (asciiFold Vietnamese.database k)) = true := by
  decide +kernel

theorem checkKeywords_eq_none {query : Text} (h : plainKeywords.all (fun k =>
    !(normalize Vietnamese.database query).contains k &&
      !(asciiFold Vietnamese.database (normalize Vietnamese.database query)).contains k) = true) :
    checkKeywords Vietnamese.database query = none := by
  refine List.find?_eq_none.mpr fun k hk hmatch => ?_
  have hforms := List.all_eq_true.mp keyword_forms k hk
  simp only [Bool.and_eq_true, decide_eq_true_eq, List.contains_iff_mem] at hforms
  have hself := List.all_eq_true.mp h k (List.mem_cons_of_mem _ hk)
  have hfolded := List.all_eq_true.mp h _ hforms.2
  simp only [Bool.and_eq_true, Bool.not_eq_true'] at hself hfolded
  rw [keywordMatches, hforms.1, hself.1, hfolded.2] at hmatch
  exact Bool.false_ne_true hmatch

/-- A question about prices and one about invoices: neither keyword nor pattern. -/
theorem not_flagged :
    (checkQuery Vietnamese.database "gia gas").isEmergency = false ∧
      (checkQuery Vietnamese.database "hoa don").isEmergency = false := by
  rw [checkQuery_isEmergency, checkQuery_isEmergency, checkKeywords_eq_none (by decide +kernel),
    checkKeywords_eq_none (by decide +kernel)]
  decide +kernel

/-- The sign that every emergency text begins with. -/
def warningSign : Char := '⚠'

theorem head_join {sep first : Text} {rest : List Text} {c : Char} (h : first.head? = some c) :
    (Text.join sep (first :: rest)).head? = some c := by
  cases first with
  | nil => cases h
  | cons d s =>
    cases rest with
    | nil => simpa [Text.join, List.intercalate] using h
    | cons second rest => simpa [Text.join, List.intercalate, List.intersperse] using h

theorem head_getEmergencyResponse (language : Language) :
    (getEmergencyResponse language).head? = some warningSign := by
  cases language with
  | vi => exact head_join (by decide +kernel)
  | en => exact head_join (by decide +kernel)

end Safety

end Qiki
