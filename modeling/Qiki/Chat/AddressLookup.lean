import Qiki.Collections.Table
import Qiki.Text.Regex
import Qiki.Text.Vietnamese
import Mathlib.Data.List.Sort

/-! Wards and delivery areas named in an address. -/
namespace Qiki.AddressLookup

open Unicode Regex

/-- `WARD_PREFIX_PATTERN`: `\b(?:phường|phuong|p\.?|p)\s+` -/
def wardPrefixPattern : Regex := seqOf [wordBoundary,
  altOf [literal "phường", literal "phuong", seq (literal "p") (optional (literal ".")),
    literal "p"], plus space]

/-- `KHU_PHO_PATTERN`: `\b(?:khu\s*pho|kp\.?)\s*(?:so\s*)?(\d{1,3})\b` -/
def khuPhoPattern : Regex := seqOf [wordBoundary,
  altOf [seqOf [literal "khu", star true space, literal "pho"],
    seq (literal "kp") (optional (literal "."))],
  star true space, optional (seq (literal "so") (star true space)),
  group 1 (upToTimes digit 1 2), wordBoundary]

/-- `[a-z]+` -/
def lowerWord : Regex := plus (oneOf false [.range 'a' 'z'])

/-- `CONFLICTING_DISTRICT_PATTERN`:
`\b(?:quan|q)\.?\s*(?!binh thanh\b)(?:\d{1,2}|[a-z]+(?:\s+[a-z]+){0,3})\b` -/
def conflictingDistrictPattern : Regex := seqOf [wordBoundary,
  altOf [literal "quan", literal "q"], optional (literal "."), star true space,
  lookahead true (seq (literal "binh thanh") wordBoundary),
  altOf [upToTimes digit 1 1, seq lowerWord (upToTimes (seq (plus space) lowerWord) 0 3)],
  wordBoundary]

def conflictingDistrictPhrases : List Text := [
  "go vap", "tan binh", "tan phu", "phu nhuan", "quan 1", "quan 3", "quan 4", "quan 5", "quan 6",
  "quan 7", "quan 8", "quan 10", "quan 11", "quan 12", "thu duc"]

def khuPhoWardDisplay : List (Text × Text) := [
  ("gia dinh", "Gia Định"), ("binh thanh", "Bình Thạnh"), ("binh loi trung", "Bình Lợi Trung"),
  ("thanh my tay", "Thạnh Mỹ Tây"), ("binh quoi", "Bình Quới"), ("hiep binh", "Hiệp Bình"),
  ("tam binh", "Tam Bình"), ("thu duc", "Thủ Đức"), ("linh xuan", "Linh Xuân")]

/-- The file `hcmc_ward_district.json`. -/
def hcmcWardDistrict : List (Text × Text) := List.append [
  ("1", "Bình Thạnh"), ("2", "Bình Thạnh"), ("3", "Bình Thạnh"), ("5", "Bình Thạnh"),
  ("6", "Bình Thạnh"), ("7", "Bình Thạnh"), ("11", "Bình Thạnh"), ("12", "Bình Thạnh"),
  ("13", "Bình Thạnh"), ("14", "Bình Thạnh"), ("15", "Bình Thạnh"), ("17", "Bình Thạnh"),
  ("19", "Bình Thạnh"), ("21", "Bình Thạnh"), ("22", "Bình Thạnh"), ("24", "Bình Thạnh"),
  ("25", "Bình Thạnh"), ("26", "Bình Thạnh"), ("27", "Bình Thạnh"), ("28", "Bình Thạnh")] [
  ("bình chiểu", "Thủ Đức"), ("bình lợi trung", "Bình Thạnh"), ("bình quới", "Bình Thạnh"),
  ("bình thạnh", "Bình Thạnh"), ("bình thọ", "Thủ Đức"), ("gia định", "Bình Thạnh"),
  ("hiệp bình", "Thủ Đức"), ("hiệp bình chánh", "Thủ Đức"), ("hiệp bình phước", "Thủ Đức"),
  ("linh chiểu", "Thủ Đức"), ("linh đông", "Thủ Đức"), ("linh tây", "Thủ Đức"),
  ("linh trung", "Thủ Đức"), ("linh xuân", "Thủ Đức"), ("tam bình", "Thủ Đức"),
  ("tam phú", "Thủ Đức"), ("thạnh mỹ tây", "Bình Thạnh"), ("thủ đức", "Thủ Đức"),
  ("trường thọ", "Thủ Đức")]

/-- The file `ward_khu_pho.json`. -/
def wardKhuPho : List (Text × Text × ℕ) := [
  ("gia dinh", "Bình Thạnh", 62), ("binh thanh", "Bình Thạnh", 53),
  ("binh loi trung", "Bình Thạnh", 61), ("thanh my tay", "Bình Thạnh", 76),
  ("binh quoi", "Bình Thạnh", 19), ("hiep binh", "Thủ Đức", 91), ("tam binh", "Thủ Đức", 66),
  ("thu duc", "Thủ Đức", 52), ("linh xuan", "Thủ Đức", 63)]

structure WardDeliveryZoneMatch where
  ward : Text
  deliveryZone : Text
  deriving DecidableEq, Repr

inductive KhuPhoValidationStatus
  | ok | missing | outOfRange
  deriving DecidableEq, Repr

structure KhuPhoValidationResult where
  status : KhuPhoValidationStatus
  ward : Option Text := none
  wardDisplay : Option Text := none
  khuPhoMax : Option ℕ := none
  khuPhoNumber : Option ℕ := none
  deriving DecidableEq, Repr

structure WardKhuPhoConfig where
  zone : Text
  khuPhoMax : ℕ
  wardDisplay : Text
  deriving DecidableEq, Repr

section
variable (db : Database)

def normalizeLookupKey (text : Text) : Text :=
  let normalized := Text.strip db.space (lower db (nfd db text))
  let withoutMarks := normalized.filter fun c => !db.nonspacingMark c
  collapseSpaces db (Text.replace "đ" "d" withoutMarks)

def loadWardDeliveryZoneMap : List (Text × WardDeliveryZoneMatch) :=
  hcmcWardDistrict.foldl (fun wards entry =>
    Dict.alter (normalizeLookupKey db entry.1) (fun _ => ⟨entry.1, entry.2⟩) wards) []

def loadWardKhuPhoMap : List (Text × WardKhuPhoConfig) :=
  wardKhuPho.foldl (fun configs entry =>
    let wardKey := normalizeLookupKey db entry.1
    Dict.alter wardKey
      (fun _ => ⟨entry.2.1, entry.2.2, (khuPhoWardDisplay.lookup wardKey).getD entry.1⟩) configs) []

def stripWardPrefixes (text : Text) : Text :=
  Text.strip db.space
    (collapseSpaces db (sub ⟨db, true⟩ wardPrefixPattern (fun _ => [' ']) text))

def containsPhrase (text phrase : Text) : Bool :=
  (search ⟨db, false⟩ (seqOf [lookbehind true [.word], literal phrase,
    lookahead true (oneOf false [.word])]) text).isSome

def containsNumberedWard (text wardNumber : Text) : Bool :=
  (search ⟨db, false⟩ (seqOf [wordBoundary, literal "phuong", plus space, literal wardNumber,
      wordBoundary]) text).isSome ||
    (search ⟨db, false⟩ (seqOf [wordBoundary, literal "p", optional (literal "."),
      star true space, literal wardNumber, wordBoundary]) text).isSome

def numberedWardHasSafeBinhThanhContext (text : Text) : Bool :=
  containsPhrase db text "binh thanh" &&
    (search ⟨db, false⟩ conflictingDistrictPattern text).isNone &&
    !conflictingDistrictPhrases.any (containsPhrase db text)

/-- `str.isdigit` of a key of the map. -/
def isNumber (key : Text) : Bool := !key.isEmpty && key.all Char.isDigit

def resolveWardDeliveryZone (text : Text) : Option WardDeliveryZoneMatch :=
  let normalizedText := normalizeLookupKey db text
  if normalizedText.isEmpty then none
  else
    let wards := loadWardDeliveryZoneMap db
    match wards.lookup normalizedText with
    | some direct =>
      if isNumber normalizedText && !numberedWardHasSafeBinhThanhContext db normalizedText then none
      else some direct
    | none =>
      let textWithoutPrefixes := stripWardPrefixes db normalizedText
      match wards.lookup textWithoutPrefixes with
      | some direct =>
        if isNumber textWithoutPrefixes &&
            !numberedWardHasSafeBinhThanhContext db normalizedText then none
        else some direct
      | none =>
        let sortedWards := wards.insertionSort fun a b => b.1.length ≤ a.1.length
        ((sortedWards.find? fun ward => isNumber ward.1 &&
            containsNumberedWard db normalizedText ward.1 &&
            numberedWardHasSafeBinhThanhContext db normalizedText).or
          (sortedWards.find? fun ward => !isNumber ward.1 &&
            containsPhrase db textWithoutPrefixes ward.1)).map Prod.snd

def extractKhuPhoNumber (text : Text) : Option ℕ :=
  (search ⟨db, false⟩ khuPhoPattern (normalizeLookupKey db text)).bind fun found =>
    (found.group 1).bind (Text.toNat db.digit)

def validateKhuPho (text : Text) : KhuPhoValidationResult :=
  match resolveWardDeliveryZone db text with
  | none => { status := .ok }
  | some found =>
    let wardKey := normalizeLookupKey db found.ward
    match (loadWardKhuPhoMap db).lookup wardKey with
    | none => { status := .ok }
    | some config =>
      let result (status : KhuPhoValidationStatus) (number : Option ℕ) : KhuPhoValidationResult :=
        ⟨status, some wardKey, some config.wardDisplay, some config.khuPhoMax, number⟩
      match extractKhuPhoNumber db text with
      | none => result .missing none
      | some number =>
        if number < 1 ∨ config.khuPhoMax < number then result .outOfRange (some number)
        else result .ok (some number)

end

end Qiki.AddressLookup
