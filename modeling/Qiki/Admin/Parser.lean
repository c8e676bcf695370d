import Qiki.Catalog.ProductQuery

/-! Admin instructions: a message becomes an action with its new value. -/
namespace Qiki.Admin

open Unicode Regex Catalog

inductive AdminAction
  | updatePrice | updateStock | setActive
  deriving DecidableEq, Repr

structure ParsedInstruction where
  action : AdminAction
  priceValue : Option Decimal := none
  stockValue : Option ℤ := none
  activeValue : Option Bool := none
  deriving DecidableEq, Repr

def hideWords : List Text := ["hide", "ngung", "deactivate", "khoa", "dung ban"]

def showWords : List Text := ["hien", "show", "kich hoat", "activate", "mo ban", "mo lai"]

def hideLeadingWords : List Text := ["an", "tat"]

def showLeadingWords : List Text := ["bat"]

def priceWords : List Text := ["gia", "price"]

def stockWords : List Text := ["ton", "kho", "stock", "quantity", "so luong"]

/-- `\b\d+\s*unit\b` -/
def sizeTokenRe (units : List Text) : Regex := seqOf [wordBoundary, plus digit, star true space,
  altOf (units.map literal), wordBoundary]

/-- `-?\d+` -/
def intRe : Regex := seq (optional (literal "-")) (plus digit)

/-- `(?:thanh|con|sang|toi|to|=|->|→)\s*(-?\d+)` -/
def intAfterSepRe : Regex := seqOf [
  altOf (["thanh", "con", "sang", "toi", "to", "=", "->", "→"].map fun s => literal s.toList),
  star true space, group 1 intRe]

section
variable (db : Database)

/-- `int(text)` of digits with an optional minus. -/
def parseInt (text : Text) : Option ℤ :=
  match text with
  | '-' :: digits => (Text.toNat db.digit digits).map fun n => -(n : ℤ)
  | digits => (Text.toNat db.digit digits).map fun n => (n : ℤ)

def isLeadingCommand (normalized word : Text) : Bool :=
  ((Text.words db.space normalized).take 2).contains word

def stripSizeTokens (normalized : Text) : Text :=
  let withoutKg := sub ⟨db, false⟩ (sizeTokenRe ["kg"]) (fun _ => " ") normalized
  sub ⟨db, false⟩ (sizeTokenRe ["lit", "l"]) (fun _ => " ") withoutKg

def extractInt (valueSource : Text) : Option ℤ :=
  match search ⟨db, false⟩ intAfterSepRe valueSource with
  | some found => (found.group 1).bind (parseInt db)
  | none => ((findall ⟨db, false⟩ intRe valueSource).getLast?).bind (parseInt db)

/-- `any(_has_word(normalized, word) for word in words)` -/
def hasAnyWord (normalized : Text) (words : List Text) : Bool :=
  words.any fun word => hasWord db normalized word

/-- A price command: a price word and an amount. -/
def priceCommand (normalized valueSource : Text) : Option ParsedInstruction :=
  if hasAnyWord db normalized priceWords then
    (parsePriceValue db valueSource).map fun value =>
      { action := .updatePrice, priceValue := some value }
  else none

/-- A stock command: a stock word and an integer. -/
def stockCommand (normalized valueSource : Text) : Option ParsedInstruction :=
  if hasAnyWord db normalized stockWords then
    (extractInt db valueSource).map fun value =>
      { action := .updateStock, stockValue := some value }
  else none

/-- A visibility command: a distinctive verb anywhere, or an ambiguous one in the lead. -/
def activeCommand (normalized : Text) : Option ParsedInstruction :=
  if hasAnyWord db normalized showWords ||
      showLeadingWords.any fun word => isLeadingCommand db normalized word then
    some { action := .setActive, activeValue := some true }
  else if hasAnyWord db normalized hideWords ||
      hideLeadingWords.any fun word => isLeadingCommand db normalized word then
    some { action := .setActive, activeValue := some false }
  else none

def parseAdminInstruction (text : Text) : Option ParsedInstruction :=
  let normalized := stripAccents db text
  let valueSource := stripSizeTokens db normalized
  (priceCommand db normalized valueSource).or
    ((stockCommand db normalized valueSource).or (activeCommand db normalized))

end

end Qiki.Admin
