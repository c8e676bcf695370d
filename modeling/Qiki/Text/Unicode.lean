import Qiki.Text.Basic

/-! Letter case, canonical decomposition and composition of texts, over an arbitrary
database of character properties. -/
namespace Unicode

/-- The properties of characters that the algorithms read. -/
structure Database where
  /-- Lower case of one character, context aside. -/
  lower : Char → Text
  /-- Title case of one character. -/
  title : Char → Text
  cased : Char → Bool
  caseIgnorable : Char → Bool
  /-- The characters that differ from this one in case only, itself included. -/
  caseVariants : Char → List Char
  /-- Full canonical decomposition of one character. -/
  decompose : Char → Text
  combiningClass : Char → ℕ
  /-- The primary composite of a pair. -/
  compose : Char → Char → Option Char
  /-- Category `Mn`. -/
  nonspacingMark : Char → Bool
  space : Char → Bool
  /-- The value of a decimal digit. -/
  digit : Char → Option ℕ
  alphanumeric : Char → Bool

variable (db : Database)

/-- The sigma rule of `lower`: final after a cased letter and before none. -/
def finalSigma (before after : Text) : Bool :=
  ((before.dropWhile db.caseIgnorable).head?.any db.cased) &&
    !((after.dropWhile db.caseIgnorable).head?.any db.cased)

/-- `lower` with the characters already passed, nearest first. -/
def lowerFrom (before : Text) : Text → Text
  | [] => []
  | c :: s =>
    (if c = 'Σ' then (if finalSigma db before s then ['ς'] else ['σ']) else db.lower c) ++
      lowerFrom (c :: before) s

/-- `s.lower()` -/
def lower (s : Text) : Text := lowerFrom db [] s

/-- `title` after a character that was cased or not. -/
def titleFrom (afterCased : Bool) (before : Text) : Text → Text
  | [] => []
  | c :: s =>
    (if !afterCased then db.title c
      else if c = 'Σ' then (if finalSigma db before s then ['ς'] else ['σ'])
      else db.lower c) ++ titleFrom (db.cased c) (c :: before) s

/-- `s.title()` -/
def title (s : Text) : Text := titleFrom db false [] s

/-- Canonical ordering: a mark moves behind the marks of lower class that follow it. -/
def insertMark (c : Char) : Text → Text
  | [] => [c]
  | d :: s =>
    if db.combiningClass c = 0 ∨ db.combiningClass d = 0 ∨
        db.combiningClass c ≤ db.combiningClass d then c :: d :: s
    else d :: insertMark c s

/-- `unicodedata.normalize("NFD", s)` -/
def nfd (s : Text) : Text := (s.flatMap db.decompose).foldr (insertMark db) []

/-- Composition onto a starter, with the marks that stay behind it (last first). -/
def composeFrom (starter : Char) (pending : Text) : Text → Text
  | [] => starter :: pending.reverse
  | c :: s =>
    let free := match pending with
      | [] => true
      | d :: _ => db.combiningClass d < db.combiningClass c
    match if free then db.compose starter c else none with
    | some composite => composeFrom composite pending s
    | none =>
      if db.combiningClass c = 0 then starter :: pending.reverse ++ composeFrom c [] s
      else composeFrom starter (c :: pending) s

/-- The first starter of the text begins the composition. -/
def compose : Text → Text
  | [] => []
  | c :: s => if db.combiningClass c = 0 then composeFrom db c [] s else c :: compose s

/-- `unicodedata.normalize("NFC", s)` -/
def nfc (s : Text) : Text := compose db (nfd db s)

/-- Decomposed, without its nonspacing marks. -/
def withoutMarks (s : Text) : Text := (nfd db s).filter fun c => !db.nonspacingMark c

end Unicode
