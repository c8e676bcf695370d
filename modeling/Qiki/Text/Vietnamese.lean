import Qiki.Text.Unicode

/-! The part of the character database that the shop's messages need: ASCII, the Vietnamese
letters and their combining marks. Any other character is taken to have no properties. -/
namespace Unicode.Vietnamese

/-- Each letter with a mark, its base and the mark. -/
def composites : List (Char × Char × Char) :=
   [('à', 'a', '\u0300'), ('á', 'a', '\u0301'), ('ả', 'a', '\u0309'), ('ã', 'a', '\u0303'),
    ('ạ', 'a', '\u0323'), ('ă', 'a', '\u0306'), ('ằ', 'ă', '\u0300'), ('ắ', 'ă', '\u0301'),
    ('ẳ', 'ă', '\u0309'), ('ẵ', 'ă', '\u0303'), ('ặ', 'ạ', '\u0306'), ('â', 'a', '\u0302'),
    ('ầ', 'â', '\u0300'), ('ấ', 'â', '\u0301'), ('ẩ', 'â', '\u0309'), ('ẫ', 'â', '\u0303'),
    ('ậ', 'ạ', '\u0302'), ('è', 'e', '\u0300'), ('é', 'e', '\u0301'), ('ẻ', 'e', '\u0309'),
    ('ẽ', 'e', '\u0303'), ('ẹ', 'e', '\u0323'), ('ê', 'e', '\u0302'), ('ề', 'ê', '\u0300'),
    ('ế', 'ê', '\u0301'), ('ể', 'ê', '\u0309'), ('ễ', 'ê', '\u0303'), ('ệ', 'ẹ', '\u0302'),
    ('ì', 'i', '\u0300'), ('í', 'i', '\u0301'), ('ỉ', 'i', '\u0309'), ('ĩ', 'i', '\u0303'),
    ('ị', 'i', '\u0323'), ('ò', 'o', '\u0300'), ('ó', 'o', '\u0301'), ('ỏ', 'o', '\u0309'),
    ('õ', 'o', '\u0303'), ('ọ', 'o', '\u0323'), ('ô', 'o', '\u0302'), ('ồ', 'ô', '\u0300'),
    ('ố', 'ô', '\u0301'), ('ổ', 'ô', '\u0309'), ('ỗ', 'ô', '\u0303'), ('ộ', 'ọ', '\u0302'),
    ('ơ', 'o', '\u031B'), ('ờ', 'ơ', '\u0300'), ('ớ', 'ơ', '\u0301'), ('ở', 'ơ', '\u0309'),
    ('ỡ', 'ơ', '\u0303'), ('ợ', 'ơ', '\u0323'), ('ù', 'u', '\u0300'), ('ú', 'u', '\u0301'),
    ('ủ', 'u', '\u0309'), ('ũ', 'u', '\u0303'), ('ụ', 'u', '\u0323'), ('ư', 'u', '\u031B'),
    ('ừ', 'ư', '\u0300'), ('ứ', 'ư', '\u0301'), ('ử', 'ư', '\u0309'), ('ữ', 'ư', '\u0303'),
    ('ự', 'ư', '\u0323'), ('ỳ', 'y', '\u0300'), ('ý', 'y', '\u0301'), ('ỷ', 'y', '\u0309'),
    ('ỹ', 'y', '\u0303'), ('ỵ', 'y', '\u0323'), ('À', 'A', '\u0300'), ('Á', 'A', '\u0301'),
    ('Ả', 'A', '\u0309'), ('Ã', 'A', '\u0303'), ('Ạ', 'A', '\u0323'), ('Ă', 'A', '\u0306'),
    ('Ằ', 'Ă', '\u0300'), ('Ắ', 'Ă', '\u0301'), ('Ẳ', 'Ă', '\u0309'), ('Ẵ', 'Ă', '\u0303'),
    ('Ặ', 'Ạ', '\u0306'), ('Â', 'A', '\u0302'), ('Ầ', 'Â', '\u0300'), ('Ấ', 'Â', '\u0301'),
    ('Ẩ', 'Â', '\u0309'), ('Ẫ', 'Â', '\u0303'), ('Ậ', 'Ạ', '\u0302'), ('È', 'E', '\u0300'),
    ('É', 'E', '\u0301'), ('Ẻ', 'E', '\u0309'), ('Ẽ', 'E', '\u0303'), ('Ẹ', 'E', '\u0323'),
    ('Ê', 'E', '\u0302'), ('Ề', 'Ê', '\u0300'), ('Ế', 'Ê', '\u0301'), ('Ể', 'Ê', '\u0309'),
    ('Ễ', 'Ê', '\u0303'), ('Ệ', 'Ẹ', '\u0302'), ('Ì', 'I', '\u0300'), ('Í', 'I', '\u0301'),
    ('Ỉ', 'I', '\u0309'), ('Ĩ', 'I', '\u0303'), ('Ị', 'I', '\u0323'), ('Ò', 'O', '\u0300'),
    ('Ó', 'O', '\u0301'), ('Ỏ', 'O', '\u0309'), ('Õ', 'O', '\u0303'), ('Ọ', 'O', '\u0323'),
    ('Ô', 'O', '\u0302'), ('Ồ', 'Ô', '\u0300'), ('Ố', 'Ô', '\u0301'), ('Ổ', 'Ô', '\u0309'),
    ('Ỗ', 'Ô', '\u0303'), ('Ộ', 'Ọ', '\u0302'), ('Ơ', 'O', '\u031B'), ('Ờ', 'Ơ', '\u0300'),
    ('Ớ', 'Ơ', '\u0301'), ('Ở', 'Ơ', '\u0309'), ('Ỡ', 'Ơ', '\u0303'), ('Ợ', 'Ơ', '\u0323'),
    ('Ù', 'U', '\u0300'), ('Ú', 'U', '\u0301'), ('Ủ', 'U', '\u0309'), ('Ũ', 'U', '\u0303'),
    ('Ụ', 'U', '\u0323'), ('Ư', 'U', '\u031B'), ('Ừ', 'Ư', '\u0300'), ('Ứ', 'Ư', '\u0301'),
    ('Ử', 'Ư', '\u0309'), ('Ữ', 'Ư', '\u0303'), ('Ự', 'Ư', '\u0323'), ('Ỳ', 'Y', '\u0300'),
    ('Ý', 'Y', '\u0301'), ('Ỷ', 'Y', '\u0309'), ('Ỹ', 'Y', '\u0303'), ('Ỵ', 'Y', '\u0323')]

/-- The upper and lower case of the letters outside ASCII. -/
def letterCases : List (Char × Char) :=
   [('À', 'à'), ('Á', 'á'), ('Ả', 'ả'), ('Ã', 'ã'), ('Ạ', 'ạ'), ('Ă', 'ă'), ('Ằ', 'ằ'),
    ('Ắ', 'ắ'), ('Ẳ', 'ẳ'), ('Ẵ', 'ẵ'), ('Ặ', 'ặ'), ('Â', 'â'), ('Ầ', 'ầ'), ('Ấ', 'ấ'),
    ('Ẩ', 'ẩ'), ('Ẫ', 'ẫ'), ('Ậ', 'ậ'), ('È', 'è'), ('É', 'é'), ('Ẻ', 'ẻ'), ('Ẽ', 'ẽ'),
    ('Ẹ', 'ẹ'), ('Ê', 'ê'), ('Ề', 'ề'), ('Ế', 'ế'), ('Ể', 'ể'), ('Ễ', 'ễ'), ('Ệ', 'ệ'),
    ('Ì', 'ì'), ('Í', 'í'), ('Ỉ', 'ỉ'), ('Ĩ', 'ĩ'), ('Ị', 'ị'), ('Ò', 'ò'), ('Ó', 'ó'),
    ('Ỏ', 'ỏ'), ('Õ', 'õ'), ('Ọ', 'ọ'), ('Ô', 'ô'), ('Ồ', 'ồ'), ('Ố', 'ố'), ('Ổ', 'ổ'),
    ('Ỗ', 'ỗ'), ('Ộ', 'ộ'), ('Ơ', 'ơ'), ('Ờ', 'ờ'), ('Ớ', 'ớ'), ('Ở', 'ở'), ('Ỡ', 'ỡ'),
    ('Ợ', 'ợ'), ('Ù', 'ù'), ('Ú', 'ú'), ('Ủ', 'ủ'), ('Ũ', 'ũ'), ('Ụ', 'ụ'), ('Ư', 'ư'),
    ('Ừ', 'ừ'), ('Ứ', 'ứ'), ('Ử', 'ử'), ('Ữ', 'ữ'), ('Ự', 'ự'), ('Ỳ', 'ỳ'), ('Ý', 'ý'),
    ('Ỷ', 'ỷ'), ('Ỹ', 'ỹ'), ('Ỵ', 'ỵ'), ('Đ', 'đ')]

def isAscii (c : Char) : Bool := c.toNat < 128

def combiningClass (c : Char) : ℕ :=
  if isAscii c then 0
  else if c ∈ ['\u0300', '\u0301', '\u0303', '\u0309', '\u0306', '\u0302'] then 230
  else if c = '\u0323' then 220
  else if c = '\u031B' then 216
  else 0

/-- The decomposition of a letter with at most `n` marks, in canonical order. -/
def decomposeUpTo : ℕ → Char → Text
  | 0, c => [c]
  | n + 1, c =>
    if isAscii c then [c]
    else match composites.lookup c with
      | some (base, mark) => decomposeUpTo n base ++ [mark]
      | none => [c]

def lower (c : Char) : Char :=
  if isAscii c then c.toLower else (letterCases.lookup c).getD c

def upper (c : Char) : Char :=
  if isAscii c then c.toUpper
  else ((letterCases.find? fun l => l.2 = c).map Prod.fst).getD c

def isLetter (c : Char) : Bool := lower c != c || upper c != c

def database : Database where
  lower := fun c => [lower c]
  title := fun c => [upper c]
  cased := isLetter
  caseIgnorable := fun c => combiningClass c ≠ 0 || c = '\'' || c = '.' || c = ':'
  caseVariants := fun c => [lower c, upper c]
  decompose := decomposeUpTo 2
  combiningClass := combiningClass
  compose := fun c d =>
    if combiningClass d = 0 then none
    else (composites.find? fun l => l.2 = (c, d)).map Prod.fst
  nonspacingMark := fun c => combiningClass c ≠ 0
  space := fun c => c ∈ [' ', '\t', '\n', '\r', '\u000B', '\u000C', '\u00A0']
  digit := fun c => if c.isDigit then some (c.toNat - '0'.toNat) else none
  alphanumeric := fun c => isLetter c || c.isDigit

end Unicode.Vietnamese
