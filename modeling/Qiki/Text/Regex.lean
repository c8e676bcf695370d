import Qiki.Text.Unicode

/-! Regular expressions with the backtracking order of Python's `re`: a match is the first
of all results, in the order in which alternatives and repetitions are tried. -/

/-- What one character may be. -/
inductive CharClass
  | char (c : Char)
  | range (lo hi : Char)
  | digit
  | space
  | word
  | any
  deriving DecidableEq, Repr

inductive Regex
  | empty
  /-- One character of one of the classes, or of none of them. -/
  | oneOf (negated : Bool) (classes : List CharClass)
  | seq (a b : Regex)
  | alt (a b : Regex)
  | star (greedy : Bool) (a : Regex)
  | group (n : ℕ) (a : Regex)
  | wordBoundary
  /-- `(?=a)` and `(?!a)` -/
  | lookahead (negated : Bool) (a : Regex)
  /-- `(?<=[..])` and `(?<![..])` for one character. -/
  | lookbehind (negated : Bool) (classes : List CharClass)
  /-- `$`: the end of the text, or before a newline that ends it. -/
  | finish

namespace Regex

/-- A position in the text: what is before it (nearest first), what is after it, and the
groups matched so far. -/
structure Cursor where
  before : Text
  rest : Text
  groups : List (ℕ × Text) := []
  deriving DecidableEq, Repr

/-- The database and whether case is ignored. -/
structure Mode where
  db : Unicode.Database
  ignoreCase : Bool := false

variable (m : Mode)

/-- `\w` -/
def Mode.word (c : Char) : Bool := m.db.alphanumeric c || c == '_'

def Mode.variants (c : Char) : List Char := if m.ignoreCase then m.db.caseVariants c else [c]

def Mode.matchesClass (c : Char) : CharClass → Bool
  | .char d => (m.variants c).contains d
  | .range lo hi => (m.variants c).any fun d => lo ≤ d && d ≤ hi
  | .digit => (m.db.digit c).isSome
  | .space => m.db.space c
  | .word => m.word c
  | .any => c != '\n'

def Mode.atBoundary (k : Cursor) : Bool :=
  k.before.head?.any m.word != k.rest.head?.any m.word

/-- The results of a repetition, each round taking at least one character. -/
def iterate (greedy : Bool) (round : Cursor → List Cursor) : ℕ → Cursor → List Cursor
  | 0, k => [k]
  | n + 1, k =>
    let more := (round k).flatMap fun k' =>
      if k'.rest.length < k.rest.length then iterate greedy round n k' else []
    if greedy then more ++ [k] else k :: more

/-- The text between two cursors. -/
def Cursor.upTo (k k' : Cursor) : Text := k.rest.take (k.rest.length - k'.rest.length)

/-- All results of a match at the cursor, in backtracking order. -/
def results : Regex → Cursor → List Cursor
  | empty, k => [k]
  | oneOf negated classes, k =>
    match k.rest with
    | [] => []
    | c :: s =>
      if classes.any (m.matchesClass c) != negated then
        [{ k with before := c :: k.before, rest := s }]
      else []
  | seq a b, k => (results a k).flatMap (results b)
  | alt a b, k => results a k ++ results b k
  | star greedy a, k => iterate greedy (results a) k.rest.length k
  | group n a, k => (results a k).map fun k' => { k' with groups := (n, k.upTo k') :: k'.groups }
  | wordBoundary, k => if m.atBoundary k then [k] else []
  | lookahead negated a, k => if (results a k).isEmpty == negated then [k] else []
  | lookbehind negated classes, k =>
    if k.before.head?.any (fun c => classes.any (m.matchesClass c)) != negated then [k] else []
  | finish, k => if k.rest.isEmpty || k.rest == ['\n'] then [k] else []

/-- A match: where it starts and where it ends. -/
structure Match where
  start : Cursor
  stop : Cursor
  deriving DecidableEq, Repr

/-- `match.group(0)` -/
def Match.text (r : Match) : Text := r.start.upTo r.stop

/-- `match.group(n)` -/
def Match.group (r : Match) (n : ℕ) : Option Text := r.stop.groups.lookup n

/-- A match that starts at the cursor. -/
def matchAt (r : Regex) (k : Cursor) : Option Match :=
  ((results m r k).head?).map fun k' => ⟨k, k'⟩

/-- The first match at or after the cursor; `steps` is what is left of the text. -/
def searchFrom (r : Regex) : ℕ → Cursor → Option Match
  | 0, k => matchAt m r k
  | n + 1, k =>
    match matchAt m r k, k.rest with
    | some found, _ => some found
    | none, c :: s => searchFrom r n { before := c :: k.before, rest := s }
    | none, [] => none

/-- `re.search(r, s)` -/
def search (r : Regex) (s : Text) : Option Match := searchFrom m r s.length ⟨[], s, []⟩

/-- `re.match(r, s)` -/
def matchStart (r : Regex) (s : Text) : Option Match := matchAt m r ⟨[], s, []⟩

/-- `re.fullmatch(r, s)` -/
def fullmatch (r : Regex) (s : Text) : Option Match :=
  (((results m r ⟨[], s, []⟩).filter fun k => k.rest.isEmpty).head?).map fun k => ⟨⟨[], s, []⟩, k⟩

/-- The matches of `re.finditer`, for expressions that match no empty text. -/
def findFrom (r : Regex) : ℕ → Cursor → List Match
  | 0, _ => []
  | n + 1, k =>
    match searchFrom m r k.rest.length k with
    | some found => found :: findFrom r n { found.stop with groups := [] }
    | none => []

def finditer (r : Regex) (s : Text) : List Match := findFrom m r s.length ⟨[], s, []⟩

/-- `re.findall(r, s)` without groups. -/
def findall (r : Regex) (s : Text) : List Text := (finditer m r s).map Match.text

/-- The pieces between the matches. -/
def gaps (k : Cursor) : List Match → List Text
  | [] => [k.rest]
  | found :: rest => k.upTo found.start :: gaps found.stop rest

/-- `re.split(r, s)` without groups. -/
def split (r : Regex) (s : Text) : List Text := gaps ⟨[], s, []⟩ (finditer m r s)

/-- `re.sub(r, replacement, s, count=...)`; without a count all matches are replaced. -/
def sub (r : Regex) (replacement : Match → Text) (s : Text) (count : Option ℕ := none) : Text :=
  let found := match count with
    | none => finditer m r s
    | some n => (finditer m r s).take n
  let pieces := gaps ⟨[], s, []⟩ found
  (pieces.zipWith (· ++ ·) ((found.map replacement) ++ [[]])).flatten

/-! The other constructs, as abbreviations. -/

/-- The characters of a literal, one after the other. -/
def literal : Text → Regex
  | [] => empty
  | [c] => oneOf false [.char c]
  | c :: s => seq (oneOf false [.char c]) (literal s)

/-- `a|b|...` -/
def altOf : List Regex → Regex
  | [] => oneOf false []
  | [a] => a
  | a :: as => alt a (altOf as)

def seqOf : List Regex → Regex
  | [] => empty
  | [a] => a
  | a :: as => seq a (seqOf as)

/-- `a?` -/
def optional (a : Regex) : Regex := alt a empty

/-- `a+` -/
def plus (a : Regex) : Regex := seq a (star true a)

/-- `a{n}` -/
def times (a : Regex) : ℕ → Regex
  | 0 => empty
  | 1 => a
  | n + 1 => seq a (times a n)

/-- `a{lo,lo+extra}` -/
def upToTimes (a : Regex) (lo : ℕ) : ℕ → Regex
  | 0 => times a lo
  | extra + 1 => seq (times a lo) (optionals extra)
where
  optionals : ℕ → Regex
    | 0 => optional a
    | n + 1 => optional (seq a (optionals n))

def anyChar : Regex := oneOf false [.any]
def digit : Regex := oneOf false [.digit]
def space : Regex := oneOf false [.space]

/-- `\b(?:a|b|...)\b` of literals. -/
def anyWord (words : List Text) : Regex :=
  seqOf [wordBoundary, altOf (words.map literal), wordBoundary]

/-- `re.sub(r"\s+", " ", s)` -/
def collapseSpaces (db : Unicode.Database) (s : Text) : Text :=
  sub ⟨db, false⟩ (plus space) (fun _ => [' ']) s

end Regex
