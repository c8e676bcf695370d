import Qiki.Data.Json
import Qiki.Text.Decimal

/-! JSON as text: `json.dumps` and `json.loads` with their default arguments. -/
namespace Json

/-! Strings. -/

/-- `\uXXXX` -/
def unicodeEscape (n : ℕ) : Text :=
  ['\\', 'u', (n / 4096 % 16).digitChar, (n / 256 % 16).digitChar, (n / 16 % 16).digitChar,
    (n % 16).digitChar]

/-- A character in a string; what is beyond ASCII is escaped, in two halves if need be. -/
def escapeChar (c : Char) : Text :=
  if c = '"' then ['\\', '"'] else if c = '\\' then ['\\', '\\'] else if c = '\n' then ['\\', 'n']
  else if c = '\r' then ['\\', 'r'] else if c = '\t' then ['\\', 't']
  else if c.toNat = 8 then ['\\', 'b'] else if c.toNat = 12 then ['\\', 'f']
  else if 32 ≤ c.toNat ∧ c.toNat ≤ 126 then [c]
  else if c.toNat < 0x10000 then unicodeEscape c.toNat
  else unicodeEscape (0xd800 + (c.toNat - 0x10000) / 0x400) ++
    unicodeEscape (0xdc00 + (c.toNat - 0x10000) % 0x400)

def quote (t : Text) : Text := '"' :: (t.flatMap escapeChar ++ ['"'])

def hexValue (c : Char) : Option ℕ :=
  if c.isDigit then some (c.toNat - 48)
  else if 97 ≤ c.toNat ∧ c.toNat ≤ 102 then some (c.toNat - 87)
  else if 65 ≤ c.toNat ∧ c.toNat ≤ 70 then some (c.toNat - 55)
  else none

/-- The four digits of an escape. -/
def codeUnit : Text → Option (ℕ × Text)
  | a :: b :: c :: d :: rest =>
    match hexValue a, hexValue b, hexValue c, hexValue d with
    | some a, some b, some c, some d => some (a * 4096 + b * 256 + c * 16 + d, rest)
    | _, _, _, _ => none
  | _ => none

/-- What follows `\u`; half a pair is no character. -/
def scanUnicode (s : Text) : Option (Char × Text) :=
  match codeUnit s with
  | none => none
  | some (unit, rest) =>
    if 0xd800 ≤ unit ∧ unit ≤ 0xdbff then
      match rest with
      | '\\' :: 'u' :: rest =>
        match codeUnit rest with
        | none => none
        | some (low, rest) =>
          if 0xdc00 ≤ low ∧ low ≤ 0xdfff then
            some (Char.ofNat (0x10000 + (unit - 0xd800) * 0x400 + (low - 0xdc00)), rest)
          else none
      | _ => none
    else if 0xdc00 ≤ unit ∧ unit ≤ 0xdfff then none
    else some (Char.ofNat unit, rest)

/-- What follows a backslash. -/
def scanEscape : Text → Option (Char × Text)
  | [] => none
  | c :: rest =>
    if c = 'u' then scanUnicode rest
    else if c = '"' ∨ c = '\\' ∨ c = '/' then some (c, rest)
    else if c = 'b' then some (Char.ofNat 8, rest) else if c = 'f' then some (Char.ofNat 12, rest)
    else if c = 'n' then some ('\n', rest) else if c = 'r' then some ('\r', rest)
    else if c = 't' then some ('\t', rest)
    else none

/-- What follows the first quotation mark, with fuel for each character. -/
def scanString : ℕ → Text → Option (Text × Text)
  | 0, _ => none
  | _, [] => none
  | fuel + 1, c :: rest =>
    if c = '"' then some ([], rest)
    else if c = '\\' then
      (scanEscape rest).bind fun (c, rest) => (scanString fuel rest).map fun (t, rest) => (c :: t, rest)
    else if c.toNat < 32 then none
    else (scanString fuel rest).map fun (t, rest) => (c :: t, rest)

theorem hexValue_digitChar : ∀ d < 16, hexValue d.digitChar = some d := by decide

theorem codeUnit_unicodeEscape {n : ℕ} (h : n < 0x10000) (rest : Text) :
    codeUnit ((unicodeEscape n).drop 2 ++ rest) = some (n, rest) := by
  have hdigit (d : ℕ) : hexValue (d % 16).digitChar = some (d % 16) :=
    hexValue_digitChar _ (Nat.mod_lt d (by decide))
  simp only [unicodeEscape, List.drop_succ_cons, List.drop_zero, List.cons_append, List.nil_append,
    codeUnit, hdigit]
  congr 2
  omega

/-- No character is half a pair. -/
theorem toNat_not_surrogate (c : Char) : c.toNat < 0xd800 ∨ 0xdfff < c.toNat ∧ c.toNat < 0x110000 :=
  c.valid

theorem scanEscape_unicodeEscape (c : Char) (h : c.toNat < 0x10000) (rest : Text) :
    scanEscape ((unicodeEscape c.toNat).tail ++ rest) = some (c, rest) := by
  have hchar := toNat_not_surrogate c
  change scanUnicode ((unicodeEscape c.toNat).drop 2 ++ rest) = _
  unfold scanUnicode
  rw [codeUnit_unicodeEscape h]
  simp only
  rw [if_neg (by omega), if_neg (by omega), Char.ofNat_toNat]

theorem scanEscape_pair {high low : ℕ} (hhigh : 0xd800 ≤ high ∧ high ≤ 0xdbff)
    (hlow : 0xdc00 ≤ low ∧ low ≤ 0xdfff) (rest : Text) :
    scanEscape ((unicodeEscape high).tail ++ (unicodeEscape low ++ rest)) =
      some (Char.ofNat (0x10000 + (high - 0xd800) * 0x400 + (low - 0xdc00)), rest) := by
  change scanUnicode ((unicodeEscape high).drop 2 ++
    ('\\' :: 'u' :: ((unicodeEscape low).drop 2 ++ rest))) = _
  unfold scanUnicode
  rw [codeUnit_unicodeEscape (by omega)]
  simp only [hhigh, and_self, if_true]
  rw [codeUnit_unicodeEscape (by omega)]
  simp only [hlow, and_self, if_true]

/-- An escaped character is read as this character. -/
theorem scanString_escapeChar (fuel : ℕ) (c : Char) (rest : Text) :
    scanString (fuel + 1) (escapeChar c ++ rest) =
      (scanString fuel rest).map fun (t, rest) => (c :: t, rest) := by
  have hescape (tail : Text) (h : scanEscape (tail ++ rest) = some (c, rest)) :
      scanString (fuel + 1) ('\\' :: tail ++ rest) =
        (scanString fuel rest).map fun (t, rest) => (c :: t, rest) := by
    simp only [List.cons_append, scanString, h, Option.bind_some]
    rfl
  unfold escapeChar
  split_ifs with hquote hslash hline hreturn htab hback hfeed hplain hunit
  · subst hquote
    exact hescape ['"'] rfl
  · subst hslash
    exact hescape ['\\'] rfl
  · subst hline
    exact hescape ['n'] rfl
  · subst hreturn
    exact hescape ['r'] rfl
  · subst htab
    exact hescape ['t'] rfl
  · refine hescape ['b'] ?_
    rw [← Char.ofNat_toNat c, hback]
    rfl
  · refine hescape ['f'] ?_
    rw [← Char.ofNat_toNat c, hfeed]
    rfl
  · have hprinted : ¬ c.toNat < 32 := by omega
    simp only [List.singleton_append, scanString, hquote, hslash, hprinted, if_false]
  · exact hescape _ (scanEscape_unicodeEscape c hunit rest)
  · have hchar := toNat_not_surrogate c
    have hvalue : 0x10000 + (0xd800 + (c.toNat - 0x10000) / 0x400 - 0xd800) * 0x400 +
        (0xdc00 + (c.toNat - 0x10000) % 0x400 - 0xdc00) = c.toNat := by omega
    refine hescape ((unicodeEscape _).tail ++ unicodeEscape _) ?_
    rw [List.append_assoc, scanEscape_pair (by omega) (by omega), hvalue, Char.ofNat_toNat]

theorem length_le_flatMap_escapeChar (t : Text) : t.length ≤ (t.flatMap escapeChar).length := by
  have hone (c : Char) : 0 < (escapeChar c).length := by
    unfold escapeChar
    split_ifs <;> simp [unicodeEscape]
  induction t with
  | nil => exact Nat.le_refl 0
  | cons c t ih =>
    have hc := hone c
    rw [List.flatMap_cons, List.length_append, List.length_cons]
    omega

/-- A quoted text is read as this text. -/
theorem scanString_quote (t : Text) (fuel : ℕ) (h : t.length < fuel) (rest : Text) :
    scanString fuel (t.flatMap escapeChar ++ '"' :: rest) = some (t, rest) := by
  induction t generalizing fuel with
  | nil =>
    cases fuel with
    | zero => exact absurd h (Nat.not_lt_zero _)
    | succ fuel => rfl
  | cons c t ih =>
    cases fuel with
    | zero => exact absurd h (Nat.not_lt_zero _)
    | succ fuel =>
      rw [List.flatMap_cons, List.append_assoc, scanString_escapeChar,
        ih fuel (Nat.succ_lt_succ_iff.mp h)]
      rfl

/-! Numbers. -/

def isBlank (c : Char) : Bool := c = ' ' || c = '\t' || c = '\n' || c = '\r'

/-- The digits before the point: a zero, or digits that begin with another one. -/
def scanInteger : Text → Option (ℕ × Text)
  | '0' :: rest => some (0, rest)
  | s =>
    let (digits, rest) := s.span Char.isDigit
    if digits.isEmpty then none else (Text.readDigits 0 digits).map fun n => (n, rest)

/-- `.` with digits; without them the number has ended. -/
def scanFraction (s : Text) : Option (ℚ × Text) :=
  match s with
  | '.' :: rest =>
    let (digits, rest) := rest.span Char.isDigit
    if digits.isEmpty then none
    else (Text.readDigits 0 digits).map fun n => ((n : ℚ) / 10 ^ digits.length, rest)
  | _ => none

/-- `e` or `E` with a sign, or none, and digits. -/
def scanExponent (s : Text) : Option (ℤ × Text) :=
  match s with
  | c :: rest =>
    if c = 'e' ∨ c = 'E' then
      let (negative, rest) := match rest with
        | '-' :: rest => (true, rest)
        | '+' :: rest => (false, rest)
        | rest => (false, rest)
      let (digits, rest) := rest.span Char.isDigit
      if digits.isEmpty then none
      else (Text.readDigits 0 digits).map fun n => (if negative then -(n : ℤ) else n, rest)
    else none
  | [] => none

/-- An integer without, a float with a fraction or an exponent. -/
def finishNumber (sign : ℤ) (n : ℕ) (rest : Text) : Json × Text :=
  match scanFraction rest, scanExponent rest with
  | none, none => (.int (sign * n), rest)
  | none, some (e, rest) => (.float (sign * n * 10 ^ e), rest)
  | some (x, rest), _ =>
    match scanExponent rest with
    | none => (.float (sign * (n + x)), rest)
    | some (e, rest) => (.float (sign * (n + x) * 10 ^ e), rest)

def scanNumber : Text → Option (Json × Text)
  | '-' :: rest => (scanInteger rest).map fun (n, rest) => finishNumber (-1) n rest
  | s => (scanInteger s).map fun (n, rest) => finishNumber 1 n rest

/-- What may follow a value: the end, or the sign that continues or closes an array or an object. -/
def Delimited (rest : Text) : Prop := ∀ c ∈ rest.head?, c = ',' ∨ c = ']' ∨ c = '}'

theorem span_ofNat (n : ℕ) {rest : Text} (hrest : Delimited rest) :
    (Text.ofNat n ++ rest).span Char.isDigit = (Text.ofNat n, rest) := by
  have hdigits : ∀ c ∈ Text.ofNat n, c.isDigit = true := fun _ hc => Text.isDigit_of_mem_ofNat hc
  have hstop : rest.takeWhile Char.isDigit = [] ∧ rest.dropWhile Char.isDigit = rest := by
    cases rest with
    | nil => exact ⟨rfl, rfl⟩
    | cons c rest =>
      rcases hrest c rfl with rfl | rfl | rfl <;> exact ⟨rfl, rfl⟩
  rw [List.span_eq_takeWhile_dropWhile, List.takeWhile_append_of_pos hdigits,
    List.dropWhile_append_of_pos hdigits, hstop.1, hstop.2, List.append_nil]

/-- A numeral has no leading zero. -/
theorem ofNat_eq_zero {n : ℕ} {t : Text} (h : Text.ofNat n = '0' :: t) : n = 0 ∧ t = [] := by
  have hzero : n = 0 := by
    by_contra hn
    have hread : Text.readDigits 0 t = some n := by
      have hzero : Text.readDigits 0 ['0'] = some 0 := rfl
      have hall := Text.readDigits_ofNat n
      rwa [h, ← List.singleton_append, Text.readDigits_append hzero] at hall
    have hempty := (Text.eq_ofNat_of_readDigits (u := ['0']) (w := []) (Nat.pos_of_ne_zero hn)
      (by rw [List.append_nil]; exact h) hread).1
    cases hempty
  subst hzero
  exact ⟨rfl, (List.cons.inj h).2.symm⟩

theorem scanInteger_ofNat (n : ℕ) {rest : Text} (hrest : Delimited rest) :
    scanInteger (Text.ofNat n ++ rest) = some (n, rest) := by
  unfold scanInteger
  split
  case h_1 rest' heq =>
    cases hnat : Text.ofNat n with
    | nil => exact absurd hnat (Text.ofNat_ne_nil n)
    | cons c t =>
      rw [hnat, List.cons_append] at heq
      obtain ⟨rfl, rfl⟩ := List.cons.inj heq
      obtain ⟨rfl, rfl⟩ := ofNat_eq_zero hnat
      rfl
  case h_2 =>
    rw [span_ofNat n hrest]
    simp only [List.isEmpty_eq_false_iff.mpr (Text.ofNat_ne_nil n), Bool.false_eq_true, if_false,
      Text.readDigits_ofNat, Option.map_some]

theorem finishNumber_delimited (sign : ℤ) (n : ℕ) {rest : Text} (hrest : Delimited rest) :
    finishNumber sign n rest = (.int (sign * n), rest) := by
  cases rest with
  | nil => rfl
  | cons c rest =>
    rcases hrest c rfl with rfl | rfl | rfl <;> rfl

theorem scanNumber_ofInt (z : ℤ) {rest : Text} (hrest : Delimited rest) :
    scanNumber (Text.ofInt z ++ rest) = some (.int z, rest) := by
  unfold Text.ofInt
  split_ifs with hneg
  · have habs : (-1) * (z.natAbs : ℤ) = z := by omega
    simp only [List.cons_append, scanNumber, scanInteger_ofNat z.natAbs hrest, Option.map_some,
      finishNumber_delimited _ _ hrest, habs]
  · have habs : 1 * (z.natAbs : ℤ) = z := by omega
    have hfirst : scanNumber (Text.ofNat z.natAbs ++ rest) =
        (scanInteger (Text.ofNat z.natAbs ++ rest)).map fun (n, rest) => finishNumber 1 n rest := by
      unfold scanNumber
      split
      case h_1 rest' heq =>
        cases hnat : Text.ofNat z.natAbs with
        | nil => exact absurd hnat (Text.ofNat_ne_nil _)
        | cons c t =>
          rw [hnat, List.cons_append] at heq
          have hdigit : c.isDigit = true :=
            Text.isDigit_of_mem_ofNat (hnat ▸ List.mem_cons_self : c ∈ Text.ofNat z.natAbs)
          rw [(List.cons.inj heq).1] at hdigit
          exact absurd hdigit (by decide)
      case h_2 => rfl
    rw [hfirst, scanInteger_ofNat z.natAbs hrest, Option.map_some]
    simp only [finishNumber_delimited _ _ hrest, habs]

/-! Values. -/

section
variable (floatRepr : ℚ → Text)

mutual

/-- `json.dumps`, with the `repr` of a float. -/
def dumps : Json → Text
  | null => "null"
  | bool true => "true"
  | bool false => "false"
  | int z => Text.ofInt z
  | float x => floatRepr x
  | str t => quote t
  | arr [] => "[]"
  | arr (x :: xs) => '[' :: (dumps x ++ dumpsItems xs)
  | obj [] => "\x7b\x7d"
  | obj ((key, x) :: fields) => '\x7b' :: (quote key ++ (": " ++ (dumps x ++ dumpsFields fields)))

/-- The other items of an array, to its end. -/
def dumpsItems : List Json → Text
  | [] => "]"
  | x :: xs => ", " ++ (dumps x ++ dumpsItems xs)

def dumpsFields : List (Text × Json) → Text
  | [] => "\x7d"
  | (key, x) :: fields => ", " ++ (quote key ++ (": " ++ (dumps x ++ dumpsFields fields)))

end

end

/-- `result[key] = value` -/
def setField (fields : List (Text × Json)) (field : Text × Json) : List (Text × Json) :=
  if field.1 ∈ fields.map Prod.fst then
    fields.map fun old => if old.1 = field.1 then field else old
  else fields ++ [field]

/-- `dict(pairs)` -/
def dictOf (pairs : List (Text × Json)) : List (Text × Json) := pairs.foldl setField []

/-- The constants; `NaN` and the infinities, which `json.loads` takes too, are no values here. -/
def scanConstant (s : Text) : Option (Json × Text) :=
  if List.isPrefixOf ("null" : Text) s then some (null, s.drop 4)
  else if List.isPrefixOf ("true" : Text) s then some (bool true, s.drop 4)
  else if List.isPrefixOf ("false" : Text) s then some (bool false, s.drop 5)
  else none

def skipBlanks (s : Text) : Text := s.dropWhile isBlank

mutual

/-- One value at the beginning of a text, with fuel for each value and each item. -/
def scanValue : ℕ → Text → Option (Json × Text)
  | 0, _ => none
  | _, [] => none
  | fuel + 1, c :: rest =>
    if c = '"' then (scanString (rest.length + 1) rest).map fun (t, rest) => (str t, rest)
    else if c = '[' then
      if (skipBlanks rest).head? = some ']' then some (arr [], (skipBlanks rest).tail)
      else (scanItems fuel (skipBlanks rest)).map fun (xs, rest) => (arr xs, rest)
    else if c = '\x7b' then
      if (skipBlanks rest).head? = some '\x7d' then some (obj [], (skipBlanks rest).tail)
      else (scanFields fuel (skipBlanks rest)).map fun (fields, rest) => (obj (dictOf fields), rest)
    else if c = '-' ∨ c.isDigit then scanNumber (c :: rest)
    else scanConstant (c :: rest)

/-- Items up to the end of the array. -/
def scanItems : ℕ → Text → Option (List Json × Text)
  | 0, _ => none
  | fuel + 1, s =>
    (scanValue fuel s).bind fun (x, rest) =>
      match skipBlanks rest with
      | ',' :: rest => (scanItems fuel (skipBlanks rest)).map fun (xs, rest) => (x :: xs, rest)
      | ']' :: rest => some ([x], rest)
      | _ => none

/-- Fields up to the end of the object. -/
def scanFields : ℕ → Text → Option (List (Text × Json) × Text)
  | 0, _ => none
  | fuel + 1, s =>
    match s with
    | '"' :: rest =>
      (scanString (rest.length + 1) rest).bind fun (key, rest) =>
        match skipBlanks rest with
        | ':' :: rest =>
          (scanValue fuel (skipBlanks rest)).bind fun (x, rest) =>
            match skipBlanks rest with
            | ',' :: rest =>
              (scanFields fuel (skipBlanks rest)).map fun (fields, rest) => ((key, x) :: fields, rest)
            | '\x7d' :: rest => some ([(key, x)], rest)
            | _ => none
        | _ => none
    | _ => none

end

/-- `json.loads`; `none` when it raises. -/
def loads (s : Text) : Option Json :=
  match scanValue (s.length + 1) (skipBlanks s) with
  | some (value, rest) => if (skipBlanks rest).isEmpty then some value else none
  | none => none

mutual

/-- The value has no floats, and distinct keys in each object. -/
def plain : Json → Bool
  | float _ => false
  | arr xs => plainItems xs
  | obj fields => (fields.map Prod.fst).Nodup && plainFields fields
  | _ => true

def plainItems : List Json → Bool
  | [] => true
  | x :: xs => plain x && plainItems xs

def plainFields : List (Text × Json) → Bool
  | [] => true
  | (_, x) :: fields => plain x && plainFields fields

end

section
variable {floatRepr : ℚ → Text} {v x : Json} {xs : List Json} {fields : List (Text × Json)}

theorem skipBlanks_of_head {s : Text} (h : ∀ c ∈ s.head?, isBlank c = false) : skipBlanks s = s := by
  cases s with
  | nil => rfl
  | cons c s => exact List.dropWhile_cons_of_neg (by simp [h c rfl])

theorem ofInt_head (z : ℤ) : ∃ c t, Text.ofInt z = c :: t ∧ (c = '-' ∨ c.isDigit = true) := by
  unfold Text.ofInt
  split_ifs
  · exact ⟨'-', _, rfl, .inl rfl⟩
  · cases hnat : Text.ofNat z.natAbs with
    | nil => exact absurd hnat (Text.ofNat_ne_nil _)
    | cons c t =>
      exact ⟨c, t, rfl, .inr (Text.isDigit_of_mem_ofNat (hnat ▸ List.mem_cons_self :
        c ∈ Text.ofNat z.natAbs))⟩

/-- What begins a number begins no other value and closes no array. -/
theorem number_head {c : Char} (h : c = '-' ∨ c.isDigit = true) :
    c ≠ '"' ∧ c ≠ '[' ∧ c ≠ '\x7b' ∧ c ≠ ']' ∧ isBlank c = false := by
  rcases h with rfl | h
  · decide
  · refine ⟨?_, ?_, ?_, ?_, ?_⟩
    · rintro rfl; exact absurd h (by decide)
    · rintro rfl; exact absurd h (by decide)
    · rintro rfl; exact absurd h (by decide)
    · rintro rfl; exact absurd h (by decide)
    · by_contra hblank
      simp only [isBlank, Bool.not_eq_false, Bool.or_eq_true, decide_eq_true_eq] at hblank
      rcases hblank with ((rfl | rfl) | rfl) | rfl <;> exact absurd h (by decide)

/-- A printed value begins with a character that is no blank and does not close an array. -/
theorem dumps_head (h : plain v = true) :
    ∃ c t, dumps floatRepr v = c :: t ∧ isBlank c = false ∧ c ≠ ']' := by
  cases v with
  | null => exact ⟨'n', _, rfl, by decide⟩
  | bool b => cases b <;> exact ⟨_, _, rfl, by decide⟩
  | int z =>
    obtain ⟨c, t, hz, hc⟩ := ofInt_head z
    obtain ⟨-, -, -, hclose, hblank⟩ := number_head hc
    exact ⟨c, t, hz, hblank, hclose⟩
  | float x => simp [plain] at h
  | str t => exact ⟨'"', _, rfl, by decide⟩
  | arr xs => cases xs <;> exact ⟨'[', _, rfl, by decide⟩
  | obj fields => cases fields <;> exact ⟨'\x7b', _, rfl, by decide⟩

theorem skipBlanks_dumps (h : plain v = true) (rest : Text) :
    skipBlanks (dumps floatRepr v ++ rest) = dumps floatRepr v ++ rest := by
  obtain ⟨c, t, hv, hblank, -⟩ := @dumps_head floatRepr v h
  apply skipBlanks_of_head
  rw [hv]
  rintro _ ⟨⟩
  exact hblank

theorem dumpsItems_delimited (xs : List Json) (rest : Text) :
    Delimited (dumpsItems floatRepr xs ++ rest) := by
  cases xs with
  | nil => rintro _ ⟨⟩; exact .inr (.inl rfl)
  | cons x xs => rintro _ ⟨⟩; exact .inl rfl

theorem dumpsFields_delimited (fields : List (Text × Json)) (rest : Text) :
    Delimited (dumpsFields floatRepr fields ++ rest) := by
  cases fields with
  | nil => rintro _ ⟨⟩; exact .inr (.inr rfl)
  | cons field fields => rintro _ ⟨⟩; exact .inl rfl

theorem skipBlanks_delimited {rest : Text} (h : Delimited rest) : skipBlanks rest = rest := by
  apply skipBlanks_of_head
  intro c hc
  rcases h c hc with rfl | rfl | rfl <;> rfl

variable (floatRepr)

/-- The printed value is read again, whatever follows it. -/
def Reads (v : Json) : Prop :=
  ∀ fuel rest, (dumps floatRepr v).length ≤ fuel → Delimited rest →
    scanValue fuel (dumps floatRepr v ++ rest) = some (v, rest)

variable {floatRepr}

theorem scanItems_dumps (hplain : plain x = true ∧ plainItems xs = true)
    (hreads : Reads floatRepr x ∧ ∀ y ∈ xs, Reads floatRepr y) (fuel : ℕ) (rest : Text)
    (hfuel : (dumps floatRepr x ++ dumpsItems floatRepr xs).length ≤ fuel) :
    scanItems fuel (dumps floatRepr x ++ (dumpsItems floatRepr xs ++ rest)) =
      some (x :: xs, rest) := by
  induction xs generalizing x fuel with
  | nil =>
    obtain ⟨fuel, rfl⟩ : ∃ n, fuel = n + 1 := ⟨fuel - 1, by simp [dumpsItems] at hfuel; omega⟩
    have hx : (dumps floatRepr x).length ≤ fuel := by simp [dumpsItems] at hfuel; omega
    rw [scanItems, hreads.1 fuel _ hx (dumpsItems_delimited [] rest), Option.bind_some]
    simp only [skipBlanks_delimited (@dumpsItems_delimited floatRepr [] rest)]
    rfl
  | cons y ys ih =>
    obtain ⟨fuel, rfl⟩ : ∃ n, fuel = n + 1 := ⟨fuel - 1, by simp [dumpsItems] at hfuel; omega⟩
    have hx : (dumps floatRepr x).length ≤ fuel := by simp [dumpsItems] at hfuel; omega
    have hy : (dumps floatRepr y ++ dumpsItems floatRepr ys).length ≤ fuel := by
      simp [dumpsItems] at hfuel ⊢
      omega
    obtain ⟨hyplain, hysplain⟩ := Bool.and_eq_true_iff.mp hplain.2
    have hitems := ih ⟨hyplain, hysplain⟩ ⟨hreads.2 y List.mem_cons_self,
      fun z hz => hreads.2 z (List.mem_cons_of_mem y hz)⟩ fuel hy
    have htext : dumpsItems floatRepr (y :: ys) ++ rest =
        ',' :: ' ' :: (dumps floatRepr y ++ (dumpsItems floatRepr ys ++ rest)) := by
      simp [dumpsItems]
    rw [scanItems, hreads.1 fuel _ hx (dumpsItems_delimited _ rest), Option.bind_some]
    simp only [skipBlanks_delimited (@dumpsItems_delimited floatRepr (y :: ys) rest)]
    rw [htext]
    have hblank : skipBlanks (' ' :: (dumps floatRepr y ++ (dumpsItems floatRepr ys ++ rest))) =
        dumps floatRepr y ++ (dumpsItems floatRepr ys ++ rest) :=
      skipBlanks_dumps hyplain _
    simp only [hblank, hitems, Option.map_some]

/-- A key with its value, as a field begins. -/
theorem scanField_dumps {key : Text} (hplain : plain x = true) (hx : Reads floatRepr x)
    (fuel : ℕ) (rest : Text) (hfuel : (dumps floatRepr x).length ≤ fuel) : Delimited rest →
    scanFields (fuel + 1) (quote key ++ (": " ++ (dumps floatRepr x ++ rest))) =
      match rest with
      | ',' :: rest =>
        (scanFields fuel (skipBlanks rest)).map fun (fields, rest) => ((key, x) :: fields, rest)
      | '\x7d' :: rest => some ([(key, x)], rest)
      | _ => none := by
  intro hrest
  have htext : quote key ++ (": " ++ (dumps floatRepr x ++ rest)) =
      '"' :: (key.flatMap escapeChar ++ '"' :: (':' :: ' ' :: (dumps floatRepr x ++ rest))) := by
    simp [quote]
  have hkey : key.length < (key.flatMap escapeChar ++
      '"' :: (':' :: ' ' :: (dumps floatRepr x ++ rest))).length + 1 := by
    have hle := length_le_flatMap_escapeChar key
    rw [List.length_append]
    omega
  have hblank : skipBlanks (' ' :: (dumps floatRepr x ++ rest)) = dumps floatRepr x ++ rest :=
    skipBlanks_dumps hplain _
  have hcolon : skipBlanks (':' :: ' ' :: (dumps floatRepr x ++ rest)) =
    ':' :: ' ' :: (dumps floatRepr x ++ rest) := rfl
  rw [htext, scanFields]
  simp only [scanString_quote key _ hkey, Option.bind_some, hcolon, hblank,
    hx fuel rest hfuel hrest, skipBlanks_delimited hrest]

theorem scanFields_dumps {key : Text} (hplain : plain x = true ∧ plainFields fields = true)
    (hreads : Reads floatRepr x ∧ ∀ field ∈ fields, Reads floatRepr field.2) (fuel : ℕ)
    (rest : Text) (hfuel : (quote key ++ (": " ++ (dumps floatRepr x ++
      dumpsFields floatRepr fields)) : Text).length ≤ fuel) :
    scanFields fuel (quote key ++ (": " ++ (dumps floatRepr x ++
      (dumpsFields floatRepr fields ++ rest)))) = some ((key, x) :: fields, rest) := by
  induction fields generalizing x key fuel with
  | nil =>
    obtain ⟨fuel, rfl⟩ : ∃ n, fuel = n + 1 := ⟨fuel - 1, by simp [dumpsFields] at hfuel; omega⟩
    have hx : (dumps floatRepr x).length ≤ fuel := by simp [dumpsFields] at hfuel; omega
    rw [scanField_dumps hplain.1 hreads.1 fuel _ hx (dumpsFields_delimited [] rest)]
    rfl
  | cons field fields ih =>
    obtain ⟨name, y⟩ := field
    obtain ⟨fuel, rfl⟩ : ∃ n, fuel = n + 1 := ⟨fuel - 1, by simp [dumpsFields] at hfuel; omega⟩
    have hx : (dumps floatRepr x).length ≤ fuel := by simp [dumpsFields] at hfuel; omega
    have hy : (quote name ++ (": " ++ (dumps floatRepr y ++
        dumpsFields floatRepr fields)) : Text).length ≤ fuel := by
      simp [dumpsFields] at hfuel ⊢
      omega
    obtain ⟨hyplain, hfplain⟩ := Bool.and_eq_true_iff.mp hplain.2
    have hfields := @ih _ name ⟨hyplain, hfplain⟩ ⟨hreads.2 _ List.mem_cons_self,
      fun f hf => hreads.2 f (List.mem_cons_of_mem _ hf)⟩ fuel hy
    have htext : dumpsFields floatRepr ((name, y) :: fields) ++ rest =
        ',' :: ' ' :: (quote name ++ (": " ++ (dumps floatRepr y ++
          (dumpsFields floatRepr fields ++ rest)))) := by
      simp [dumpsFields]
    have hblank : skipBlanks (' ' :: (quote name ++ (": " ++ (dumps floatRepr y ++
        (dumpsFields floatRepr fields ++ rest))))) =
        quote name ++ (": " ++ (dumps floatRepr y ++ (dumpsFields floatRepr fields ++ rest))) := rfl
    rw [scanField_dumps hplain.1 hreads.1 fuel _ hx (dumpsFields_delimited _ rest), htext]
    simp only [hblank, hfields, Option.map_some]

theorem dictOf_nodup (h : (fields.map Prod.fst).Nodup) : dictOf fields = fields := by
  unfold dictOf
  induction fields using List.reverseRecOn with
  | nil => rfl
  | append_singleton fields field ih =>
    rw [List.map_append, List.nodup_append] at h
    obtain ⟨hbefore, -, hnew⟩ := h
    have hfresh : field.1 ∉ fields.map Prod.fst :=
      fun hmem => hnew _ hmem _ (List.mem_singleton_self _) rfl
    rw [List.foldl_append, ih hbefore, List.foldl_cons, List.foldl_nil, setField, if_neg hfresh]

theorem reads_int (z : ℤ) : Reads floatRepr (.int z) := by
  intro fuel rest hfuel hrest
  obtain ⟨c, t, hz, hc⟩ := ofInt_head z
  obtain ⟨hquote, harr, hobj, -⟩ := number_head hc
  obtain ⟨fuel, rfl⟩ : ∃ n, fuel = n + 1 := ⟨fuel - 1, by simp [dumps, hz] at hfuel; omega⟩
  have hscan := scanNumber_ofInt z hrest
  rw [dumps]
  rw [hz] at hscan ⊢
  simp only [List.cons_append, scanValue, hquote, harr, hobj, hc, if_false, if_true]
  exact hscan

theorem reads_str (t : Text) : Reads floatRepr (.str t) := by
  intro fuel rest hfuel hrest
  obtain ⟨fuel, rfl⟩ : ∃ n, fuel = n + 1 := ⟨fuel - 1, by simp [dumps, quote] at hfuel; omega⟩
  have htext : dumps floatRepr (.str t) ++ rest = '"' :: (t.flatMap escapeChar ++ '"' :: rest) := by
    simp [dumps, quote]
  have hlength : t.length < (t.flatMap escapeChar ++ '"' :: rest).length + 1 := by
    have hle := length_le_flatMap_escapeChar t
    rw [List.length_append]
    omega
  rw [htext]
  simp only [scanValue, if_true, scanString_quote t _ hlength, Option.map_some]

theorem reads_arr (hplain : plain x = true ∧ plainItems xs = true)
    (hreads : Reads floatRepr x ∧ ∀ y ∈ xs, Reads floatRepr y) :
    Reads floatRepr (.arr (x :: xs)) := by
  intro fuel rest hfuel hrest
  obtain ⟨fuel, rfl⟩ : ∃ n, fuel = n + 1 := ⟨fuel - 1, by simp [dumps] at hfuel; omega⟩
  have hitems := scanItems_dumps hplain hreads fuel rest (by simp [dumps] at hfuel ⊢; omega)
  have htext : dumps floatRepr (.arr (x :: xs)) ++ rest =
      '[' :: (dumps floatRepr x ++ (dumpsItems floatRepr xs ++ rest)) := by
    simp [dumps]
  have hopen : (dumps floatRepr x ++ (dumpsItems floatRepr xs ++ rest)).head? ≠ some ']' := by
    obtain ⟨c, t, hx, -, hclose⟩ := @dumps_head floatRepr x hplain.1
    rw [hx]
    exact fun h => hclose (Option.some.inj h)
  rw [htext]
  simp only [scanValue, skipBlanks_dumps hplain.1, hopen, hitems]
  rfl

theorem reads_obj {key : Text} (hnodup : (((key, x) :: fields).map Prod.fst).Nodup)
    (hplain : plain x = true ∧ plainFields fields = true)
    (hreads : Reads floatRepr x ∧ ∀ field ∈ fields, Reads floatRepr field.2) :
    Reads floatRepr (.obj ((key, x) :: fields)) := by
  intro fuel rest hfuel hrest
  obtain ⟨fuel, rfl⟩ : ∃ n, fuel = n + 1 := ⟨fuel - 1, by simp [dumps] at hfuel; omega⟩
  have hfields := @scanFields_dumps floatRepr x fields key hplain hreads fuel rest
    (by simp [dumps] at hfuel ⊢; omega)
  have htext : dumps floatRepr (.obj ((key, x) :: fields)) ++ rest = '\x7b' ::
      (quote key ++ (": " ++ (dumps floatRepr x ++ (dumpsFields floatRepr fields ++ rest)))) := by
    simp [dumps]
  have hblank : skipBlanks (quote key ++ (": " ++ (dumps floatRepr x ++
      (dumpsFields floatRepr fields ++ rest)))) =
      quote key ++ (": " ++ (dumps floatRepr x ++ (dumpsFields floatRepr fields ++ rest))) := rfl
  have hopen : (quote key ++ (": " ++ (dumps floatRepr x ++
      (dumpsFields floatRepr fields ++ rest)))).head? ≠ some '\x7d' :=
    fun h => nomatch (Option.some.inj h : '"' = '\x7d')
  rw [htext]
  simp only [scanValue, hblank, hopen, hfields]
  rw [if_neg (by decide), if_neg (by decide), if_pos trivial, if_neg not_false, Option.map_some,
    dictOf_nodup hnodup]

end

section
variable {floatRepr : ℚ → Text}

/-- A constant or an empty container, printed as a text that is read at once. -/
theorem reads_of_eq {v : Json} (hpos : 0 < (dumps floatRepr v).length)
    (h : ∀ fuel rest, scanValue (fuel + 1) (dumps floatRepr v ++ rest) = some (v, rest)) :
    Reads floatRepr v := by
  intro fuel rest hfuel _
  obtain ⟨fuel, rfl⟩ : ∃ n, fuel = n + 1 := ⟨fuel - 1, by omega⟩
  exact h fuel rest

mutual

theorem reads : (v : Json) → plain v = true → Reads floatRepr v
  | .null, _ => reads_of_eq (by simp [dumps]) fun _ _ => rfl
  | .bool true, _ => reads_of_eq (by simp [dumps]) fun _ _ => rfl
  | .bool false, _ => reads_of_eq (by simp [dumps]) fun _ _ => rfl
  | .int z, _ => reads_int z
  | .float _, h => nomatch h
  | .str t, _ => reads_str t
  | .arr [], _ => reads_of_eq (by simp [dumps]) fun _ _ => rfl
  | .arr (x :: xs), h => reads_arr (Bool.and_eq_true_iff.mp h)
      ⟨reads x (Bool.and_eq_true_iff.mp h).1, readsItems xs (Bool.and_eq_true_iff.mp h).2⟩
  | .obj [], _ => reads_of_eq (by simp [dumps]) fun _ _ => rfl
  | .obj ((key, x) :: fields), h =>
    have hboth := Bool.and_eq_true_iff.mp h
    have hplain := Bool.and_eq_true_iff.mp hboth.2
    reads_obj (of_decide_eq_true hboth.1) hplain ⟨reads x hplain.1, readsFields fields hplain.2⟩

theorem readsItems : (xs : List Json) → plainItems xs = true → ∀ x ∈ xs, Reads floatRepr x
  | [], _ => fun _ hx => nomatch hx
  | x :: xs, h => fun y hy => (List.mem_cons.mp hy).elim
      (fun heq => heq ▸ reads x (Bool.and_eq_true_iff.mp h).1)
      (readsItems xs (Bool.and_eq_true_iff.mp h).2 y)

theorem readsFields : (fields : List (Text × Json)) → plainFields fields = true →
    ∀ field ∈ fields, Reads floatRepr field.2
  | [], _ => fun _ hx => nomatch hx
  | (_, x) :: fields, h => fun field hfield => (List.mem_cons.mp hfield).elim
      (fun heq => heq ▸ reads x (Bool.and_eq_true_iff.mp h).1)
      (readsFields fields (Bool.and_eq_true_iff.mp h).2 field)

end

/-- What is printed of a value without floats is loaded as this value. -/
theorem loads_dumps (floatRepr : ℚ → Text) {v : Json} (h : plain v = true) :
    loads (dumps floatRepr v) = some v := by
  have hread := @reads floatRepr v h ((dumps floatRepr v).length + 1) [] (Nat.le_succ _)
    fun _ hc => nomatch hc
  have hblank := @skipBlanks_dumps floatRepr v h []
  rw [List.append_nil] at hread hblank
  simp only [loads, hblank, hread]
  rfl

end

end Json
