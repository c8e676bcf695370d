import Mathlib.Data.List.Infix
import Mathlib.Data.Nat.Digits.Defs

/-! Texts as lists of characters, with the string methods of Python that the code uses. -/

abbrev Text := List Char

instance : Coe String Text := ⟨String.toList⟩

instance : LawfulBEq Text := inferInstance

namespace Text

/-- `sub in s` -/
def contains (s sub : Text) : Bool := s.tails.any sub.isPrefixOf

/-- One of the phrases occurs in the text. -/
def containsAny (s : Text) (phrases : List Text) : Bool := phrases.any s.contains

/-- `s.find(sub)`; `none` is `-1`. -/
def find (s sub : Text) : Option ℕ := s.tails.findIdx? sub.isPrefixOf

/-- `s.split()` at the characters that count as space. -/
def words (space : Char → Bool) (s : Text) : List Text :=
  (s.splitOnP space).filter fun w => !w.isEmpty

/-- `s.strip(chars)` -/
def strip (drop : Char → Bool) (s : Text) : Text :=
  ((s.dropWhile drop).reverse.dropWhile drop).reverse

/-- `sep.join(parts)` -/
def join (sep : Text) (parts : List Text) : Text := sep.intercalate parts

/-- `replace` with this many characters of an occurrence still to be skipped. -/
def replaceFrom (old new : Text) : ℕ → Text → Text
  | _, [] => []
  | n + 1, _ :: s => replaceFrom old new n s
  | 0, c :: s =>
    if old.isPrefixOf (c :: s) then new ++ replaceFrom old new (old.length - 1) s
    else c :: replaceFrom old new 0 s

/-- `s.replace(old, new)` for a non-empty `old`. -/
def replace (old new s : Text) : Text := replaceFrom old new 0 s

/-- `str(n)` -/
def ofNat (n : ℕ) : Text := Nat.toDigits 10 n

/-- The value of a run of decimal digits, with `digit` the value of each. -/
def toNat (digit : Char → Option ℕ) (s : Text) : Option ℕ :=
  if s.isEmpty then none
  else s.foldl (fun n c => do return 10 * (← n) + (← digit c)) (some 0)

theorem contains_iff {s sub : Text} : s.contains sub = true ↔ sub <:+: s := by
  rw [contains, List.any_eq_true]
  constructor
  · rintro ⟨t, ht, hp⟩
    exact (List.isPrefixOf_iff_prefix.mp hp).isInfix.trans ((List.mem_tails t s).mp ht).isInfix
  · rintro ⟨a, b, rfl⟩
    refine ⟨sub ++ b, ?_, List.isPrefixOf_iff_prefix.mpr (List.prefix_append sub b)⟩
    rw [List.mem_tails, List.append_assoc]
    exact List.suffix_append a (sub ++ b)

end Text
