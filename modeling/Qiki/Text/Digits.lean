import Qiki.Text.Boundary
import Qiki.Text.Decimal
import Qiki.Text.LetterCase

/-! Decimal digits among letters: what stands around a number is lowered and decomposed apart from
it, and no digits come out of it. -/
namespace Unicode

namespace Vietnamese

/-- The database is right about ASCII and the Vietnamese letters, and neither letter case nor a
decomposition turns another character into a digit. -/
structure KnowsDigits (db : Database) : Prop extends Extends db where
  digit_ascii : ∀ c, isAscii c = true → db.digit c = Text.asciiDigit c
  alphanumeric_ascii : ∀ c, isAscii c = true → db.alphanumeric c = c.isAlphanum
  space_printable : ∀ c, '!' ≤ c → c ≤ '~' → db.space c = false
  uncased_digit : ∀ c, c.isDigit = true → db.cased c = false ∧ db.caseIgnorable c = false
  digit_letter : ∀ c, isLetter c = true → db.digit c = none
  digit_sigma : ∀ c ∈ ['σ', 'ς'], db.digit c = none
  digit_lower : ∀ c, db.digit c = none → ∀ d ∈ db.lower c, db.digit d = none
  digit_decompose : ∀ c, db.digit c = none → ∀ d ∈ db.decompose c, db.digit d = none

variable {db : Database} {c : Char}

theorem bounds_of_isDigit (h : c.isDigit = true) : 48 ≤ c.toNat ∧ c.toNat ≤ 57 := by
  have hbounds : 48 ≤ c.val ∧ c.val ≤ 57 := by simpa [Char.isDigit] using h
  exact hbounds

theorem isAscii_of_isDigit (h : c.isDigit = true) : isAscii c = true := by
  have hbounds := bounds_of_isDigit h
  rw [isAscii, decide_eq_true_iff]
  omega

/-- Lower case ASCII characters are plain. -/
theorem Extends.isPlain (h : Extends db) (hascii : isAscii c = true) (hlower : c.toLower = c) :
    IsPlain db c := by
  have hknown : isKnown c = true := by rw [isKnown, hascii, Bool.true_or, Bool.true_or]
  have hclass : combiningClass c = 0 := by rw [combiningClass, if_pos hascii]
  have hcase : lower c = c := by rw [lower, if_pos hascii, hlower]
  constructor
  · rw [h.agree.lowerOf c hknown]
    exact congrArg (fun d => [d]) hcase
  · rintro rfl
    revert hascii
    decide
  · rw [h.agree.decomposeOf c hknown]
    exact if_pos hascii
  · rw [h.agree.classOf c hknown]
    exact hclass
  · rw [h.agree.markOf c hknown]
    exact decide_eq_false (not_not.mpr hclass)

theorem toLower_of_isDigit (h : c.isDigit = true) : c.toLower = c := by
  have hbounds := bounds_of_isDigit h
  have hupper : ¬ (c.val ≥ 'A'.val ∧ c.val ≤ 'Z'.val) := by
    rintro ⟨hge, -⟩
    have hge : 65 ≤ c.toNat := hge
    omega
  exact dif_neg hupper

section
variable (h : KnowsDigits db)
include h

theorem KnowsDigits.isPlain_digit (hc : c.isDigit = true) : IsPlain db c :=
  h.isPlain (isAscii_of_isDigit hc) (toLower_of_isDigit hc)

theorem KnowsDigits.isBoundary_digit (hc : c.isDigit = true) : IsBoundary db c c where
  lower_self := (h.isPlain_digit hc).lower_self
  ne_sigma := (h.isPlain_digit hc).ne_sigma
  decompose_starter := (h.isPlain_digit hc).decompose_self
  class_starter := (h.isPlain_digit hc).starter
  not_mark := (h.isPlain_digit hc).not_mark
  not_cased := (h.uncased_digit c hc).1
  not_ignorable := (h.uncased_digit c hc).2

theorem KnowsDigits.digit_of_isDigit (hc : c.isDigit = true) : db.digit c = some (c.toNat - 48) := by
  rw [h.digit_ascii c (isAscii_of_isDigit hc), Text.asciiDigit, if_pos hc]

/-- The value of ASCII digits. -/
theorem KnowsDigits.toNat_eq {s : Text} (hne : s ≠ []) (hs : ∀ c ∈ s, c.isDigit = true) :
    Text.toNat db.digit s = Text.readDigits 0 s := by
  have hfold (n : Option ℕ) : s.foldl (fun n c => do return 10 * (← n) + (← db.digit c)) n =
      s.foldl (fun n c => do return 10 * (← n) + (← Text.asciiDigit c)) n := by
    refine List.foldl_ext _ _ _ fun n c hc => ?_
    rw [h.digit_ascii c (isAscii_of_isDigit (hs c hc))]
  rw [Text.toNat, if_neg (by simpa using hne), hfold, Text.readDigits]

theorem KnowsDigits.lower_digit_free {s : Text} (hs : ∀ c ∈ s, db.digit c = none) :
    ∀ c ∈ Unicode.lower db s, db.digit c = none := by
  intro d hd
  rcases mem_lowerFrom hd with hsigma | ⟨c, hc, -, hd⟩
  · exact h.digit_sigma d hsigma
  · exact h.digit_lower c (hs c hc) d hd

theorem KnowsDigits.nfd_digit_free {s : Text} (hs : ∀ c ∈ s, db.digit c = none) :
    ∀ c ∈ nfd db s, db.digit c = none := by
  intro d hd
  obtain ⟨c, hc, hd⟩ := mem_nfd.mp hd
  exact h.digit_decompose c (hs c hc) d hd

end

/-! The database of the Vietnamese letters is such a database. -/

theorem ascii_forall {P : Char → Prop} (hP : ∀ n < 128, P (Char.ofNat n)) (hc : isAscii c = true) :
    P c := by
  have hlt : c.toNat < 128 := of_decide_eq_true hc
  have hchar := hP c.toNat hlt
  rwa [Char.ofNat_toNat] at hchar

theorem isDigit_lower (hc : c.isDigit = false) : (lower c).isDigit = false := by
  have hascii : ∀ n < 128, (Char.ofNat n).isDigit = false →
      (lower (Char.ofNat n)).isDigit = false := by decide +kernel
  have hletters : ∀ l ∈ letterCases, l.2.isDigit = false := by decide +kernel
  cases hknown : isAscii c with
  | true =>
    exact ascii_forall (P := fun c => c.isDigit = false → (lower c).isDigit = false) hascii hknown hc
  | false =>
    rw [lower, if_neg (by rw [hknown]; exact Bool.false_ne_true)]
    cases hlookup : letterCases.lookup c with
    | none => exact hc
    | some d =>
      obtain ⟨before, after, hsplit, -⟩ := List.lookup_eq_some_iff.mp hlookup
      exact hletters (c, d) (by rw [hsplit]; simp)

theorem isDigit_decomposeUpTo (n : ℕ) (hc : c.isDigit = false) {d : Char}
    (hd : d ∈ decomposeUpTo n c) : d.isDigit = false := by
  have hparts : ∀ l ∈ composites, l.2.1.isDigit = false ∧ l.2.2.isDigit = false := by decide +kernel
  induction n generalizing c d with
  | zero => exact List.mem_singleton.mp hd ▸ hc
  | succ n ih =>
    rw [decomposeUpTo] at hd
    split_ifs at hd with hascii
    · exact List.mem_singleton.mp hd ▸ hc
    · split at hd
      · rename_i base mark hlookup
        obtain ⟨before, after, hsplit, -⟩ := List.lookup_eq_some_iff.mp hlookup
        have hboth := hparts (c, base, mark) (by rw [hsplit]; simp)
        rcases List.mem_append.mp hd with hd | hd
        · exact ih hboth.1 hd
        · exact List.mem_singleton.mp hd ▸ hboth.2
      · exact List.mem_singleton.mp hd ▸ hc

theorem digit_eq_none : database.digit c = none ↔ c.isDigit = false := by
  change (if c.isDigit = true then some (c.toNat - '0'.toNat) else none) = none ↔ _
  split_ifs with hc
  · simp [hc]
  · simp [hc]

theorem knowsDigits_database : KnowsDigits database where
  toExtends := extends_database
  digit_ascii := fun _ _ => rfl
  alphanumeric_ascii := by
    have hascii : ∀ n < 128, database.alphanumeric (Char.ofNat n) = (Char.ofNat n).isAlphanum := by
      decide +kernel
    exact fun c hc => ascii_forall (P := fun c => database.alphanumeric c = c.isAlphanum) hascii hc
  space_printable := by
    intro c hlow hhigh
    refine decide_eq_false fun hspace => ?_
    have hnone : ([' ', '\t', '\n', '\r', '\u000B', '\u000C', '\u00A0'].all fun d =>
        decide (d < '!') || decide ('~' < d)) = true := by decide
    rcases Bool.or_eq_true_iff.mp (List.all_eq_true.mp hnone c hspace) with hless | hgreater
    · exact absurd hlow (Char.not_le.mpr (of_decide_eq_true hless))
    · exact absurd hhigh (Char.not_le.mpr (of_decide_eq_true hgreater))
  uncased_digit := by
    have hascii : ∀ n < 128, (Char.ofNat n).isDigit = true →
        database.cased (Char.ofNat n) = false ∧ database.caseIgnorable (Char.ofNat n) = false := by
      decide +kernel
    exact fun c hc => ascii_forall (P := fun c => c.isDigit = true → database.cased c = false ∧
      database.caseIgnorable c = false) hascii (isAscii_of_isDigit hc) hc
  digit_letter := by
    intro c hc
    refine digit_eq_none.mpr ?_
    have hascii : ∀ n < 128, isLetter (Char.ofNat n) = true → (Char.ofNat n).isDigit = false := by
      decide +kernel
    by_contra hdigit
    rw [Bool.not_eq_false] at hdigit
    have hnone := ascii_forall (P := fun c => isLetter c = true → c.isDigit = false) hascii
      (isAscii_of_isDigit hdigit) hc
    rw [hdigit] at hnone
    cases hnone
  digit_sigma := by
    have hnone : (['σ', 'ς'].all fun c => (database.digit c).isNone) = true := rfl
    exact fun c hc => Option.isNone_iff_eq_none.mp (List.all_eq_true.mp hnone c hc)
  digit_lower := by
    intro c hc d hd
    have hd : d = lower c := List.mem_singleton.mp hd
    exact digit_eq_none.mpr (hd ▸ isDigit_lower (digit_eq_none.mp hc))
  digit_decompose := fun c hc d hd =>
    digit_eq_none.mpr (isDigit_decomposeUpTo 2 (digit_eq_none.mp hc) hd)

end Vietnamese

end Unicode
