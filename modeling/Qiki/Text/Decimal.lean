import Qiki.Text.Basic
import Mathlib.Algebra.Order.Group.Nat
import Mathlib.Data.List.Basic
import Mathlib.Tactic.Ring

/-! Decimal numerals: what is printed of a number is read back as this number. -/
namespace Text

/-- The value of an ASCII digit. -/
def asciiDigit (c : Char) : Option ℕ := if c.isDigit then some (c.toNat - 48) else none

/-- `str(z)` -/
def ofInt (z : ℤ) : Text := if z < 0 then '-' :: ofNat z.natAbs else ofNat z.natAbs

/-- The format spec `0<width>d` on the digits of a number. -/
def padZeros (width : ℕ) (digits : Text) : Text :=
  List.replicate (width - digits.length) '0' ++ digits

theorem asciiDigit_digitChar {d : ℕ} (h : d < 10) : asciiDigit d.digitChar = some d := by
  have hdigit : d.digitChar.isDigit = true := by simp [h]
  rw [asciiDigit, if_pos hdigit, Nat.toNat_digitChar_sub_48_of_lt_ten h]

/-- Reading on, after the digits that gave `n`. -/
def readDigits (n : ℕ) (s : Text) : Option ℕ :=
  s.foldl (fun n c => do return 10 * (← n) + (← asciiDigit c)) (some n)

theorem toNat_eq {s : Text} (h : s ≠ []) : toNat asciiDigit s = readDigits 0 s := by
  rw [toNat, if_neg (by simpa using h), readDigits]

theorem readDigits_digitChar {n d : ℕ} (h : d < 10) :
    readDigits n [d.digitChar] = some (10 * n + d) := by
  simp only [readDigits, List.foldl_cons, List.foldl_nil, asciiDigit_digitChar h]
  rfl

theorem readDigits_append {n m : ℕ} {s t : Text} (h : readDigits n s = some m) :
    readDigits n (s ++ t) = readDigits m t := by
  unfold readDigits at h ⊢
  rw [List.foldl_append, h]

theorem readDigits_zeros (k : ℕ) : readDigits 0 (List.replicate k '0') = some 0 := by
  induction k with
  | zero => rfl
  | succ k ih =>
    have hzero : readDigits 0 ['0'] = some 0 := rfl
    rw [List.replicate_succ, ← List.singleton_append, readDigits_append hzero, ih]

theorem readDigits_ofNat (n : ℕ) : readDigits 0 (ofNat n) = some n := by
  induction n using Nat.strongRecOn with
  | ind n ih =>
    unfold ofNat
    rw [Nat.toDigits_eq_if (by decide)]
    split_ifs with hn
    · rw [readDigits_digitChar hn, Nat.mul_zero, Nat.zero_add]
    · have hrest := ih (n / 10) (Nat.div_lt_self (by omega) (by decide))
      unfold ofNat at hrest
      rw [readDigits_append hrest, readDigits_digitChar (Nat.mod_lt n (by decide)),
        Nat.div_add_mod]

theorem ofNat_ne_nil (n : ℕ) : ofNat n ≠ [] :=
  List.ne_nil_of_length_pos Nat.length_toDigits_pos

theorem ofNat_injective {m n : ℕ} (h : ofNat m = ofNat n) : m = n := by
  have hm := readDigits_ofNat m
  rw [h, readDigits_ofNat n] at hm
  exact (Option.some.inj hm).symm

theorem isDigit_of_mem_ofNat {n : ℕ} {c : Char} (h : c ∈ ofNat n) : c.isDigit = true :=
  Nat.isDigit_of_mem_toDigits (by decide) (by decide) h

/-- Digits shift what was read before them, and add a number of their own. -/
theorem exists_readDigits {t : Text} (h : ∀ c ∈ t, c.isDigit = true) :
    ∃ b < 10 ^ t.length, ∀ n, readDigits n t = some (n * 10 ^ t.length + b) := by
  induction t with
  | nil => exact ⟨0, by decide, fun n => by simp [readDigits]⟩
  | cons c t ih =>
    obtain ⟨b, hb, hread⟩ := ih fun d hd => h d (List.mem_cons_of_mem c hd)
    have hc := h c List.mem_cons_self
    have hd : c.toNat - 48 < 10 := by
      have hbounds : 48 ≤ c.val ∧ c.val ≤ 57 := by simpa [Char.isDigit] using hc
      have hle : c.toNat ≤ 57 := hbounds.2
      omega
    refine ⟨(c.toNat - 48) * 10 ^ t.length + b, ?_, fun n => ?_⟩
    · rw [List.length_cons, Nat.pow_succ]
      have hle : (c.toNat - 48) * 10 ^ t.length ≤ 9 * 10 ^ t.length :=
        Nat.mul_le_mul_right _ (by omega)
      omega
    · have hstep : readDigits n (c :: t) = readDigits (10 * n + (c.toNat - 48)) t := by
        simp [readDigits, asciiDigit, hc]
      rw [hstep, hread, List.length_cons, Nat.pow_succ]
      congr 1
      ring

/-- The last digits of a number are what is left of it by a power of ten. -/
theorem readDigits_suffix {n : ℕ} {u t : Text} (h : ofNat n = u ++ t) :
    ∃ a b, readDigits 0 t = some b ∧ b < 10 ^ t.length ∧ n = a * 10 ^ t.length + b := by
  have hdigits (c : Char) (hc : c ∈ u ++ t) : c.isDigit = true := isDigit_of_mem_ofNat (h ▸ hc)
  obtain ⟨a, -, ha⟩ := exists_readDigits fun c hc => hdigits c (List.mem_append_left t hc)
  obtain ⟨b, hb, hread⟩ := exists_readDigits fun c hc => hdigits c (List.mem_append_right u hc)
  refine ⟨a, b, by rw [hread, Nat.zero_mul, Nat.zero_add], hb, ?_⟩
  have hwhole := readDigits_ofNat n
  rw [h, readDigits_append ((ha 0).trans (by rw [Nat.zero_mul, Nat.zero_add])), hread] at hwhole
  exact (Option.some.inj hwhole).symm

/-- Only all the digits of a number are read as this number. -/
theorem eq_ofNat_of_readDigits {n : ℕ} {u t w : Text} (hn : 0 < n) (h : ofNat n = u ++ (t ++ w))
    (hread : readDigits 0 t = some n) : u = [] ∧ w = [] := by
  have hdigits (c : Char) (hc : c ∈ t) : c.isDigit = true :=
    isDigit_of_mem_ofNat (h ▸ List.mem_append_right u (List.mem_append_left w hc))
  obtain ⟨b, hb, hall⟩ := exists_readDigits hdigits
  have heq : n = b := by
    rw [hall 0, Nat.zero_mul, Nat.zero_add] at hread
    exact (Option.some.inj hread).symm
  have hpos : 0 < t.length := by
    rw [List.length_pos_iff]
    rintro rfl
    rw [List.length_nil, Nat.pow_zero] at hb
    omega
  have hle : (ofNat n).length ≤ t.length :=
    (Nat.length_toDigits_le_iff (by decide) hpos).mpr (heq ▸ hb)
  rw [h, List.length_append, List.length_append] at hle
  exact ⟨List.length_eq_zero_iff.mp (by omega), List.length_eq_zero_iff.mp (by omega)⟩

/-- Leading zeros do not change the number that is read. -/
theorem toNat_padZeros (width n : ℕ) : toNat asciiDigit (padZeros width (ofNat n)) = some n := by
  rw [toNat_eq (by simp [padZeros, ofNat_ne_nil]), padZeros, readDigits_append (readDigits_zeros _),
    readDigits_ofNat]

theorem isDigit_of_mem_padZeros {width n : ℕ} {c : Char} (h : c ∈ padZeros width (ofNat n)) :
    c.isDigit = true := by
  rcases List.mem_append.mp h with h | h
  · rw [(List.mem_replicate.mp h).2]
    rfl
  · exact isDigit_of_mem_ofNat h

theorem padZeros_ne_nil (width n : ℕ) : padZeros width (ofNat n) ≠ [] := by
  simp [padZeros, ofNat_ne_nil]

theorem ofInt_injective {y z : ℤ} (h : ofInt y = ofInt z) : y = z := by
  have hminus (n : ℕ) (t : Text) : '-' :: t ≠ ofNat n := by
    intro heq
    have hdigit := isDigit_of_mem_ofNat (heq ▸ List.mem_cons_self : '-' ∈ ofNat n)
    revert hdigit
    decide
  unfold ofInt at h
  split_ifs at h with hy hz hz
  · have habs := ofNat_injective (List.cons.inj h).2
    omega
  · exact absurd h (hminus _ _)
  · exact absurd h.symm (hminus _ _)
  · have habs := ofNat_injective h
    omega

/-- A numeral has no separator in it. -/
theorem colon_not_mem_ofInt (z : ℤ) : ':' ∉ ofInt z := by
  have hdigits (n : ℕ) : ':' ∉ ofNat n := by
    intro h
    have hdigit := isDigit_of_mem_ofNat h
    revert hdigit
    decide
  unfold ofInt
  split_ifs
  · simp [hdigits]
  · exact hdigits _

/-- A text splits in one way at the first occurrence of a separator. -/
theorem append_separator_inj {c : Char} {x x' y y' : Text} (hx : c ∉ x) (hx' : c ∉ x')
    (h : x ++ c :: y = x' ++ c :: y') : x = x' ∧ y = y' := by
  induction x generalizing x' with
  | nil =>
    cases x' with
    | nil => exact ⟨rfl, (List.cons.inj h).2⟩
    | cons d x' =>
      have hd : c = d := (List.cons.inj h).1
      exact absurd (hd ▸ List.mem_cons_self) hx'
  | cons d x ih =>
    cases x' with
    | nil =>
      have hd : d = c := (List.cons.inj h).1
      exact absurd (hd ▸ List.mem_cons_self) hx
    | cons d' x' =>
      obtain ⟨rfl, htail⟩ := List.cons.inj h
      obtain ⟨rfl, hy⟩ := ih (fun hm => hx (List.mem_cons_of_mem _ hm))
        (fun hm => hx' (List.mem_cons_of_mem _ hm)) htail
      exact ⟨rfl, hy⟩

end Text
