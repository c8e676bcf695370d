import Qiki.Catalog.PrintedPrices
import Mathlib.Data.Rat.Floor

/-! The amount that a reader takes from a printed price: whole đồng. -/
namespace Qiki.Catalog

open Orders Admin

/-- The amount at the front of a text: the digits before the sign of the currency. -/
def readAmount (sign : Char) (text : Text) : ℤ :=
  let amount := text.takeWhile (· ≠ sign)
  let digits : ℕ := (Text.readDigits 0 (amount.filter Char.isDigit)).getD 0
  if amount.head? = some '-' then -digits else digits

def readVnd (text : Text) : ℤ := readAmount 'đ' text

/-- `int(price)`: the fraction of a đồng is cut off. -/
def truncated (price : Decimal) : ℤ := if price < 0 then -⌊-price⌋ else ⌊price⌋

/-- The amount is a whole number of đồng. -/
def WholeDong (amount : Decimal) : Prop := ∃ n : ℤ, (n : Decimal) = amount

instance (amount : Decimal) : Decidable (WholeDong amount) :=
  decidable_of_iff ((⌊amount⌋ : Decimal) = amount)
    ⟨fun h => ⟨_, h⟩, fun ⟨n, hn⟩ => by rw [← hn, Int.floor_intCast]⟩

theorem shows_groupThousands (v : ℕ) : Shows v (groupThousands (Text.ofNat v)) := by
  obtain ⟨g, gs, hgroups, htext⟩ := groupThousands_groups (Text.ofNat_ne_nil v)
  exact htext ▸ shows_pointed hgroups

/-- Digits and points before the sign of the currency are read as the number they show. -/
theorem readAmount_shows {v : ℕ} {body : Text} (h : Shows v body) {sign : Char}
    (hsign : sign.isDigit = false ∧ sign ≠ '.' ∧ sign ≠ '-') {gap : Text}
    (hgap : ∀ c ∈ gap, c.isDigit = false ∧ c ≠ sign) (after : Text) :
    readAmount sign (body ++ (gap ++ sign :: after)) = v ∧
      readAmount sign ('-' :: (body ++ (gap ++ sign :: after))) = -v := by
  have hchar : ∀ c ∈ body, c ≠ sign := by
    rintro c hc rfl
    rcases h.chars c hc with hd | hd
    · rw [hsign.1] at hd
      cases hd
    · exact hsign.2.1 hd
  have htake : (body ++ (gap ++ sign :: after)).takeWhile (· ≠ sign) = body ++ gap := by
    rw [← List.append_assoc, List.takeWhile_append_of_pos fun c hc => decide_eq_true
      ((List.mem_append.mp hc).elim (hchar c) fun hc => (hgap c hc).2)]
    simp
  have hdigits : (body ++ gap).filter Char.isDigit = Text.ofNat v := by
    have hnone : gap.filter Char.isDigit = [] :=
      List.filter_eq_nil_iff.mpr fun c hc => by rw [(hgap c hc).1]; exact Bool.false_ne_true
    rw [List.filter_append, hnone, List.append_nil, ← h.digits]
    refine List.filter_congr fun c hc => ?_
    rcases h.chars c hc with hd | rfl
    · rw [hd, decide_eq_true (point_not_digit hd)]
    · decide
  have hread : (Text.readDigits 0 ((body ++ gap).filter Char.isDigit)).getD 0 = v := by
    rw [hdigits, Text.readDigits_ofNat, Option.getD_some]
  obtain ⟨d, rest, hfirst, hd⟩ := h.first
  constructor
  · have hplus : (body ++ gap).head? ≠ some '-' := by
      rw [hfirst]
      rintro hc
      cases Option.some.inj hc
      revert hd
      decide
    simp only [readAmount, htake]
    rw [if_neg hplus, hread]
  · have htake' : ('-' :: (body ++ (gap ++ sign :: after))).takeWhile (· ≠ sign) =
        '-' :: (body ++ gap) := by
      rw [List.takeWhile_cons_of_pos (by simpa using hsign.2.2.symm), htake]
    have hfilter : ('-' :: (body ++ gap)).filter Char.isDigit = (body ++ gap).filter Char.isDigit :=
      List.filter_cons_of_neg (by decide)
    simp only [readAmount, htake', hfilter]
    rw [if_pos (by rfl), hread]

/-- A printed price is read without the fraction of a đồng. -/
theorem readVnd_formatVnd (price : Decimal) (after : Text) :
    readVnd (Chat.formatVnd price ++ after) = truncated price := by
  have hsign : ("đ".toList : Text) = ['đ'] := rfl
  have hvnd : 'đ'.isDigit = false ∧ 'đ' ≠ '.' ∧ 'đ' ≠ '-' := by decide
  obtain ⟨hplus, hminus⟩ := readAmount_shows (shows_groupThousands |price|.floor.toNat) hvnd
    (List.forall_mem_nil _) after
  rw [List.nil_append] at hplus hminus
  have hfloor : (|price|.floor.toNat : ℤ) = ⌊|price|⌋ :=
    Int.toNat_of_nonneg (Int.floor_nonneg.mpr (abs_nonneg price))
  unfold Chat.formatVnd truncated
  dsimp only
  rw [groupDigits_reverse, hsign, List.append_assoc, List.append_assoc, List.singleton_append]
  by_cases hneg : price < 0
  · rw [if_pos hneg]
    rw [abs_of_neg hneg] at hfloor hplus hminus ⊢
    by_cases hone : price ≤ -1
    · rw [if_pos hone]
      exact hminus.trans (by rw [hfloor])
    · -- a fraction of a đồng below zero is printed as zero, without a sign
      rw [if_neg hone]
      have hzero : ⌊-price⌋ = 0 := Int.floor_eq_zero_iff.mpr ⟨by linarith, by linarith⟩
      rw [hzero] at hfloor ⊢
      exact hplus.trans (by rw [hfloor]; rfl)
  · rw [if_neg hneg, if_neg (by linarith)]
    rw [abs_of_nonneg (not_lt.mp hneg)] at hfloor hplus ⊢
    exact hplus.trans hfloor

theorem readVnd_formatVnd_self (price : Decimal) :
    readVnd (Chat.formatVnd price) = truncated price := by
  simpa using readVnd_formatVnd price []

theorem truncated_intCast (n : ℤ) : truncated n = n := by
  unfold truncated
  split_ifs with hneg
  · rw [← Int.cast_neg, Int.floor_intCast, neg_neg]
  · exact Int.floor_intCast n

/-- What is read is the price exactly when the price is whole. -/
theorem truncated_eq_iff {price : Decimal} : (truncated price : Decimal) = price ↔ WholeDong price := by
  constructor
  · intro h
    exact ⟨_, h⟩
  · rintro ⟨n, rfl⟩
    rw [truncated_intCast]

theorem WholeDong.add {x y : Decimal} (hx : WholeDong x) (hy : WholeDong y) :
    WholeDong (x + y) := by
  obtain ⟨m, rfl⟩ := hx
  obtain ⟨n, rfl⟩ := hy
  exact ⟨m + n, Int.cast_add m n⟩

theorem WholeDong.sum {xs : List Decimal} (h : ∀ x ∈ xs, WholeDong x) : WholeDong xs.sum := by
  induction xs with
  | nil => exact ⟨0, Int.cast_zero⟩
  | cons x xs ih =>
    obtain ⟨hx, hxs⟩ := List.forall_mem_cons.mp h
    rw [List.sum_cons]
    exact hx.add (ih hxs)

theorem WholeDong.mul_natCast {x : Decimal} (h : WholeDong x) (k : ℕ) : WholeDong (x * k) := by
  obtain ⟨n, rfl⟩ := h
  exact ⟨n * k, by push_cast; rfl⟩

theorem truncated_of_nonneg {price : Decimal} (h : 0 ≤ price) : truncated price = ⌊price⌋ :=
  if_neg (not_lt.mpr h)

end Qiki.Catalog
