import Qiki.Admin.Chat
import Qiki.Chat.Products
import Qiki.Text.Digits

/-! How a price is printed: its digits, in groups of three with points, and with the sign of the
currency. -/
namespace Qiki.Catalog

open Orders Admin

/-- A text that shows the digits of a number, in groups of three behind each point. -/
structure Shows (v : ℕ) (s : Text) : Prop where
  chars : ∀ c ∈ s, c.isDigit = true ∨ c = '.'
  digits : s.filter (· ≠ '.') = Text.ofNat v
  first : ∃ d rest, s = d :: rest ∧ d.isDigit = true
  last : ∃ front d, s = front ++ [d] ∧ d.isDigit = true
  behind : ∀ x y, s = x ++ '.' :: y → '.' ∉ y → y.length = 3

/-- The groups of digits: up to three, then three by three. -/
structure Groups (digits g : Text) (gs : List Text) : Prop where
  digits : digits = g ++ gs.flatten
  ne_nil : g ≠ []
  length : g.length ≤ 3
  three : ∀ h ∈ gs, h.length = 3

/-- The groups with a point before each but the first. -/
def pointed (g : Text) (gs : List Text) : Text := g ++ gs.flatMap ('.' :: ·)

theorem groupThousands_groups {digits : Text} (hne : digits ≠ []) :
    ∃ g gs, Groups digits g gs ∧ groupThousands digits = pointed g gs := by
  induction digits using groupThousands.induct with
  | case1 digits hshort =>
    refine ⟨digits, [], ⟨by simp, hne, hshort, List.forall_mem_nil _⟩, ?_⟩
    rw [groupThousands, if_pos hshort, pointed, List.flatMap_nil, List.append_nil]
  | case2 digits hlong ih =>
    have htake : digits.take (digits.length - 3) ≠ [] := by
      rw [← List.length_pos_iff, List.length_take]
      omega
    obtain ⟨g, gs, hgroups, htext⟩ := ih htake
    have hlast : (digits.drop (digits.length - 3)).length = 3 := by
      rw [List.length_drop]
      omega
    refine ⟨g, gs ++ [digits.drop (digits.length - 3)], ⟨?_, hgroups.ne_nil, hgroups.length, ?_⟩, ?_⟩
    · rw [List.flatten_append, List.flatten_singleton, ← List.append_assoc, ← hgroups.digits,
        List.take_append_drop]
    · intro h hh
      rcases List.mem_append.mp hh with hh | hh
      · exact hgroups.three h hh
      · exact List.mem_singleton.mp hh ▸ hlast
    · have hpoint : (".".toList : Text) = ['.'] := rfl
      rw [groupThousands, if_neg hlong, htext, hpoint, pointed, pointed, List.flatMap_append,
        List.flatMap_singleton, List.append_assoc, List.append_assoc, List.singleton_append]

theorem groupDigits_short {digits : Text} (h : digits.length ≤ 3) :
    Chat.groupDigits digits = digits := by
  match digits, h with
  | [], _ => rfl
  | [_], _ => rfl
  | [_, _], _ => rfl
  | [_, _, _], _ => rfl

/-- Grouping from the last digit on gives the same text. -/
theorem groupDigits_reverse (digits : Text) :
    (Chat.groupDigits digits.reverse).reverse = groupThousands digits := by
  induction digits using groupThousands.induct with
  | case1 digits hshort =>
    have hlength : digits.reverse.length ≤ 3 := by rwa [List.length_reverse]
    rw [groupThousands, if_pos hshort, groupDigits_short hlength, List.reverse_reverse]
  | case2 digits hlong ih =>
    have hlast : ∃ a b c, digits.drop (digits.length - 3) = [a, b, c] := by
      rw [← List.length_eq_three, List.length_drop]
      omega
    obtain ⟨a, b, c, habc⟩ := hlast
    have hsplit : digits = digits.take (digits.length - 3) ++ [a, b, c] := by
      rw [← habc, List.take_append_drop]
    have hfront : ∃ d rest, (digits.take (digits.length - 3)).reverse = d :: rest := by
      refine List.exists_cons_of_ne_nil ?_
      rw [← List.length_pos_iff, List.length_reverse, List.length_take]
      omega
    obtain ⟨d, rest, hd⟩ := hfront
    have hreverse : digits.reverse = c :: b :: a :: d :: rest := by
      rw [hsplit, List.reverse_append, hd]
      rfl
    rw [groupThousands, if_neg hlong, ← ih, habc, hreverse, hd, Chat.groupDigits]
    simp

/-! A printed number shows its digits. -/

theorem point_not_digit {c : Char} (hc : c.isDigit = true) : c ≠ '.' := by
  rintro rfl
  revert hc
  decide

theorem shows_ofNat (v : ℕ) : Shows v (Text.ofNat v) := by
  have hdigit (c : Char) (hc : c ∈ Text.ofNat v) : c.isDigit = true := Text.isDigit_of_mem_ofNat hc
  obtain ⟨d, rest, hfirst⟩ := List.exists_cons_of_ne_nil (Text.ofNat_ne_nil v)
  obtain ⟨front, e, hlast⟩ := (List.eq_nil_or_concat' _).resolve_left (Text.ofNat_ne_nil v)
  constructor
  · exact fun c hc => Or.inl (hdigit c hc)
  · exact List.filter_eq_self.mpr fun c hc => decide_eq_true (point_not_digit (hdigit c hc))
  · exact ⟨d, rest, hfirst, hdigit d (by rw [hfirst]; exact List.mem_cons_self)⟩
  · exact ⟨front, e, hlast, hdigit e (by rw [hlast]; simp)⟩
  · intro x y hsplit
    exact absurd rfl (point_not_digit (hdigit '.' (by rw [hsplit]; simp)))

theorem shows_pointed {v : ℕ} {g : Text} {gs : List Text} (h : Groups (Text.ofNat v) g gs) :
    Shows v (pointed g gs) := by
  have hdigit (c : Char) (hc : c ∈ g ++ gs.flatten) : c.isDigit = true :=
    Text.isDigit_of_mem_ofNat (h.digits ▸ hc)
  have hpoint (c : Char) (hc : c ∈ g ++ gs.flatten) : decide (c ≠ '.') = true :=
    decide_eq_true (point_not_digit (hdigit c hc))
  have hgroups : (gs.flatMap ('.' :: ·)).filter (· ≠ '.') = gs.flatten := by
    have hgs : ∀ x ∈ gs, ∀ c ∈ x, decide (c ≠ '.') = true := fun x hx c hc =>
      hpoint c (List.mem_append_right g (List.mem_flatten.mpr ⟨x, hx, hc⟩))
    clear hdigit hpoint h
    induction gs with
    | nil => rfl
    | cons x gs ih =>
      obtain ⟨hx, hrest⟩ := List.forall_mem_cons.mp hgs
      have hpoints : List.filter (fun c : Char => decide (c ≠ '.')) ['.'] = [] := rfl
      rw [List.flatMap_cons, List.filter_append, ih hrest, List.flatten_cons, ← List.singleton_append,
        List.filter_append, hpoints, List.nil_append, List.filter_eq_self.mpr hx]
  -- the last group, if there are several
  have hlast : gs = [] ∨ ∃ front x, gs = front ++ [x] ∧
      pointed g gs = (g ++ front.flatMap ('.' :: ·)) ++ '.' :: x := by
    rcases List.eq_nil_or_concat' gs with hnil | ⟨front, x, hgs⟩
    · exact Or.inl hnil
    · right
      refine ⟨front, x, hgs, ?_⟩
      rw [hgs, pointed, List.flatMap_append, List.flatMap_singleton, List.append_assoc]
  constructor
  · intro c hc
    rcases List.mem_append.mp hc with hc | hc
    · exact Or.inl (hdigit c (List.mem_append_left _ hc))
    · obtain ⟨x, hx, hc⟩ := List.mem_flatMap.mp hc
      rcases List.mem_cons.mp hc with hc | hc
      · exact Or.inr hc
      · exact Or.inl (hdigit c (List.mem_append_right g (List.mem_flatten.mpr ⟨x, hx, hc⟩)))
  · rw [pointed, List.filter_append, hgroups, h.digits,
      List.filter_eq_self.mpr fun c hc => hpoint c (List.mem_append_left _ hc)]
  · obtain ⟨d, rest, hg⟩ := List.exists_cons_of_ne_nil h.ne_nil
    exact ⟨d, rest ++ gs.flatMap ('.' :: ·), by rw [pointed, hg]; rfl, hdigit d (by rw [hg]; simp)⟩
  · rcases hlast with hnil | ⟨front, x, hgs, htext⟩
    · obtain ⟨y, d, hg⟩ := (List.eq_nil_or_concat' g).resolve_left h.ne_nil
      refine ⟨y, d, ?_, hdigit d (by rw [hg]; simp)⟩
      rw [pointed, hnil, List.flatMap_nil, List.append_nil, hg]
    · have hx : x ≠ [] := by
        have hthree := h.three x (by rw [hgs]; simp)
        rw [← List.length_pos_iff]
        omega
      obtain ⟨y, d, hxy⟩ := (List.eq_nil_or_concat' x).resolve_left hx
      refine ⟨(g ++ front.flatMap ('.' :: ·)) ++ '.' :: y, d, ?_, hdigit d ?_⟩
      · rw [htext, hxy]
        simp
      · rw [hgs, hxy]
        simp
  · intro x y hsplit hy
    rcases hlast with hnil | ⟨front, z, hgs, htext⟩
    · rw [pointed, hnil, List.flatMap_nil, List.append_nil] at hsplit
      exact absurd rfl (point_not_digit (hdigit '.' (by rw [hsplit]; simp)))
    · have hz : '.' ∉ z := by
        intro hmem
        refine point_not_digit (hdigit '.' ?_) rfl
        rw [hgs]
        simp [hmem]
      have hreverse : y.reverse ++ '.' :: x.reverse =
          z.reverse ++ '.' :: (g ++ front.flatMap ('.' :: ·)).reverse := by
        have heq := congrArg List.reverse (hsplit.symm.trans htext)
        simpa using heq
      have hyz := (Text.append_separator_inj (by simpa using hy) (by simpa using hz) hreverse).1
      have heq : y = z := List.reverse_injective hyz
      rw [heq]
      exact h.three z (by rw [hgs]; simp)

theorem floor_natCast (v : ℕ) : (v : Decimal).floor = v := Rat.floor_intCast v

theorem chat_formatVnd_natCast (v : ℕ) :
    Chat.formatVnd v = groupThousands (Text.ofNat v) ++ ['đ'] := by
  have hfloor : |(v : Decimal)|.floor.toNat = v := by
    rw [abs_of_nonneg (Nat.cast_nonneg v), floor_natCast, Int.toNat_natCast]
  have hpos : ¬ (v : Decimal) ≤ -1 := by
    have hnonneg : (0 : Decimal) ≤ v := Nat.cast_nonneg v
    linarith
  have hsign : ("đ".toList : Text) = ['đ'] := rfl
  rw [Chat.formatVnd, hfloor, if_neg hpos, groupDigits_reverse, hsign]
  rfl

theorem admin_formatVnd_natCast (v : ℕ) :
    Admin.formatVnd v = groupThousands (Text.ofNat v) ++ ['đ'] := by
  have hpos : ¬ (v : Decimal) < 0 := not_lt.mpr (Nat.cast_nonneg v)
  have hwhole : ¬ ((v : ℤ) < 0) := by omega
  have hsign : ("đ".toList : Text) = ['đ'] := rfl
  rw [Admin.formatVnd, if_neg hpos, floor_natCast, if_neg hwhole, Int.natAbs_natCast, hsign]
  rfl

end Qiki.Catalog
