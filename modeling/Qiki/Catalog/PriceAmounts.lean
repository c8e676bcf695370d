import Qiki.Catalog.PrintedPrices
import Qiki.Text.Search

/-! The amounts that the parser of prices reads in a message. -/
namespace Qiki.Catalog

open Unicode Regex Orders Admin

/-! Accents are stripped apart on both sides of a number. -/

theorem stripAccents_boundary {db : Database} {c : Char} (hc : IsBoundary db c c) (hd : c ≠ 'đ')
    (x y : Text) : stripAccents db (x ++ c :: y) = stripAccents db x ++ c :: stripAccents db y := by
  have hletter : ("đ".toList : Text) = ['đ'] := rfl
  have hkeep : Text.replace ['đ'] "d" (c :: lower db y) =
      c :: Text.replace ['đ'] "d" (lower db y) := by
    simp [Text.replace, Text.replaceFrom_singleton, hd]
  rw [stripAccents, stripAccents, stripAccents, hc.lower_append, hletter, Text.replace_append, hkeep,
    hc.nfd_append, List.filter_append,
    List.filter_cons_of_pos (by rw [hc.class_starter]; exact decide_eq_true rfl)]

theorem stripAccents_plain {db : Database} {s : Text} (h : ∀ c ∈ s, IsPlain db c) (hd : 'đ' ∉ s) :
    stripAccents db s = s := by
  have hletter : ("đ".toList : Text) = ['đ'] := rfl
  have hreplace : Text.replace ['đ'] "d" s = s := by
    rw [Text.replace, Text.replaceFrom_singleton]
    have hkeep : ∀ c ∈ s, (if c = 'đ' then ("d".toList : Text) else [c]) = [c] := by
      intro c hc
      refine if_neg fun heq : c = 'đ' => hd ?_
      rwa [← heq]
    rw [List.flatMap_congr hkeep, List.flatMap_singleton']
  rw [stripAccents, hletter, lower_of_plain h, hreplace, nfd_of_plain h]
  exact List.filter_eq_self.mpr fun c hc => decide_eq_true (h c hc).starter

section
variable {db : Database} (h : Vietnamese.KnowsDigits db)
include h

theorem isPlain_shows {v : ℕ} {s : Text} (hs : Shows v s) : ∀ c ∈ s, IsPlain db c := by
  intro c hc
  rcases hs.chars c hc with hdigit | rfl
  · exact h.isPlain_digit hdigit
  · exact h.isPlain rfl rfl

/-- A number in a message keeps the texts around it apart. -/
theorem stripAccents_shows {v : ℕ} {s : Text} (hs : Shows v s) (before after : Text) :
    stripAccents db (before ++ (s ++ after)) =
      stripAccents db before ++ (s ++ stripAccents db after) := by
  obtain ⟨d, rest, hfirst, hd⟩ := hs.first
  obtain ⟨front, e, hlast, he⟩ := hs.last
  have hne {c : Char} (hc : c.isDigit = true) : c ≠ 'đ' := by
    rintro rfl
    revert hc
    decide
  have hplain := isPlain_shows h hs
  have hrest : stripAccents db (rest ++ after) = rest ++ stripAccents db after := by
    rcases List.eq_nil_or_concat' rest with rfl | ⟨middle, c, rfl⟩
    · rfl
    · have hc : c = e := by
        rw [hlast, ← List.cons_append] at hfirst
        simpa using (List.append_inj' hfirst rfl).2.symm
      have hmiddle : ∀ b ∈ middle, IsPlain db b := fun b hb => hplain b (by rw [hfirst]; simp [hb])
      have hletter : 'đ' ∉ middle := by
        intro hmem
        rcases hs.chars 'đ' (by rw [hfirst]; simp [hmem]) with hdigit | hpoint
        · exact hne hdigit rfl
        · revert hpoint
          decide
      rw [hc, List.append_assoc, List.singleton_append,
        stripAccents_boundary (h.isBoundary_digit he) (hne he), stripAccents_plain hmiddle hletter,
        List.append_assoc, List.singleton_append]
  rw [hfirst, List.cons_append, stripAccents_boundary (h.isBoundary_digit hd) (hne hd), hrest,
    List.cons_append]

theorem stripAccents_digit_free {s : Text} (hs : ∀ c ∈ s, db.digit c = none) :
    ∀ c ∈ stripAccents db s, db.digit c = none := by
  have hletter : ("đ".toList : Text) = ['đ'] := rfl
  have hd : db.digit 'd' = none := (h.digit_ascii 'd' rfl).trans rfl
  intro c hc
  have hreplaced : ∀ c ∈ Text.replace ['đ'] "d" (lower db s), db.digit c = none := by
    intro c hc
    rw [Text.replace, Text.replaceFrom_singleton] at hc
    obtain ⟨b, hb, hc⟩ := List.mem_flatMap.mp hc
    split_ifs at hc
    · rw [List.mem_singleton.mp hc]
      exact hd
    · rw [List.mem_singleton.mp hc]
      exact h.lower_digit_free hs b hb
  exact h.nfd_digit_free hreplaced c (List.mem_of_mem_filter hc)

/-- The sign of the currency becomes a letter. -/
theorem stripAccents_sign (s : Text) :
    ∃ rest, stripAccents db ('đ' :: s) = 'd' :: rest ∧ (s = [] → rest = []) := by
  have hletter : ("đ".toList : Text) = ['đ'] := rfl
  have hplain : IsPlain db 'd' := h.isPlain rfl rfl
  have hlower : lower db ('đ' :: s) = 'đ' :: lowerFrom db ['đ'] s := by
    have hcase : db.lower 'đ' = ['đ'] := h.agree.lowerOf 'đ' (by decide +kernel)
    rw [lower, lowerFrom, if_neg (by decide), hcase]
    rfl
  have hreplace : Text.replace ['đ'] "d" ('đ' :: lowerFrom db ['đ'] s) =
      'd' :: Text.replace ['đ'] "d" (lowerFrom db ['đ'] s) := by
    rw [Text.replace, Text.replaceFrom_singleton, List.flatMap_cons, if_pos rfl, Text.replace,
      Text.replaceFrom_singleton]
    rfl
  rw [stripAccents, hletter, hlower, hreplace, hplain.nfd_cons]
  refine ⟨_, List.filter_cons_of_pos (decide_eq_true hplain.starter), ?_⟩
  rintro rfl
  rfl

end

/-! The amounts that are read. -/

/-- `\s*(?:u|...)\b` -/
def unitRe (units : List Text) : Regex :=
  seqOf [star true space, altOf (units.map literal), wordBoundary]

theorem mem_unitRe {m : Mode} (hcase : m.ignoreCase = false) {units : List Text} (hne : units ≠ [])
    (hunits : ∀ u ∈ units, u ≠ []) {k k' : Cursor} : k' ∈ results m (unitRe units) k ↔
    ∃ sp u rest, (∀ c ∈ sp, m.db.space c = true) ∧ u ∈ units ∧ k.rest = sp ++ (u ++ rest) ∧
      (u.getLast?.any m.word != rest.head?.any m.word) = true ∧
      k' = (k.after sp (u ++ rest)).after u rest := by
  have hspaces : Spells m (star true space) fun s => ∀ c ∈ s, m.db.space c = true := by
    refine (Spells.starOneOf true [.space]).congr fun s => ?_
    simp [Mode.matchesClass]
  have hboundary (k : Cursor) (u rest : Text) (hu : u ≠ []) : m.atBoundary (k.after u rest) =
      (u.getLast?.any m.word != rest.head?.any m.word) := by
    obtain ⟨front, c, rfl⟩ := (List.eq_nil_or_concat' u).resolve_left hu
    simp [Mode.atBoundary, Cursor.after]
  have hsplit : unitRe units =
      seq (star true space) (seq (altOf (units.map literal)) wordBoundary) := rfl
  rw [hsplit, hspaces.mem_seq]
  constructor
  · rintro ⟨sp, rest, hsp, hrest, hk'⟩
    obtain ⟨u, rest', hu, hrest', hk'⟩ := (Spells.altOf_literal hcase hne hunits).mem_seq.mp hk'
    obtain ⟨hat, rfl⟩ := mem_results_wordBoundary.mp hk'
    have hrest' : rest = u ++ rest' := hrest'
    rw [hboundary _ _ _ (hunits u hu)] at hat
    exact ⟨sp, u, rest', hsp, hu, by rw [hrest, hrest'], hat, by rw [hrest']⟩
  · rintro ⟨sp, u, rest, hsp, hu, hrest, hat, rfl⟩
    refine ⟨sp, u ++ rest, hsp, hrest, (Spells.altOf_literal hcase hne hunits).mem_seq.mpr ?_⟩
    refine ⟨u, rest, hu, rfl, mem_results_wordBoundary.mpr ⟨?_, rfl⟩⟩
    rwa [hboundary _ _ _ (hunits u hu)]

/-- The text begins and ends with a digit. -/
def DigitEnds (db : Database) (x : Text) : Prop :=
  (∃ d rest, x = d :: rest ∧ (db.digit d).isSome = true) ∧
    ∃ front d, x = front ++ [d] ∧ (db.digit d).isSome = true

def IsDigits (db : Database) (x : Text) : Prop := x ≠ [] ∧ ∀ c ∈ x, (db.digit c).isSome = true

/-- Digits with at most one point or comma between them. -/
def IsAmount (db : Database) (x : Text) : Prop :=
  ∃ a, IsDigits db a ∧ (x = a ∨ ∃ c b, (c = '.' ∨ c = ',') ∧ IsDigits db b ∧ x = a ++ c :: b)

/-- A unit is a word without digits. -/
def IsUnits (units : List Text) : Prop :=
  units ≠ [] ∧ ∀ u ∈ units, u ≠ [] ∧ ∀ c ∈ u, c.isDigit = false ∧ c ≠ '.'

section
variable {db : Database} (h : Vietnamese.KnowsDigits db) {v : ℕ} {before body after : Text}
variable (hs : Shows v body) (hbefore : ∀ c ∈ before, db.digit c = none)
variable (hafter : ∀ c ∈ after, db.digit c = none)
include h hs

theorem space_of_shows {c : Char} (hc : c ∈ body) : db.space c = false := by
  rcases hs.chars c hc with hdigit | rfl
  · have hbounds := Vietnamese.bounds_of_isDigit hdigit
    have hlow : (33 : ℕ) ≤ c.toNat := by omega
    have hhigh : c.toNat ≤ 126 := by omega
    exact h.space_printable c hlow hhigh
  · exact h.space_printable '.' (by decide) (by decide)

theorem isDigit_of_shows {c : Char} (hc : c ∈ body) (hdigit : (db.digit c).isSome = true) :
    c.isDigit = true := by
  rcases hs.chars c hc with hc | rfl
  · exact hc
  · have hpoint : db.digit '.' = none := (h.digit_ascii '.' rfl).trans rfl
    rw [hpoint] at hdigit
    cases hdigit

/-- Neither blanks nor a unit stand within the price. -/
theorem nil_of_unit {units : List Text} (hunits : IsUnits units) {sp u rest g : Text}
    (hsp : ∀ c ∈ sp, db.space c = true) (hu : u ∈ units) (hg : ∀ c ∈ g, c ∈ body)
    (hsplit : sp ++ (u ++ rest) = g ++ after) : g = [] := by
  by_contra hne
  obtain ⟨c, g', rfl⟩ := List.exists_cons_of_ne_nil hne
  have hc : c ∈ body := hg c List.mem_cons_self
  cases sp with
  | cons d sp =>
    have hd : d = c := (List.cons.inj hsplit).1
    have hspace := hsp d List.mem_cons_self
    rw [hd, space_of_shows h hs hc] at hspace
    cases hspace
  | nil =>
    obtain ⟨d, u', rfl⟩ := List.exists_cons_of_ne_nil (hunits.2 u hu).1
    have hd : d = c := (List.cons.inj hsplit).1
    obtain ⟨hdigit, hpoint⟩ := (hunits.2 _ hu).2 d List.mem_cons_self
    rcases hs.chars c hc with hc | hc
    · rw [hd, hc] at hdigit
      cases hdigit
    · exact hpoint (hd.trans hc)

include hbefore hafter

omit h hs in
/-- What the parser reads as a number is a part of the price. -/
theorem window_of_shows {x t z : Text} (hsplit : before ++ (body ++ after) = x ++ (t ++ z))
    (ht : DigitEnds db t) : ∃ f g, x = before ++ f ∧ body = f ++ (t ++ g) ∧ z = g ++ after :=
  exists_window (P := fun c => (db.digit c).isSome = true) hsplit
    (fun c hc => by simp [hbefore c hc]) (fun c hc => by simp [hafter c hc]) ht.1 ht.2

/-- An amount before a unit ends the price, and the unit stands behind it. -/
theorem amount_found {amount : Regex} {p : Text → Prop} {units : List Text} {found : Match}
    (hamount : Spells ⟨db, false⟩ amount p) (hp : ∀ x, p x → DigitEnds db x) (hunits : IsUnits units)
    (hfound : search ⟨db, false⟩ (seq (group 1 amount) (unitRe units))
      (before ++ (body ++ after)) = some found) :
    (∃ f x, body = f ++ x ∧ p x ∧ found.group 1 = some x) ∧
      (matchStart ⟨db, false⟩ (unitRe units) after).isSome = true := by
  obtain ⟨X, Y, ks, hsplit, -, hresults⟩ := exists_of_search hfound
  have hmem : found.stop ∈ results ⟨db, false⟩ (seq (group 1 amount) (unitRe units))
      (.between X Y) := hresults ▸ List.mem_cons_self
  have hne : ∀ u ∈ units, u ≠ [] := fun u hu => (hunits.2 u hu).1
  obtain ⟨x, rest, hx, hY, hstop⟩ := hamount.mem_seq_group.mp hmem
  obtain ⟨sp, u, rest', hsp, hu, hrest, hat, hcursor⟩ := (mem_unitRe rfl hunits.1 hne).mp hstop
  have hY : Y = x ++ rest := hY
  have hrest : rest = sp ++ (u ++ rest') := hrest
  obtain ⟨f, g, -, hbody, hrest'⟩ := window_of_shows hbefore hafter (hY ▸ hsplit) (hp x hx)
  have hg : g = [] := nil_of_unit h hs hunits hsp hu (fun c hc => by rw [hbody]; simp [hc])
    (hrest.symm.trans hrest')
  rw [hg, List.append_nil] at hbody
  rw [hg, List.nil_append] at hrest'
  refine ⟨⟨f, x, hbody, hx, ?_⟩, ?_⟩
  · rw [Match.group, hcursor]
    rfl
  · have hafter' : ∃ k', k' ∈ results ⟨db, false⟩ (unitRe units) ⟨[], after, []⟩ :=
      ⟨_, (mem_unitRe rfl hunits.1 hne).mpr ⟨sp, u, rest', hsp, hu, hrest'.symm.trans hrest, hat, rfl⟩⟩
    rwa [matchStart, matchAt, Option.isSome_map, List.isSome_head?, ← List.isEmpty_eq_false_iff,
      List.isEmpty_eq_false_iff_exists_mem]

end

/-- An amount at the end of the price is found before a unit. -/
theorem amount_behind {db : Database} {amount : Regex} {p : Text → Prop} {units : List Text}
    (hamount : Spells ⟨db, false⟩ amount p) (hunits : IsUnits units) {before f x after : Text}
    (hx : p x) (hunit : (matchStart ⟨db, false⟩ (unitRe units) after).isSome = true) :
    (search ⟨db, false⟩ (seq (group 1 amount) (unitRe units))
      (before ++ ((f ++ x) ++ after))).isSome = true := by
  have hne : ∀ u ∈ units, u ≠ [] := fun u hu => (hunits.2 u hu).1
  rw [matchStart, matchAt, Option.isSome_map, List.isSome_head?, ← List.isEmpty_eq_false_iff,
    List.isEmpty_eq_false_iff_exists_mem] at hunit
  obtain ⟨k', hk'⟩ := hunit
  obtain ⟨sp, u, rest, hsp, hu, hrest, hat, -⟩ := (mem_unitRe rfl hunits.1 hne).mp hk'
  have hread : ∃ k', k' ∈ results ⟨db, false⟩ (unitRe units)
      ((Cursor.between (before ++ f) (x ++ after)).afterGroup 1 x after) :=
    ⟨_, (mem_unitRe rfl hunits.1 hne).mpr ⟨sp, u, rest, hsp, hu, hrest, hat, rfl⟩⟩
  obtain ⟨k'', hk''⟩ := hread
  refine search_isSome.mpr ⟨before ++ f, x ++ after, k'', by simp, ?_⟩
  exact hamount.mem_seq_group.mpr ⟨x, after, hx, rfl, hk''⟩

/-! The number that is read. -/

/-- A number is no power of ten times what ends it. -/
theorem shifted_ne {v a b j c : ℕ} (hc : Nat.Coprime 10 c) (hv : 0 < v) (hb : b < 10 ^ j)
    (hsplit : v = a * 10 ^ j + b) : b * (c + 1) ≠ v := by
  intro heq
  have hmul : b * c = a * 10 ^ j := by
    have hsum : b * c + b = a * 10 ^ j + b := by rw [← hsplit, ← heq, Nat.mul_add, Nat.mul_one]
    omega
  have hdvd : 10 ^ j ∣ b := by
    refine (hc.pow_left j).dvd_of_dvd_mul_right ?_
    rw [hmul]
    exact dvd_mul_left _ a
  have hzero : b = 0 := Nat.eq_zero_of_dvd_of_lt hdvd hb
  rw [hzero, Nat.zero_mul] at heq
  omega

section
variable {db : Database} (h : Vietnamese.KnowsDigits db)
include h

theorem parseDecimal_digits {x : Text} {n : ℕ} (hne : x ≠ []) (hx : ∀ c ∈ x, c.isDigit = true)
    (hn : Text.readDigits 0 x = some n) : parseDecimal db x = some (n : Decimal) := by
  have hall : ∀ c ∈ x, decide (c ≠ '.') = true := fun c hc =>
    decide_eq_true (point_not_digit (hx c hc))
  rw [parseDecimal, List.takeWhile_eq_self_iff.mpr hall, List.dropWhile_eq_nil_iff.mpr hall,
    List.drop_nil, List.append_nil, h.toNat_eq hne hx, hn, List.length_nil]
  simp

theorem parseDecimal_point {x y : Text} {n : ℕ} (hne : x ≠ []) (hx : ∀ c ∈ x, c.isDigit = true)
    (hy : ∀ c ∈ y, c.isDigit = true) (hn : Text.readDigits 0 (x ++ y) = some n) :
    parseDecimal db (x ++ '.' :: y) = some ((n : Decimal) / 10 ^ y.length) := by
  have hall : ∀ c ∈ x, decide (c ≠ '.') = true := fun c hc =>
    decide_eq_true (point_not_digit (hx c hc))
  have htake : (x ++ '.' :: y).takeWhile (fun c => decide (c ≠ '.')) = x := by
    rw [List.takeWhile_append_of_pos hall]
    simp
  have hdrop : (x ++ '.' :: y).dropWhile (fun c => decide (c ≠ '.')) = '.' :: y := by
    rw [List.dropWhile_append_of_pos hall]
    simp
  have hboth : ∀ c ∈ x ++ y, c.isDigit = true := fun c hc =>
    (List.mem_append.mp hc).elim (hx c) (hy c)
  have hne' : x ++ y ≠ [] := by simp [hne]
  rw [parseDecimal, htake, hdrop, List.drop_one, List.tail_cons, h.toNat_eq hne' hboth, hn]
  simp

omit h in
/-- `\d+` -/
theorem spells_digits : Spells ⟨db, false⟩ (plus digit) (IsDigits db) := by
  refine (Spells.plusOneOf [.digit]).congr fun x => ?_
  simp [Mode.matchesClass, IsDigits]

omit h in
/-- `\d+(?:[.,]\d+)?` -/
theorem spells_amount :
    Spells ⟨db, false⟩ (seq (plus digit) (optional (seq pointOrComma (plus digit)))) (IsAmount db) := by
  have hmark : Spells ⟨db, false⟩ pointOrComma fun x => ∃ c, (c = '.' ∨ c = ',') ∧ x = [c] := by
    refine (Spells.oneOf [.char '.', .char ',']).congr fun x => ?_
    simp [Mode.matchesClass, Mode.variants]
  refine (spells_digits.seq (hmark.seq spells_digits).optional).congr fun x => ⟨?_, ?_⟩
  · rintro ⟨a, y, ha, ⟨_, b, ⟨c, hc, rfl⟩, hb, rfl⟩ | rfl, rfl⟩
    · exact ⟨a, ha, Or.inr ⟨c, b, hc, hb, rfl⟩⟩
    · exact ⟨a, ha, Or.inl (List.append_nil a)⟩
  · rintro ⟨a, ha, rfl | ⟨c, b, hc, hb, rfl⟩⟩
    · exact ⟨x, [], ha, Or.inr rfl, (List.append_nil x).symm⟩
    · exact ⟨a, c :: b, ha, Or.inl ⟨[c], b, ⟨c, hc, rfl⟩, hb, rfl⟩, rfl⟩

omit h in
theorem digitEnds_digits {x : Text} (hx : IsDigits db x) : DigitEnds db x := by
  obtain ⟨d, rest, hfirst⟩ := List.exists_cons_of_ne_nil hx.1
  obtain ⟨front, e, hlast⟩ := (List.eq_nil_or_concat' x).resolve_left hx.1
  constructor
  · exact ⟨d, rest, hfirst, hx.2 d (by rw [hfirst]; exact List.mem_cons_self)⟩
  · exact ⟨front, e, hlast, hx.2 e (by rw [hlast]; simp)⟩

variable {v : ℕ} {body : Text} (hv : 0 < v) (hs : Shows v body)
include hv hs

omit h in
/-- The digits at the end of a price, a thousand or a million times, are not the price. -/
theorem ended_ne {f x : Text} (hbody : body = f ++ x) : ∃ n, Text.readDigits 0 (x.filter (· ≠ '.')) =
    some n ∧ (n : Decimal) * 1000 ≠ v ∧ (n : Decimal) * 1000000 ≠ v := by
  have hdigits : Text.ofNat v = f.filter (· ≠ '.') ++ x.filter (· ≠ '.') := by
    rw [← hs.digits, hbody, List.filter_append]
  obtain ⟨a, n, hn, hlt, hsplit⟩ := Text.readDigits_suffix hdigits
  have hthousand : n * 1000 ≠ v := shifted_ne (c := 999) (by decide) hv hlt hsplit
  have hmillion : n * 1000000 ≠ v := shifted_ne (c := 999999) (by decide) hv hlt hsplit
  exact ⟨n, hn, by exact_mod_cast hthousand, by exact_mod_cast hmillion⟩

omit hv in
theorem filter_of_digits {x : Text} (hmem : ∀ c ∈ x, c ∈ body)
    (hx : ∀ c ∈ x, (db.digit c).isSome = true) :
    (∀ c ∈ x, c.isDigit = true) ∧ x.filter (· ≠ '.') = x := by
  have hdigit : ∀ c ∈ x, c.isDigit = true := fun c hc =>
    isDigit_of_shows h hs (hmem c hc) (hx c hc)
  exact ⟨hdigit, List.filter_eq_self.mpr fun c hc => decide_eq_true (point_not_digit (hdigit c hc))⟩

theorem thousand_ne {f x : Text} (hbody : body = f ++ x)
    (hx : IsDigits db x) :
    (parseDecimal db x).map (· * 1000) ≠ some (v : Decimal) := by
  have hmem : ∀ c ∈ x, c ∈ body := fun c hc => hbody ▸ List.mem_append_right f hc
  obtain ⟨hdigits, hfilter⟩ := filter_of_digits h hs hmem hx.2
  obtain ⟨n, hn, hne, -⟩ := ended_ne hv hs hbody
  rw [hfilter] at hn
  rw [parseDecimal_digits h hx.1 hdigits hn, Option.map_some]
  exact fun heq => hne (Option.some.inj heq)

theorem million_ne {f x : Text} (hbody : body = f ++ x) (hx : IsAmount db x) :
    (parseDecimal db (Text.replace "," "." x)).map (· * 1000000) ≠ some (v : Decimal) := by
  have hmem : ∀ c ∈ x, c ∈ body := fun c hc => hbody ▸ List.mem_append_right f hc
  have hcomma : ',' ∉ body := by
    intro hc
    rcases hs.chars ',' hc with hdigit | hpoint
    · revert hdigit
      decide
    · revert hpoint
      decide
  have hreplace : Text.replace "," "." x = x := by
    have hletter : (",".toList : Text) = [','] := rfl
    have hkeep : ∀ c ∈ x, (if c = ',' then (".".toList : Text) else [c]) = [c] := by
      intro c hc
      refine if_neg fun heq : c = ',' => hcomma ?_
      rw [← heq]
      exact hmem c hc
    rw [hletter, Text.replace, Text.replaceFrom_singleton, List.flatMap_congr hkeep,
      List.flatMap_singleton']
  obtain ⟨n, hn, hthousand, hmillion⟩ := ended_ne hv hs hbody
  obtain ⟨a, ha, rfl | ⟨c, b, hc, hb, rfl⟩⟩ := hx
  · obtain ⟨hdigits, hfilter⟩ := filter_of_digits h hs hmem ha.2
    rw [hfilter] at hn
    rw [hreplace, parseDecimal_digits h ha.1 hdigits hn, Option.map_some]
    exact fun heq => hmillion (Option.some.inj heq)
  · have hpoint : c = '.' := hc.resolve_right fun hc => hcomma (hc ▸ hmem c (by simp))
    rw [hpoint] at hbody hn hmem hreplace ⊢
    obtain ⟨hadigits, hafilter⟩ := filter_of_digits h hs (fun c hc => hmem c (by simp [hc])) ha.2
    obtain ⟨hbdigits, hbfilter⟩ := filter_of_digits h hs (fun c hc => hmem c (by simp [hc])) hb.2
    have hnone : '.' ∉ b := fun hc => point_not_digit (hbdigits '.' hc) rfl
    have hthree : b.length = 3 := hs.behind (f ++ a) b (by rw [hbody, List.append_assoc]) hnone
    have hfilter : (a ++ '.' :: b).filter (· ≠ '.') = a ++ b := by
      rw [List.filter_append, hafilter, List.filter_cons_of_neg (by decide), hbfilter]
    rw [hfilter] at hn
    rw [hreplace, parseDecimal_point h ha.1 hadigits hbdigits hn, Option.map_some, hthree]
    intro heq
    refine hthousand ?_
    rw [← Option.some.inj heq]
    ring

end

/-! Grouped digits. -/

/-- `[.\s]\d{3}` -/
def tripleRe : Regex := seq pointOrSpace (times digit 3)

/-- `\d{1,3}(?:[.\s]\d{3})+` -/
def triplesRe : Regex := seq (upToTimes digit 1 2) (plus tripleRe)

def IsTriple (db : Database) (w : Text) : Prop :=
  ∃ c ds, (c = '.' ∨ db.space c = true) ∧ (ds.length = 3 ∧ ∀ d ∈ ds, (db.digit d).isSome = true) ∧
    w = c :: ds

def IsTriples (db : Database) (x : Text) : Prop :=
  ∃ (a w : Text) (l : List Text), ((1 ≤ a.length ∧ a.length ≤ 3) ∧
    ∀ c ∈ a, (db.digit c).isSome = true) ∧ IsTriple db w ∧ (∀ w ∈ l, IsTriple db w) ∧
      x = a ++ (w ++ l.flatten)

section
variable {db : Database}

theorem spells_triple : Spells ⟨db, false⟩ tripleRe (IsTriple db) := by
  have hmark : Spells ⟨db, false⟩ pointOrSpace fun x =>
      ∃ c, (c = '.' ∨ db.space c = true) ∧ x = [c] := by
    refine (Spells.oneOf [.char '.', .space]).congr fun x => ?_
    simp [Mode.matchesClass, Mode.variants]
  have hdigits : Spells ⟨db, false⟩ (times digit 3) fun x =>
      x.length = 3 ∧ ∀ c ∈ x, (db.digit c).isSome = true := by
    refine (Spells.times [.digit] 2).congr fun x => ?_
    simp [Mode.matchesClass]
  refine (hmark.seq hdigits).congr fun w => ⟨?_, ?_⟩
  · rintro ⟨_, ds, ⟨c, hc, rfl⟩, hds, rfl⟩
    exact ⟨c, ds, hc, hds, rfl⟩
  · rintro ⟨c, ds, hc, hds, rfl⟩
    exact ⟨[c], ds, ⟨c, hc, rfl⟩, hds, rfl⟩

theorem spells_triples : Spells ⟨db, false⟩ triplesRe (IsTriples db) := by
  have hfirst : Spells ⟨db, false⟩ (upToTimes digit 1 2) fun x =>
      (1 ≤ x.length ∧ x.length ≤ 3) ∧ ∀ c ∈ x, (db.digit c).isSome = true := by
    refine (Spells.upToTimes [.digit] 0 1).congr fun x => ?_
    simp [Mode.matchesClass]
  have hne : ¬ IsTriple db [] := by
    rintro ⟨c, ds, -, -, hnil⟩
    cases hnil
  refine (hfirst.seq (spells_triple.seq (spells_triple.star hne true))).congr fun x => ⟨?_, ?_⟩
  · rintro ⟨a, _, ha, ⟨w, _, hw, ⟨l, hl, rfl⟩, rfl⟩, rfl⟩
    exact ⟨a, w, l, ha, hw, hl, rfl⟩
  · rintro ⟨a, w, l, ha, hw, hl, rfl⟩
    exact ⟨a, _, ha, ⟨w, _, hw, ⟨l, hl, rfl⟩, rfl⟩, rfl⟩

/-- Grouped digits begin and end with a digit, and they are not all digits. -/
theorem digitEnds_triples {x : Text} (hx : IsTriples db x) :
    DigitEnds db x ∧ ∃ c ∈ x, c = '.' ∨ db.space c = true := by
  obtain ⟨a, w, l, ⟨⟨hlength, -⟩, ha⟩, hw, hl, rfl⟩ := hx
  have hlast {w : Text} (hw : IsTriple db w) :
      ∃ front d, w = front ++ [d] ∧ (db.digit d).isSome = true := by
    obtain ⟨c, ds, -, ⟨hthree, hds⟩, rfl⟩ := hw
    have hne : ds ≠ [] := by
      rw [← List.length_pos_iff]
      omega
    obtain ⟨front, d, rfl⟩ := (List.eq_nil_or_concat' ds).resolve_left hne
    exact ⟨c :: front, d, rfl, hds d (by simp)⟩
  refine ⟨⟨?_, ?_⟩, ?_⟩
  · obtain ⟨d, a', rfl⟩ := List.exists_cons_of_ne_nil (List.length_pos_iff.mp hlength)
    exact ⟨d, _, rfl, ha d List.mem_cons_self⟩
  · rcases List.eq_nil_or_concat' l with rfl | ⟨l', u, rfl⟩
    · obtain ⟨front, d, rfl, hd⟩ := hlast hw
      exact ⟨a ++ front, d, by simp, hd⟩
    · obtain ⟨front, d, rfl, hd⟩ := hlast (hl u (by simp))
      exact ⟨a ++ (w ++ (l'.flatten ++ front)), d, by simp, hd⟩
  · obtain ⟨c, ds, hc, -, rfl⟩ := hw
    exact ⟨c, by simp, hc⟩

variable (hpoint : db.digit '.' = none)

/-- A group behind a point is read in one way. -/
theorem results_triple {k : Cursor} {g rest : Text} (hk : k.rest = ('.' :: g) ++ rest)
    (hlength : g.length = 3) (hg : ∀ c ∈ g, (db.digit c).isSome = true) :
    results ⟨db, false⟩ tripleRe k = [k.after ('.' :: g) rest] := by
  obtain ⟨a, b, c, rfl⟩ := List.length_eq_three.mp hlength
  have ha := hg a (by simp)
  have hb := hg b (by simp)
  have hc := hg c (by simp)
  simp [tripleRe, results, pointOrSpace, times, digit, Mode.matchesClass, Mode.variants, hk, ha, hb, hc,
    Cursor.after]

/-- As many groups as there are come first. -/
theorem iterate_triples {after : Text} (hafter : ∀ c ∈ after, db.digit c = none) {gs : List Text}
    (hgs : ∀ g ∈ gs, g.length = 3 ∧ ∀ c ∈ g, (db.digit c).isSome = true) {n : ℕ} {k : Cursor}
    (hk : k.rest = gs.flatMap ('.' :: ·) ++ after) (hn : k.rest.length ≤ n) :
    ∃ ks, iterate true (results ⟨db, false⟩ tripleRe) n k =
      k.after (gs.flatMap ('.' :: ·)) after :: ks := by
  induction gs generalizing n k with
  | nil =>
    have hend : k.after [] after = k := by
      rw [List.flatMap_nil, List.nil_append] at hk
      rw [← hk, Cursor.after_nil]
    have hnone : results ⟨db, false⟩ tripleRe k = [] := by
      refine List.eq_nil_iff_forall_not_mem.mpr fun k' hk' => ?_
      obtain ⟨_, rest, ⟨c, ds, -, ⟨hthree, hds⟩, rfl⟩, hrest, -⟩ := (spells_triple k k').mp hk'
      obtain ⟨d, ds', rfl⟩ := List.exists_cons_of_ne_nil (l := ds) (by rintro rfl; cases hthree)
      have hd := hds d List.mem_cons_self
      have hmem : d ∈ after := by
        rw [List.flatMap_nil, List.nil_append] at hk
        rw [← hk, hrest]
        simp
      rw [hafter d hmem] at hd
      cases hd
    cases n with
    | zero => exact ⟨[], by rw [iterate, List.flatMap_nil, hend]⟩
    | succ n => exact ⟨[], by rw [iterate, hnone, List.flatMap_nil, if_pos rfl, List.flatMap_nil, hend,
        List.nil_append]⟩
  | cons g gs ih =>
    obtain ⟨⟨hthree, hdigits⟩, hgs⟩ := List.forall_mem_cons.mp hgs
    rw [List.flatMap_cons, List.append_assoc] at hk
    have hone := results_triple hk hthree hdigits
    have hless : (k.after ('.' :: g) (gs.flatMap ('.' :: ·) ++ after)).rest.length <
        k.rest.length := by
      change (gs.flatMap ('.' :: ·) ++ after).length < k.rest.length
      rw [hk, @List.length_append _ ('.' :: g), List.length_cons]
      omega
    cases n with
    | zero => omega
    | succ n =>
      obtain ⟨ks, hks⟩ := ih (n := n) (k := k.after ('.' :: g) (gs.flatMap ('.' :: ·) ++ after)) hgs
        rfl (by omega)
      have hend : (k.after ('.' :: g) (gs.flatMap ('.' :: ·) ++ after)).after
          (gs.flatMap ('.' :: ·)) after = k.after ((g :: gs).flatMap ('.' :: ·)) after := by
        simp [Cursor.after]
      refine ⟨ks ++ [k], ?_⟩
      rw [iterate, hone, List.flatMap_singleton, if_pos rfl, if_pos hless, hks, hend, List.cons_append]

include hpoint

/-- Up to three digits before a point are read together first. -/
theorem results_first {k : Cursor} {g rest : Text} (hk : k.rest = g ++ '.' :: rest) (hne : g ≠ [])
    (hlength : g.length ≤ 3) (hg : ∀ c ∈ g, (db.digit c).isSome = true) :
    ∃ ks, results ⟨db, false⟩ (upToTimes digit 1 2) k = k.after g ('.' :: rest) :: ks := by
  match g, hne, hlength with
  | [a], _, _ =>
    have ha := hg a (by simp)
    exact ⟨[], by simp [upToTimes, upToTimes.optionals, Regex.optional, times, digit, results,
      Mode.matchesClass, hk, ha, hpoint, Cursor.after]⟩
  | [a, b], _, _ =>
    have ha := hg a (by simp)
    have hb := hg b (by simp)
    exact ⟨[k.after [a] (b :: '.' :: rest)], by simp [upToTimes, upToTimes.optionals, Regex.optional, times,
      digit, results, Mode.matchesClass, hk, ha, hb, hpoint, Cursor.after]⟩
  | [a, b, c], _, _ =>
    have ha := hg a (by simp)
    have hb := hg b (by simp)
    have hc := hg c (by simp)
    exact ⟨[k.after [a, b] (c :: '.' :: rest), k.after [a] (b :: c :: '.' :: rest)],
      by simp [upToTimes, upToTimes.optionals, Regex.optional, times, digit, results, Mode.matchesClass, hk,
        ha, hb, hc, Cursor.after]⟩

/-- Grouped digits are read as a whole first. -/
theorem results_triples {k : Cursor} {g after : Text} {gs : List Text}
    (hk : k.rest = pointed g gs ++ after) (hafter : ∀ c ∈ after, db.digit c = none)
    (hne : g ≠ []) (hlength : g.length ≤ 3) (hg : ∀ c ∈ g, (db.digit c).isSome = true)
    (hgs : ∀ g ∈ gs, g.length = 3 ∧ ∀ c ∈ g, (db.digit c).isSome = true) (hmany : gs ≠ []) :
    ∃ ks, results ⟨db, false⟩ triplesRe k = k.after (pointed g gs) after :: ks := by
  obtain ⟨x, gs', rfl⟩ := List.exists_cons_of_ne_nil hmany
  obtain ⟨⟨hthree, hdigits⟩, hgs⟩ := List.forall_mem_cons.mp hgs
  have hrest : k.rest = g ++ '.' :: (x ++ (gs'.flatMap ('.' :: ·) ++ after)) := by
    rw [hk, pointed, List.flatMap_cons]
    simp
  obtain ⟨ks, hks⟩ := results_first hpoint hrest hne hlength hg
  have htriple : results ⟨db, false⟩ tripleRe
      (k.after g ('.' :: (x ++ (gs'.flatMap ('.' :: ·) ++ after)))) = _ :=
    results_triple (g := x) rfl hthree hdigits
  obtain ⟨ks', hks'⟩ := iterate_triples hafter hgs
    (k := (k.after g ('.' :: (x ++ (gs'.flatMap ('.' :: ·) ++ after)))).after ('.' :: x)
      (gs'.flatMap ('.' :: ·) ++ after)) rfl le_rfl
  have hend : ((k.after g ('.' :: (x ++ (gs'.flatMap ('.' :: ·) ++ after)))).after ('.' :: x)
      (gs'.flatMap ('.' :: ·) ++ after)).after (gs'.flatMap ('.' :: ·)) after =
        k.after (pointed g (x :: gs')) after := by
    simp [Cursor.after, pointed]
  have hplus : results ⟨db, false⟩ (plus tripleRe)
      (k.after g ('.' :: (x ++ (gs'.flatMap ('.' :: ·) ++ after)))) =
        k.after (pointed g (x :: gs')) after :: ks' := by
    rw [plus, results, htriple, List.flatMap_singleton, results, hks', hend]
  refine ⟨ks' ++ ks.flatMap (results ⟨db, false⟩ (plus tripleRe)), ?_⟩
  rw [triplesRe, results, hks, List.flatMap_cons, hplus, List.cons_append]

end

/-- From four to seven digits. -/
def IsRun (db : Database) (x : Text) : Prop :=
  (4 ≤ x.length ∧ x.length ≤ 7) ∧ ∀ c ∈ x, (db.digit c).isSome = true

theorem spells_run {db : Database} : Spells ⟨db, false⟩ (upToTimes digit 4 3) (IsRun db) := by
  refine (Spells.upToTimes [.digit] 3 2).congr fun x => ?_
  simp [Mode.matchesClass, IsRun]

theorem digitEnds_run {db : Database} {x : Text} (hx : IsRun db x) : DigitEnds db x := by
  refine digitEnds_digits ⟨?_, hx.2⟩
  rw [← List.length_pos_iff]
  exact (by decide : 0 < 4).trans_le hx.1.1

end Qiki.Catalog
