import Qiki.Catalog.PriceAmounts

/-! A price that stands in a message, and when it is read as this price. -/
namespace Qiki.Catalog

open Unicode Regex Orders Admin

/-! The price in its message. -/

def millionUnits : List Text := ["tr", "trieu"]

def thousandUnits : List Text := ["k", "nghin", "ngan"]

/-- No word character stands beside the price, and no unit behind it. -/
structure Apart (db : Database) (before after : Text) : Prop where
  left : before.getLast?.any (Mode.word ⟨db, false⟩) = false
  right : after.head?.any (Mode.word ⟨db, false⟩) = false
  million : matchStart ⟨db, false⟩ (unitRe millionUnits) after = none
  thousand : matchStart ⟨db, false⟩ (unitRe thousandUnits) after = none

theorem isUnits_of_all {units : List Text} (h : (!units.isEmpty && units.all fun u =>
    !u.isEmpty && u.all fun c => !c.isDigit && c != '.') = true) : IsUnits units := by
  simpa [IsUnits] using h

theorem isUnits_million : IsUnits millionUnits := isUnits_of_all (by decide)

theorem isUnits_thousand : IsUnits thousandUnits := isUnits_of_all (by decide)

section
variable {db : Database} (h : Vietnamese.KnowsDigits db) {v : ℕ} {before body after : Text}
variable (hbefore : ∀ c ∈ before, db.digit c = none) (hafter : ∀ c ∈ after, db.digit c = none)

section
include hbefore hafter

/-- What is found between word boundaries is a part of the price. -/
theorem bounded_found {a : Regex} {p : Text → Prop} {found : Match} (ha : Spells ⟨db, false⟩ a p)
    (hp : ∀ x, p x → DigitEnds db x)
    (hfound : search ⟨db, false⟩ (seqOf [wordBoundary, group 1 a, wordBoundary])
      (before ++ (body ++ after)) = some found) : ∃ f x g, body = f ++ (x ++ g) ∧ p x ∧
        found.group 1 = some x ∧
        Mode.atBoundary ⟨db, false⟩ (.between (before ++ f) (x ++ (g ++ after))) = true ∧
        Mode.atBoundary ⟨db, false⟩ (.between (before ++ (f ++ x)) (g ++ after)) = true := by
  obtain ⟨X, Y, ks, hsplit, -, hresults⟩ := exists_of_search hfound
  have hmem : found.stop ∈ results ⟨db, false⟩ (seqOf [wordBoundary, group 1 a, wordBoundary])
      (.between X Y) := hresults ▸ List.mem_cons_self
  obtain ⟨hleft, x, rest, hx, hY, hright, hstop⟩ := (mem_bounded ha).mp hmem
  have hY : Y = x ++ rest := hY
  obtain ⟨f, g, hX, hbody, hrest⟩ := window_of_shows hbefore hafter (hY ▸ hsplit) (hp x hx)
  refine ⟨f, x, g, hbody, hx, by rw [Match.group, hstop]; rfl, ?_, ?_⟩
  · rwa [hX, hY, hrest] at hleft
  · have hcursor : (Cursor.between X Y).after x rest = .between (before ++ (f ++ x)) (g ++ after) := by
      simp [Cursor.after, Cursor.between, hX, hrest]
    rwa [hcursor] at hright

/-- Nothing is found before the price. -/
theorem bounded_first {a : Regex} {p : Text → Prop} {k' : Cursor} {ks : List Cursor}
    (ha : Spells ⟨db, false⟩ a p) (hp : ∀ x, p x → DigitEnds db x)
    (hresults : results ⟨db, false⟩ (seqOf [wordBoundary, group 1 a, wordBoundary])
      (.between before (body ++ after)) = k' :: ks) :
    search ⟨db, false⟩ (seqOf [wordBoundary, group 1 a, wordBoundary]) (before ++ (body ++ after)) =
      some ⟨.between before (body ++ after), k'⟩ := by
  refine search_first hresults fun X Y hsplit hlength => ?_
  refine List.eq_nil_iff_forall_not_mem.mpr fun j hj => ?_
  obtain ⟨-, x, rest, hx, hY, -, -⟩ := (mem_bounded ha).mp hj
  have hY : Y = x ++ rest := hY
  obtain ⟨f, g, hX, -, -⟩ := window_of_shows hbefore hafter (hY ▸ hsplit) (hp x hx)
  rw [hX, List.length_append] at hlength
  omega

end

include h

theorem word_digit {c : Char} (hc : c.isDigit = true) : Mode.word ⟨db, false⟩ c = true := by
  have halphanum : c.isAlphanum = true := by rw [Char.isAlphanum, hc, Bool.or_true]
  rw [Mode.word, h.alphanumeric_ascii c (Vietnamese.isAscii_of_isDigit hc), halphanum, Bool.true_or]

/-- Only the whole price has its value. -/
theorem whole_of_value (hv : 0 < v) (hs : Shows v body) {f x g : Text} (hbody : body = f ++ (x ++ g))
    (hx : DigitEnds db x) (hvalue : parseDecimal db (x.filter (· ≠ '.')) = some (v : Decimal)) :
    f = [] ∧ g = [] := by
  have hdigits : Text.ofNat v = f.filter (· ≠ '.') ++ (x.filter (· ≠ '.') ++ g.filter (· ≠ '.')) := by
    rw [← hs.digits, hbody, List.filter_append, List.filter_append]
  have hall : ∀ c ∈ x.filter (· ≠ '.'), c.isDigit = true := fun c hc =>
    Text.isDigit_of_mem_ofNat (hdigits ▸ List.mem_append_right _ (List.mem_append_left _ hc))
  have hne : x.filter (· ≠ '.') ≠ [] := by
    obtain ⟨⟨d, rest, hfirst, hd⟩, -⟩ := hx
    have hdigit := isDigit_of_shows h hs (by rw [hbody, hfirst]; simp) hd
    have hmem : d ∈ x.filter (· ≠ '.') :=
      List.mem_filter.mpr ⟨by rw [hfirst]; simp, decide_eq_true (point_not_digit hdigit)⟩
    exact List.ne_nil_of_mem hmem
  obtain ⟨b, -, hread⟩ := Text.exists_readDigits hall
  rw [parseDecimal_digits h hne hall (hread 0)] at hvalue
  have hb : 0 * 10 ^ (x.filter (· ≠ '.')).length + b = v := by exact_mod_cast Option.some.inj hvalue
  obtain ⟨hf, hg⟩ := Text.eq_ofNat_of_readDigits hv hdigits (hb ▸ hread 0)
  constructor
  · by_contra hfne
    obtain ⟨c, f', rfl⟩ := List.exists_cons_of_ne_nil hfne
    obtain ⟨d, rest, hfirst, hd⟩ := hs.first
    have hc : c = d := by
      rw [hfirst, List.cons_append] at hbody
      exact (List.cons.inj hbody).1.symm
    have hmem : c ∈ (c :: f').filter (· ≠ '.') :=
      List.mem_filter.mpr ⟨List.mem_cons_self, decide_eq_true (point_not_digit (hc ▸ hd))⟩
    rw [hf] at hmem
    cases hmem
  · by_contra hgne
    obtain ⟨g', c, rfl⟩ := (List.eq_nil_or_concat' g).resolve_left hgne
    obtain ⟨front, d, hlast, hd⟩ := hs.last
    have hc : c = d := by
      rw [hlast, ← List.append_assoc, ← List.append_assoc] at hbody
      simpa using (List.append_inj' hbody rfl).2.symm
    have hmem : c ∈ (g' ++ [c]).filter (· ≠ '.') :=
      List.mem_filter.mpr ⟨by simp, decide_eq_true (point_not_digit (hc ▸ hd))⟩
    rw [hg] at hmem
    cases hmem

section
variable (hv : 0 < v) (hs : Shows v body)
include hbefore hafter hs

/-- An amount before a unit is read exactly when the unit stands behind the price. -/
theorem firstGroup_eq_none_iff {amount : Regex} {p : Text → Prop} {units : List Text}
    (hamount : Spells ⟨db, false⟩ amount p) (hp : ∀ x, p x → DigitEnds db x)
    (hone : ∀ d, (db.digit d).isSome = true → p [d]) (hunits : IsUnits units) :
    firstGroup db (seq (group 1 amount) (unitRe units)) (before ++ (body ++ after)) = none ↔
      matchStart ⟨db, false⟩ (unitRe units) after = none := by
  constructor
  · intro hnone
    by_contra hunit
    obtain ⟨front, d, hlast, hd⟩ := hs.last
    have hdigit : (db.digit d).isSome = true := by rw [h.digit_of_isDigit hd]; rfl
    have hsome : (search ⟨db, false⟩ (seq (group 1 amount) (unitRe units))
        (before ++ ((front ++ [d]) ++ after))).isSome = true :=
      amount_behind hamount hunits (hone d hdigit) (Option.isSome_iff_ne_none.mpr hunit)
    rw [← hlast] at hsome
    obtain ⟨found, hfound⟩ := Option.isSome_iff_exists.mp hsome
    obtain ⟨⟨f, x, -, -, hgroup⟩, -⟩ := amount_found h hs hbefore hafter hamount hp hunits hfound
    rw [firstGroup, hfound, Option.bind_some, hgroup] at hnone
    cases hnone
  · intro hnone
    cases hsearch : search ⟨db, false⟩ (seq (group 1 amount) (unitRe units))
        (before ++ (body ++ after)) with
    | none => rw [firstGroup, hsearch, Option.bind_none]
    | some found =>
      have hunit := (amount_found h hs hbefore hafter hamount hp hunits hsearch).2
      rw [hnone] at hunit
      cases hunit

omit h hbefore hafter hs in
theorem digitEnds_amount {x : Text} (hx : IsAmount db x) : DigitEnds db x := by
  obtain ⟨a, ha, rfl | ⟨c, b, -, hb, rfl⟩⟩ := hx
  · exact digitEnds_digits ha
  · obtain ⟨⟨d, rest, rfl, hd⟩, -⟩ := digitEnds_digits ha
    obtain ⟨-, front, e, rfl, he⟩ := digitEnds_digits hb
    exact ⟨⟨d, _, rfl, hd⟩, d :: rest ++ c :: front, e, by simp, he⟩

omit h hbefore hafter hs in
theorem isDigits_singleton {d : Char} (hd : (db.digit d).isSome = true) : IsDigits db [d] :=
  ⟨List.cons_ne_nil d [], fun _ hc => List.mem_singleton.mp hc ▸ hd⟩

theorem million_eq_none_iff : firstGroup db millionRe (before ++ (body ++ after)) = none ↔
    matchStart ⟨db, false⟩ (unitRe millionUnits) after = none :=
  firstGroup_eq_none_iff h hbefore hafter hs spells_amount (fun _ hx => digitEnds_amount hx)
    (fun _ hd => ⟨_, isDigits_singleton hd, Or.inl rfl⟩) isUnits_million

theorem thousand_eq_none_iff : firstGroup db thousandRe (before ++ (body ++ after)) = none ↔
    matchStart ⟨db, false⟩ (unitRe thousandUnits) after = none :=
  firstGroup_eq_none_iff h hbefore hafter hs spells_digits (fun _ hx => digitEnds_digits hx)
    (fun _ hd => isDigits_singleton hd) isUnits_thousand

include hv

/-- An amount with a unit is not the price. -/
theorem million_value_ne {amount : Text}
    (hgroup : firstGroup db millionRe (before ++ (body ++ after)) = some amount) :
    (parseDecimal db (Text.replace "," "." amount)).map (· * 1000000) ≠ some (v : Decimal) := by
  obtain ⟨found, hfound, hgroup⟩ := Option.bind_eq_some_iff.mp hgroup
  obtain ⟨⟨f, x, hbody, hx, hgroup'⟩, -⟩ := amount_found h hs hbefore hafter spells_amount
    (fun _ hx => digitEnds_amount hx) isUnits_million hfound
  obtain rfl := Option.some.inj (hgroup.symm.trans hgroup')
  exact million_ne h hv hs hbody hx

theorem thousand_value_ne {amount : Text}
    (hgroup : firstGroup db thousandRe (before ++ (body ++ after)) = some amount) :
    (parseDecimal db amount).map (· * 1000) ≠ some (v : Decimal) := by
  obtain ⟨found, hfound, hgroup⟩ := Option.bind_eq_some_iff.mp hgroup
  obtain ⟨⟨f, x, hbody, hx, hgroup'⟩, -⟩ := amount_found h hs hbefore hafter spells_digits
    (fun _ hx => digitEnds_digits hx) isUnits_thousand hfound
  obtain rfl := Option.some.inj (hgroup.symm.trans hgroup')
  exact thousand_ne h hv hs hbody hx

omit hbefore hafter hv in
/-- The whole price between word boundaries has no word character beside it. -/
theorem apart_of_boundaries {x : Text} (hbody : body = x)
    (hleft : Mode.atBoundary ⟨db, false⟩ (.between before (x ++ after)) = true)
    (hright : Mode.atBoundary ⟨db, false⟩ (.between (before ++ x) after) = true) :
    before.getLast?.any (Mode.word ⟨db, false⟩) = false ∧
      after.head?.any (Mode.word ⟨db, false⟩) = false := by
  subst hbody
  constructor
  · obtain ⟨d, rest, hfirst, hd⟩ := hs.first
    rw [atBoundary_between, hfirst, List.cons_append, List.head?_cons, Option.any_some,
      word_digit h hd] at hleft
    simpa using hleft
  · obtain ⟨front, d, hlast, hd⟩ := hs.last
    rw [atBoundary_between, hlast, ← List.append_assoc, List.getLast?_concat, Option.any_some,
      word_digit h hd] at hright
    simpa using hright

/-- A price that is read is read as a whole, with nothing beside it. -/
theorem parse_whole {text : Text} (htext : stripAccents db text = before ++ (body ++ after))
    (hparse : parsePriceValue db text = some (v : Decimal)) :
    Apart db before after ∧ ('.' ∈ body ∨ body.length ≤ 7) := by
  rw [parsePriceValue, htext] at hparse
  cases hmillion : firstGroup db millionRe (before ++ (body ++ after)) with
  | some amount =>
    rw [hmillion] at hparse
    exact absurd hparse (million_value_ne h hbefore hafter hv hs hmillion)
  | none =>
  cases hthousand : firstGroup db thousandRe (before ++ (body ++ after)) with
  | some amount =>
    rw [hmillion, hthousand] at hparse
    exact absurd hparse (thousand_value_ne h hbefore hafter hv hs hthousand)
  | none =>
  have hmillion' := (million_eq_none_iff h hbefore hafter hs).mp hmillion
  have hthousand' := (thousand_eq_none_iff h hbefore hafter hs).mp hthousand
  rw [hmillion, hthousand] at hparse
  dsimp only at hparse
  have hwhole {x f g : Text} (hbody : body = f ++ (x ++ g)) (hx : DigitEnds db x)
      (hleft : Mode.atBoundary ⟨db, false⟩ (.between (before ++ f) (x ++ (g ++ after))) = true)
      (hright : Mode.atBoundary ⟨db, false⟩ (.between (before ++ (f ++ x)) (g ++ after)) = true)
      (hvalue : parseDecimal db (x.filter (· ≠ '.')) = some (v : Decimal)) :
      body = x ∧ Apart db before after := by
    obtain ⟨rfl, rfl⟩ := whole_of_value h hv hs hbody hx hvalue
    simp only [List.append_nil, List.nil_append] at hbody hleft hright
    obtain ⟨hl, hr⟩ := apart_of_boundaries h hs hbody hleft hright
    exact ⟨hbody, hl, hr, hmillion', hthousand'⟩
  cases hgrouped : firstGroup db groupedRe (before ++ (body ++ after)) with
  | some amount =>
    rw [hgrouped] at hparse
    dsimp only at hparse
    obtain ⟨found, hfound, hgroup⟩ := Option.bind_eq_some_iff.mp hgrouped
    obtain ⟨f, x, g, hbody, hx, hgroup', hleft, hright⟩ := bounded_found hbefore hafter spells_triples
      (fun _ hx => (digitEnds_triples hx).1) hfound
    obtain rfl := Option.some.inj (hgroup.symm.trans hgroup')
    obtain ⟨hends, c, hc, hmark⟩ := digitEnds_triples hx
    have hmem : ∀ c ∈ amount, c ∈ body := fun c hc => by rw [hbody]; simp [hc]
    have hfilter : amount.filter (fun c => c ≠ '.' && !db.space c) = amount.filter (· ≠ '.') := by
      refine List.filter_congr fun c hc => ?_
      rw [space_of_shows h hs (hmem c hc), Bool.not_false, Bool.and_true]
    rw [hfilter] at hparse
    obtain ⟨rfl, hapart⟩ := hwhole hbody hends hleft hright hparse
    refine ⟨hapart, Or.inl ?_⟩
    rcases hmark with rfl | hspace
    · exact hc
    · rw [space_of_shows h hs hc] at hspace
      cases hspace
  | none =>
    rw [hgrouped] at hparse
    dsimp only at hparse
    cases hbare : firstGroup db bareRe (before ++ (body ++ after)) with
    | none =>
      rw [hbare] at hparse
      cases hparse
    | some amount =>
      rw [hbare] at hparse
      dsimp only at hparse
      obtain ⟨found, hfound, hgroup⟩ := Option.bind_eq_some_iff.mp hbare
      obtain ⟨f, x, g, hbody, hx, hgroup', hleft, hright⟩ := bounded_found hbefore hafter spells_run
        (fun _ hx => digitEnds_run hx) hfound
      obtain rfl := Option.some.inj (hgroup.symm.trans hgroup')
      have hmem : ∀ c ∈ amount, c ∈ body := fun c hc => by rw [hbody]; simp [hc]
      have hfilter := (filter_of_digits h hs hmem hx.2).2
      rw [← hfilter] at hparse
      obtain ⟨rfl, hapart⟩ := hwhole hbody (digitEnds_run hx) hleft hright hparse
      exact ⟨hapart, Or.inr hx.1.2⟩

omit hbefore hafter hv in
theorem boundaries_of_apart (hapart : Apart db before after) :
    Mode.atBoundary ⟨db, false⟩ (.between before (body ++ after)) = true ∧
      Mode.atBoundary ⟨db, false⟩ (.between (before ++ body) after) = true := by
  obtain ⟨d, rest, hfirst, hd⟩ := hs.first
  obtain ⟨front, e, hlast, he⟩ := hs.last
  constructor
  · rw [atBoundary_between, hapart.left, hfirst, List.cons_append, List.head?_cons, Option.any_some,
      word_digit h hd]
    rfl
  · rw [atBoundary_between, hapart.right, hlast, ← List.append_assoc, List.getLast?_concat,
      Option.any_some, word_digit h he]
    rfl

omit hv in
/-- Four to seven digits apart from words and units are read. -/
theorem parse_plain {text : Text} (htext : stripAccents db text = before ++ (body ++ after))
    (hplain : '.' ∉ body) (hlow : 4 ≤ body.length) (hhigh : body.length ≤ 7)
    (hapart : Apart db before after) : parsePriceValue db text = some (v : Decimal) := by
  have hdigits : ∀ c ∈ body, c.isDigit = true := fun c hc =>
    (hs.chars c hc).resolve_right fun hpoint => hplain (hpoint ▸ hc)
  have hrun : IsRun db body :=
    ⟨⟨hlow, hhigh⟩, fun c hc => by rw [h.digit_of_isDigit (hdigits c hc)]; rfl⟩
  obtain ⟨hleft, hright⟩ := boundaries_of_apart h hs hapart
  have hgrouped : firstGroup db groupedRe (before ++ (body ++ after)) = none := by
    rw [firstGroup, Option.bind_eq_none_iff]
    intro found hfound
    obtain ⟨f, x, g, hbody, hx, -⟩ := bounded_found hbefore hafter spells_triples
      (fun _ hx => (digitEnds_triples hx).1) hfound
    obtain ⟨-, c, hc, hmark⟩ := digitEnds_triples hx
    have hmem : c ∈ body := by rw [hbody]; simp [hc]
    rcases hmark with rfl | hspace
    · exact absurd hmem hplain
    · rw [space_of_shows h hs hmem] at hspace
      cases hspace
  have hbare : firstGroup db bareRe (before ++ (body ++ after)) = some body := by
    have hsome : ∃ k', k' ∈ results ⟨db, false⟩ bareRe (.between before (body ++ after)) := by
      refine ⟨_, (mem_bounded spells_run).mpr ⟨hleft, body, after, hrun, rfl, ?_, rfl⟩⟩
      rw [← hright]
      simp [Cursor.after, Cursor.between]
    cases hresults : results ⟨db, false⟩ bareRe (.between before (body ++ after)) with
    | nil =>
      obtain ⟨k', hk'⟩ := hsome
      rw [hresults] at hk'
      cases hk'
    | cons k' ks =>
      obtain ⟨-, x, rest, hx, hsplit, hend, hk'⟩ := (mem_bounded spells_run).mp
        (hresults ▸ List.mem_cons_self : k' ∈ results ⟨db, false⟩ bareRe _)
      have hsplit : body ++ after = x ++ rest := hsplit
      obtain ⟨f, g, hf, hbody, hrest⟩ := window_of_shows hbefore hafter
        (congrArg (before ++ ·) hsplit) (digitEnds_run hx)
      have hf : f = [] := by simpa using hf
      rw [hf, List.nil_append] at hbody
      -- the digits do not end before the price does
      have hg : g = [] := by
        by_contra hne
        obtain ⟨c, g', rfl⟩ := List.exists_cons_of_ne_nil hne
        obtain ⟨-, front, e, rfl, he⟩ := digitEnds_run hx
        have hc := word_digit h (hdigits c (by rw [hbody]; simp))
        have he := word_digit h (hdigits e (by rw [hbody]; simp))
        have hcursor : (Cursor.between before (body ++ after)).after (front ++ [e]) rest =
            .between (before ++ (front ++ [e])) (c :: (g' ++ after)) := by
          rw [hrest]
          simp [Cursor.after, Cursor.between]
        rw [hcursor, atBoundary_between, ← List.append_assoc, List.getLast?_concat, Option.any_some,
          List.head?_cons, Option.any_some, hc, he] at hend
        cases hend
      rw [hg, List.append_nil] at hbody
      rw [firstGroup, bareRe, bounded_first hbefore hafter spells_run (fun _ hx => digitEnds_run hx)
        hresults, Option.bind_some, Match.group, hk', hbody]
      rfl
  have hnumber : Text.readDigits 0 body = some v := by
    have hall : body.filter (· ≠ '.') = body :=
      List.filter_eq_self.mpr fun c hc => decide_eq_true (point_not_digit (hdigits c hc))
    rw [← hall, hs.digits, Text.readDigits_ofNat]
  rw [parsePriceValue, htext, (million_eq_none_iff h hbefore hafter hs).mpr hapart.million,
    (thousand_eq_none_iff h hbefore hafter hs).mpr hapart.thousand, hgrouped, hbare]
  refine parseDecimal_digits h ?_ hdigits hnumber
  rw [← List.length_pos_iff]
  omega

end

/-- Grouped digits apart from words and units are read. -/
theorem parse_pointed {g : Text} {gs : List Text} (hgroups : Groups (Text.ofNat v) g gs)
    (hmany : gs ≠ []) {text : Text}
    (htext : stripAccents db text = before ++ (pointed g gs ++ after))
    (hafter : ∀ c ∈ after, db.digit c = none) (hbefore : ∀ c ∈ before, db.digit c = none)
    (hapart : Apart db before after) : parsePriceValue db text = some (v : Decimal) := by
  have hs := shows_pointed hgroups
  have hdigit (c : Char) (hc : c ∈ g ++ gs.flatten) : c.isDigit = true :=
    Text.isDigit_of_mem_ofNat (hgroups.digits ▸ hc)
  have hsome (c : Char) (hc : c ∈ g ++ gs.flatten) : (db.digit c).isSome = true := by
    rw [h.digit_of_isDigit (hdigit c hc)]
    rfl
  obtain ⟨hleft, hright⟩ := boundaries_of_apart h hs hapart
  have hpoint : db.digit '.' = none := (h.digit_ascii '.' rfl).trans rfl
  obtain ⟨ks, hks⟩ := results_triples hpoint (k := .between before (pointed g gs ++ after)) rfl hafter
    hgroups.ne_nil hgroups.length (fun c hc => hsome c (List.mem_append_left _ hc))
    (fun x hx => ⟨hgroups.three x hx, fun c hc =>
      hsome c (List.mem_append_right g (List.mem_flatten.mpr ⟨x, hx, hc⟩))⟩) hmany
  have hcursor : (Cursor.between before (pointed g gs ++ after)).after (pointed g gs) after =
      .between (before ++ pointed g gs) after := by
    simp [Cursor.after, Cursor.between]
  obtain ⟨ks', hresults⟩ := results_bounded (n := 1) hks rfl hleft (hcursor ▸ hright)
  have hgrouped : firstGroup db groupedRe (before ++ (pointed g gs ++ after)) =
      some (pointed g gs) := by
    have hsearch := bounded_first hbefore hafter spells_triples
      (fun _ hx => (digitEnds_triples hx).1) hresults
    have hre : groupedRe = seqOf [wordBoundary, group 1 triplesRe, wordBoundary] := rfl
    rw [firstGroup, hre, hsearch]
    rfl
  have hnumber : (pointed g gs).filter (fun c => c ≠ '.' && !db.space c) = Text.ofNat v := by
    rw [← hs.digits]
    refine List.filter_congr fun c hc => ?_
    rw [space_of_shows h hs hc, Bool.not_false, Bool.and_true]
  rw [parsePriceValue, htext, (million_eq_none_iff h hbefore hafter hs).mpr hapart.million,
    (thousand_eq_none_iff h hbefore hafter hs).mpr hapart.thousand, hgrouped]
  dsimp only
  rw [hnumber]
  exact parseDecimal_digits h (Text.ofNat_ne_nil v) (fun c hc => Text.isDigit_of_mem_ofNat hc)
    (Text.readDigits_ofNat v)

end

end Qiki.Catalog
