import Qiki.Catalog.ParsedPrices

/-! A price is printed, written into a message and parsed again. -/
namespace Qiki.Catalog

open Unicode Regex Orders Admin

inductive PriceForm
  | plain | grouped
  /-- What the chat and the admin chat print. -/
  | chatVnd | adminVnd
  deriving DecidableEq, Repr

def PriceForm.text (form : PriceForm) (v : ℕ) : Text :=
  match form with
  | .plain => Text.ofNat v
  | .grouped => groupThousands (Text.ofNat v)
  | .chatVnd => Chat.formatVnd v
  | .adminVnd => Admin.formatVnd v

/-- Whether the parser reads a price in this form at all. -/
def PriceForm.Readable (form : PriceForm) (v : ℕ) : Prop :=
  match form with
  | .plain => v < 10 ^ 7
  | .grouped => True
  | .chatVnd => False
  | .adminVnd => False

section
variable {db : Database} (h : Vietnamese.KnowsDigits db) {v : ℕ} {before after : Text}
variable (hv : 1000 ≤ v)

section
include hv

theorem length_ofNat : 4 ≤ (Text.ofNat v).length := by
  by_contra hlt
  have hless := (Nat.length_toDigits_le_iff (b := 10) (n := v) (by decide) (by decide : 0 < 3)).mp
    (Nat.le_of_lt_succ (not_le.mp hlt))
  omega

/-- A price has more than one group. -/
theorem exists_groups : ∃ g gs, Groups (Text.ofNat v) g gs ∧ gs ≠ [] ∧
    groupThousands (Text.ofNat v) = pointed g gs := by
  obtain ⟨g, gs, hgroups, htext⟩ := groupThousands_groups (Text.ofNat_ne_nil v)
  refine ⟨g, gs, hgroups, ?_, htext⟩
  rintro rfl
  have hdigits := hgroups.digits
  have hlength := length_ofNat hv
  rw [List.flatten_nil, List.append_nil] at hdigits
  rw [hdigits] at hlength
  have hshort := hgroups.length
  omega

end

variable (hbefore : ∀ c ∈ before, db.digit c = none) (hafter : ∀ c ∈ after, db.digit c = none)
include h hv hbefore hafter

theorem parse_plain_iff :
    parsePriceValue db (before ++ (Text.ofNat v ++ after)) = some (v : Decimal) ↔
      v < 10 ^ 7 ∧ Apart db (stripAccents db before) (stripAccents db after) := by
  have hs := shows_ofNat v
  have htext := stripAccents_shows h hs before after
  have hb := stripAccents_digit_free h hbefore
  have ha := stripAccents_digit_free h hafter
  have hplain : '.' ∉ Text.ofNat v := fun hpoint =>
    point_not_digit (Text.isDigit_of_mem_ofNat hpoint) rfl
  have hseven : (Text.ofNat v).length ≤ 7 ↔ v < 10 ^ 7 :=
    Nat.length_toDigits_le_iff (by decide) (by decide)
  constructor
  · intro hparse
    obtain ⟨hapart, hlength⟩ := parse_whole h hb ha (by omega) hs htext hparse
    exact ⟨hseven.mp (hlength.resolve_left hplain), hapart⟩
  · rintro ⟨hlt, hapart⟩
    exact parse_plain h hb ha hs htext hplain (length_ofNat hv) (hseven.mpr hlt) hapart

theorem parse_grouped_iff :
    parsePriceValue db (before ++ (groupThousands (Text.ofNat v) ++ after)) = some (v : Decimal) ↔
      Apart db (stripAccents db before) (stripAccents db after) := by
  obtain ⟨g, gs, hgroups, hmany, hpointed⟩ := exists_groups hv
  have hs := shows_pointed hgroups
  have htext := stripAccents_shows h hs before after
  have hb := stripAccents_digit_free h hbefore
  have ha := stripAccents_digit_free h hafter
  rw [hpointed]
  constructor
  · exact fun hparse => (parse_whole h hb ha (by omega) hs htext hparse).1
  · exact fun hapart => parse_pointed h hgroups hmany htext ha hb hapart

omit hv hbefore in
theorem sign_digit_free : ∀ c ∈ 'đ' :: after, db.digit c = none :=
  List.forall_mem_cons.mpr ⟨h.digit_letter 'đ' (by decide +kernel), hafter⟩

omit hv hbefore hafter in
/-- The sign of the currency is a word character beside the price. -/
theorem not_apart_sign {x y : Text} (hy : ∃ rest, y = 'd' :: rest) : ¬ Apart db x y := by
  intro hapart
  obtain ⟨rest, rfl⟩ := hy
  have hright := hapart.right
  have hword : Mode.word ⟨db, false⟩ 'd' = true := by
    rw [Mode.word, h.alphanumeric_ascii 'd' rfl]
    rfl
  rw [List.head?_cons, Option.any_some, hword] at hright
  cases hright

theorem parse_form_iff (form : PriceForm) :
    parsePriceValue db (before ++ (form.text v ++ after)) = some (v : Decimal) ↔
      form.Readable v ∧ Apart db (stripAccents db before) (stripAccents db after) := by
  have hprinted : parsePriceValue db (before ++ ((groupThousands (Text.ofNat v) ++ ['đ']) ++ after)) ≠
      some (v : Decimal) := by
    intro hparse
    rw [List.append_assoc, List.singleton_append,
      parse_grouped_iff h hv hbefore (sign_digit_free h hafter)] at hparse
    obtain ⟨rest, hrest, -⟩ := stripAccents_sign h after
    exact not_apart_sign h ⟨rest, hrest⟩ hparse
  cases form with
  | plain => exact parse_plain_iff h hv hbefore hafter
  | grouped => exact (parse_grouped_iff h hv hbefore hafter).trans (and_iff_right trivial).symm
  | chatVnd =>
    rw [PriceForm.text, chat_formatVnd_natCast]
    exact iff_of_false hprinted fun hboth => hboth.1
  | adminVnd =>
    rw [PriceForm.text, admin_formatVnd_natCast]
    exact iff_of_false hprinted fun hboth => hboth.1

end

/-! The price in an instruction. -/

section
variable {db : Database} (h : Vietnamese.KnowsDigits db) {v : ℕ} {before body after : Text}
include h

/-- A price with no size behind it is no size token. -/
theorem search_sizeToken (hs : Shows v body) (hbefore : ∀ c ∈ before, db.digit c = none)
    (hafter : ∀ c ∈ after, db.digit c = none) {units : List Text} (hunits : IsUnits units)
    (hnone : ∀ sp u rest, (∀ c ∈ sp, db.space c = true) → u ∈ units → after ≠ sp ++ (u ++ rest)) :
    search ⟨db, false⟩ (sizeTokenRe units) (before ++ (body ++ after)) = none := by
  have hne : ∀ u ∈ units, u ≠ [] := fun u hu => (hunits.2 u hu).1
  refine search_eq_none.mpr fun x y hsplit => List.eq_nil_iff_forall_not_mem.mpr fun k' hk' => ?_
  have hre : sizeTokenRe units = seq wordBoundary (seq (plus digit) (unitRe units)) := rfl
  rw [hre, mem_seq_wordBoundary, spells_digits.mem_seq] at hk'
  obtain ⟨-, t, rest, ht, hy, hk'⟩ := hk'
  obtain ⟨sp, u, rest', hsp, hu, hrest, -, -⟩ := (mem_unitRe rfl hunits.1 hne).mp hk'
  have hy : y = t ++ rest := hy
  have hrest : rest = sp ++ (u ++ rest') := hrest
  obtain ⟨f, g, -, hbody, hrest'⟩ := window_of_shows hbefore hafter (hy ▸ hsplit)
    (digitEnds_digits ht)
  have hg : g = [] := nil_of_unit h hs hunits hsp hu (fun c hc => by rw [hbody]; simp [hc])
    (hrest.symm.trans hrest')
  rw [hg, List.nil_append] at hrest'
  exact hnone sp u rest' hsp hu (hrest'.symm.trans hrest)

theorem stripAccents_gia (s : Text) : stripAccents db ("giá ".toList ++ s) =
    "gia".toList ++ ' ' :: stripAccents db s := by
  have hsplit : ("giá ".toList : Text) ++ s = "giá".toList ++ ' ' :: s := rfl
  have hsigma : Vietnamese.isKnown 'Σ' = false := by decide +kernel
  have hlower : lower db "giá" = "giá".toList :=
    (h.agree.lower_eq hsigma (by decide +kernel)).trans (by decide +kernel)
  have hreplace : Text.replace "đ" "d" "giá" = "giá".toList := by decide +kernel
  have hnfd := h.agree.nfd_eq (s := "giá") (by decide +kernel) (by decide +kernel)
  have hplain : stripAccents db "giá" = "gia".toList := by
    rw [stripAccents, hlower, hreplace, hnfd.1]
    have hclasses : ∀ c ∈ nfd Vietnamese.database "giá",
        decide (db.combiningClass c = 0) = decide (Vietnamese.combiningClass c = 0) := by
      intro c hc
      rw [h.agree.classOf c (List.all_eq_true.mp hnfd.2 c hc)]
      rfl
    rw [List.filter_congr hclasses]
    decide +kernel
  rw [hsplit, stripAccents_boundary h.isBoundary_space (by decide), hplain]

theorem hasWord_gia (s : Text) : hasWord db ("gia".toList ++ ' ' :: s) "gia" = true := by
  have hword (c : Char) (hc : Vietnamese.isAscii c = true) :
      Mode.word ⟨db, false⟩ c = (c.isAlphanum || c == '_') := by
    rw [Mode.word, h.alphanumeric_ascii c hc]
  have hg : Mode.word ⟨db, false⟩ 'g' = true := hword 'g' rfl
  have ha : Mode.word ⟨db, false⟩ 'a' = true := hword 'a' rfl
  have hblank : Mode.word ⟨db, false⟩ ' ' = false := hword ' ' rfl
  have hre : seqOf [wordBoundary, literal ("gia".toList), wordBoundary] =
      seq wordBoundary (seq (literal ("gia".toList)) wordBoundary) := rfl
  have hspells : Spells ⟨db, false⟩ (literal ("gia".toList)) (· = "gia".toList) :=
    Spells.literal rfl 'g' ['i', 'a']
  have hmem : ∃ k', k' ∈ results ⟨db, false⟩ (seqOf [wordBoundary, literal ("gia".toList),
      wordBoundary]) (.between [] ("gia".toList ++ ' ' :: s)) := by
    refine ⟨_, hre ▸ mem_seq_wordBoundary.mpr ⟨?_, hspells.mem_seq.mpr ⟨"gia".toList, ' ' :: s, rfl,
      rfl, mem_results_wordBoundary.mpr ⟨?_, rfl⟩⟩⟩⟩
    · change (false != Mode.word ⟨db, false⟩ 'g') = true
      rw [hg]
      rfl
    · change (Mode.word ⟨db, false⟩ 'a' != Mode.word ⟨db, false⟩ ' ') = true
      rw [ha, hblank]
      rfl
  obtain ⟨k', hk'⟩ := hmem
  refine search_isSome.mpr ⟨[], "gia".toList ++ ' ' :: s, k', rfl, hk'⟩

omit h in
/-- With a price word in it, an instruction sets the price that is read. -/
theorem parseAdminInstruction_iff {text : Text} {value : Decimal}
    (hword : hasAnyWord db (stripAccents db text) priceWords = true) :
    parseAdminInstruction db text = some { action := .updatePrice, priceValue := some value } ↔
      parsePriceValue db (stripSizeTokens db (stripAccents db text)) = some value := by
  rw [parseAdminInstruction]
  cases hprice : parsePriceValue db (stripSizeTokens db (stripAccents db text)) with
  | some read => simp [priceCommand, hword, hprice]
  | none =>
    refine iff_of_false ?_ (by simp)
    rw [priceCommand, if_pos hword, hprice, Option.map_none, Option.none_or]
    intro hcommand
    rcases Option.or_eq_some_iff.mp hcommand with hstock | ⟨-, hactive⟩
    · rw [stockCommand] at hstock
      split_ifs at hstock
      obtain ⟨read, -, hread⟩ := Option.map_eq_some_iff.mp hstock
      exact absurd (congrArg ParsedInstruction.action hread) (by simp)
    · rw [activeCommand] at hactive
      split_ifs at hactive
      · exact absurd (congrArg ParsedInstruction.action (Option.some.inj hactive)) (by simp)
      · exact absurd (congrArg ParsedInstruction.action (Option.some.inj hactive)) (by simp)

theorem instruction_digit_free {middle : Text} (hmiddle : ∀ c ∈ middle, db.digit c = none) :
    ∀ c ∈ "giá ".toList ++ middle, db.digit c = none := by
  have hletters : ("giá ".toList.all fun c => Vietnamese.isAscii c && (Text.asciiDigit c).isNone ||
      Vietnamese.isLetter c) = true := by decide +kernel
  intro c hc
  rcases List.mem_append.mp hc with hc | hc
  · rcases Bool.or_eq_true_iff.mp (List.all_eq_true.mp hletters c hc) with hplain | hletter
    · obtain ⟨hascii, hnone⟩ := Bool.and_eq_true_iff.mp hplain
      rw [h.digit_ascii c hascii, Option.isNone_iff_eq_none.mp hnone]
    · exact h.digit_letter c hletter
  · exact hmiddle c hc

/-- The message of an instruction reaches the parser of prices with its accents stripped. -/
theorem parse_instruction {middle sign : Text} (hs : Shows v body)
    (hmiddle : ∀ c ∈ middle, db.digit c = none) (hsign : sign = [] ∨ sign = ['đ']) :
    parseAdminInstruction db ("giá ".toList ++ (middle ++ (body ++ sign))) =
        some { action := .updatePrice, priceValue := some (v : Decimal) } ↔
      parsePriceValue db (stripAccents db ("giá ".toList ++ middle) ++
        (body ++ stripAccents db sign)) = some (v : Decimal) := by
  have hafter : stripAccents db sign = [] ∨ stripAccents db sign = ['d'] := by
    rcases hsign with rfl | rfl
    · exact Or.inl rfl
    · obtain ⟨rest, hrest, hnil⟩ := stripAccents_sign h []
      rw [hnil rfl] at hrest
      exact Or.inr hrest
  have htext : stripAccents db ("giá ".toList ++ (middle ++ (body ++ sign))) =
      stripAccents db ("giá ".toList ++ middle) ++ (body ++ stripAccents db sign) := by
    rw [← List.append_assoc, stripAccents_shows h hs]
  have hword : hasAnyWord db (stripAccents db ("giá ".toList ++ (middle ++ (body ++ sign))))
      priceWords = true := by
    rw [htext, stripAccents_gia h, List.append_assoc, List.cons_append]
    exact List.any_eq_true.mpr ⟨_, List.mem_cons_self, hasWord_gia h _⟩
  have hbefore := stripAccents_digit_free h (instruction_digit_free h hmiddle)
  have hdigit : ∀ c ∈ stripAccents db sign, db.digit c = none := by
    rcases hafter with hnil | hd
    · rw [hnil]
      exact List.forall_mem_nil _
    · rw [hd]
      intro c hc
      rw [List.mem_singleton.mp hc, h.digit_ascii 'd' rfl]
      rfl
  have hnone {units : List Text} (hunits : (units.all fun u => u.head?.any (· ≠ 'd')) = true)
      (sp u rest : Text) (hsp : ∀ c ∈ sp, db.space c = true) (hu : u ∈ units) :
      stripAccents db sign ≠ sp ++ (u ++ rest) := by
    have hhead := List.all_eq_true.mp hunits u hu
    intro hsplit
    obtain ⟨c, u', rfl⟩ : ∃ c u', u = c :: u' := by
      cases u with
      | nil => cases hhead
      | cons c u' => exact ⟨c, u', rfl⟩
    have hc : c ≠ 'd' := of_decide_eq_true hhead
    rcases hafter with hnil | hd
    · rw [hnil] at hsplit
      simp at hsplit
    · rw [hd] at hsplit
      cases sp with
      | nil => exact hc (List.cons.inj hsplit).1.symm
      | cons b sp =>
        have hb : b = 'd' := (List.cons.inj hsplit).1.symm
        have hspace := hsp b List.mem_cons_self
        rw [hb, h.space_printable 'd' (by decide) (by decide)] at hspace
        cases hspace
  have hkg : IsUnits ["kg"] := isUnits_of_all (by decide)
  have hlitre : IsUnits ["lit", "l"] := isUnits_of_all (by decide)
  rw [parseAdminInstruction_iff hword, htext, stripSizeTokens,
    sub_eq_self (search_sizeToken h hs hbefore hdigit hkg (hnone (by decide))),
    sub_eq_self (search_sizeToken h hs hbefore hdigit hlitre (hnone (by decide)))]

theorem parse_instruction_iff (hv : 1000 ≤ v) (form : PriceForm) {middle : Text}
    (hmiddle : ∀ c ∈ middle, db.digit c = none) :
    parseAdminInstruction db ("giá ".toList ++ (middle ++ form.text v)) =
        some { action := .updatePrice, priceValue := some (v : Decimal) } ↔
      form.Readable v ∧ Apart db (stripAccents db (stripAccents db ("giá ".toList ++ middle))) [] := by
  obtain ⟨g, gs, hgroups, -, hpointed⟩ := exists_groups hv
  have hgrouped : Shows v (groupThousands (Text.ofNat v)) := hpointed ▸ shows_pointed hgroups
  have hbefore := stripAccents_digit_free h (instruction_digit_free h hmiddle)
  have hnil : stripAccents db [] = [] := rfl
  have hprinted : parseAdminInstruction db
      ("giá ".toList ++ (middle ++ (groupThousands (Text.ofNat v) ++ ['đ']))) ≠
        some { action := .updatePrice, priceValue := some (v : Decimal) } := by
    intro hparse
    obtain ⟨rest, hrest, hempty⟩ := stripAccents_sign h []
    have hdigit := stripAccents_digit_free h (sign_digit_free h (List.forall_mem_nil _))
    rw [parse_instruction h hgrouped hmiddle (Or.inr rfl),
      parse_grouped_iff h hv hbefore hdigit] at hparse
    have hplain : stripAccents db ['d'] = ['d'] :=
      stripAccents_plain (fun c hc => List.mem_singleton.mp hc ▸ h.isPlain rfl rfl) (by decide)
    rw [hrest, hempty rfl, hplain] at hparse
    exact not_apart_sign h ⟨[], rfl⟩ hparse
  cases form with
  | plain =>
    have hiff := parse_instruction h (shows_ofNat v) hmiddle (Or.inl rfl)
    rw [List.append_nil, hnil] at hiff
    exact hiff.trans (parse_plain_iff h hv hbefore (List.forall_mem_nil _))
  | grouped =>
    have hiff := parse_instruction h hgrouped hmiddle (Or.inl rfl)
    rw [List.append_nil, hnil] at hiff
    exact (hiff.trans (parse_grouped_iff h hv hbefore (List.forall_mem_nil _))).trans
      (and_iff_right trivial).symm
  | chatVnd =>
    rw [PriceForm.text, chat_formatVnd_natCast]
    exact iff_of_false hprinted fun hboth => hboth.1
  | adminVnd =>
    rw [PriceForm.text, admin_formatVnd_natCast]
    exact iff_of_false hprinted fun hboth => hboth.1

end

/-- For every price from a thousand on, in a message without other digits, a form of the price is read
as the price exactly when it is its grouped digits, or up to seven digits, with no word character beside
it and no unit behind it. -/
theorem price_survives_iff {db : Database} (h : Vietnamese.KnowsDigits db) {v : ℕ} (hv : 1000 ≤ v)
    (form : PriceForm) :
    (∀ before after : Text, (∀ c ∈ before, db.digit c = none) → (∀ c ∈ after, db.digit c = none) →
      (parsePriceValue db (before ++ (form.text v ++ after)) = some (v : Decimal) ↔
        form.Readable v ∧ Apart db (stripAccents db before) (stripAccents db after))) ∧
    ∀ middle : Text, (∀ c ∈ middle, db.digit c = none) →
      (parseAdminInstruction db ("giá ".toList ++ (middle ++ form.text v)) =
          some { action := .updatePrice, priceValue := some (v : Decimal) } ↔
        form.Readable v ∧
          Apart db (stripAccents db (stripAccents db ("giá ".toList ++ middle))) []) :=
  ⟨fun _ _ hbefore hafter => parse_form_iff h hv hbefore hafter form,
    fun _ hmiddle => parse_instruction_iff h hv form hmiddle⟩

theorem digit_free_of_all {db : Database} {s : Text} (h : (s.all fun c => (db.digit c).isNone) = true) :
    ∀ c ∈ s, db.digit c = none :=
  fun c hc => Option.isNone_iff_eq_none.mp (List.all_eq_true.mp h c hc)

/-- The grouped digits in a message and in an instruction. -/
theorem price_survives_grouped :
    parsePriceValue Vietnamese.database ("tầm ".toList ++ (PriceForm.grouped.text 450000 ++
      " nhé".toList)) = some 450000 ∧
    parseAdminInstruction Vietnamese.database
      ("giá ".toList ++ ("Elf thành ".toList ++ PriceForm.grouped.text 450000)) =
        some { action := .updatePrice, priceValue := some 450000 } := by
  have hboth := price_survives_iff Vietnamese.knowsDigits_database (by decide : 1000 ≤ 450000) .grouped
  constructor
  · exact (hboth.1 "tầm ".toList " nhé".toList (digit_free_of_all rfl) (digit_free_of_all rfl)).mpr
      ⟨trivial, by decide +kernel, by decide +kernel, by decide +kernel, by decide +kernel⟩
  · exact (hboth.2 "Elf thành ".toList (digit_free_of_all rfl)).mpr
      ⟨trivial, by decide +kernel, by decide +kernel, by decide +kernel, by decide +kernel⟩

/-- The printed form, whose sign becomes a letter. -/
theorem printed_price_lost :
    parsePriceValue Vietnamese.database (Chat.formatVnd 450000) = none ∧
      ¬ ∀ (db : Database), Vietnamese.KnowsDigits db → ∀ (v : ℕ), 1000 ≤ v → ∀ form : PriceForm,
        parsePriceValue db (form.text v) = some (v : Decimal) := by
  have hnone : parsePriceValue Vietnamese.database (Chat.formatVnd 450000) = none := by
    decide +kernel
  refine ⟨hnone, fun hclaim => ?_⟩
  have hparse := hclaim Vietnamese.database Vietnamese.knowsDigits_database 450000 (by decide) .chatVnd
  have htext : PriceForm.chatVnd.text 450000 = Chat.formatVnd 450000 := by
    rw [PriceForm.text, Nat.cast_ofNat]
  rw [htext, hnone] at hparse
  cases hparse

end Qiki.Catalog
