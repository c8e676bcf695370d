import Qiki.Chat.NormalForm
import Qiki.Chat.Extraction

/-! Checks that come out alike for a text and for what is left of it between its blanks. -/
namespace Qiki.Chat

open Unicode Regex AddressLookup

/-- Every blank is a boundary that decomposes to a blank, and no visible ASCII character is one. -/
structure PlainBlanks (db : Database) : Prop where
  boundary : ∀ c, db.space c = true → c ≠ 'đ' ∧ ∃ c', IsBoundary db c c' ∧ db.space c' = true
  visible : ∀ c : Char, '!' ≤ c → c ≤ '~' → db.space c = false

theorem plainBlanks_database : PlainBlanks Vietnamese.database where
  boundary := fun c hc => by
    obtain ⟨c', hboundary, hd, -⟩ := blanksSeparate_database c hc
    have hself : [' ', '\t', '\n', '\r', '\u000B', '\u000C', '\u00A0'].all (fun c =>
        Vietnamese.database.decompose c = [c]) = true := by decide +kernel
    have hmem := hc
    simp only [Vietnamese.database, decide_eq_true_eq] at hmem
    have hdecompose := of_decide_eq_true (List.all_eq_true.mp hself c hmem)
    obtain rfl : c = c' := by
      simpa using hdecompose.symm.trans hboundary.decompose_starter
    exact ⟨hd, c, hboundary, hc⟩
  visible := fun c hlow hhigh => by
    have hnone : [' ', '\t', '\n', '\r', '\u000B', '\u000C', '\u00A0'].all (fun c =>
        c < '!' || '~' < c) = true := by decide
    by_contra hspace
    simp only [Vietnamese.database, decide_eq_false_iff_not, not_not] at hspace
    rcases Bool.or_eq_true_iff.mp (List.all_eq_true.mp hnone c hspace) with h | h
    · exact absurd (of_decide_eq_true h) (not_lt.mpr hlow)
    · exact absurd (of_decide_eq_true h) (not_lt.mpr hhigh)

section
variable {db : Database} (h : PlainBlanks db)
include h

theorem PlainBlanks.separate : BlanksSeparate db := by
  intro c hc
  obtain ⟨hd, c', hboundary, hspace⟩ := h.boundary c hc
  refine ⟨c', hboundary, hd, ?_⟩
  by_contra hmatch
  have hbounds : '!' ≤ c' ∧ c' ≤ '~' := by
    simp only [isMatchChar, Bool.not_eq_false, Bool.or_eq_true, Bool.and_eq_true,
      decide_eq_true_eq] at hmatch
    rcases hmatch with ⟨hlow, hhigh⟩ | ⟨hlow, hhigh⟩
    · exact ⟨le_trans (by decide) hlow, hhigh.trans (by decide)⟩
    · exact ⟨le_trans (by decide) hlow, hhigh.trans (by decide)⟩
  rw [h.visible c' hbounds.1 hbounds.2] at hspace
  exact Bool.false_ne_true hspace

/-! Addresses. -/

theorem normalizeLookupKey_strip (text : Text) :
    normalizeLookupKey db (Text.strip db.space text) = normalizeLookupKey db text := by
  have hparts (x y : Text) {c : Char} (hc : db.space c = true) : ∃ c', db.space c' = true ∧
      lower db (nfd db (x ++ c :: y)) = lower db (nfd db x) ++ c' :: lower db (nfd db y) := by
    obtain ⟨-, c', hboundary, hc'⟩ := h.boundary c hc
    obtain ⟨-, c'', hboundary', -⟩ := h.boundary c' hc'
    exact ⟨c', hc', by rw [hboundary.nfd_append, hboundary'.lower_append]⟩
  have hnil : lower db (nfd db []) = [] := rfl
  unfold normalizeLookupKey
  rw [Text.eq_strip (f := fun t => Text.strip db.space (lower db (nfd db t)))]
  · intro c s hc
    obtain ⟨c', hc', hlower⟩ := hparts [] s hc
    rw [List.nil_append, hnil, List.nil_append] at hlower
    rw [hlower, Text.strip_cons hc']
  · intro c s hc
    obtain ⟨c', hc', hlower⟩ := hparts s [] hc
    rw [hnil] at hlower
    rw [hlower, Text.strip_concat hc']

theorem resolveWardDeliveryZone_strip (text : Text) :
    resolveWardDeliveryZone db (Text.strip db.space text) = resolveWardDeliveryZone db text := by
  simp only [resolveWardDeliveryZone, normalizeLookupKey_strip h]

theorem validateKhuPho_strip (text : Text) :
    validateKhuPho db (Text.strip db.space text) = validateKhuPho db text := by
  simp only [validateKhuPho, extractKhuPhoNumber, resolveWardDeliveryZone_strip h,
    normalizeLookupKey_strip h]

/-- An address in a delivery area is more than blanks. -/
theorem strip_ne_nil_of_zone {text : Text} {zone : WardDeliveryZoneMatch}
    (hzone : resolveWardDeliveryZone db text = some zone) : Text.strip db.space text ≠ [] := by
  intro hempty
  have hnil : resolveWardDeliveryZone db [] = none := rfl
  rw [← resolveWardDeliveryZone_strip h, hempty, hnil] at hzone
  cases hzone

end

/-! Phone numbers. -/

section
variable {db : Database} {phone normalized : Text}

/-- A number that was put into its normal form is valid again. -/
theorem validatePhone_again (h : PlainBlanks db) (hphone : validatePhone db phone = some normalized) :
    validatePhone db normalized = some (Text.strip db.space normalized) := by
  obtain ⟨x, tail, hx, htail, rfl, -⟩ := validatePhone_eq_some.mp hphone
  have hvisible : ∀ c ∈ "+84" ++ x, ('!' ≤ c ∧ c ≤ '~') ∧ c ≠ ' ' ∧ c ≠ '-' := by
    obtain ⟨d, ds, rfl, hd, -, hds⟩ := hx
    intro c hc
    have hshape : c ∈ ['+', '8', '4'] ∨ c ∈ ['3', '5', '7', '8', '9'] ∨ '0' ≤ c ∧ c ≤ '9' := by
      rcases List.mem_append.mp hc with hc | hc
      · exact Or.inl hc
      · rcases List.mem_cons.mp hc with rfl | hc
        · exact Or.inr (Or.inl hd)
        · exact Or.inr (Or.inr (hds c hc))
    have hlisted : ∀ c ∈ ['+', '8', '4', '3', '5', '7', '8', '9'],
        ('!' ≤ c ∧ c ≤ '~') ∧ c ≠ ' ' ∧ c ≠ '-' := by simp
    rcases hshape with hc | hc | ⟨hlow, hhigh⟩
    · exact hlisted c (List.mem_append_left ['3', '5', '7', '8', '9'] hc)
    · exact hlisted c (List.mem_append_right ['+', '8', '4'] hc)
    · refine ⟨⟨le_trans (by decide) hlow, hhigh.trans (by decide)⟩, ?_, ?_⟩
      · rintro rfl
        exact absurd hlow (by decide)
      · rintro rfl
        exact absurd hlow (by decide)
  have hstrip : Text.strip db.space ("+84" ++ x) = "+84" ++ x := Text.strip_of_not_drop
    fun c hc => h.visible c (hvisible c hc).1.1 (hvisible c hc).1.2
  have hkeep : ("+84" ++ x).filter (fun c => c ≠ ' ' && c ≠ '-') = "+84" ++ x := by
    refine List.filter_eq_self.mpr fun c hc => ?_
    rw [Bool.and_eq_true]
    exact ⟨decide_eq_true (hvisible c hc).2.1, decide_eq_true (hvisible c hc).2.2⟩
  have hbare : validatePhone db ("+84" ++ x) = some ("+84" ++ x) := by
    refine validatePhone_eq_some.mpr ⟨x, [], hx, Or.inl rfl, by rw [List.append_nil], Or.inl ?_⟩
    rw [phoneDigits, hstrip, hkeep, List.append_nil]
  rw [← List.append_assoc]
  rcases htail with rfl | rfl
  · rw [List.append_nil, hstrip, hbare]
  · cases hnewline : db.space '\n' with
    | true => rw [Text.strip_concat hnewline, hstrip, ← validatePhone_strip,
        Text.strip_concat hnewline, hstrip, hbare]
    | false =>
      have hwhole : Text.strip db.space ("+84" ++ x ++ ['\n']) = "+84" ++ x ++ ['\n'] := by
        refine Text.strip_of_not_drop fun c hc => ?_
        rcases List.mem_append.mp hc with hc | hc
        · exact h.visible c (hvisible c hc).1.1 (hvisible c hc).1.2
        · rw [List.mem_singleton.mp hc, hnewline]
      rw [hwhole]
      refine validatePhone_eq_some.mpr ⟨x, ['\n'], hx, Or.inr rfl, List.append_assoc .., Or.inl ?_⟩
      rw [phoneDigits, hwhole, List.filter_append, hkeep, List.append_assoc]
      rfl

end

end Qiki.Chat
