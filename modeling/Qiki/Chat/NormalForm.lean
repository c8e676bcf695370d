import Qiki.Chat.Products
import Qiki.Text.Boundary

/-! The normal form of a text around blanks, and what is read from it. -/
namespace Qiki.Chat

open Unicode Orders

section
variable {db : Database} {c c' : Char}

theorem foldAccents_append (hc : IsBoundary db c c') (hd : c ≠ 'đ') (x y : Text) :
    foldAccents db (x ++ c :: y) = foldAccents db x ++ c' :: foldAccents db y := by
  have hreplace (s t : Text) : Text.replace "đ" "d" (s ++ c :: t) =
      Text.replace "đ" "d" s ++ c :: Text.replace "đ" "d" t := by
    rw [← List.singleton_append, ← List.append_assoc]
    change Text.replace ['đ'] _ _ = _
    rw [Text.replace_append, Text.replace_append]
    simp [Text.replace, Text.replaceFrom, Ne.symm hd]
  simp only [foldAccents, hc.lower_append, hreplace, hc.withoutMarks_append]

/-- The words of the normal form. -/
def normalWords (db : Database) (value : Text) : List Text :=
  Text.words (fun c => !isMatchChar c) (foldAccents db value)

theorem normalizeMatchText_eq_join (value : Text) :
    normalizeMatchText db value = Text.join [' '] (normalWords db value) := rfl

theorem normalWords_append (hc : IsBoundary db c c') (hd : c ≠ 'đ') (hm : isMatchChar c' = false)
    (x y : Text) : normalWords db (x ++ c :: y) = normalWords db x ++ normalWords db y := by
  simp only [normalWords]
  rw [foldAccents_append hc hd, Text.words_append (by simp [hm])]

theorem normalWords_nil : normalWords db [] = [] := rfl

theorem normalizeMatchText_append (hspace : IsBoundary db ' ' ' ') {x y : Text}
    (hx : normalizeMatchText db x ≠ []) (hy : normalizeMatchText db y ≠ []) :
    normalizeMatchText db (x ++ ' ' :: y) =
      normalizeMatchText db x ++ ' ' :: normalizeMatchText db y := by
  have hwords {t : Text} (ht : normalizeMatchText db t ≠ []) : normalWords db t ≠ [] := by
    intro hnil
    exact ht (by simp [normalizeMatchText_eq_join, hnil, Text.join])
  simp only [normalizeMatchText_eq_join, normalWords_append hspace (by decide) (by decide)]
  rw [Text.join_append [' '] (hwords hx) (hwords hy)]
  rfl

end

/-! Blanks. -/

/-- Every character that `str.strip` drops separates words in the normal form. -/
def BlanksSeparate (db : Database) : Prop :=
  ∀ c, db.space c = true → ∃ c', IsBoundary db c c' ∧ c ≠ 'đ' ∧ isMatchChar c' = false

theorem blanksSeparate_database : BlanksSeparate Vietnamese.database := by
  -- a check of the list itself: `∀ c ∈ _` would be decided over every character
  have hblanks : [' ', '\t', '\n', '\r', '\u000B', '\u000C', '\u00A0'].all (fun c =>
      (Vietnamese.database.lower c = [c] ∧ Vietnamese.database.decompose c = [c]) ∧
        (Vietnamese.database.combiningClass c = 0 ∧
          Vietnamese.database.nonspacingMark c = false) ∧
        (Vietnamese.database.cased c = false ∧ Vietnamese.database.caseIgnorable c = false) ∧
        c ≠ 'Σ' ∧ c ≠ 'đ' ∧ isMatchChar c = false) = true := by
    decide +kernel
  intro c hc
  simp only [Vietnamese.database, decide_eq_true_eq] at hc
  obtain ⟨⟨hlower, hdecompose⟩, ⟨hclass, hmark⟩, ⟨hcased, hignorable⟩, hsigma, hd, hm⟩ :=
    of_decide_eq_true (List.all_eq_true.mp hblanks c hc)
  exact ⟨c, ⟨hlower, hsigma, hdecompose, hclass, hmark, hcased, hignorable⟩, hd, hm⟩

section
variable {db : Database} (h : BlanksSeparate db)
include h

theorem normalWords_strip (value : Text) :
    normalWords db (Text.strip db.space value) = normalWords db value := by
  refine Text.eq_strip ?_ ?_ value
  · intro c s hc
    obtain ⟨c', hb, hd, hm⟩ := h c hc
    simpa [normalWords_nil] using normalWords_append hb hd hm [] s
  · intro c s hc
    obtain ⟨c', hb, hd, hm⟩ := h c hc
    simpa [normalWords_nil] using normalWords_append hb hd hm s []

theorem normalizeMatchText_strip (value : Text) :
    normalizeMatchText db (Text.strip db.space value) = normalizeMatchText db value := by
  simp only [normalizeMatchText_eq_join, normalWords_strip h]

theorem normalizePaymentMethod_strip (paymentMethod : Text) :
    normalizePaymentMethod db (Text.strip db.space paymentMethod) =
      normalizePaymentMethod db paymentMethod := by
  unfold normalizePaymentMethod
  rw [normalizeMatchText_strip h]

end

/-! Texts in normal form. -/

section
variable {db : Database} (h : Vietnamese.Extends db)
include h

theorem isPlain_of_isMatchChar {c : Char} (hc : isMatchChar c = true ∨ c = ' ') : IsPlain db c := by
  have hsmall : c.toNat < 128 := by
    rcases hc with hc | rfl
    · simp only [isMatchChar, Bool.or_eq_true, Bool.and_eq_true, decide_eq_true_eq, Char.le_def,
        UInt32.le_iff_toNat_le] at hc
      have hz : 'z'.val.toNat = 122 := rfl
      have h9 : '9'.val.toNat = 57 := rfl
      change c.val.toNat < 128
      omega
    · decide
  have hascii : ∀ n < 128, (isMatchChar (Char.ofNat n) ∨ Char.ofNat n = ' ') →
      Vietnamese.isKnown (Char.ofNat n) = true ∧
      Vietnamese.database.lower (Char.ofNat n) = [Char.ofNat n] ∧ Char.ofNat n ≠ 'Σ' ∧
      Vietnamese.database.decompose (Char.ofNat n) = [Char.ofNat n] ∧
      Vietnamese.database.combiningClass (Char.ofNat n) = 0 ∧
      Vietnamese.database.nonspacingMark (Char.ofNat n) = false := by decide +kernel
  obtain ⟨hknown, hlower, hsigma, hdecompose, hclass, hmark⟩ :=
    hascii c.toNat hsmall (by rwa [Char.ofNat_toNat])
  rw [Char.ofNat_toNat] at hknown hlower hsigma hdecompose hclass hmark
  exact ⟨(h.agree.lowerOf c hknown).trans hlower, hsigma,
    (h.agree.decomposeOf c hknown).trans hdecompose, (h.agree.classOf c hknown).trans hclass,
    (h.agree.markOf c hknown).trans hmark⟩

/-- A text in normal form is its own normal form. -/
theorem normalizeMatchText_self {value : Text} {ws : List Text}
    (hws : ∀ w ∈ ws, w ≠ [] ∧ ∀ c ∈ w, isMatchChar c = true) (hvalue : value = Text.join [' '] ws) :
    normalizeMatchText db value = value := by
  have hplain : ∀ c ∈ value, IsPlain db c ∧ c ≠ 'đ' := by
    intro c hc
    have hshape : isMatchChar c = true ∨ c = ' ' := by
      rcases Text.mem_join (hvalue ▸ hc) with hc | ⟨w, hw, hc⟩
      · exact Or.inr (List.mem_singleton.mp hc)
      · exact Or.inl ((hws w hw).2 c hc)
    refine ⟨isPlain_of_isMatchChar h hshape, ?_⟩
    rintro rfl
    rcases hshape with hshape | hshape <;> exact absurd hshape (by decide)
  have hfold : foldAccents db value = value := by
    unfold foldAccents
    rw [lower_of_plain fun c hc => (hplain c hc).1]
    have hreplace : Text.replace "đ" "d" value = value := by
      change Text.replaceFrom ['đ'] _ 0 value = value
      rw [Text.replaceFrom_singleton]
      conv_rhs => rw [← List.flatMap_singleton' value]
      exact List.flatMap_congr fun c hc => if_neg (hplain c hc).2
    rw [hreplace, withoutMarks_of_plain fun c hc => (hplain c hc).1]
  rw [normalizeMatchText_eq_join, normalWords, hfold, hvalue,
    Text.words_join_self (by decide) fun w hw => ⟨(hws w hw).1, fun c hc => by
      rw [(hws w hw).2 c hc]
      rfl⟩]

theorem normalizeMatchText_idem (value : Text) :
    normalizeMatchText db (normalizeMatchText db value) = normalizeMatchText db value := by
  refine normalizeMatchText_self h (fun w hw => ?_) (normalizeMatchText_eq_join value)
  obtain ⟨hne, hchars⟩ := Text.not_space_of_mem_words hw
  exact ⟨hne, fun c hc => by simpa using hchars c hc⟩

end

/-! Matching. -/

section
variable (db : Database)

/-- A text without words matches no product. -/
theorem matchProduct_of_empty {query : Text} (hquery : normalizeMatchText db query = [])
    (products : List Product) : matchProduct db (some query) products = none := by
  have hround (best : Option Product × ℕ) (p : Product) : betterMatch db [] best p = best := by
    simp [betterMatch, specificTokenHit, tokens, Text.words]
  have hfold : products.foldl (betterMatch db []) (none, 0) = (none, 0) := by
    induction products with
    | nil => rfl
    | cons p products ih => rw [List.foldl_cons, hround, ih]
  unfold matchProduct
  split_ifs
  · rw [Option.getD_some, hquery, hfold]
  · rfl

theorem matchProduct_strip {db : Database} (h : BlanksSeparate db) (query : Text)
    (products : List Product) :
    matchProduct db (some (Text.strip db.space query)) products =
      matchProduct db (some query) products := by
  by_cases hquery : normalizeMatchText db query = []
  · rw [matchProduct_of_empty db hquery,
      matchProduct_of_empty db ((normalizeMatchText_strip h query).trans hquery)]
  · have hpresent {t : Text} (ht : normalizeMatchText db t ≠ []) : present (some t) = true := by
      have hne : t ≠ [] := by
        rintro rfl
        exact ht rfl
      simp [present, hne]
    have hstrip : normalizeMatchText db (Text.strip db.space query) ≠ [] :=
      (normalizeMatchText_strip h query).symm ▸ hquery
    simp only [matchProduct, hpresent hquery, hpresent hstrip, Option.getD_some,
      normalizeMatchText_strip h]

end

end Qiki.Chat
