import Qiki.Text.Vietnamese

/-! Texts cut at a character that no algorithm looks across, and databases that agree on the
characters of a text. -/

namespace Text

/-- Words split at a separator. -/
theorem words_append {space : Char → Bool} {c : Char} (hc : space c = true) (x y : Text) :
    words space (x ++ c :: y) = words space x ++ words space y := by
  unfold words
  rw [List.splitOnP_append_cons x y hc, List.filter_append]

theorem not_space_of_mem_words {space : Char → Bool} {s w : Text} (hw : w ∈ words space s) :
    w ≠ [] ∧ ∀ c ∈ w, space c = false := by
  obtain ⟨hsplit, hne⟩ := List.mem_filter.mp hw
  refine ⟨by simpa using hne, ?_⟩
  clear hne hw
  induction s generalizing w with
  | nil =>
    rw [List.splitOnP_nil, List.mem_singleton] at hsplit
    simp [hsplit]
  | cons d s ih =>
    rw [List.splitOnP_cons_eq_if_modifyHead] at hsplit
    split_ifs at hsplit with hd
    · rcases List.mem_cons.mp hsplit with rfl | hsplit
      · simp
      · exact ih hsplit
    · obtain ⟨head, rest, hparts⟩ := List.exists_cons_of_ne_nil (List.splitOnP_ne_nil space s)
      rw [hparts, List.modifyHead_cons, List.mem_cons] at hsplit
      rcases hsplit with rfl | hsplit
      · intro c hc
        rcases List.mem_cons.mp hc with rfl | hc
        · exact Bool.not_eq_true _ ▸ hd
        · exact ih (hparts ▸ List.mem_cons_self ..) c hc
      · exact ih (hparts ▸ List.mem_cons_of_mem _ hsplit)

theorem words_of_word {space : Char → Bool} {w : Text} (hne : w ≠ [])
    (h : ∀ c ∈ w, space c = false) : words space w = [w] := by
  unfold words
  rw [List.splitOnP_eq_singleton h]
  simp [hne]

theorem join_append (sep : Text) {xs ys : List Text} (hx : xs ≠ []) (hy : ys ≠ []) :
    join sep (xs ++ ys) = join sep xs ++ (sep ++ join sep ys) := by
  induction xs with
  | nil => contradiction
  | cons w xs ih =>
    obtain ⟨v, ys, rfl⟩ := List.exists_cons_of_ne_nil hy
    cases xs with
    | nil => simp [join, List.intercalate]
    | cons u xs =>
      have hu := ih (List.cons_ne_nil u xs)
      simp only [join, List.intercalate, List.cons_append, List.intersperse_cons_cons,
        List.flatten_cons, List.append_assoc] at hu ⊢
      rw [hu]

/-- An element of a joined list stands in the text. -/
theorem exists_join_of_mem (sep : Text) {part : Text} {parts : List Text} (h : part ∈ parts) :
    ∃ before after, join sep parts = before ++ (part ++ after) := by
  obtain ⟨xs, ys, rfl⟩ := List.append_of_mem h
  have hright : ∃ after, join sep (part :: ys) = part ++ after := by
    cases ys with
    | nil => exact ⟨[], by simp [join, List.intercalate]⟩
    | cons y ys => exact ⟨sep ++ join sep (y :: ys), by simp [join, List.intercalate]⟩
  obtain ⟨after, hafter⟩ := hright
  by_cases hxs : xs = []
  · exact ⟨[], after, by rw [hxs, List.nil_append, hafter, List.nil_append]⟩
  · refine ⟨join sep xs ++ sep, after, ?_⟩
    rw [join_append sep hxs (List.cons_ne_nil part ys), hafter]
    simp only [List.append_assoc]

/-- The words of texts joined with a separator. -/
theorem words_join {space : Char → Bool} {c : Char} (hc : space c = true) (parts : List Text) :
    words space (join [c] parts) = parts.flatMap (words space) := by
  induction parts with
  | nil => rfl
  | cons x parts ih =>
    cases parts with
    | nil => simp [join]
    | cons y parts =>
      have hjoin : join [c] (x :: y :: parts) = x ++ c :: join [c] (y :: parts) := by
        simp [join, List.intercalate]
      rw [hjoin, words_append hc, ih, List.flatMap_cons (x := x)]

/-- Words joined with one separator are found again. -/
theorem words_join_self {space : Char → Bool} {c : Char} (hc : space c = true) {ws : List Text}
    (h : ∀ w ∈ ws, w ≠ [] ∧ ∀ d ∈ w, space d = false) : words space (join [c] ws) = ws := by
  rw [words_join hc]
  induction ws with
  | nil => rfl
  | cons w ws ih =>
    have hw := h w (List.mem_cons_self ..)
    rw [List.flatMap_cons, words_of_word hw.1 hw.2, List.singleton_append,
      ih fun v hv => h v (List.mem_cons_of_mem _ hv)]

theorem mem_join {sep : Text} {parts : List Text} {c : Char} (hc : c ∈ join sep parts) :
    c ∈ sep ∨ ∃ part ∈ parts, c ∈ part := by
  induction parts with
  | nil => simp [join] at hc
  | cons x parts ih =>
    cases parts with
    | nil =>
      have hone : join sep [x] = x := by simp [join]
      exact Or.inr ⟨x, List.mem_cons_self .., hone ▸ hc⟩
    | cons y parts =>
      have hjoin : join sep (x :: y :: parts) = x ++ (sep ++ join sep (y :: parts)) := by
        simp [join, List.intercalate]
      rw [hjoin, List.mem_append, List.mem_append] at hc
      rcases hc with hc | hc | hc
      · exact Or.inr ⟨x, List.mem_cons_self .., hc⟩
      · exact Or.inl hc
      · rcases ih hc with hc | ⟨part, hpart, hc⟩
        · exact Or.inl hc
        · exact Or.inr ⟨part, List.mem_cons_of_mem _ hpart, hc⟩

/-- Replacing a single character acts on each character alone. -/
theorem replaceFrom_singleton (a : Char) (new s : Text) :
    replaceFrom [a] new 0 s = s.flatMap fun c => if c = a then new else [c] := by
  induction s with
  | nil => rfl
  | cons c s ih =>
    by_cases h : a = c
    · subst h
      simp [replaceFrom, ih]
    · simp [replaceFrom, ih, h, Ne.symm h]

theorem replace_append (a : Char) (new x y : Text) :
    replace [a] new (x ++ y) = replace [a] new x ++ replace [a] new y := by
  simp only [replace, replaceFrom_singleton, List.flatMap_append]

theorem contains_of_suffix {s t sub : Text} (h : t <:+ s) (ht : t.contains sub = true) :
    s.contains sub = true :=
  contains_iff.mpr ((contains_iff.mp ht).trans h.isInfix)

theorem containsAny_of_suffix {s t : Text} {phrases : List Text} (h : t <:+ s)
    (ht : t.containsAny phrases = true) : s.containsAny phrases = true := by
  obtain ⟨phrase, hmem, hphrase⟩ := List.any_eq_true.mp ht
  exact List.any_eq_true.mpr ⟨phrase, hmem, contains_of_suffix h hphrase⟩

/-! Stripping. -/

theorem dropWhile_dropWhile (drop : Char → Bool) (s : Text) :
    (s.dropWhile drop).dropWhile drop = s.dropWhile drop := by
  induction s with
  | nil => rfl
  | cons c s ih =>
    cases hc : drop c with
    | true => simpa [hc] using ih
    | false => simp [hc]

/-- Dropping at the end leaves a first character that is not dropped. -/
theorem dropWhile_reverse_dropWhile (drop : Char → Bool) {s : Text}
    (hs : s.dropWhile drop = s) :
    (s.reverse.dropWhile drop).reverse.dropWhile drop = (s.reverse.dropWhile drop).reverse := by
  cases s with
  | nil => rfl
  | cons c s =>
    have hc : drop c = false := by
      by_contra h
      rw [Bool.not_eq_false] at h
      have hlen := (List.dropWhile_suffix drop (l := s)).length_le
      rw [List.dropWhile_cons_of_pos h] at hs
      have := congrArg List.length hs
      simp only [List.length_cons] at this
      omega
    rw [List.reverse_cons, List.dropWhile_append]
    split_ifs with hempty
    · simp [hc]
    · simp [hc]

@[simp] theorem strip_strip (drop : Char → Bool) (s : Text) :
    strip drop (strip drop s) = strip drop s := by
  unfold strip
  rw [dropWhile_reverse_dropWhile drop (dropWhile_dropWhile drop s), List.reverse_reverse,
    dropWhile_dropWhile]

theorem strip_cons {drop : Char → Bool} {c : Char} (hc : drop c = true) (s : Text) :
    strip drop (c :: s) = strip drop s := by
  rw [strip, List.dropWhile_cons_of_pos hc, ← strip]

theorem strip_concat {drop : Char → Bool} {c : Char} (hc : drop c = true) (s : Text) :
    strip drop (s ++ [c]) = strip drop s := by
  unfold strip
  rw [List.dropWhile_append]
  split_ifs with hempty
  · rw [List.isEmpty_iff.mp hempty, List.dropWhile_cons_of_pos hc, List.dropWhile_nil]
  · rw [List.reverse_append, List.reverse_singleton, List.singleton_append,
      List.dropWhile_cons_of_pos hc]

/-- A stripped text does not end with a blank. -/
theorem strip_ne_concat {drop : Char → Bool} {c : Char} (hc : drop c = true) (s t : Text) :
    strip drop s ≠ t ++ [c] := by
  intro h
  have hstrip : strip drop t = t ++ [c] := by
    rw [← strip_concat hc, ← h, strip_strip]
  have hlength : (strip drop t).length ≤ t.length := by
    unfold strip
    rw [List.length_reverse]
    calc ((t.dropWhile drop).reverse.dropWhile drop).length
        ≤ (t.dropWhile drop).reverse.length := (List.dropWhile_sublist drop).length_le
      _ = (t.dropWhile drop).length := List.length_reverse
      _ ≤ t.length := (List.dropWhile_sublist drop).length_le
  rw [hstrip, List.length_append, List.length_singleton] at hlength
  omega

/-- What is stripped stands at the ends. -/
theorem exists_strip (drop : Char → Bool) (s : Text) : ∃ before after,
    s = before ++ (strip drop s ++ after) ∧ (∀ c ∈ before, drop c = true) ∧
      ∀ c ∈ after, drop c = true := by
  refine ⟨s.takeWhile drop, ((s.dropWhile drop).reverse.takeWhile drop).reverse, ?_, ?_, ?_⟩
  · rw [strip, ← List.reverse_append, List.takeWhile_append_dropWhile, List.reverse_reverse,
      List.takeWhile_append_dropWhile]
  · exact fun c hc => List.all_eq_true.mp List.all_takeWhile c hc
  · exact fun c hc => List.all_eq_true.mp List.all_takeWhile c (List.mem_reverse.mp hc)

theorem strip_of_not_drop {drop : Char → Bool} {s : Text} (h : ∀ c ∈ s, drop c = false) :
    strip drop s = s := by
  have hkeep (t : Text) (ht : ∀ c ∈ t, drop c = false) : t.dropWhile drop = t := by
    cases t with
    | nil => rfl
    | cons c t => rw [List.dropWhile_cons_of_neg (by rw [ht c List.mem_cons_self]; decide)]
  rw [strip, hkeep s h, hkeep s.reverse fun c hc => h c (List.mem_reverse.mp hc),
    List.reverse_reverse]

/-- Where all that one `strip` drops is dropped by another, and nothing of what it leaves is, the two
agree. -/
theorem strip_eq_strip {drop drop' : Char → Bool} {s : Text}
    (hkept : ∀ c ∈ strip drop s, drop' c = false) (hdrop : ∀ c ∈ s, drop c = true → drop' c = true) :
    strip drop' s = strip drop s := by
  obtain ⟨before, after, hs, hbefore, hafter⟩ := exists_strip drop s
  have hfront (x y : Text) (hx : ∀ c ∈ x, drop' c = true) : strip drop' (x ++ y) = strip drop' y := by
    induction x with
    | nil => rfl
    | cons c x ih =>
      rw [List.cons_append, strip_cons (hx c List.mem_cons_self),
        ih fun d hd => hx d (List.mem_cons_of_mem c hd)]
  have hback (x y : Text) (hy : ∀ c ∈ y, drop' c = true) : strip drop' (x ++ y) = strip drop' x := by
    induction y using List.reverseRecOn with
    | nil => rw [List.append_nil]
    | append_singleton y c ih =>
      rw [← List.append_assoc, strip_concat (hy c (by simp)),
        ih fun d hd => hy d (List.mem_append_left _ hd)]
  have hbefore' : ∀ c ∈ before, drop' c = true := fun c hc =>
    hdrop c (by rw [hs]; exact List.mem_append_left _ hc) (hbefore c hc)
  have hafter' : ∀ c ∈ after, drop' c = true := fun c hc =>
    hdrop c (by rw [hs]; simp [hc]) (hafter c hc)
  conv_lhs => rw [hs]
  rw [hfront _ _ hbefore', hback _ _ hafter', strip_of_not_drop hkept]

/-- What does not see a dropped character at either end does not see `strip`. -/
theorem eq_strip {α : Type} {drop : Char → Bool} {f : Text → α}
    (hhead : ∀ c s, drop c = true → f (c :: s) = f s)
    (hlast : ∀ c s, drop c = true → f (s ++ [c]) = f s) (s : Text) : f (strip drop s) = f s := by
  have hdrop (t : Text) : f (t.dropWhile drop) = f t := by
    induction t with
    | nil => rfl
    | cons c t ih =>
      cases hc : drop c with
      | true => rw [List.dropWhile_cons_of_pos hc, ih, hhead c t hc]
      | false => rw [List.dropWhile_cons_of_neg (by simp [hc])]
  have hdropLast (t : Text) : f (t.dropWhile drop).reverse = f t.reverse := by
    induction t with
    | nil => rfl
    | cons c t ih =>
      cases hc : drop c with
      | true => rw [List.dropWhile_cons_of_pos hc, ih, List.reverse_cons, hlast c _ hc]
      | false => rw [List.dropWhile_cons_of_neg (by simp [hc])]
  rw [strip, hdropLast, List.reverse_reverse, hdrop]

end Text

namespace Unicode

/-! Canonical decomposition. -/

section
variable {db : Database}

theorem perm_insertMark (c : Char) (s : Text) : (insertMark db c s).Perm (c :: s) := by
  induction s with
  | nil => exact .refl _
  | cons d s ih =>
    rw [insertMark]
    split_ifs with h
    · exact .refl _
    · exact (ih.cons d).trans (.swap c d s)

theorem perm_foldr_insertMark (s : Text) : (s.foldr (insertMark db) []).Perm s := by
  induction s with
  | nil => exact .refl _
  | cons c s ih =>
    rw [List.foldr_cons]
    exact (perm_insertMark c _).trans (ih.cons c)

theorem mem_nfd {s : Text} {d : Char} : d ∈ nfd db s ↔ ∃ c ∈ s, d ∈ db.decompose c := by
  rw [nfd, (perm_foldr_insertMark _).mem_iff, List.mem_flatMap]

end

/-! A boundary. -/

/-- A character without case that decomposes to a single starter. -/
structure IsBoundary (db : Database) (c starter : Char) : Prop where
  lower_self : db.lower c = [c]
  ne_sigma : c ≠ 'Σ'
  decompose_starter : db.decompose c = [starter]
  class_starter : db.combiningClass starter = 0
  not_mark : db.nonspacingMark starter = false
  not_cased : db.cased c = false
  not_ignorable : db.caseIgnorable c = false

section
variable {db : Database} {c c' : Char} (hc : IsBoundary db c c')
include hc

theorem IsBoundary.head_dropWhile (x y : Text) :
    ((x ++ c :: y).dropWhile db.caseIgnorable).head?.any db.cased =
      (x.dropWhile db.caseIgnorable).head?.any db.cased := by
  induction x with
  | nil => simp [hc.not_ignorable, hc.not_cased]
  | cons d x ih =>
    cases hd : db.caseIgnorable d with
    | true => simpa [hd] using ih
    | false => simp [hd]

theorem IsBoundary.finalSigma_after (before x y : Text) :
    finalSigma db before (x ++ c :: y) = finalSigma db before x := by
  simp only [finalSigma, hc.head_dropWhile]

theorem IsBoundary.finalSigma_before (x before after : Text) :
    finalSigma db (x ++ c :: before) after = finalSigma db x after := by
  simp only [finalSigma, hc.head_dropWhile]

/-- What stands before a boundary does not reach behind it. -/
theorem IsBoundary.lowerFrom_before (x before s : Text) :
    lowerFrom db (x ++ c :: before) s = lowerFrom db x s := by
  induction s generalizing x with
  | nil => rfl
  | cons d s ih =>
    simp only [lowerFrom, hc.finalSigma_before]
    rw [← List.cons_append, ih (d :: x)]

theorem IsBoundary.lowerFrom_append (before x y : Text) :
    lowerFrom db before (x ++ c :: y) = lowerFrom db before x ++ c :: lower db y := by
  induction x generalizing before with
  | nil =>
    have hy := hc.lowerFrom_before [] before y
    simp only [List.nil_append] at hy
    simp [lowerFrom, lower, hc.ne_sigma, hc.lower_self, hy]
  | cons d x ih => simp [lowerFrom, hc.finalSigma_after, ih]

theorem IsBoundary.lower_append (x y : Text) :
    lower db (x ++ c :: y) = lower db x ++ c :: lower db y :=
  hc.lowerFrom_append [] x y

theorem IsBoundary.insertMark_append (d : Char) (x y : Text) :
    insertMark db d (x ++ c' :: y) = insertMark db d x ++ c' :: y := by
  induction x with
  | nil => simp [insertMark, hc.class_starter]
  | cons e x ih =>
    simp only [List.cons_append, insertMark, ih]
    split_ifs <;> simp

theorem IsBoundary.nfd_append (x y : Text) :
    nfd db (x ++ c :: y) = nfd db x ++ c' :: nfd db y := by
  have hinsert (s t : Text) : (s ++ c' :: t).foldr (insertMark db) [] =
      s.foldr (insertMark db) [] ++ c' :: t.foldr (insertMark db) [] := by
    induction s with
    | nil =>
      cases ht : t.foldr (insertMark db) [] with
      | nil => simp [ht, insertMark]
      | cons d t' => simp [ht, insertMark, hc.class_starter]
    | cons d s ih => simp only [List.cons_append, List.foldr_cons, ih, hc.insertMark_append]
  simp only [nfd, List.flatMap_append, List.flatMap_cons, hc.decompose_starter,
    List.singleton_append, hinsert]

theorem IsBoundary.withoutMarks_append (x y : Text) :
    withoutMarks db (x ++ c :: y) = withoutMarks db x ++ c' :: withoutMarks db y := by
  simp [withoutMarks, hc.nfd_append, hc.not_mark]

end

/-! Plain characters. -/

/-- A lower case starter that decomposes to itself. -/
structure IsPlain (db : Database) (c : Char) : Prop where
  lower_self : db.lower c = [c]
  ne_sigma : c ≠ 'Σ'
  decompose_self : db.decompose c = [c]
  starter : db.combiningClass c = 0
  not_mark : db.nonspacingMark c = false

theorem IsPlain.nfd_cons {db : Database} {c : Char} (hc : IsPlain db c) (s : Text) :
    nfd db (c :: s) = c :: nfd db s := by
  unfold nfd
  rw [List.flatMap_cons, hc.decompose_self, List.singleton_append, List.foldr_cons]
  cases (s.flatMap db.decompose).foldr (insertMark db) [] with
  | nil => rfl
  | cons d t => rw [insertMark, if_pos (Or.inl hc.starter)]

section
variable {db : Database} {s : Text} (h : ∀ c ∈ s, IsPlain db c)
include h

theorem lower_of_plain : lower db s = s := by
  suffices hfrom : ∀ before, lowerFrom db before s = s from hfrom []
  induction s with
  | nil => exact fun _ => rfl
  | cons c s ih =>
    intro before
    have hc := h c (List.mem_cons_self ..)
    rw [lowerFrom, if_neg hc.ne_sigma, hc.lower_self,
      ih (fun d hd => h d (List.mem_cons_of_mem _ hd)), List.singleton_append]

theorem nfd_of_plain : nfd db s = s := by
  induction s with
  | nil => rfl
  | cons c s ih =>
    rw [(h c List.mem_cons_self).nfd_cons, ih fun d hd => h d (List.mem_cons_of_mem c hd)]

theorem withoutMarks_of_plain : withoutMarks db s = s := by
  rw [withoutMarks, nfd_of_plain h, List.filter_eq_self]
  intro c hc
  rw [(h c hc).not_mark]
  rfl

end

/-! Databases that agree. -/

/-- The two databases have the same case and decompositions for the characters in `known`. -/
structure AgreeOn (known : Char → Bool) (db db' : Database) : Prop where
  lowerOf : ∀ c, known c → db.lower c = db'.lower c
  decomposeOf : ∀ c, known c → db.decompose c = db'.decompose c
  classOf : ∀ c, known c → db.combiningClass c = db'.combiningClass c
  markOf : ∀ c, known c → db.nonspacingMark c = db'.nonspacingMark c

section
variable {known : Char → Bool} {db db' : Database} (h : AgreeOn known db db')

theorem all_insertMark {c : Char} {s : Text} (hc : known c) (hs : s.all known) :
    (insertMark db c s).all known := by
  induction s with
  | nil => simp [insertMark, hc]
  | cons d s ih =>
    simp only [List.all_cons, Bool.and_eq_true] at hs
    simp only [insertMark]
    split_ifs
    · simp [hc, hs.1, hs.2]
    · simp [hs.1, ih hs.2]

include h

theorem AgreeOn.lower_eq (hsigma : known 'Σ' = false) {s : Text} (hs : s.all known) :
    lower db s = lower db' s := by
  suffices hfrom : ∀ before before', lowerFrom db before s = lowerFrom db' before' s from
    hfrom [] []
  induction s with
  | nil => intros; rfl
  | cons c s ih =>
    intro before before'
    simp only [List.all_cons, Bool.and_eq_true] at hs
    have hc : c ≠ 'Σ' := by
      rintro rfl
      exact Bool.false_ne_true (hsigma.symm.trans hs.1)
    simp only [lowerFrom, hc, if_false, h.lowerOf c hs.1]
    rw [ih hs.2 (c :: before) (c :: before')]

theorem AgreeOn.insertMark_eq {c : Char} {s : Text} (hc : known c) (hs : s.all known) :
    insertMark db c s = insertMark db' c s := by
  induction s with
  | nil => rfl
  | cons d s ih =>
    simp only [List.all_cons, Bool.and_eq_true] at hs
    simp only [insertMark, h.classOf c hc, h.classOf d hs.1, ih hs.2]

/-- Marks are reordered alike, and every mark stays a known character. -/
theorem AgreeOn.foldr_insertMark {s : Text} (hs : s.all known) :
    s.foldr (insertMark db) [] = s.foldr (insertMark db') [] ∧
      (s.foldr (insertMark db') []).all known := by
  induction s with
  | nil => exact ⟨rfl, rfl⟩
  | cons c s ih =>
    simp only [List.all_cons, Bool.and_eq_true] at hs
    obtain ⟨heq, hall⟩ := ih hs.2
    simp only [List.foldr_cons, heq]
    exact ⟨h.insertMark_eq hs.1 hall, all_insertMark hs.1 hall⟩

theorem AgreeOn.nfd_eq {s : Text} (hs : s.all known) (hd : (s.flatMap db'.decompose).all known) :
    nfd db s = nfd db' s ∧ (nfd db' s).all known := by
  have hdecompose : s.flatMap db.decompose = s.flatMap db'.decompose := by
    refine List.flatMap_congr fun c hc => h.decomposeOf c (List.all_eq_true.mp hs c hc)
  rw [nfd, hdecompose]
  exact h.foldr_insertMark hd

theorem AgreeOn.withoutMarks_eq {s : Text} (hs : s.all known)
    (hd : (s.flatMap db'.decompose).all known) : withoutMarks db s = withoutMarks db' s := by
  obtain ⟨heq, hall⟩ := h.nfd_eq hs hd
  simp only [withoutMarks, heq]
  refine List.filter_congr fun c hc => ?_
  rw [h.markOf c (List.all_eq_true.mp hall c hc)]

end

namespace Vietnamese

/-- ASCII, the Vietnamese letters and the marks. -/
def isKnown (c : Char) : Bool := isAscii c || isLetter c || combiningClass c ≠ 0

/-- The database is right about the known characters: for these it says what `database` says,
and a space has no case. -/
structure Extends (db : Database) : Prop where
  agree : AgreeOn isKnown db database
  space_cased : db.cased ' ' = false
  space_caseIgnorable : db.caseIgnorable ' ' = false

theorem Extends.isBoundary_space {db : Database} (h : Extends db) : IsBoundary db ' ' ' ' where
  lower_self := h.agree.lowerOf ' ' rfl
  ne_sigma := by decide
  decompose_starter := h.agree.decomposeOf ' ' rfl
  class_starter := h.agree.classOf ' ' rfl
  not_mark := h.agree.markOf ' ' rfl
  not_cased := h.space_cased
  not_ignorable := h.space_caseIgnorable

theorem extends_database : Extends database where
  agree := ⟨fun _ _ => rfl, fun _ _ => rfl, fun _ _ => rfl, fun _ _ => rfl⟩
  space_cased := by decide +kernel
  space_caseIgnorable := by decide +kernel

end Vietnamese

end Unicode
