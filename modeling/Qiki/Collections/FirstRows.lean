import Mathlib.Data.List.Sort
import Mathlib.Data.Prod.Lex

/-! The first rows of a list that is ordered by a key, where rows with equal keys come in any order,
and what a filter leaves of them. -/
namespace FirstRows

variable {α κ : Type*} [LinearOrder κ]

def InOrder (key : α → κ) (l : List α) : Prop := l.Pairwise fun a b => key a ≤ key b

/-- The first `n` rows in an order of the key. -/
def IsFirst (key : α → κ) (n : ℕ) (rows page : List α) : Prop :=
  ∃ l, l.Perm rows ∧ InOrder key l ∧ page = l.take n

section
variable {key : α → κ} {n : ℕ} {l : List α} {a b : α}

theorem InOrder.take_le_drop (h : InOrder key l) (ha : a ∈ l.take n) (hb : b ∈ l.drop n) :
    key a ≤ key b := by
  have hsplit : (l.take n ++ l.drop n).Pairwise fun a b => key a ≤ key b := by
    rw [List.take_append_drop]
    exact h
  exact (List.pairwise_append.mp hsplit).2.2 a ha b hb

/-- Behind the first `n` rows there are more than `n` that come no later. -/
theorem InOrder.countP_of_mem_drop (h : InOrder key l) (ha : a ∈ l.drop n) :
    n < l.countP fun b => key b ≤ key a := by
  have hlength : n < l.length := by
    have hpos := List.length_pos_of_mem ha
    rw [List.length_drop] at hpos
    omega
  have htake : (l.take n).countP (fun b => key b ≤ key a) = (l.take n).length :=
    List.countP_eq_length.mpr fun b hb => decide_eq_true (h.take_le_drop hb ha)
  have hdrop : 0 < (l.drop n).countP fun b => key b ≤ key a :=
    List.countP_pos_iff.mpr ⟨a, ha, decide_eq_true (le_refl (key a))⟩
  have hsum : l.countP (fun b => key b ≤ key a) =
      (l.take n).countP (fun b => key b ≤ key a) + (l.drop n).countP fun b => key b ≤ key a := by
    rw [← List.countP_append, List.take_append_drop]
  rw [List.length_take] at htake
  omega

/-- Fewer than `n` rows come strictly before one of the first `n`. -/
theorem InOrder.countP_of_mem_take (h : InOrder key l) (ha : a ∈ l.take n) :
    (l.countP fun b => key b < key a) < n := by
  have hdrop : ((l.drop n).countP fun b => key b < key a) = 0 := by
    refine List.countP_eq_zero.mpr fun b hb hlt => ?_
    exact absurd (of_decide_eq_true hlt) (not_lt.mpr (h.take_le_drop ha hb))
  have htake : ((l.take n).countP fun b => key b < key a) ≠ (l.take n).length := by
    intro heq
    have hlt := List.countP_eq_length.mp heq a ha
    exact absurd (of_decide_eq_true hlt) (lt_irrefl (key a))
  have hle : ((l.take n).countP fun b => key b < key a) ≤ (l.take n).length := List.countP_le_length
  have hsum : l.countP (fun b => key b < key a) =
      (l.take n).countP (fun b => key b < key a) + (l.drop n).countP fun b => key b < key a := by
    rw [← List.countP_append, List.take_append_drop]
  have hlength : (l.take n).length ≤ n := List.length_take_le n l
  omega

/-- One more row adds at most one to a count. -/
theorem countP_le_succ {p q : α → Bool} (hl : l.Nodup)
    (h : ∀ b ∈ l, p b = true → q b = true ∨ b = a) : l.countP p ≤ l.countP q + 1 := by
  induction l with
  | nil => simp
  | cons c l ih =>
    obtain ⟨hc, hl⟩ := List.nodup_cons.mp hl
    have hih := ih hl fun b hb => h b (List.mem_cons_of_mem c hb)
    rw [List.countP_cons, List.countP_cons]
    by_cases hca : c = a
    · have hmono : l.countP p ≤ l.countP q := by
        refine List.countP_mono_left fun b hb hp => ?_
        rcases h b (List.mem_cons_of_mem c hb) hp with hq | hba
        · exact hq
        · exact absurd (hca.trans hba.symm ▸ hb) hc
      split_ifs <;> omega
    · by_cases hp : p c = true
      · have hq := (h c List.mem_cons_self hp).resolve_right hca
        rw [if_pos hp, if_pos hq]
        omega
      · rw [if_neg hp]
        omega

theorem countP_or_le (p q : α → Bool) (l : List α) :
    (l.countP fun b => p b || q b) ≤ l.countP p + l.countP q := by
  induction l with
  | nil => simp
  | cons c l ih =>
    rw [List.countP_cons, List.countP_cons, List.countP_cons]
    cases p c <;> cases q c <;> simp <;> omega

theorem InOrder.of_lex {f : α → ℕ} (h : InOrder (fun a => toLex (key a, f a)) l) : InOrder key l :=
  List.Pairwise.imp (fun hle => by
    rcases Prod.Lex.toLex_le_toLex.mp hle with hlt | ⟨heq, -⟩
    · exact hlt.le
    · exact heq.le) h

theorem InOrder.filter (h : InOrder key l) (p : α → Bool) : InOrder key (l.filter p) :=
  List.Pairwise.filter p h

theorem InOrder.take (h : InOrder key l) (n : ℕ) : InOrder key (l.take n) :=
  List.Pairwise.sublist (List.take_sublist n l) h

end

section
variable {key : α → κ} {n : ℕ} {rows page : List α} {a b : α}

theorem IsFirst.inOrder (h : IsFirst key n rows page) : InOrder key page := by
  obtain ⟨l, -, hl, rfl⟩ := h
  exact hl.take n

theorem IsFirst.mem_rows (h : IsFirst key n rows page) (ha : a ∈ page) : a ∈ rows := by
  obtain ⟨l, hperm, -, rfl⟩ := h
  exact hperm.mem_iff.mp (List.mem_of_mem_take ha)

theorem isFirst_congr {rows' : List α} (h : rows.Perm rows') :
    IsFirst key n rows page ↔ IsFirst key n rows' page := by
  constructor
  · rintro ⟨l, hperm, hl, hpage⟩
    exact ⟨l, hperm.trans h, hl, hpage⟩
  · rintro ⟨l, hperm, hl, hpage⟩
    exact ⟨l, hperm.trans h.symm, hl, hpage⟩

theorem IsFirst.length (h : IsFirst key n rows page) : page.length = min n rows.length := by
  obtain ⟨l, hperm, -, rfl⟩ := h
  rw [List.length_take, hperm.length_eq]

theorem IsFirst.mem (h : IsFirst key n rows page) (ha : a ∈ rows)
    (hcount : (rows.countP fun b => key b ≤ key a) ≤ n) : a ∈ page := by
  obtain ⟨l, hperm, hl, rfl⟩ := h
  have hsplit : a ∈ l.take n ++ l.drop n := by
    rw [List.take_append_drop]
    exact hperm.mem_iff.mpr ha
  rcases List.mem_append.mp hsplit with htake | hdrop
  · exact htake
  · have hlt := hl.countP_of_mem_drop hdrop
    rw [hperm.countP_eq] at hlt
    omega

theorem IsFirst.countP_lt (h : IsFirst key n rows page) (ha : a ∈ page) :
    (rows.countP fun b => key b < key a) < n := by
  obtain ⟨l, hperm, hl, rfl⟩ := h
  rw [← hperm.countP_eq]
  exact hl.countP_of_mem_take ha

/-- A row that is not among the first comes after them all. -/
theorem IsFirst.le_of_not_mem (h : IsFirst key n rows page) (ha : a ∈ rows) (hnot : a ∉ page)
    (hb : b ∈ page) : key b ≤ key a := by
  obtain ⟨l, hperm, hl, rfl⟩ := h
  have hsplit : a ∈ l.take n ++ l.drop n := by
    rw [List.take_append_drop]
    exact hperm.mem_iff.mpr ha
  exact hl.take_le_drop hb ((List.mem_append.mp hsplit).resolve_left hnot)

/-- Where a row is left out, there are `n` others. -/
theorem IsFirst.length_of_not_mem (h : IsFirst key n rows page) (ha : a ∈ rows) (hnot : a ∉ page) :
    page.length = n := by
  obtain ⟨l, hperm, -, rfl⟩ := h
  have hle : n ≤ l.length := by
    by_contra hlt
    rw [List.take_of_length_le (by omega)] at hnot
    exact hnot (hperm.mem_iff.mpr ha)
  rw [List.length_take]
  omega

theorem IsFirst.countP_le (h : IsFirst key n rows page) (p : α → Bool) :
    page.countP p ≤ rows.countP p := by
  obtain ⟨l, hperm, -, rfl⟩ := h
  rw [← hperm.countP_eq]
  exact (List.take_sublist n l).countP_le

theorem exists_isFirst (key : α → κ) (n : ℕ) (rows : List α) : ∃ page, IsFirst key n rows page :=
  ⟨_, rows.insertionSort fun a b => key a ≤ key b, List.perm_insertionSort _ rows,
    List.pairwise_insertionSort _ rows, rfl⟩

/-- A second key decides between rows with equal keys. -/
theorem IsFirst.of_lex {f : α → ℕ} (h : IsFirst (fun a => toLex (key a, f a)) n rows page) :
    IsFirst key n rows page := by
  obtain ⟨l, hperm, hl, hpage⟩ := h
  exact ⟨l, hperm, hl.of_lex, hpage⟩

/-- In every order of equal keys some row that passes is among the first, exactly when fewer than `n`
rows that do not pass come as early as one that does. -/
theorem forall_isFirst_exists_iff (q : α → Bool) :
    (∀ page, IsFirst key n rows page → ∃ a ∈ page, q a = true) ↔
      ∃ a ∈ rows, q a = true ∧ (rows.countP fun b => key b ≤ key a && !q b) < n := by
  constructor
  · intro h
    obtain ⟨page, hpage⟩ := exists_isFirst (fun b => toLex (key b, if q b then 1 else 0)) n rows
    obtain ⟨a, ha, hq⟩ := h page hpage.of_lex
    refine ⟨a, hpage.mem_rows ha, hq, lt_of_le_of_lt ?_ (hpage.countP_lt ha)⟩
    refine List.countP_mono_left fun b _ hb => decide_eq_true (Prod.Lex.toLex_lt_toLex.mpr ?_)
    obtain ⟨hle, hnot⟩ := (Bool.and_eq_true _ _).mp hb
    rcases (of_decide_eq_true hle).lt_or_eq with hlt | heq
    · exact Or.inl hlt
    · have hqb : q b = false := by simpa using hnot
      exact Or.inr ⟨heq, by simp [hq, hqb]⟩
  · rintro ⟨a, ha, hq, hcount⟩ page hpage
    by_contra hnone
    push Not at hnone
    have hnot : a ∉ page := fun hmem => hnone a hmem hq
    have hall : (page.countP fun b => key b ≤ key a && !q b) = page.length := by
      refine List.countP_eq_length.mpr fun b hb => ?_
      have hqb : q b = false := by simpa using hnone b hb
      simp [hpage.le_of_not_mem ha hnot hb, hqb]
    have hle := hpage.countP_le fun b => key b ≤ key a && !q b
    rw [hall, hpage.length_of_not_mem ha hnot] at hle
    omega

theorem InOrder.head_le {l : List α} (h : InOrder key l) (ha : l.head? = some a) :
    ∀ b ∈ l, key a ≤ key b := by
  obtain ⟨l, rfl⟩ := List.head?_eq_some_iff.mp ha
  intro b hb
  rcases List.mem_cons.mp hb with rfl | hb
  · exact le_refl _
  · exact (List.pairwise_cons.mp h).1 b hb

theorem InOrder.le_last {l : List α} (h : InOrder key l) (ha : l.getLast? = some a) :
    ∀ b ∈ l, key b ≤ key a := by
  obtain ⟨l, rfl⟩ := List.getLast?_eq_some_iff.mp ha
  intro b hb
  rcases List.mem_append.mp hb with hb | hb
  · exact (List.pairwise_append.mp h).2.2 b hb a (List.mem_singleton_self a)
  · rw [List.mem_singleton.mp hb]

end

/-! What a filter leaves of the first rows, whatever the order of equal keys. -/

section
variable (key : α → κ) (q : α → Bool) (rows : List α)

/-- The rows that may all come before `a` without one that passes the filter: the smaller keys, and
those with the same key that do not pass. -/
def ahead (a : α) : ℕ := rows.countP fun b => key b < key a || (key b = key a && !q b)

end

section
variable {key : α → κ} {q : α → Bool} {n : ℕ} {rows : List α} {a : α}

/-- The filter may leave nothing. -/
theorem exists_filter_eq_nil :
    (∃ page, IsFirst key n rows page ∧ page.filter q = []) ↔
      ∀ a ∈ rows, q a = true → n ≤ ahead key q rows a := by
  simp only [List.filter_eq_nil_iff, Bool.not_eq_true]
  constructor
  · rintro ⟨page, hpage, hnone⟩ a ha hq
    have hnot : a ∉ page := fun hmem => Bool.false_ne_true ((hnone a hmem).symm.trans hq)
    have hall : (page.countP fun b => key b < key a || (key b = key a && !q b)) = page.length := by
      refine List.countP_eq_length.mpr fun b hb => ?_
      have hle := hpage.le_of_not_mem ha hnot hb
      rcases hle.lt_or_eq with hlt | heq
      · simp [hlt]
      · simp [heq, hnone b hb]
    rw [← hpage.length_of_not_mem ha hnot, ← hall]
    exact hpage.countP_le _
  · intro hahead
    -- the rows that do not pass come first
    obtain ⟨page, hpage⟩ := exists_isFirst (fun a => toLex (key a, if q a then 1 else 0)) n rows
    refine ⟨page, hpage.of_lex, fun a ha => ?_⟩
    by_contra hq
    rw [Bool.not_eq_false] at hq
    have hcount := hahead a (hpage.mem_rows ha) hq
    have hlt := hpage.countP_lt ha
    have hmono : ahead key q rows a ≤ rows.countP fun b =>
        toLex (key b, if q b then 1 else 0) < toLex (key a, if q a then 1 else 0) := by
      refine List.countP_mono_left fun b _ hb => decide_eq_true (Prod.Lex.toLex_lt_toLex.mpr ?_)
      simp only [Bool.or_eq_true, Bool.and_eq_true, decide_eq_true_iff, Bool.not_eq_true'] at hb
      rcases hb with hlt | ⟨heq, hnot⟩
      · exact Or.inl hlt
      · exact Or.inr ⟨heq, by simp [hq, hnot]⟩
    omega

variable [DecidableEq α]

/-- In the order in which `a` comes before all with its key. -/
theorem exists_first_of_key (hrows : rows.Nodup) (ha : a ∈ rows)
    (hcount : (rows.countP fun b => key b < key a) < n) :
    ∃ page, IsFirst (fun b => toLex (key b, if b = a then 0 else 1)) n rows page ∧ a ∈ page := by
  obtain ⟨page, hpage⟩ := exists_isFirst (fun b => toLex (key b, if b = a then 0 else 1)) n rows
  refine ⟨page, hpage, hpage.mem ha ?_⟩
  have hle : rows.countP (fun b => toLex (key b, if b = a then 0 else 1) ≤
      toLex (key a, if a = a then 0 else 1)) ≤ rows.countP (fun b => key b < key a) + 1 := by
    refine countP_le_succ (a := a) hrows fun b _ hb => ?_
    rcases Prod.Lex.toLex_le_toLex.mp (of_decide_eq_true hb) with hlt | ⟨-, hle⟩
    · exact Or.inl (decide_eq_true hlt)
    · right
      by_contra hne
      simp [hne] at hle
  omega

theorem eq_of_toLex_le {b : α} (hkey : key a ≤ key b)
    (h : toLex (key b, if b = a then 0 else 1) ≤ toLex (key a, if a = a then 0 else 1)) : b = a := by
  rcases Prod.Lex.toLex_le_toLex.mp h with hlt | ⟨-, hle⟩
  · exact absurd hlt (not_lt.mpr hkey)
  · by_contra hne
    simp [hne] at hle

/-- Which row the filter may leave first. -/
theorem exists_filter_head (hrows : rows.Nodup) :
    (∃ page, IsFirst key n rows page ∧ (page.filter q).head? = some a) ↔
      (a ∈ rows ∧ q a = true) ∧ (rows.countP fun b => key b < key a) < n ∧
        ∀ b ∈ rows, q b = true → key a ≤ key b := by
  constructor
  · rintro ⟨page, hpage, hhead⟩
    obtain ⟨hmem, hq⟩ := List.mem_filter.mp (List.mem_of_mem_head? hhead)
    refine ⟨⟨hpage.mem_rows hmem, hq⟩, hpage.countP_lt hmem, fun b hb hqb => ?_⟩
    by_cases hin : b ∈ page
    · exact (hpage.inOrder.filter q).head_le hhead b (List.mem_filter.mpr ⟨hin, hqb⟩)
    · exact hpage.le_of_not_mem hb hin hmem
  · rintro ⟨⟨ha, hq⟩, hcount, hleast⟩
    obtain ⟨page, hpage, hmem⟩ := exists_first_of_key hrows ha hcount
    have hfilter : a ∈ page.filter q := List.mem_filter.mpr ⟨hmem, hq⟩
    obtain ⟨b, hb⟩ := Option.isSome_iff_exists.mp
      (List.isSome_head?.mpr (List.ne_nil_of_mem hfilter))
    obtain ⟨hbmem, hqb⟩ := List.mem_filter.mp (List.mem_of_mem_head? hb)
    have hle := (hpage.inOrder.filter q).head_le hb a hfilter
    obtain rfl := eq_of_toLex_le (hleast b (hpage.mem_rows hbmem) hqb) hle
    exact ⟨page, hpage.of_lex, hb⟩

/-- Which rows the filter may leave among the first `k`. -/
theorem exists_mem_filter_take {k : ℕ} (hrows : rows.Nodup) :
    (∃ page, IsFirst key n rows page ∧ a ∈ (page.filter q).take k) ↔
      (a ∈ rows ∧ q a = true) ∧ (rows.countP fun b => key b < key a) < n ∧
        (rows.countP fun b => q b && key b < key a) < k := by
  constructor
  · rintro ⟨page, hpage, htake⟩
    obtain ⟨hmem, hq⟩ := List.mem_filter.mp (List.mem_of_mem_take htake)
    refine ⟨⟨hpage.mem_rows hmem, hq⟩, hpage.countP_lt hmem, ?_⟩
    have hlt := (hpage.inOrder.filter q).countP_of_mem_take htake
    rw [List.countP_filter] at hlt
    refine lt_of_le_of_lt ?_ hlt
    -- every row with a smaller key is among the first
    obtain ⟨l, hperm, hl, rfl⟩ := hpage
    have hdrop : ((l.drop n).countP fun b => q b && key b < key a) = 0 := by
      refine List.countP_eq_zero.mpr fun b hb hsmaller => ?_
      rw [Bool.and_eq_true, decide_eq_true_iff] at hsmaller
      exact absurd hsmaller.2 (not_lt.mpr (hl.take_le_drop hmem hb))
    have hsplit : (l.countP fun b => q b && key b < key a) =
        (l.take n).countP (fun b => q b && key b < key a) +
          (l.drop n).countP fun b => q b && key b < key a := by
      rw [← List.countP_append, List.take_append_drop]
    rw [← hperm.countP_eq, hsplit, hdrop, Nat.add_zero]
    exact List.countP_mono_left fun b _ hb => by simpa [and_comm] using hb
  · rintro ⟨⟨ha, hq⟩, hcount, hk⟩
    obtain ⟨page, hpage, hmem⟩ := exists_first_of_key hrows ha hcount
    refine ⟨page, hpage.of_lex, ?_⟩
    have hfilter : a ∈ page.filter q := List.mem_filter.mpr ⟨hmem, hq⟩
    rw [← List.take_append_drop k (page.filter q)] at hfilter
    rcases List.mem_append.mp hfilter with htake | hdrop
    · exact htake
    · have hlt := (hpage.inOrder.filter q).countP_of_mem_drop hdrop
      rw [List.countP_filter] at hlt
      have hrest := hpage.countP_le fun b => (toLex (key b, if b = a then 0 else 1) ≤
        toLex (key a, if a = a then 0 else 1) : Bool) && q b
      have hle : (rows.countP fun b => (toLex (key b, if b = a then 0 else 1) ≤
          toLex (key a, if a = a then 0 else 1) : Bool) && q b) ≤
            (rows.countP fun b => q b && key b < key a) + 1 := by
        refine countP_le_succ (a := a) hrows fun b _ hb => ?_
        rw [Bool.and_eq_true, decide_eq_true_iff] at hb
        by_cases hkey : key a ≤ key b
        · exact Or.inr (eq_of_toLex_le hkey hb.1)
        · exact Or.inl (by simp [hb.2, not_le.mp hkey])
      omega

omit [DecidableEq α] in
theorem exists_filter_last_of_inOrder {page : List α} {f : α → ℕ}
    (hpage : IsFirst (fun b => toLex (key b, f b)) n rows page) (hmem : a ∈ page) (hq : q a = true)
    (hlast : ∀ b ∈ page, q b = true → toLex (key a, f a) ≤ toLex (key b, f b) → b = a) :
    ∃ page, IsFirst key n rows page ∧ (page.filter q).getLast? = some a := by
  have hfilter : a ∈ page.filter q := List.mem_filter.mpr ⟨hmem, hq⟩
  obtain ⟨b, hb⟩ : ∃ b, (page.filter q).getLast? = some b :=
    Option.ne_none_iff_exists'.mp (mt List.getLast?_eq_none_iff.mp (List.ne_nil_of_mem hfilter))
  obtain ⟨hbmem, hqb⟩ := List.mem_filter.mp (List.mem_of_getLast? hb)
  obtain rfl := hlast b hbmem hqb ((hpage.inOrder.filter q).le_last hb a hfilter)
  exact ⟨page, hpage.of_lex, hb⟩

/-- The rows with the key of `a` all fit: `a` comes behind them, and behind it those that do not pass
come first. -/
theorem exists_filter_last_of_le (ha : a ∈ rows) (hq : q a = true)
    (hfits : (rows.countP fun b => key b ≤ key a) ≤ n)
    (hahead : ∀ b ∈ rows, q b = true → key a < key b → n ≤ ahead key q rows b) :
    ∃ page, IsFirst key n rows page ∧ (page.filter q).getLast? = some a := by
  obtain ⟨page, hpage⟩ := exists_isFirst
    (fun b => toLex (key b, if b = a then 2 else if q b then 1 else 0)) n rows
  refine exists_filter_last_of_inOrder hpage (hpage.of_lex.mem ha hfits) hq fun b hb hqb hle => ?_
  by_contra hne
  rcases Prod.Lex.toLex_le_toLex.mp hle with hlt | ⟨-, hle⟩
  · have hcount := hahead b (hpage.mem_rows hb) hqb hlt
    have hbefore := hpage.countP_lt hb
    have hmono : ahead key q rows b ≤ rows.countP fun c =>
        toLex (key c, if c = a then 2 else if q c then 1 else 0) <
          toLex (key b, if b = a then 2 else if q b then 1 else 0) := by
      refine List.countP_mono_left fun c _ hc => decide_eq_true (Prod.Lex.toLex_lt_toLex.mpr ?_)
      simp only [Bool.or_eq_true, Bool.and_eq_true, decide_eq_true_iff, Bool.not_eq_true'] at hc
      rcases hc with hsmaller | ⟨heq, hnot⟩
      · exact Or.inl hsmaller
      · have hca : c ≠ a := by
          rintro rfl
          exact absurd heq hlt.ne
        exact Or.inr ⟨heq, by simp [hca, hne, hqb, hnot]⟩
    omega
  · simp [hne] at hle
    split_ifs at hle
    omega

/-- The rows with the key of `a` do not all fit: `a` comes last of those that do. -/
theorem exists_filter_last_of_lt (hrows : rows.Nodup) (ha : a ∈ rows) (hq : q a = true)
    (hcount : (rows.countP fun b => key b < key a) < n)
    (hmore : n < rows.countP fun b => key b ≤ key a) :
    ∃ page, IsFirst key n rows page ∧ (page.filter q).getLast? = some a := by
  let smaller := rows.filter fun b => key b < key a
  let others := rows.filter fun b => key b = key a && b ≠ a
  let chosen := others.take (n - 1 - smaller.length)
  have hsmaller : smaller.length = rows.countP fun b => key b < key a :=
    List.countP_eq_length_filter.symm
  have hinSmaller {b : α} : b ∈ smaller ↔ b ∈ rows ∧ key b < key a := by
    simp only [smaller, List.mem_filter, decide_eq_true_iff]
  have hinOthers {b : α} (hb : b ∈ others) : b ∈ rows ∧ key b = key a ∧ b ≠ a := by
    simpa only [others, List.mem_filter, Bool.and_eq_true, decide_eq_true_iff] using hb
  have hothers : n ≤ smaller.length + others.length := by
    have hle : (rows.countP fun b => key b ≤ key a) ≤
        (rows.countP fun b => key b < key a || (key b = key a && b ≠ a)) + 1 := by
      refine countP_le_succ (a := a) hrows fun b _ hb => ?_
      rcases (of_decide_eq_true hb).lt_or_eq with hlt | heq
      · exact Or.inl (by simp [hlt])
      · by_cases hba : b = a
        · exact Or.inr hba
        · exact Or.inl (by simp [heq, hba])
    have hsum : (rows.countP fun b => key b < key a || (key b = key a && b ≠ a)) ≤
        smaller.length + others.length := by
      rw [hsmaller, ← List.countP_eq_length_filter]
      exact countP_or_le _ _ rows
    omega
  have hchosen : smaller.length + chosen.length + 1 = n := by
    have hlength : chosen.length = min (n - 1 - smaller.length) others.length := List.length_take
    omega
  let f : α → ℕ := fun b => if b = a then 1 else if b ∈ chosen then 0 else 2
  have hupTo : (rows.countP fun b => toLex (key b, f b) ≤ toLex (key a, f a)) = n := by
    have hperm : (rows.filter fun b => toLex (key b, f b) ≤ toLex (key a, f a)).Perm
        (a :: (smaller ++ chosen)) := by
      refine (List.perm_ext_iff_of_nodup (hrows.filter _) ?_).mpr fun b => ?_
      · refine List.nodup_cons.mpr ⟨fun hmem => ?_, ?_⟩
        · rcases List.mem_append.mp hmem with hmem | hmem
          · exact lt_irrefl _ (hinSmaller.mp hmem).2
          · exact (hinOthers (List.mem_of_mem_take hmem)).2.2 rfl
        · refine List.nodup_append.mpr ⟨hrows.filter _, ?_, fun b hb c hc hbc => ?_⟩
          · exact (hrows.filter _).sublist (List.take_sublist _ _)
          · have hsame := (hinOthers (List.mem_of_mem_take hc)).2.1
            exact absurd (hbc ▸ hsame) (hinSmaller.mp hb).2.ne
      · rw [List.mem_filter, decide_eq_true_iff, Prod.Lex.toLex_le_toLex, List.mem_cons,
          List.mem_append, hinSmaller]
        constructor
        · rintro ⟨hb, hlt | ⟨heq, hle⟩⟩
          · exact Or.inr (Or.inl ⟨hb, hlt⟩)
          · by_cases hba : b = a
            · exact Or.inl hba
            · by_cases hchosen : b ∈ chosen
              · exact Or.inr (Or.inr hchosen)
              · simp [f, hba, hchosen] at hle
        · rintro (rfl | ⟨hb, hlt⟩ | hb)
          · exact ⟨ha, Or.inr ⟨rfl, le_refl _⟩⟩
          · exact ⟨hb, Or.inl hlt⟩
          · obtain ⟨hrow, heq, hne⟩ := hinOthers (List.mem_of_mem_take hb)
            exact ⟨hrow, Or.inr ⟨heq, by simp [f, hne, hb]⟩⟩
    rw [List.countP_eq_length_filter, hperm.length_eq, List.length_cons, List.length_append]
    exact hchosen
  obtain ⟨page, hpage⟩ := exists_isFirst (fun b => toLex (key b, f b)) n rows
  refine exists_filter_last_of_inOrder hpage (hpage.mem ha hupTo.le) hq fun b hb _ hle => ?_
  by_contra hne
  have hlt : toLex (key a, f a) < toLex (key b, f b) := by
    refine lt_of_le_of_ne hle fun heq => ?_
    have hsame : f a = f b := congrArg (fun x => (ofLex x).2) heq
    simp only [f, hne, if_true, if_false] at hsame
    split_ifs at hsame
    omega
  have hbefore := hpage.countP_lt hb
  have hmono : (rows.countP fun c => toLex (key c, f c) ≤ toLex (key a, f a)) ≤
      rows.countP fun c => toLex (key c, f c) < toLex (key b, f b) :=
    List.countP_mono_left fun c _ hc => decide_eq_true ((of_decide_eq_true hc).trans_lt hlt)
  omega

/-- Which row the filter may leave last. -/
theorem exists_filter_last (hrows : rows.Nodup) :
    (∃ page, IsFirst key n rows page ∧ (page.filter q).getLast? = some a) ↔
      (a ∈ rows ∧ q a = true) ∧ (rows.countP fun b => key b < key a) < n ∧
        ∀ b ∈ rows, q b = true → key a < key b → n ≤ ahead key q rows b := by
  constructor
  · rintro ⟨page, hpage, hlast⟩
    obtain ⟨hmem, hq⟩ := List.mem_filter.mp (List.mem_of_getLast? hlast)
    have hle {b : α} (hb : b ∈ page) (hqb : q b = true) : key b ≤ key a :=
      (hpage.inOrder.filter q).le_last hlast b (List.mem_filter.mpr ⟨hb, hqb⟩)
    refine ⟨⟨hpage.mem_rows hmem, hq⟩, hpage.countP_lt hmem, fun b hb hqb hlt => ?_⟩
    have hnot : b ∉ page := fun hin => absurd (hle hin hqb) (not_le.mpr hlt)
    have hall : (page.countP fun c => key c < key b || (key c = key b && !q c)) = page.length := by
      refine List.countP_eq_length.mpr fun c hc => ?_
      rcases (hpage.le_of_not_mem hb hnot hc).lt_or_eq with hsmaller | heq
      · simp [hsmaller]
      · have hqc : q c = false := by
          by_contra hqc
          rw [Bool.not_eq_false] at hqc
          exact absurd (heq ▸ hle hc hqc) (not_le.mpr hlt)
        simp [heq, hqc]
    rw [← hpage.length_of_not_mem hb hnot, ← hall]
    exact hpage.countP_le _
  · rintro ⟨⟨ha, hq⟩, hcount, hahead⟩
    rcases le_or_gt (rows.countP fun b => key b ≤ key a) n with hfits | hmore
    · exact exists_filter_last_of_le ha hq hfits hahead
    · exact exists_filter_last_of_lt hrows ha hq hcount hmore

/-- Of the rows that do not all fit, each of the last may be left out. -/
theorem exists_isFirst_not_mem (hrows : rows.Nodup)
    (hmore : n < rows.countP fun b => key b ≤ key a) : ∃ page, IsFirst key n rows page ∧ a ∉ page := by
  obtain ⟨page, hpage⟩ := exists_isFirst (fun b => toLex (key b, if b = a then 1 else 0)) n rows
  refine ⟨page, hpage.of_lex, fun hmem => ?_⟩
  have hlt := hpage.countP_lt hmem
  have hle : (rows.countP fun b => key b ≤ key a) ≤ (rows.countP fun b =>
      toLex (key b, if b = a then 1 else 0) < toLex (key a, if a = a then 1 else 0)) + 1 := by
    refine countP_le_succ (a := a) hrows fun b _ hb => ?_
    rcases (of_decide_eq_true hb).lt_or_eq with hsmaller | heq
    · exact Or.inl (decide_eq_true (Prod.Lex.toLex_lt_toLex.mpr (Or.inl hsmaller)))
    · by_cases hba : b = a
      · exact Or.inr hba
      · exact Or.inl (decide_eq_true (Prod.Lex.toLex_lt_toLex.mpr (Or.inr ⟨heq, by simp [hba]⟩)))
  omega

end

/-! The first rows under one condition, filtered by another, as the first rows under the other. -/

section
variable {key : α → κ} {n : ℕ} {rows page all : List α} {p q : α → Bool}

theorem IsFirst.nodup (h : IsFirst key n rows page) (hrows : rows.Nodup) : page.Nodup := by
  obtain ⟨l, hperm, -, rfl⟩ := h
  exact (hperm.nodup_iff.mpr hrows).sublist (List.take_sublist n l)

/-- Nothing that passes is left out, so the first rows hold it all. -/
theorem isFirst_filter_of_fits (hall : all.Nodup)
    (hfits : ∀ a ∈ all, q a = true →
      p a = true ∧ ((all.filter p).countP fun b => key b ≤ key a) ≤ n)
    (hpage : IsFirst key n (all.filter p) page) :
    IsFirst key n (all.filter q) (page.filter q) := by
  have hnodup := hpage.nodup (hall.filter p)
  refine ⟨page.filter q, ?_, hpage.inOrder.filter q, ?_⟩
  · refine (List.perm_ext_iff_of_nodup (hnodup.filter q) (hall.filter q)).mpr fun a => ?_
    rw [List.mem_filter, List.mem_filter]
    constructor
    · rintro ⟨ha, hq⟩
      exact ⟨List.mem_of_mem_filter (hpage.mem_rows ha), hq⟩
    · rintro ⟨ha, hq⟩
      obtain ⟨hp, hcount⟩ := hfits a ha hq
      exact ⟨hpage.mem (List.mem_filter.mpr ⟨ha, hp⟩) hcount, hq⟩
  · have hlength : (page.filter q).length ≤ n := by
      refine (List.length_filter_le q page).trans ?_
      rw [hpage.length]
      exact min_le_left _ _
    rw [List.take_of_length_le hlength]

/-- All that may be first passes, and nothing else that passes comes before it. -/
theorem isFirst_filter_of_full [DecidableEq α] (hall : all.Nodup) (hfull : n ≤ (all.filter p).length)
    (hfirst : ∀ a ∈ all, p a = true → ((all.filter p).countP fun b => key b < key a) < n → q a = true)
    (hother : ∀ a ∈ all, q a = true → p a = false →
      n ≤ (all.filter p).countP fun b => key b ≤ key a)
    (hpage : IsFirst key n (all.filter p) page) :
    IsFirst key n (all.filter q) (page.filter q) := by
  have hpass : page.filter q = page := by
    refine List.filter_eq_self.mpr fun a ha => ?_
    obtain ⟨hmem, hp⟩ := List.mem_filter.mp (hpage.mem_rows ha)
    exact hfirst a hmem hp (hpage.countP_lt ha)
  have hlength : page.length = n := by rw [hpage.length, min_eq_left hfull]
  let left := (all.filter q).filter fun a => a ∉ page
  have hleft {a : α} : a ∈ left ↔ (a ∈ all ∧ q a = true) ∧ a ∉ page := by
    simp only [left, List.mem_filter, decide_eq_true_iff]
  have hafter : ∀ a ∈ page, ∀ b ∈ left, key a ≤ key b := by
    intro a ha b hb
    obtain ⟨⟨hmem, hq⟩, hnot⟩ := hleft.mp hb
    cases hp : p b with
    | true => exact hpage.le_of_not_mem (List.mem_filter.mpr ⟨hmem, hp⟩) hnot ha
    | false =>
      have hmany := hother b hmem hq hp
      have hfew := hpage.countP_lt ha
      by_contra hlt
      have hmono : ((all.filter p).countP fun c => key c ≤ key b) ≤
          (all.filter p).countP fun c => key c < key a :=
        List.countP_mono_left fun c _ hc =>
          decide_eq_true ((of_decide_eq_true hc).trans_lt (not_le.mp hlt))
      omega
  let sorted := left.insertionSort fun a b => key a ≤ key b
  have hsorted : sorted.Perm left := List.perm_insertionSort _ left
  rw [hpass]
  refine ⟨page ++ sorted, ?_, ?_, ?_⟩
  · refine (hsorted.append_left page).trans
      ((List.perm_ext_iff_of_nodup ?_ (hall.filter q)).mpr fun a => ?_)
    · refine List.nodup_append.mpr ⟨hpage.nodup (hall.filter p), (hall.filter q).filter _, ?_⟩
      rintro a ha b hb rfl
      exact (hleft.mp hb).2 ha
    · rw [List.mem_append, hleft, List.mem_filter]
      constructor
      · rintro (ha | ⟨ha, -⟩)
        · have hq : q a = true := List.filter_eq_self.mp hpass a ha
          exact ⟨List.mem_of_mem_filter (hpage.mem_rows ha), hq⟩
        · exact ha
      · intro ha
        by_cases hin : a ∈ page
        · exact Or.inl hin
        · exact Or.inr ⟨ha, hin⟩
  · refine List.pairwise_append.mpr ⟨hpage.inOrder, List.pairwise_insertionSort _ left, ?_⟩
    exact fun a ha b hb => hafter a ha b (hsorted.mem_iff.mp hb)
  · rw [← hlength, List.take_left']
    rfl

/-- The two agree in every order of equal keys exactly in these two cases. -/
theorem isFirst_filter_iff [DecidableEq α] (hall : all.Nodup) :
    (∀ page, IsFirst key n (all.filter p) page → IsFirst key n (all.filter q) (page.filter q)) ↔
      (∀ a ∈ all, q a = true → p a = true ∧ ((all.filter p).countP fun b => key b ≤ key a) ≤ n) ∨
      (n ≤ (all.filter p).length ∧
        (∀ a ∈ all, p a = true → ((all.filter p).countP fun b => key b < key a) < n → q a = true) ∧
        ∀ a ∈ all, q a = true → p a = false →
          n ≤ (all.filter p).countP fun b => key b ≤ key a) := by
  constructor
  · intro hagree
    by_cases hfits : ∀ a ∈ all, q a = true →
        p a = true ∧ ((all.filter p).countP fun b => key b ≤ key a) ≤ n
    · exact Or.inl hfits
    · right
      push Not at hfits
      obtain ⟨a, ha, hq, hout⟩ := hfits
      -- in some order the row is left out
      obtain ⟨page₀, hpage₀, hnot⟩ : ∃ page, IsFirst key n (all.filter p) page ∧ a ∉ page := by
        cases hp : p a with
        | true => exact exists_isFirst_not_mem (hall.filter p) (hout hp)
        | false =>
          obtain ⟨page, hpage⟩ := exists_isFirst key n (all.filter p)
          refine ⟨page, hpage, fun hmem => ?_⟩
          have htrue := (List.mem_filter.mp (hpage.mem_rows hmem)).2
          exact Bool.false_ne_true (hp.symm.trans htrue)
      have hmany : n ≤ (all.filter q).length := by
        have hfirst := hagree page₀ hpage₀
        have hlength := hfirst.length_of_not_mem (List.mem_filter.mpr ⟨ha, hq⟩)
          fun hmem => hnot (List.mem_of_mem_filter hmem)
        rw [hfirst.length] at hlength
        omega
      -- so in every order the first rows are `n` that pass
      have hpass {page : List α} (hpage : IsFirst key n (all.filter p) page) :
          page.filter q = page ∧ page.length = n := by
        have hlength := (hagree page hpage).length
        have hle := List.length_filter_le q page
        have hpageLength := hpage.length
        have hself : (page.filter q).length = page.length := by omega
        exact ⟨List.filter_eq_self.mpr (List.length_filter_eq_length_iff.mp hself), by omega⟩
      refine ⟨?_, fun b hb hp hcount => ?_, fun b hb hqb hp => ?_⟩
      · have hlength := hpage₀.length
        have hfull := (hpass hpage₀).2
        omega
      · obtain ⟨page, hpage, hmem⟩ := exists_first_of_key (hall.filter p)
          (List.mem_filter.mpr ⟨hb, hp⟩) hcount
        exact List.filter_eq_self.mp (hpass hpage.of_lex).1 b hmem
      · obtain ⟨hself, hlength⟩ := hpass hpage₀
        have hnot : b ∉ page₀.filter q := fun hmem => by
          have hrow := (List.mem_filter.mp (hpage₀.mem_rows (List.mem_of_mem_filter hmem))).2
          exact Bool.false_ne_true (hp.symm.trans hrow)
        have hbefore : (page₀.countP fun c => key c ≤ key b) = page₀.length := by
          refine List.countP_eq_length.mpr fun c hc => decide_eq_true ?_
          exact (hagree page₀ hpage₀).le_of_not_mem (List.mem_filter.mpr ⟨hb, hqb⟩) hnot
            (hself.symm ▸ hc)
        rw [← hlength, ← hbefore]
        exact hpage₀.countP_le _
  · rintro (hfits | ⟨hfull, hfirst, hother⟩) page hpage
    · exact isFirst_filter_of_fits hall hfits hpage
    · exact isFirst_filter_of_full hall hfull hfirst hother hpage

end

end FirstRows
