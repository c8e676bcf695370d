import Qiki.Text.Spelling

/-! Where a search finds its first match, and what a match reads. -/
namespace Regex

variable {m : Mode} {r a b : Regex} {p q : Text → Prop} {s x y : Text} {k k' : Cursor}

/-- The cursor between two texts. -/
def Cursor.between (x y : Text) : Cursor := ⟨x.reverse, y, []⟩

theorem matchAt_eq_some {found : Match} : matchAt m r k = some found ↔
    found.start = k ∧ ∃ ks, results m r k = found.stop :: ks := by
  unfold matchAt
  cases hresults : results m r k with
  | nil => simp
  | cons k' ks =>
    simp only [List.head?_cons, Option.map_some, Option.some.injEq, List.cons.injEq, exists_and_left,
      exists_eq', and_true]
    constructor
    · rintro rfl
      exact ⟨rfl, rfl⟩
    · rintro ⟨rfl, rfl⟩
      rfl

theorem matchAt_eq_none : matchAt m r k = none ↔ results m r k = [] := by
  unfold matchAt
  rw [Option.map_eq_none_iff, List.head?_eq_none_iff]

/-- A search tries one place after the other. -/
theorem searchFrom_eq (x y : Text) : searchFrom m r y.length (.between x y) =
    (List.range (y.length + 1)).findSome? fun i =>
      matchAt m r (.between (x ++ y.take i) (y.drop i)) := by
  induction y generalizing x with
  | nil =>
    have hone : List.range (0 + 1) = [0] := rfl
    simp only [List.length_nil, searchFrom, hone, List.take_nil, List.drop_nil, List.append_nil,
      List.findSome?_singleton]
  | cons c s ih =>
    have hnext : ({ before := c :: x.reverse, rest := s } : Cursor) = .between (x ++ [c]) s := by
      simp [Cursor.between]
    rw [List.length_cons, List.range_succ_eq_map, List.findSome?_cons, List.findSome?_map, searchFrom]
    simp only [List.take_zero, List.append_nil, List.drop_zero]
    cases hmatch : matchAt m r (.between x (c :: s)) with
    | some found => rfl
    | none =>
      have hrest := ih (x ++ [c])
      simp only [List.append_assoc, List.singleton_append] at hrest
      simp only [Cursor.between, Function.comp_def, Nat.succ_eq_add_one, List.take_succ_cons,
        List.drop_succ_cons] at hrest hnext ⊢
      rw [hnext, hrest]

theorem search_eq (s : Text) : search m r s = (List.range (s.length + 1)).findSome? fun i =>
    matchAt m r (.between (s.take i) (s.drop i)) := searchFrom_eq [] s

/-- What is found is a match at some place. -/
theorem exists_of_search {found : Match} (h : search m r s = some found) :
    ∃ x y ks, s = x ++ y ∧ found.start = .between x y ∧
      results m r (.between x y) = found.stop :: ks := by
  rw [search_eq] at h
  obtain ⟨i, -, hi⟩ := List.exists_of_findSome?_eq_some h
  obtain ⟨hstart, ks, hresults⟩ := matchAt_eq_some.mp hi
  exact ⟨s.take i, s.drop i, ks, (List.take_append_drop i s).symm, hstart, hresults⟩

theorem search_eq_none : search m r s = none ↔
    ∀ x y, s = x ++ y → results m r (.between x y) = [] := by
  simp only [search_eq, List.findSome?_eq_none_iff, matchAt_eq_none, List.mem_range]
  constructor
  · rintro h x y rfl
    have hplace := h x.length (by rw [List.length_append]; omega)
    rwa [List.take_left, List.drop_left] at hplace
  · exact fun h i _ => h _ _ (List.take_append_drop i s).symm

theorem search_isSome : (search m r s).isSome = true ↔
    ∃ x y k', s = x ++ y ∧ k' ∈ results m r (.between x y) := by
  rw [Option.isSome_iff_ne_none, ne_eq, search_eq_none]
  push Not
  refine exists_congr fun x => exists_congr fun y => ?_
  rw [← List.isEmpty_eq_false_iff, List.isEmpty_eq_false_iff_exists_mem, exists_and_left]

/-- The first place with a match is the one that is found. -/
theorem search_first {ks : List Cursor} (hres : results m r (.between x y) = k' :: ks)
    (hbefore : ∀ x' y', x ++ y = x' ++ y' → x'.length < x.length → results m r (.between x' y') = []) :
    search m r (x ++ y) = some ⟨.between x y, k'⟩ := by
  have hfound : matchAt m r (.between x y) = some ⟨.between x y, k'⟩ :=
    matchAt_eq_some.mpr ⟨rfl, ks, hres⟩
  have hlength : (x ++ y).length + 1 = x.length + (y.length + 1) := by
    rw [List.length_append]
    omega
  have hearlier : (List.range x.length).findSome? (fun i =>
      matchAt m r (.between ((x ++ y).take i) ((x ++ y).drop i))) = none := by
    refine List.findSome?_eq_none_iff.mpr fun i hi => matchAt_eq_none.mpr ?_
    have hi := List.mem_range.mp hi
    refine hbefore _ _ (List.take_append_drop i _).symm ?_
    rw [List.length_take, List.length_append]
    omega
  rw [search_eq, hlength, List.range_add, List.findSome?_append, hearlier, Option.none_or,
    List.range_succ_eq_map, List.map_cons, List.findSome?_cons, Nat.add_zero, List.take_left,
    List.drop_left, hfound]

/-- Where nothing is found, nothing is replaced. -/
theorem sub_eq_self (h : search m r s = none) (replacement : Match → Text) :
    sub m r replacement s = s := by
  have hnone : finditer m r s = [] := by
    unfold finditer
    cases hlength : s.length with
    | zero => rfl
    | succ n =>
      have hsearch : searchFrom m r s.length ⟨[], s, []⟩ = none := h
      rw [findFrom, hsearch]
  simp [sub, hnone, gaps]

/-! What stands first in an expression. -/

theorem Spells.mem_seq (ha : Spells m a p) : k' ∈ results m (Regex.seq a b) k ↔
    ∃ s rest, p s ∧ k.rest = s ++ rest ∧ k' ∈ results m b (k.after s rest) := by
  simp only [results, List.mem_flatMap]
  constructor
  · rintro ⟨j, hj, hk'⟩
    obtain ⟨s, rest, hs, hrest, rfl⟩ := (ha k j).mp hj
    exact ⟨s, rest, hs, hrest, hk'⟩
  · rintro ⟨s, rest, hs, hrest, hk'⟩
    exact ⟨k.after s rest, (ha k _).mpr ⟨s, rest, hs, hrest, rfl⟩, hk'⟩

/-- The cursor behind a text that a group has read. -/
def Cursor.afterGroup (k : Cursor) (n : ℕ) (s rest : Text) : Cursor :=
  { k.after s rest with groups := (n, s) :: k.groups }

theorem Cursor.upTo_after {s rest : Text} (h : k.rest = s ++ rest) : k.upTo (k.after s rest) = s := by
  have hlength : k.rest.length - rest.length = s.length := by
    rw [h, List.length_append]
    omega
  rw [upTo, after, hlength, h, List.take_left]

theorem Spells.mem_seq_group {n : ℕ} (ha : Spells m a p) : k' ∈ results m (Regex.seq (group n a) b) k ↔
    ∃ s rest, p s ∧ k.rest = s ++ rest ∧ k' ∈ results m b (k.afterGroup n s rest) := by
  simp only [results, List.mem_flatMap, List.mem_map]
  constructor
  · rintro ⟨_, ⟨j, hj, rfl⟩, hk'⟩
    obtain ⟨s, rest, hs, hrest, rfl⟩ := (ha k j).mp hj
    rw [Cursor.upTo_after hrest] at hk'
    exact ⟨s, rest, hs, hrest, hk'⟩
  · rintro ⟨s, rest, hs, hrest, hk'⟩
    refine ⟨k.afterGroup n s rest, ⟨k.after s rest, (ha k _).mpr ⟨s, rest, hs, hrest, rfl⟩, ?_⟩, hk'⟩
    rw [Cursor.upTo_after hrest]
    rfl

theorem mem_results_wordBoundary :
    k' ∈ results m wordBoundary k ↔ m.atBoundary k = true ∧ k' = k := by
  rw [results]
  split_ifs with h
  · rw [List.mem_singleton, and_iff_right h]
  · exact iff_of_false List.not_mem_nil fun hboth => h hboth.1

theorem mem_seq_wordBoundary : k' ∈ results m (Regex.seq wordBoundary b) k ↔
    m.atBoundary k = true ∧ k' ∈ results m b k := by
  simp only [results, List.mem_flatMap]
  constructor
  · rintro ⟨j, hj, hk'⟩
    obtain ⟨hboundary, rfl⟩ := mem_results_wordBoundary.mp hj
    exact ⟨hboundary, hk'⟩
  · rintro ⟨hboundary, hk'⟩
    exact ⟨k, mem_results_wordBoundary.mpr ⟨hboundary, rfl⟩, hk'⟩

/-- One of several literals. -/
theorem Spells.altOf_literal (hcase : m.ignoreCase = false) {units : List Text} (hne : units ≠ [])
    (h : ∀ u ∈ units, u ≠ []) : Spells m (altOf (units.map Regex.literal)) (· ∈ units) := by
  have hone (u : Text) (hu : u ≠ []) : Spells m (Regex.literal u) (· = u) := by
    obtain ⟨c, s, rfl⟩ := List.exists_cons_of_ne_nil hu
    exact Spells.literal hcase c s
  induction units with
  | nil => exact absurd rfl hne
  | cons u us ih =>
    obtain ⟨hu, hus⟩ := List.forall_mem_cons.mp h
    cases us with
    | nil => exact (hone u hu).congr fun s => List.mem_singleton.symm
    | cons v us =>
      have hrest := ih (List.cons_ne_nil v us) hus
      exact ((hone u hu).alt hrest).congr fun s => List.mem_cons.symm

/-- Up to `n + 1` characters of the classes. -/
theorem Spells.optionals (classes : List CharClass) (n : ℕ) :
    Spells m (upToTimes.optionals (Regex.oneOf false classes) n) fun s =>
      s.length ≤ n + 1 ∧ ∀ c ∈ s, classes.any (m.matchesClass c) = true := by
  have hone (s : Text) : (∃ c, classes.any (m.matchesClass c) = true ∧ s = [c]) ↔
      s.length = 1 ∧ ∀ c ∈ s, classes.any (m.matchesClass c) = true := by
    constructor
    · rintro ⟨c, hc, rfl⟩
      exact ⟨rfl, fun d hd => List.mem_singleton.mp hd ▸ hc⟩
    · rintro ⟨hlength, hs⟩
      obtain ⟨c, rfl⟩ := List.length_eq_one_iff.mp hlength
      exact ⟨c, hs c (List.mem_singleton_self c), rfl⟩
  induction n with
  | zero =>
    refine (Spells.oneOf classes).optional.congr fun s => ?_
    rw [hone]
    constructor
    · rintro (⟨hlength, hs⟩ | rfl)
      · exact ⟨hlength.le, hs⟩
      · exact ⟨Nat.zero_le _, List.forall_mem_nil _⟩
    · rintro ⟨hlength, hs⟩
      rcases Nat.le_one_iff_eq_zero_or_eq_one.mp hlength with hzero | hlength
      · exact Or.inr (List.length_eq_zero_iff.mp hzero)
      · exact Or.inl ⟨hlength, hs⟩
  | succ n ih =>
    refine ((Spells.oneOf classes).seq ih).optional.congr fun s => ?_
    constructor
    · rintro (⟨_, y, ⟨c, hc, rfl⟩, ⟨hlength, hy⟩, rfl⟩ | rfl)
      · refine ⟨by rw [List.singleton_append, List.length_cons]; omega, ?_⟩
        exact List.forall_mem_cons.mpr ⟨hc, hy⟩
      · exact ⟨Nat.zero_le _, List.forall_mem_nil _⟩
    · rintro ⟨hlength, hs⟩
      cases s with
      | nil => exact Or.inr rfl
      | cons c s =>
        obtain ⟨hc, hs⟩ := List.forall_mem_cons.mp hs
        exact Or.inl ⟨[c], s, ⟨c, hc, rfl⟩, ⟨Nat.le_of_succ_le_succ hlength, hs⟩, rfl⟩

/-- From `lo + 1` to `lo + extra + 2` characters of the classes. -/
theorem Spells.upToTimes (classes : List CharClass) (lo extra : ℕ) :
    Spells m (upToTimes (Regex.oneOf false classes) (lo + 1) (extra + 1)) fun s =>
      (lo + 1 ≤ s.length ∧ s.length ≤ lo + extra + 2) ∧
        ∀ c ∈ s, classes.any (m.matchesClass c) = true := by
  refine ((Spells.times classes lo).seq (Spells.optionals classes extra)).congr fun s => ?_
  constructor
  · rintro ⟨x, y, ⟨hx, hxs⟩, ⟨hy, hys⟩, rfl⟩
    rw [List.length_append]
    refine ⟨⟨by omega, by omega⟩, fun c hc => ?_⟩
    exact (List.mem_append.mp hc).elim (hxs c) (hys c)
  · rintro ⟨⟨hlow, hhigh⟩, hs⟩
    refine ⟨s.take (lo + 1), s.drop (lo + 1), ⟨?_, fun c hc => hs c (List.mem_of_mem_take hc)⟩,
      ⟨?_, fun c hc => hs c (List.mem_of_mem_drop hc)⟩, (List.take_append_drop _ s).symm⟩
    · rw [List.length_take]
      omega
    · rw [List.length_drop]
      omega

/-- `\b(a)\b` -/
theorem mem_bounded {n : ℕ} (ha : Spells m a p) :
    k' ∈ results m (seqOf [wordBoundary, group n a, wordBoundary]) k ↔ m.atBoundary k = true ∧
      ∃ s rest, p s ∧ k.rest = s ++ rest ∧ m.atBoundary (k.after s rest) = true ∧
        k' = k.afterGroup n s rest := by
  have hsplit : seqOf [wordBoundary, group n a, wordBoundary] =
      seq wordBoundary (seq (group n a) wordBoundary) := rfl
  rw [hsplit, mem_seq_wordBoundary, ha.mem_seq_group]
  simp only [mem_results_wordBoundary]
  rfl

/-- What the group reads first is matched first. -/
theorem results_bounded {n : ℕ} {s rest : Text} {ks : List Cursor}
    (ha : results m a k = k.after s rest :: ks) (hk : k.rest = s ++ rest)
    (hleft : m.atBoundary k = true) (hright : m.atBoundary (k.after s rest) = true) :
    ∃ ks', results m (seqOf [wordBoundary, group n a, wordBoundary]) k =
      k.afterGroup n s rest :: ks' := by
  have hgroup : results m (group n a) k = k.afterGroup n s rest ::
      ks.map fun k' => { k' with groups := (n, k.upTo k') :: k'.groups } := by
    rw [results, ha, List.map_cons, Cursor.upTo_after hk]
    rfl
  have hboundary : results m wordBoundary (k.afterGroup n s rest) = [k.afterGroup n s rest] :=
    if_pos hright
  have hsplit : seqOf [wordBoundary, group n a, wordBoundary] =
      seq wordBoundary (seq (group n a) wordBoundary) := rfl
  refine ⟨(ks.map fun k' => { k' with groups := (n, k.upTo k') :: k'.groups }).flatMap
    (results m wordBoundary), ?_⟩
  rw [hsplit, results, results, if_pos hleft, List.flatMap_singleton, results, hgroup,
    List.flatMap_cons, hboundary, List.singleton_append]

/-- What begins and ends with a digit stands within the only digits of a text. -/
theorem exists_window {P : Char → Prop} {before body after x t z : Text}
    (h : before ++ (body ++ after) = x ++ (t ++ z)) (hbefore : ∀ c ∈ before, ¬ P c)
    (hafter : ∀ c ∈ after, ¬ P c) (hfirst : ∃ d rest, t = d :: rest ∧ P d)
    (hlast : ∃ front d, t = front ++ [d] ∧ P d) :
    ∃ f g, x = before ++ f ∧ body = f ++ (t ++ g) ∧ z = g ++ after := by
  obtain ⟨d, rest, hd, hdigit⟩ := hfirst
  obtain ⟨front, e, he, hdigit'⟩ := hlast
  have hleft : ∃ f, x = before ++ f ∧ body ++ after = f ++ (t ++ z) := by
    rcases List.append_eq_append_iff.mp h with ⟨f, hx, hrest⟩ | ⟨f, hx, hrest⟩
    · exact ⟨f, hx, hrest⟩
    · cases f with
      | nil => exact ⟨[], by simpa using hx.symm, by simpa using hrest.symm⟩
      | cons c f =>
        rw [hd, List.cons_append, List.cons_append] at hrest
        have hc : d = c := (List.cons.inj hrest).1
        exact absurd (hc ▸ hdigit) (hbefore c (by rw [hx]; simp))
  obtain ⟨f, hx, hrest⟩ := hleft
  rw [← List.append_assoc f] at hrest
  rcases List.append_eq_append_iff.mp hrest with ⟨g, hbody, hz⟩ | ⟨g, hbody, hz⟩
  · cases hg : g.reverse with
    | nil =>
      have hnil : g = [] := List.reverse_eq_nil_iff.mp hg
      rw [hnil, List.append_nil] at hbody
      rw [hnil, List.nil_append] at hz
      exact ⟨f, [], hx, by rw [List.append_nil, hbody], hz.symm⟩
    | cons c g' =>
      have hg : g = g'.reverse ++ [c] := by
        rw [← List.reverse_reverse g, hg, List.reverse_cons]
      rw [he, hg, ← List.append_assoc, ← List.append_assoc] at hbody
      have hc : e = c := by simpa using (List.append_inj' hbody rfl).2
      exact absurd (hc ▸ hdigit') (hafter c (by rw [hz, hg]; simp))
  · exact ⟨f, g, hx, by rw [hbody, List.append_assoc], hz⟩

theorem atBoundary_between (x y : Text) :
    m.atBoundary (.between x y) = (x.getLast?.any m.word != y.head?.any m.word) := by
  simp [Mode.atBoundary, Cursor.between]

end Regex
