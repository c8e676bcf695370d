import Qiki.Text.Regex

/-! Regular expressions that read a set of texts, whatever stands around them. -/
namespace Regex

variable {m : Mode} {a b : Regex} {p q : Text → Prop}

/-- The cursor behind a text that was read. -/
def Cursor.after (k : Cursor) (s rest : Text) : Cursor :=
  { k with before := s.reverse ++ k.before, rest := rest }

@[simp] theorem Cursor.after_nil (k : Cursor) : k.after [] k.rest = k := rfl

/-- The expression matches exactly the texts of `p`, and sets no group. -/
def Spells (m : Mode) (r : Regex) (p : Text → Prop) : Prop :=
  ∀ k k', k' ∈ results m r k ↔ ∃ s rest, p s ∧ k.rest = s ++ rest ∧ k' = k.after s rest

/-- One character that is in one of the classes, or in none of them. -/
theorem Spells.oneChar (negated : Bool) (classes : List CharClass) :
    Spells m (oneOf negated classes) fun s =>
      ∃ c, (classes.any (m.matchesClass c) != negated) = true ∧ s = [c] := by
  intro k k'
  simp only [results]
  cases hrest : k.rest with
  | nil =>
    refine iff_of_false List.not_mem_nil ?_
    rintro ⟨_, rest, ⟨c, -, rfl⟩, h, -⟩
    cases h
  | cons c s =>
    dsimp only
    constructor
    · intro h
      split_ifs at h with hc
      · exact ⟨[c], s, ⟨c, hc, rfl⟩, rfl, List.mem_singleton.mp h⟩
      · cases h
    · rintro ⟨_, rest, ⟨d, hd, rfl⟩, h, rfl⟩
      obtain ⟨rfl, rfl⟩ := List.cons.inj h
      rw [if_pos hd]
      exact List.mem_singleton.mpr rfl

theorem Spells.oneOf (classes : List CharClass) :
    Spells m (oneOf false classes) fun s => ∃ c, classes.any (m.matchesClass c) = true ∧ s = [c] := by
  have h := @Spells.oneChar m false classes
  simp only [Bool.bne_false] at h
  exact h

theorem Spells.seq (ha : Spells m a p) (hb : Spells m b q) :
    Spells m (seq a b) fun s => ∃ x y, p x ∧ q y ∧ s = x ++ y := by
  intro k k'
  simp only [results, List.mem_flatMap]
  constructor
  · rintro ⟨j, hj, hk'⟩
    obtain ⟨x, u, hx, hu, rfl⟩ := (ha k j).mp hj
    obtain ⟨y, v, hy, hv, rfl⟩ := (hb _ k').mp hk'
    have hv : u = y ++ v := hv
    refine ⟨x ++ y, v, ⟨x, y, hx, hy, rfl⟩, by rw [hu, hv, List.append_assoc], ?_⟩
    simp only [Cursor.after, List.reverse_append, List.append_assoc]
  · rintro ⟨_, v, ⟨x, y, hx, hy, rfl⟩, hv, rfl⟩
    refine ⟨k.after x (y ++ v), (ha k _).mpr ⟨x, y ++ v, hx, by rw [hv, List.append_assoc], rfl⟩,
      (hb _ _).mpr ⟨y, v, hy, rfl, ?_⟩⟩
    simp only [Cursor.after, List.reverse_append, List.append_assoc]

theorem Spells.alt (ha : Spells m a p) (hb : Spells m b q) :
    Spells m (alt a b) fun s => p s ∨ q s := by
  intro k k'
  simp only [results, List.mem_append, ha k k', hb k k']
  constructor
  · rintro (⟨s, rest, hs, h⟩ | ⟨s, rest, hs, h⟩)
    · exact ⟨s, rest, Or.inl hs, h⟩
    · exact ⟨s, rest, Or.inr hs, h⟩
  · rintro ⟨s, rest, hs | hs, h⟩
    · exact Or.inl ⟨s, rest, hs, h⟩
    · exact Or.inr ⟨s, rest, hs, h⟩

/-- A repetition reads the texts put together from those of the expression. -/
theorem Spells.star (ha : Spells m a p) (hne : ¬ p []) (greedy : Bool) :
    Spells m (star greedy a) fun s => ∃ l : List Text, (∀ x ∈ l, p x) ∧ s = l.flatten := by
  have hrounds (n : ℕ) : ∀ k k' : Cursor, k.rest.length ≤ n →
      (k' ∈ iterate greedy (results m a) n k ↔ ∃ (l : List Text) (rest : Text),
        (∀ x ∈ l, p x) ∧ k.rest = l.flatten ++ rest ∧ k' = k.after l.flatten rest) := by
    induction n with
    | zero =>
      intro k k' hn
      have hrest : k.rest = [] := List.length_eq_zero_iff.mp (Nat.le_zero.mp hn)
      have hnil : k.after [] [] = k := hrest ▸ Cursor.after_nil k
      rw [iterate, List.mem_singleton]
      constructor
      · rintro rfl
        exact ⟨[], [], List.forall_mem_nil p, hrest, hnil.symm⟩
      · rintro ⟨l, rest, hl, heq, rfl⟩
        rw [hrest] at heq
        obtain ⟨hflat, rfl⟩ := List.append_eq_nil_iff.mp heq.symm
        rw [hflat, hnil]
    | succ n ih =>
      intro k k' hn
      have hround : k' ∈ iterate greedy (results m a) (n + 1) k ↔ k' = k ∨
          ∃ j ∈ results m a k, j.rest.length < k.rest.length ∧
            k' ∈ iterate greedy (results m a) n j := by
        have hmore : k' ∈ ((results m a k).flatMap fun j =>
            if j.rest.length < k.rest.length then iterate greedy (results m a) n j else []) ↔
            ∃ j ∈ results m a k, j.rest.length < k.rest.length ∧
              k' ∈ iterate greedy (results m a) n j := by
          rw [List.mem_flatMap]
          refine exists_congr fun j => and_congr_right fun _ => ?_
          split_ifs with hj
          · exact (and_iff_right hj).symm
          · exact iff_of_false List.not_mem_nil fun h => hj h.1
        rw [iterate]
        cases greedy with
        | true => rw [if_pos rfl, List.mem_append, hmore, List.mem_singleton, or_comm]
        | false => rw [if_neg Bool.false_ne_true, List.mem_cons, hmore]
      rw [hround]
      constructor
      · rintro (rfl | ⟨j, hj, hless, hk'⟩)
        · exact ⟨[], k'.rest, List.forall_mem_nil p, rfl, rfl⟩
        · obtain ⟨x, u, hx, hu, rfl⟩ := (ha k j).mp hj
          have hlength : u.length ≤ n := by
            have hless : u.length < k.rest.length := hless
            omega
          obtain ⟨l, rest, hl, hrest, rfl⟩ := (ih _ k' hlength).mp hk'
          have hrest : u = l.flatten ++ rest := hrest
          refine ⟨x :: l, rest, List.forall_mem_cons.mpr ⟨hx, hl⟩, ?_, ?_⟩
          · rw [hu, hrest, List.flatten_cons, List.append_assoc]
          · simp only [Cursor.after, List.flatten_cons, List.reverse_append, List.append_assoc]
      · rintro ⟨l, rest, hl, hrest, rfl⟩
        cases l with
        | nil =>
          left
          rw [List.flatten_nil, List.nil_append] at hrest
          rw [List.flatten_nil, ← hrest, Cursor.after_nil]
        | cons x l =>
          right
          obtain ⟨hx, hl⟩ := List.forall_mem_cons.mp hl
          rw [List.flatten_cons, List.append_assoc] at hrest
          have hpos : 0 < x.length := by
            rw [List.length_pos_iff]
            rintro rfl
            exact hne hx
          have hless : (l.flatten ++ rest).length < k.rest.length := by
            rw [hrest, @List.length_append _ x]
            omega
          refine ⟨k.after x (l.flatten ++ rest), (ha k _).mpr ⟨x, _, hx, hrest, rfl⟩, hless, ?_⟩
          have hlength : (l.flatten ++ rest).length ≤ n := by omega
          refine (ih _ _ hlength).mpr ⟨l, rest, hl, rfl, ?_⟩
          simp only [Cursor.after, List.flatten_cons, List.reverse_append, List.append_assoc]
  intro k k'
  rw [results, hrounds k.rest.length k k' le_rfl]
  constructor
  · rintro ⟨l, rest, hl, h⟩
    exact ⟨l.flatten, rest, ⟨l, hl, rfl⟩, h⟩
  · rintro ⟨_, rest, ⟨l, hl, rfl⟩, h⟩
    exact ⟨l, rest, hl, h⟩

theorem Spells.congr (h : Spells m a p) (hp : ∀ s, p s ↔ q s) : Spells m a q := by
  intro k k'
  simp only [h k k', hp]

theorem Spells.empty : Spells m empty (· = []) := by
  intro k k'
  rw [results, List.mem_singleton]
  constructor
  · rintro rfl
    exact ⟨[], k'.rest, rfl, rfl, rfl⟩
  · rintro ⟨_, rest, rfl, hrest, rfl⟩
    rw [List.nil_append] at hrest
    rw [← hrest, Cursor.after_nil]

theorem Spells.optional (ha : Spells m a p) : Spells m (optional a) fun s => p s ∨ s = [] :=
  ha.alt Spells.empty

theorem any_char (hcase : m.ignoreCase = false) (cs : List Char) (c : Char) :
    (cs.map CharClass.char).any (m.matchesClass c) = true ↔ c ∈ cs := by
  rw [List.any_map, List.any_eq_true]
  simp only [Function.comp_apply, Mode.matchesClass, Mode.variants, hcase, Bool.false_eq_true,
    if_false, List.contains_cons, List.contains_nil, Bool.or_false, beq_iff_eq, exists_eq_right]

theorem any_range (hcase : m.ignoreCase = false) (lo hi c : Char) :
    [CharClass.range lo hi].any (m.matchesClass c) = true ↔ lo ≤ c ∧ c ≤ hi := by
  simp [Mode.matchesClass, Mode.variants, hcase]

/-- With case, a literal reads itself. -/
theorem Spells.literal (hcase : m.ignoreCase = false) (c : Char) (s : Text) :
    Spells m (literal (c :: s)) (· = c :: s) := by
  have hchar (c : Char) : Spells m (Regex.oneOf false [.char c]) (· = [c]) := by
    refine (Spells.oneOf [.char c]).congr fun s => ?_
    simp [Mode.matchesClass, Mode.variants, hcase, eq_comm]
  induction s generalizing c with
  | nil => exact hchar c
  | cons d s ih =>
    refine ((hchar c).seq (ih d)).congr fun t => ?_
    simp

/-- Any number of characters that the expression reads one at a time. -/
theorem Spells.starChar {P : Char → Prop} (ha : Spells m a fun s => ∃ c, P c ∧ s = [c])
    (greedy : Bool) : Spells m (Regex.star greedy a) fun s => ∀ c ∈ s, P c := by
  have hne : ¬ ∃ c, P c ∧ ([] : Text) = [c] := by simp
  refine (ha.star hne greedy).congr fun s => ⟨?_, fun hs => ?_⟩
  · rintro ⟨l, hl, rfl⟩ c hc
    obtain ⟨x, hx, hcx⟩ := List.mem_flatten.mp hc
    obtain ⟨d, hd, rfl⟩ := hl x hx
    rw [List.mem_singleton.mp hcx]
    exact hd
  · refine ⟨s.map fun c => [c], fun x hx => ?_, ?_⟩
    · obtain ⟨c, hc, rfl⟩ := List.mem_map.mp hx
      exact ⟨c, hs c hc, rfl⟩
    · induction s with
      | nil => rfl
      | cons c s ih =>
        rw [List.map_cons, List.flatten_cons, ← ih fun d hd => hs d (List.mem_cons_of_mem c hd)]
        rfl

/-- Any number of characters of the classes. -/
theorem Spells.starOneOf (greedy : Bool) (classes : List CharClass) :
    Spells m (Regex.star greedy (Regex.oneOf false classes)) fun s =>
      ∀ c ∈ s, classes.any (m.matchesClass c) = true :=
  (Spells.oneOf classes).starChar greedy

/-- At least one character of the classes. -/
theorem Spells.plusOneOf (classes : List CharClass) :
    Spells m (plus (Regex.oneOf false classes)) fun s =>
      s ≠ [] ∧ ∀ c ∈ s, classes.any (m.matchesClass c) = true := by
  refine ((Spells.oneOf classes).seq (Spells.starOneOf true classes)).congr fun s => ⟨?_, ?_⟩
  · rintro ⟨_, y, ⟨c, hc, rfl⟩, hy, rfl⟩
    refine ⟨List.cons_ne_nil c y, fun d hd => ?_⟩
    rcases List.mem_cons.mp hd with rfl | hd
    · exact hc
    · exact hy d hd
  · rintro ⟨hne, hs⟩
    cases s with
    | nil => exact absurd rfl hne
    | cons c s =>
      exact ⟨[c], s, ⟨c, hs c List.mem_cons_self, rfl⟩, fun d hd => hs d (List.mem_cons_of_mem c hd),
        rfl⟩

/-- `n + 1` characters of the classes. -/
theorem Spells.times (classes : List CharClass) (n : ℕ) :
    Spells m (times (Regex.oneOf false classes) (n + 1)) fun s =>
      s.length = n + 1 ∧ ∀ c ∈ s, classes.any (m.matchesClass c) = true := by
  induction n with
  | zero =>
    refine (Spells.oneOf classes).congr fun s => ⟨?_, fun ⟨hlength, hs⟩ => ?_⟩
    · rintro ⟨c, hc, rfl⟩
      exact ⟨rfl, fun d hd => List.mem_singleton.mp hd ▸ hc⟩
    · obtain ⟨c, rfl⟩ := List.length_eq_one_iff.mp hlength
      exact ⟨c, hs c (List.mem_singleton_self c), rfl⟩
  | succ n ih =>
    refine ((Spells.oneOf classes).seq ih).congr fun s => ⟨?_, fun ⟨hlength, hs⟩ => ?_⟩
    · rintro ⟨_, y, ⟨c, hc, rfl⟩, ⟨hlength, hy⟩, rfl⟩
      refine ⟨by rw [List.singleton_append, List.length_cons, hlength], fun d hd => ?_⟩
      rcases List.mem_cons.mp hd with rfl | hd
      · exact hc
      · exact hy d hd
    · cases s with
      | nil => cases hlength
      | cons c s =>
        exact ⟨[c], s, ⟨c, hs c List.mem_cons_self, rfl⟩, ⟨Nat.succ.inj hlength, fun d hd =>
          hs d (List.mem_cons_of_mem c hd)⟩, rfl⟩

theorem fullmatch_isSome (h : Spells m a p) (s : Text) : (fullmatch m a s).isSome = true ↔ p s := by
  have hmatch : (fullmatch m a s).isSome = true ↔
      ∃ k', k' ∈ results m a ⟨[], s, []⟩ ∧ k'.rest.isEmpty = true := by
    unfold fullmatch
    rw [Option.isSome_map, List.isSome_head?, ← List.isEmpty_eq_false_iff,
      List.isEmpty_eq_false_iff_exists_mem]
    simp only [List.mem_filter]
  rw [hmatch]
  constructor
  · rintro ⟨k', hk', hempty⟩
    obtain ⟨t, rest, ht, hrest, rfl⟩ := (h _ k').mp hk'
    have hrest : s = t ++ rest := hrest
    have hnil : rest = [] := List.isEmpty_iff.mp hempty
    rw [hrest, hnil, List.append_nil]
    exact ht
  · intro hs
    exact ⟨_, (h _ _).mpr ⟨s, [], hs, by rw [List.append_nil], rfl⟩, rfl⟩

/-- A match of the whole text, a newline at its end aside. -/
theorem matchStart_finish (h : Spells m a p) (s : Text) :
    (matchStart m (seq a finish) s).isSome = true ↔ p s ∨ ∃ t, p t ∧ s = t ++ ['\n'] := by
  have hmatch : (matchStart m (seq a finish) s).isSome = true ↔
      ∃ k', k' ∈ results m (seq a finish) ⟨[], s, []⟩ := by
    unfold matchStart matchAt
    cases results m (seq a finish) ⟨[], s, []⟩ with
    | nil => simp
    | cons k' ks => simp
  simp only [hmatch, results, List.mem_flatMap]
  constructor
  · rintro ⟨k', j, hj, hk'⟩
    obtain ⟨t, rest, ht, hrest, rfl⟩ := (h _ j).mp hj
    have hrest : s = t ++ rest := hrest
    split_ifs at hk' with hend
    · rw [Bool.or_eq_true, List.isEmpty_iff, beq_iff_eq] at hend
      have hend : rest = [] ∨ rest = ['\n'] := hend
      rcases hend with rfl | rfl
      · rw [hrest, List.append_nil]
        exact Or.inl ht
      · exact Or.inr ⟨t, ht, hrest⟩
    · cases hk'
  · rintro (hs | ⟨t, ht, rfl⟩)
    · exact ⟨_, _, (h _ _).mpr ⟨s, [], hs, by rw [List.append_nil], rfl⟩, List.mem_singleton.mpr rfl⟩
    · exact ⟨_, _, (h _ _).mpr ⟨t, ['\n'], ht, rfl, rfl⟩, List.mem_singleton.mpr rfl⟩

end Regex
