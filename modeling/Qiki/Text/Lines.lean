import Qiki.Text.Basic

/-! Lines of a text, and a text cut where a separator first occurs. -/
namespace Text

/-- The characters at which `splitlines` ends a line. -/
def isLineBreak (c : Char) : Bool :=
  c ∈ ['\n', '\r', '\x0b', '\x0c', '\x1c', '\x1d', '\x1e', '\x85', '\u2028', '\u2029']

/-- `splitlines` behind the beginning of a line; a `\n` right after a `\r` belongs to it. -/
def splitLinesFrom (line : Text) (afterCr : Bool) : Text → List Text
  | [] => if line.isEmpty then [] else [line]
  | c :: rest =>
    if afterCr && c = '\n' then splitLinesFrom line false rest
    else if isLineBreak c then line :: splitLinesFrom [] (c = '\r') rest
    else splitLinesFrom (line ++ [c]) false rest

/-- `s.splitlines()` -/
def splitLines (s : Text) : List Text := splitLinesFrom [] false s

/-- What stands before and after the first occurrence of a separator. -/
def cut (sep : Text) : Text → Option (Text × Text)
  | [] => if sep.isEmpty then some ([], []) else none
  | c :: s =>
    if sep.isPrefixOf (c :: s) then some ([], (c :: s).drop sep.length)
    else (cut sep s).map fun parts => (c :: parts.1, parts.2)

section Lines
variable {line s : Text}

theorem splitLinesFrom_line (hs : ∀ c ∈ s, isLineBreak c = false) (rest : Text) :
    splitLinesFrom line false (s ++ '\n' :: rest) = (line ++ s) :: splitLinesFrom [] false rest := by
  induction s generalizing line with
  | nil =>
    rw [List.nil_append, splitLinesFrom, Bool.false_and, if_neg Bool.false_ne_true,
      if_pos (by decide), List.append_nil]
    rfl
  | cons c s ih =>
    rw [List.cons_append, splitLinesFrom, Bool.false_and, if_neg Bool.false_ne_true,
      hs c List.mem_cons_self, if_neg Bool.false_ne_true,
      ih fun d hd => hs d (List.mem_cons_of_mem c hd), List.append_assoc]
    rfl

theorem splitLinesFrom_last (hs : ∀ c ∈ s, isLineBreak c = false) (hne : line ++ s ≠ []) :
    splitLinesFrom line false s = [line ++ s] := by
  induction s generalizing line with
  | nil =>
    rw [splitLinesFrom, List.append_nil, if_neg (by simpa using hne)]
  | cons c s ih =>
    rw [splitLinesFrom, Bool.false_and, if_neg Bool.false_ne_true, hs c List.mem_cons_self,
      if_neg Bool.false_ne_true,
      ih (fun d hd => hs d (List.mem_cons_of_mem c hd)) (by simp), List.append_assoc]
    rfl

/-- Lines that each end with a line break, and one that does not. -/
theorem splitLines_flatMap {lines : List Text} {last : Text}
    (hlines : ∀ l ∈ lines, ∀ c ∈ l, isLineBreak c = false)
    (hlast : ∀ c ∈ last, isLineBreak c = false) (hne : last ≠ []) :
    splitLines (lines.flatMap (fun l => l ++ ['\n']) ++ last) = lines ++ [last] := by
  induction lines with
  | nil => exact splitLinesFrom_last hlast hne
  | cons l lines ih =>
    rw [List.flatMap_cons, List.append_assoc, List.append_assoc, List.singleton_append, splitLines,
      splitLinesFrom_line (hlines l List.mem_cons_self), List.nil_append, List.cons_append]
    exact congrArg (l :: ·) (ih fun l' hl' => hlines l' (List.mem_cons_of_mem l hl'))

end Lines

section Cut
variable {sep x : Text}

theorem cut_append (sep y : Text) (hsep : sep ≠ []) : cut sep (sep ++ y) = some ([], y) := by
  cases sep with
  | nil => exact absurd rfl hsep
  | cons c sep =>
    have hpre : (c :: sep).isPrefixOf (c :: (sep ++ y)) = true :=
      List.isPrefixOf_iff_prefix.mpr (List.prefix_append (c :: sep) y)
    rw [List.cons_append, cut, if_pos hpre]
    simp

/-- A separator that has no character `c` ends before the next `c`. -/
theorem prefix_of_prefix_append {c : Char} {y : Text} (hc : c ∉ sep) (h : sep <+: x ++ c :: y) :
    sep <+: x := by
  rcases List.prefix_or_prefix_of_prefix h (List.prefix_append x (c :: y)) with hx | ⟨t, rfl⟩
  · exact hx
  · cases t with
    | nil => rw [List.append_nil]
    | cons d t =>
      have hd := (List.cons_prefix_cons.mp ((List.prefix_append_right_inj x).mp h)).1
      exact absurd (List.mem_append_right x (hd ▸ List.mem_cons_self)) hc

/-- The separator is found right behind a text without it, when a `c` ends the text. -/
theorem cut_behind {c : Char} (hsep : sep ≠ []) (hc : c ∉ sep) (hx : ¬ sep <:+: x) (y : Text) :
    cut sep (x ++ c :: (sep ++ y)) = some (x ++ [c], y) := by
  induction x with
  | nil =>
    have hno : ¬ sep <+: c :: (sep ++ y) := fun h =>
      hsep (List.prefix_nil.mp (prefix_of_prefix_append (x := []) hc h))
    rw [List.nil_append, cut, if_neg (mt List.isPrefixOf_iff_prefix.mp hno), cut_append sep y hsep]
    rfl
  | cons d x ih =>
    have hno : ¬ sep <+: (d :: x) ++ c :: (sep ++ y) := fun h =>
      hx (prefix_of_prefix_append hc h).isInfix
    have hrest : ¬ sep <:+: x := fun h => hx (h.trans (List.suffix_cons d x).isInfix)
    rw [List.cons_append] at hno ⊢
    rw [cut, if_neg (mt List.isPrefixOf_iff_prefix.mp hno), ih hrest]
    rfl

/-- A separator without `c` lies on one side of a `c`. -/
theorem infix_append_cons {c : Char} {y : Text} (hsep : sep ≠ []) (hc : c ∉ sep)
    (h : sep <:+: x ++ c :: y) : sep <:+: x ∨ sep <:+: y := by
  induction x with
  | nil =>
    rcases List.infix_cons_iff.mp h with hpre | hin
    · exact absurd (List.prefix_nil.mp (prefix_of_prefix_append (x := []) hc hpre)) hsep
    · exact Or.inr hin
  | cons d x ih =>
    rcases List.infix_cons_iff.mp h with hpre | hin
    · exact Or.inl (prefix_of_prefix_append (x := d :: x) hc hpre).isInfix
    · exact (ih hin).imp_left fun hx => hx.trans (List.suffix_cons d x).isInfix

theorem not_infix_flatMap {c : Char} {lines : List Text} (hsep : sep ≠ []) (hc : c ∉ sep)
    (hlines : ∀ l ∈ lines, ¬ sep <:+: l) : ¬ sep <:+: lines.flatMap (fun l => l ++ [c]) := by
  induction lines with
  | nil => exact fun h => hsep (List.infix_nil.mp h)
  | cons l lines ih =>
    rw [List.flatMap_cons, List.append_assoc, List.singleton_append]
    intro h
    rcases infix_append_cons hsep hc h with hl | hrest
    · exact hlines l List.mem_cons_self hl
    · exact ih (fun l' hl' => hlines l' (List.mem_cons_of_mem l hl')) hrest

/-- A text is cut at the first occurrence of a character. -/
theorem cut_char {c : Char} (hx : c ∉ x) (y : Text) : cut [c] (x ++ c :: y) = some (x, y) := by
  induction x with
  | nil => exact cut_append [c] y (List.cons_ne_nil c [])
  | cons d x ih =>
    rw [List.mem_cons, not_or] at hx
    have hno : ¬ [c] <+: d :: (x ++ c :: y) := fun h => hx.1 (List.cons_prefix_cons.mp h).1
    rw [List.cons_append, cut, if_neg (mt List.isPrefixOf_iff_prefix.mp hno), ih hx.2]
    rfl

end Cut

section Strip
variable {space : Char → Bool} {s : Text} {c : Char}

theorem strip_cons_of_space (hc : space c = true) : strip space (c :: s) = strip space s := by
  rw [strip, strip, List.dropWhile_cons_of_pos hc]

/-- A stripped text begins and ends with another character. -/
theorem ends_of_strip (h : strip space s = s) :
    s.dropWhile space = s ∧ s.reverse.dropWhile space = s.reverse := by
  have hlen : s.length ≤ (s.dropWhile space).length := by
    calc s.length = (strip space s).length := by rw [h]
      _ ≤ (s.dropWhile space).reverse.length := by
          rw [strip, List.length_reverse]
          exact (List.dropWhile_sublist _).length_le
      _ = (s.dropWhile space).length := List.length_reverse
  have hleft : s.dropWhile space = s := (List.dropWhile_sublist _).eq_of_length_le hlen
  refine ⟨hleft, ?_⟩
  rw [strip, hleft] at h
  rw [← List.reverse_eq_iff, h]

/-- Nothing is dropped before more text either. -/
theorem dropWhile_append_of_self (h : s.dropWhile space = s) (hne : s ≠ []) (rest : Text) :
    (s ++ rest).dropWhile space = s ++ rest := by
  cases s with
  | nil => exact absurd rfl hne
  | cons c s =>
    have hc : space c = false := by
      by_contra hc
      rw [Bool.not_eq_false] at hc
      rw [List.dropWhile_cons_of_pos hc] at h
      have hle := (List.dropWhile_sublist space (l := s)).length_le
      rw [h, List.length_cons] at hle
      omega
    rw [List.cons_append, List.dropWhile_cons_of_neg (by rw [hc]; exact Bool.false_ne_true)]

end Strip

end Text
