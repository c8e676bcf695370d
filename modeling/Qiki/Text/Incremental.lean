import Qiki.Text.Basic

/-! Parsers that are fed their input in chunks, and the first occurrence of a separator. -/

namespace Incremental

variable {α β : Type*}

/-- `parse` takes what is complete off the front of its input and hands back the rest; more input
is parsed as if it had been there from the start. -/
def Resumable (parse : List α → List β × List α) : Prop :=
  ∀ a b, parse (a ++ b) =
    ((parse a).1 ++ (parse ((parse a).2 ++ b)).1, (parse ((parse a).2 ++ b)).2)

/-- One chunk: it goes behind the rest that was carried over. -/
def feed (parse : List α → List β × List α) (carried : List β × List α) (chunk : List α) :
    List β × List α :=
  let result := parse (carried.2 ++ chunk)
  (carried.1 ++ result.1, result.2)

/-- However the input is cut into chunks, a resumable parser finds the same. -/
theorem foldl_feed {parse : List α → List β × List α} (h : Resumable parse)
    (hnil : parse [] = ([], [])) (chunks : List (List α)) :
    chunks.foldl (feed parse) ([], []) = parse chunks.flatten := by
  induction chunks using List.reverseRecOn with
  | nil => exact hnil.symm
  | append_singleton chunks chunk ih =>
    rw [List.foldl_append, List.foldl_cons, List.foldl_nil, ih, List.flatten_append,
      List.flatten_singleton, h]
    rfl

end Incremental

namespace Text

section
variable {s t sub : Text} {i : ℕ}

theorem find_cons (c : Char) (s sub : Text) :
    find (c :: s) sub = if sub.isPrefixOf (c :: s) then some 0 else (find s sub).map (· + 1) := by
  rw [find, List.tails_cons, List.findIdx?_cons]
  rfl

/-- The first occurrence: the separator stands there, and nowhere before. -/
theorem find_eq_some : find s sub = some i ↔
    i ≤ s.length ∧ sub <+: s.drop i ∧ ∀ j < i, ¬ sub <+: s.drop j := by
  simp only [find, List.findIdx?_eq_some_iff_getElem, List.length_tails, List.getElem_tails,
    List.isPrefixOf_iff_prefix]
  constructor
  · rintro ⟨hi, hprefix, hfirst⟩
    exact ⟨Nat.lt_succ_iff.mp hi, hprefix, hfirst⟩
  · rintro ⟨hi, hprefix, hfirst⟩
    exact ⟨Nat.lt_succ_iff.mpr hi, hprefix, hfirst⟩

/-- What comes behind an occurrence does not matter for it. -/
theorem find_append_of_eq_some (h : find s sub = some i) (t : Text) :
    find (s ++ t) sub = some i := by
  obtain ⟨hi, hprefix, hfirst⟩ := find_eq_some.mp h
  refine find_eq_some.mpr ⟨?_, ?_, fun j hj hsub => hfirst j hj ?_⟩
  · rw [List.length_append]
    exact hi.trans (Nat.le_add_right _ _)
  · rw [List.drop_append_of_le_length hi]
    exact hprefix.trans (List.prefix_append _ _)
  · rw [List.drop_append_of_le_length (hj.le.trans hi)] at hsub
    refine List.prefix_of_prefix_length_le hsub (List.prefix_append _ _) ?_
    have hlen := hprefix.length_le
    rw [List.length_drop] at hlen ⊢
    omega

/-- An occurrence ends within the text. -/
theorem length_le_of_find (h : find s sub = some i) : i + sub.length ≤ s.length := by
  obtain ⟨hi, hprefix, -⟩ := find_eq_some.mp h
  have hlen := hprefix.length_le
  rw [List.length_drop] at hlen
  omega

/-- No occurrence begins at a character that the separator does not begin with. -/
theorem find_append_of_not_mem {c : Char} {sep' : Text} {x : Text} (hx : c ∉ x) (s : Text) :
    find (x ++ s) (c :: sep') = (find s (c :: sep')).map (· + x.length) := by
  induction x with
  | nil => simp
  | cons d x ih =>
    have hne : c ≠ d := fun h => hx (h ▸ List.mem_cons_self ..)
    have hnot : (c :: sep').isPrefixOf (d :: (x ++ s)) = false := by
      simp [List.isPrefixOf, hne]
    rw [List.cons_append, find_cons, hnot, ih fun h => hx (List.mem_cons_of_mem _ h),
      Option.map_map, List.length_cons]
    simp only [Bool.false_eq_true, if_false]
    rfl

end

end Text
