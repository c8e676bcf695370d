import Mathlib.Data.List.Basic

/-! Lists in which the first match of a test is changed or taken out. -/
namespace FirstMatch

variable {α : Type*} {p q : α → Bool} {l : List α} {i : ℕ}

theorem exists_append_of_findIdx? (h : l.findIdx? p = some i) :
    ∃ before a after, l = before ++ a :: after ∧ before.length = i ∧ p a = true ∧
      before.filter p = [] := by
  obtain ⟨hlt, hp, hbefore⟩ := List.findIdx?_eq_some_iff_getElem.mp h
  have hlength : (l.take i).length = i := List.length_take_of_le (Nat.le_of_lt hlt)
  refine ⟨l.take i, l[i], l.drop (i + 1), ?_, hlength, hp, ?_⟩
  · rw [← List.drop_eq_getElem_cons hlt, List.take_append_drop]
  · apply List.filter_eq_nil_iff.mpr
    intro a ha
    obtain ⟨j, hj, rfl⟩ := List.getElem_of_mem ha
    rw [List.getElem_take]
    exact hbefore j (by omega)

theorem eraseIdx_length (before after : List α) (a : α) :
    (before ++ a :: after).eraseIdx before.length = before ++ after := by
  rw [List.eraseIdx_append_of_length_le (Nat.le_refl _), Nat.sub_self, List.eraseIdx_cons_zero]

theorem modify_length (before after : List α) (a : α) (f : α → α) :
    (before ++ a :: after).modify before.length f = before ++ f a :: after := by
  induction before with
  | nil => rfl
  | cons b before ih => exact congrArg (b :: ·) ih

/-- The first match is the first of all matches. -/
theorem filter_eraseIdx (h : l.findIdx? p = some i) :
    (l.eraseIdx i).filter p = (l.filter p).tail := by
  obtain ⟨before, a, after, rfl, rfl, ha, hbefore⟩ := exists_append_of_findIdx? h
  rw [eraseIdx_length, List.filter_append, List.filter_append, hbefore,
    List.filter_cons_of_pos ha]
  rfl

theorem filter_eraseIdx_of_not (h : l.findIdx? p = some i) (hq : ∀ a, p a = true → q a = false) :
    (l.eraseIdx i).filter q = l.filter q := by
  obtain ⟨before, a, after, rfl, rfl, ha, -⟩ := exists_append_of_findIdx? h
  rw [eraseIdx_length, List.filter_append, List.filter_append,
    List.filter_cons_of_neg (Bool.not_eq_true _ ▸ hq a ha)]

theorem filter_modify (h : l.findIdx? p = some i) {f : α → α}
    (hf : ∀ a, p a = true → p (f a) = true) :
    (l.modify i f).filter p = (l.filter p).modifyHead f := by
  obtain ⟨before, a, after, rfl, rfl, ha, hbefore⟩ := exists_append_of_findIdx? h
  rw [modify_length, List.filter_append, List.filter_append, hbefore,
    List.filter_cons_of_pos ha, List.filter_cons_of_pos (hf a ha)]
  rfl

theorem filter_modify_of_not (h : l.findIdx? p = some i) {f : α → α}
    (hf : ∀ a, p a = true → p (f a) = true) (hq : ∀ a, p a = true → q a = false) :
    (l.modify i f).filter q = l.filter q := by
  obtain ⟨before, a, after, rfl, rfl, ha, -⟩ := exists_append_of_findIdx? h
  rw [modify_length, List.filter_append, List.filter_append,
    List.filter_cons_of_neg (Bool.not_eq_true _ ▸ hq _ (hf a ha)),
    List.filter_cons_of_neg (Bool.not_eq_true _ ▸ hq a ha)]

end FirstMatch
