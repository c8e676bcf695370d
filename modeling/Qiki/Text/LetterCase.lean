import Qiki.Text.Unicode

/-! When `lower` changes nothing. -/
namespace Unicode

/-- What lower case does to single characters: it is lower case already, and no other character
becomes one of `plain`. -/
structure LowersOnce (plain : Char → Bool) (db : Database) : Prop where
  lowered : ∀ c, c ≠ 'Σ' → ∀ d ∈ db.lower c, d ≠ 'Σ' ∧ db.lower d = [d]
  sigma : ∀ c ∈ ['σ', 'ς'], db.lower c = [c] ∧ plain c = false
  plain_self : ∀ c, plain c = true → c ≠ 'Σ' ∧ db.lower c = [c]
  plain_only : ∀ c, (∀ d ∈ db.lower c, plain d = true) → db.lower c = [c]

section
variable {db : Database} {plain : Char → Bool} {s : Text}

theorem lowerFrom_eq_self (h : ∀ c ∈ s, c ≠ 'Σ' ∧ db.lower c = [c]) (before : Text) :
    lowerFrom db before s = s := by
  induction s generalizing before with
  | nil => rfl
  | cons c s ih =>
    obtain ⟨hc, hlower⟩ := h c List.mem_cons_self
    rw [lowerFrom, if_neg hc, hlower, ih fun d hd => h d (List.mem_cons_of_mem c hd)]
    rfl

/-- A lowered character comes from the lower case of a character, or is a sigma. -/
theorem mem_lowerFrom {before : Text} {d : Char} (h : d ∈ lowerFrom db before s) :
    d ∈ ['σ', 'ς'] ∨ ∃ c ∈ s, c ≠ 'Σ' ∧ d ∈ db.lower c := by
  induction s generalizing before with
  | nil => cases h
  | cons c s ih =>
    rw [lowerFrom] at h
    rcases List.mem_append.mp h with h | h
    · by_cases hc : c = 'Σ'
      · rw [if_pos hc] at h
        left
        split_ifs at h
        · exact List.mem_cons_of_mem _ h
        · rw [List.mem_singleton.mp h]
          exact List.mem_cons_self
      · rw [if_neg hc] at h
        exact Or.inr ⟨c, List.mem_cons_self, hc, h⟩
    · rcases ih h with hsigma | ⟨c', hc', hd⟩
      · exact Or.inl hsigma
      · exact Or.inr ⟨c', List.mem_cons_of_mem c hc', hd⟩

variable (h : LowersOnce plain db)
include h

/-- `s.lower().lower() == s.lower()` -/
theorem LowersOnce.lower_lower (s : Text) : lower db (lower db s) = lower db s := by
  apply lowerFrom_eq_self
  intro d hd
  rcases mem_lowerFrom hd with hsigma | ⟨c, -, hc, hd⟩
  · refine ⟨?_, (h.sigma d hsigma).1⟩
    rintro rfl
    revert hsigma
    decide
  · exact h.lowered c hc d hd

theorem LowersOnce.lower_of_plain (hs : ∀ c ∈ s, plain c = true) : lower db s = s :=
  lowerFrom_eq_self (fun c hc => h.plain_self c (hs c hc)) []

/-- What becomes plain in lower case is plain. -/
theorem LowersOnce.eq_of_lower_plain (hs : ∀ c ∈ lower db s, plain c = true) : lower db s = s := by
  suffices hfrom : ∀ before, (∀ c ∈ lowerFrom db before s, plain c = true) →
      lowerFrom db before s = s from hfrom [] hs
  clear hs
  induction s with
  | nil => exact fun _ _ => rfl
  | cons c s ih =>
    intro before hs
    rw [lowerFrom] at hs ⊢
    rw [ih (c :: before) fun d hd => hs d (List.mem_append_right _ hd)]
    by_cases hc : c = 'Σ'
    · exfalso
      rw [if_pos hc] at hs
      split_ifs at hs
      · have hplain := hs 'ς' (List.mem_append_left _ List.mem_cons_self)
        rw [(h.sigma 'ς' (by decide)).2] at hplain
        cases hplain
      · have hplain := hs 'σ' (List.mem_append_left _ List.mem_cons_self)
        rw [(h.sigma 'σ' (by decide)).2] at hplain
        cases hplain
    · rw [if_neg hc] at hs ⊢
      rw [h.plain_only c fun d hd => hs d (List.mem_append_left _ hd)]
      rfl

end

end Unicode
