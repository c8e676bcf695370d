import Qiki.Collections.Table
import Mathlib.Data.List.Induction
import Mathlib.Order.Lattice

/-! Rows in families: the rows collected family by family, and the families collapsed to one row
each. -/
namespace Families

variable {ρ κ π : Type*} [DecidableEq κ]

section
variable (family : ρ → Option κ)

/-- The rows of a family, in their order. -/
def members (k : κ) (rows : List ρ) : List ρ := rows.filter fun r => family r = some k

/-- A row goes to the end of its family. -/
def put (groups : List (κ × List ρ)) (r : ρ) : List (κ × List ρ) :=
  match family r with
  | some k => Dict.alter k (fun known => known.getD [] ++ [r]) groups
  | none => groups

/-- The rows of each family, collected row by row. -/
def collect (rows : List ρ) : List (κ × List ρ) := rows.foldl (put family) []

variable {family} {k : κ} {rows : List ρ} {r : ρ}

theorem mem_members : r ∈ members family k rows ↔ r ∈ rows ∧ family r = some k := by
  rw [members, List.mem_filter, decide_eq_true_iff]

theorem nodup_collect (rows : List ρ) : ((collect family rows).map Prod.fst).Nodup := by
  have hput (groups : List (κ × List ρ)) (r : ρ) (hgroups : (groups.map Prod.fst).Nodup) :
      ((put family groups r).map Prod.fst).Nodup := by
    unfold put
    cases family r with
    | none => exact hgroups
    | some k => exact Dict.nodup_alter hgroups
  induction rows using List.reverseRecOn with
  | nil => exact List.nodup_nil
  | append_singleton rows r ih =>
    rw [collect, List.foldl_concat]
    exact hput _ r ih

/-- A family is found with all of its rows, when it has any. -/
theorem get_collect (k : κ) (rows : List ρ) : Dict.get k (collect family rows) =
    if members family k rows = [] then none else some (members family k rows) := by
  induction rows using List.reverseRecOn with
  | nil => rfl
  | append_singleton rows r ih =>
    have hstep : collect family (rows ++ [r]) = put family (collect family rows) r := by
      rw [collect, List.foldl_concat]
      rfl
    have hmembers : members family k (rows ++ [r]) =
        members family k rows ++ if family r = some k then [r] else [] := by
      rw [members, List.filter_append, List.filter_singleton]
      by_cases hr : family r = some k
      · simp [members, hr]
      · simp [members, hr]
    rw [hstep, hmembers, put]
    cases hr : family r with
    | none =>
      have hother : ¬ (none : Option κ) = some k := fun h => by cases h
      rw [if_neg hother, List.append_nil]
      exact ih
    | some k' =>
      by_cases hk : k' = k
      · subst hk
        have hne : members family k' rows ++ [r] ≠ [] := List.append_ne_nil_of_right_ne_nil _ (by simp)
        dsimp only
        rw [if_pos rfl, if_neg hne, Dict.get_alter_self, ih]
        by_cases hnil : members family k' rows = []
        · rw [if_pos hnil, hnil]
          rfl
        · rw [if_neg hnil]
          rfl
      · have hother : ¬ some k' = some k := fun h => hk (Option.some.inj h)
        dsimp only
        rw [if_neg hother, List.append_nil, Dict.get_alter_ne (Ne.symm hk)]
        exact ih

theorem mem_collect {l : List ρ} :
    (k, l) ∈ collect family rows ↔ l ≠ [] ∧ members family k rows = l := by
  rw [← Dict.get_eq_some_iff (nodup_collect rows), get_collect]
  by_cases hnil : members family k rows = []
  · rw [if_pos hnil, hnil]
    constructor
    · exact fun h => by cases h
    · rintro ⟨hl, rfl⟩
      exact absurd rfl hl
  · rw [if_neg hnil, Option.some.injEq]
    constructor
    · rintro rfl
      exact ⟨hnil, rfl⟩
    · exact fun h => h.2

end

/-! The first of the least rows. -/

section
variable [LinearOrder π] (price : ρ → π)

/-- The row kept so far, unless the next one is below it. -/
def lesser (least r : ρ) : ρ := if price r < price least then r else least

/-- The first of the rows with the least price. -/
def firstLeast : List ρ → Option ρ
  | [] => none
  | r :: rows => some (rows.foldl (lesser price) r)

variable {price} {l before after : List ρ} {r v : ρ}

theorem foldl_lesser_mem (rows : List ρ) (r : ρ) : rows.foldl (lesser price) r ∈ r :: rows := by
  induction rows generalizing r with
  | nil => exact List.mem_singleton_self r
  | cons s rows ih =>
    rw [List.foldl_cons]
    rcases List.mem_cons.mp (ih (lesser price r s)) with heq | hmem
    · rw [heq, lesser]
      split_ifs
      · exact List.mem_cons_of_mem r List.mem_cons_self
      · exact List.mem_cons_self
    · exact List.mem_cons_of_mem r (List.mem_cons_of_mem s hmem)

theorem foldl_lesser_of_le {rows : List ρ} (h : ∀ w ∈ rows, price r ≤ price w) :
    rows.foldl (lesser price) r = r := by
  induction rows with
  | nil => rfl
  | cons s rows ih =>
    have hs : lesser price r s = r := if_neg (not_lt.mpr (h s List.mem_cons_self))
    rw [List.foldl_cons, hs]
    exact ih fun w hw => h w (List.mem_cons_of_mem s hw)

/-- The first least row is below all before it and not above any behind it. -/
theorem firstLeast_eq_some : firstLeast price l = some v ↔ ∃ before after, l = before ++ v :: after ∧
    (∀ w ∈ before, price v < price w) ∧ ∀ w ∈ after, price v ≤ price w := by
  constructor
  · intro h
    cases l with
    | nil => cases h
    | cons r rows =>
      obtain rfl := Option.some.inj h
      induction rows using List.reverseRecOn with
      | nil => exact ⟨[], [], rfl, fun w hw => (List.not_mem_nil hw).elim, fun w hw => (List.not_mem_nil hw).elim⟩
      | append_singleton rows s ih =>
        obtain ⟨before, after, hsplit, hbefore, hafter⟩ := ih rfl
        rw [List.foldl_concat]
        generalize rows.foldl (lesser price) r = least at hsplit hbefore hafter
        have hcons : r :: (rows ++ [s]) = (before ++ least :: after) ++ [s] := by
          rw [← hsplit]
          rfl
        by_cases hs : price s < price least
        · rw [lesser, if_pos hs]
          refine ⟨before ++ least :: after, [], hcons, fun w hw => ?_, fun w hw => (List.not_mem_nil hw).elim⟩
          rcases List.mem_append.mp hw with hw | hw
          · exact hs.trans (hbefore w hw)
          · rcases List.mem_cons.mp hw with rfl | hw
            · exact hs
            · exact hs.trans_le (hafter w hw)
        · rw [lesser, if_neg hs]
          refine ⟨before, after ++ [s], ?_, hbefore, fun w hw => ?_⟩
          · rw [hcons, List.append_assoc]
            rfl
          · rcases List.mem_append.mp hw with hw | hw
            · exact hafter w hw
            · rw [List.mem_singleton.mp hw]
              exact not_lt.mp hs
  · rintro ⟨before, after, rfl, hbefore, hafter⟩
    cases before with
    | nil => exact congrArg some (foldl_lesser_of_le hafter)
    | cons r before =>
      have hlast : lesser price (before.foldl (lesser price) r) v = v :=
        if_pos (hbefore _ (foldl_lesser_mem before r))
      rw [List.cons_append, firstLeast, List.foldl_append, List.foldl_cons, hlast,
        foldl_lesser_of_le hafter]

theorem mem_of_firstLeast (h : firstLeast price l = some v) : v ∈ l := by
  obtain ⟨before, after, rfl, -⟩ := firstLeast_eq_some.mp h
  exact List.mem_append_right before List.mem_cons_self

theorem exists_firstLeast (price : ρ → π) (hl : l ≠ []) : ∃ v, firstLeast price l = some v := by
  obtain ⟨r, rows, rfl⟩ := List.exists_cons_of_ne_nil hl
  exact ⟨_, rfl⟩

end

/-! A family of two or more collapses to its first least row. -/

section
variable [DecidableEq ρ] [LinearOrder π] (family : ρ → Option κ) (price : ρ → π)

/-- The row is alone in its family, or the first least of it. -/
def kept (rows : List ρ) (r : ρ) : Bool :=
  (family r).all fun k =>
    (members family k rows).length ≤ 1 || firstLeast price (members family k rows) = some r

def collapse (rows : List ρ) : List ρ := rows.filter (kept family price rows)

variable {family} {price} {rows : List ρ} {k : κ} {v : ρ}

theorem members_collapse_of_single (h : (members family k rows).length ≤ 1) :
    members family k (collapse family price rows) = members family k rows := by
  unfold collapse
  rw [members, List.filter_filter]
  refine List.filter_congr fun r _ => ?_
  by_cases hr : family r = some k
  · simp [kept, hr, h]
  · simp [hr]

theorem members_collapse (hrows : rows.Nodup) (h : 1 < (members family k rows).length)
    (hv : firstLeast price (members family k rows) = some v) :
    members family k (collapse family price rows) = [v] := by
  have hmany : ¬ (members family k rows).length ≤ 1 := not_le.mpr h
  have hmem := mem_members.mp (mem_of_firstLeast hv)
  have hkept : ∀ r ∈ rows, (decide (family r = some k) && kept family price rows r) = (r == v) := by
    intro r _
    by_cases hr : family r = some k
    · have hkept : kept family price rows r = decide (v = r) := by
        simp [kept, hr, hmany, hv]
      rw [hkept, decide_eq_true hr, Bool.true_and, Bool.eq_iff_iff, decide_eq_true_iff, beq_iff_eq]
      exact eq_comm
    · have hne : r ≠ v := fun h => hr (h ▸ hmem.2)
      simp [hr, hne]
  rw [members, collapse, List.filter_filter, List.filter_congr hkept, List.filter_beq,
    List.count_eq_one_of_mem hrows hmem.1]
  rfl

/-- Collapsed families stay as they are. -/
theorem collapse_collapse (hrows : rows.Nodup) :
    collapse family price (collapse family price rows) = collapse family price rows := by
  refine List.filter_eq_self.mpr fun r _ => ?_
  unfold kept
  cases hr : family r with
  | none => rfl
  | some k =>
    have hsingle : (members family k (collapse family price rows)).length ≤ 1 := by
      by_cases h : (members family k rows).length ≤ 1
      · rw [members_collapse_of_single h]
        exact h
      · have hne : members family k rows ≠ [] := by
          intro hnil
          rw [hnil] at h
          exact h (Nat.zero_le 1)
        obtain ⟨v, hv⟩ := exists_firstLeast price hne
        rw [members_collapse hrows (not_le.mp h) hv]
        exact le_refl 1
    simp [hsingle]

end

end Families
