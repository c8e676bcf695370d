import Mathlib.Algebra.BigOperators.Group.List.Basic
import Mathlib.Algebra.GroupWithZero.Nat
import Mathlib.Data.List.Dedup

/-! Rows grouped by a key, and sums over the groups. -/
namespace GroupCounts

variable {ρ κ μ : Type*} [DecidableEq κ] {key : ρ → κ} {rows : List ρ}

/-- `GROUP BY key`: each key with what its rows amount to. -/
def groupBy (key : ρ → κ) (measure : List ρ → μ) (rows : List ρ) : List (κ × μ) :=
  (rows.map key).dedup.map fun k => (k, measure (rows.filter fun r => key r = k))

theorem keys_groupBy (measure : List ρ → μ) :
    (groupBy key measure rows).map Prod.fst = (rows.map key).dedup := by
  rw [groupBy, List.map_map]
  exact List.map_id _

theorem nodup_groupBy (measure : List ρ → μ) :
    ((groupBy key measure rows).map Prod.fst).Nodup := by
  rw [keys_groupBy]
  exact List.nodup_dedup _

theorem mem_keys_groupBy {measure : List ρ → μ} {k : κ} :
    k ∈ (groupBy key measure rows).map Prod.fst ↔ ∃ r ∈ rows, key r = k := by
  rw [keys_groupBy, List.mem_dedup, List.mem_map]

theorem mem_groupBy {measure : List ρ → μ} {k : κ} {m : μ} : (k, m) ∈ groupBy key measure rows ↔
    (∃ r ∈ rows, key r = k) ∧ m = measure (rows.filter fun r => key r = k) := by
  rw [groupBy, List.mem_map]
  constructor
  · rintro ⟨k', hk, heq⟩
    obtain ⟨rfl, rfl⟩ := Prod.mk.inj heq
    exact ⟨List.mem_map.mp (List.mem_dedup.mp hk), rfl⟩
  · rintro ⟨hk, rfl⟩
    exact ⟨k, List.mem_dedup.mpr (List.mem_map.mpr hk), rfl⟩

/-- The rows of distinct keys are counted key by key. -/
theorem sum_countP (p : ρ → Bool) {ks : List κ} (hks : ks.Nodup) :
    (ks.map fun k => (rows.filter fun r => key r = k).countP p).sum =
      rows.countP fun r => p r && decide (key r ∈ ks) := by
  induction rows with
  | nil => simp
  | cons r rows ih =>
    have hone : (ks.map fun k => if p r && decide (key r = k) then 1 else 0).sum =
        if p r && decide (key r ∈ ks) then 1 else 0 := by
      clear ih
      induction ks with
      | nil => simp
      | cons k ks ihk =>
        obtain ⟨hk, hks⟩ := List.nodup_cons.mp hks
        rw [List.map_cons, List.sum_cons, ihk hks]
        by_cases hrk : key r = k
        · have hnot : key r ∉ ks := hrk ▸ hk
          simp [hrk, hrk ▸ hnot]
        · simp [hrk]
    have hsplit : (ks.map fun k => ((r :: rows).filter fun r => key r = k).countP p) =
        ks.map fun k => (rows.filter fun r => key r = k).countP p +
          if p r && decide (key r = k) then 1 else 0 := by
      refine List.map_congr_left fun k _ => ?_
      rw [List.filter_cons]
      by_cases hrk : key r = k
      · simp [hrk, List.countP_cons]
      · simp [hrk]
    rw [hsplit, List.sum_map_add, ih, hone, List.countP_cons]

/-- Every row is counted in its group. -/
theorem sum_groups (p : ρ → Bool) :
    ((rows.map key).dedup.map fun k => (rows.filter fun r => key r = k).countP p).sum =
      rows.countP p := by
  rw [sum_countP p (List.nodup_dedup _)]
  refine List.countP_congr fun r hr => ?_
  have hmem : key r ∈ (rows.map key).dedup := List.mem_dedup.mpr (List.mem_map_of_mem hr)
  simp [hmem]

/-- A count that leaves rows out is the whole count exactly when it leaves none out. -/
theorem countP_and_eq_iff (p q : ρ → Bool) :
    (rows.countP fun r => p r && q r) = rows.countP p ↔ ∀ r ∈ rows, p r = true → q r = true := by
  induction rows with
  | nil => simp
  | cons r rows ih =>
    have hle : (rows.countP fun r => p r && q r) ≤ rows.countP p :=
      List.countP_mono_left fun r _ h => ((Bool.and_eq_true _ _).mp h).1
    rw [List.countP_cons, List.countP_cons, List.forall_mem_cons, ← ih]
    cases p r with
    | false => simp
    | true =>
      cases q r with
      | false =>
        simp
        omega
      | true => simp

end GroupCounts
