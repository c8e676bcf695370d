import Mathlib.Data.List.Basic

/-! A list that is read page by page, until a page says that nothing follows. -/
namespace Pages

variable {α π : Type*}

/-- The rows of one page. -/
def rows (l : List α) (skip limit : ℕ) : List α := (l.drop skip).take limit

def hasMore (l : List α) (skip limit : ℕ) : Bool := skip + (rows l skip limit).length < l.length

/-- The pages read from `skip` on, until one has nothing behind it. -/
inductive Reads (answer : ℕ → π) (more : π → Bool) (limit : ℕ) : ℕ → List π → Prop
  | last {skip : ℕ} (h : more (answer skip) = false) : Reads answer more limit skip [answer skip]
  | next {skip : ℕ} {pages : List π} (h : more (answer skip) = true)
      (rest : Reads answer more limit (skip + limit) pages) :
      Reads answer more limit skip (answer skip :: pages)

variable {l : List α} {skip limit : ℕ}

theorem length_rows : (rows l skip limit).length = min limit (l.length - skip) := by
  rw [rows, List.length_take, List.length_drop]

theorem hasMore_iff : hasMore l skip limit = true ↔ skip + limit < l.length := by
  have hlength : (rows l skip limit).length = min limit (l.length - skip) := length_rows
  rw [hasMore, decide_eq_true_iff]
  omega

theorem hasMore_eq_false : hasMore l skip limit = false ↔ l.length ≤ skip + limit := by
  rw [← Bool.not_eq_true, hasMore_iff, Nat.not_lt]

/-- A page that ends the list is all that is left of it. -/
theorem rows_of_last (h : l.length ≤ skip + limit) : rows l skip limit = l.drop skip := by
  have hlength : (l.drop skip).length ≤ limit := by
    rw [List.length_drop]
    omega
  exact List.take_of_length_le hlength

theorem rows_append_drop : rows l skip limit ++ l.drop (skip + limit) = l.drop skip := by
  have hdrop : l.drop (skip + limit) = (l.drop skip).drop limit := by rw [List.drop_drop]
  rw [hdrop, rows, List.take_append_drop]

section
variable {answer : ℕ → π} {more : π → Bool} {pages : List π}

theorem Reads.mem (h : Reads answer more limit skip pages) {page : π} (hpage : page ∈ pages) :
    ∃ s, page = answer s := by
  induction h with
  | last => exact ⟨_, List.mem_singleton.mp hpage⟩
  | next _ _ ih =>
    rcases List.mem_cons.mp hpage with heq | hrest
    · exact ⟨_, heq⟩
    · exact ih hrest

variable (hmore : ∀ s, more (answer s) = hasMore l s limit)
include hmore

/-- A reader comes to an end: each page brings the next nearer to the end of the list. -/
theorem exists_reads (hlimit : 0 < limit) (skip : ℕ) : ∃ pages, Reads answer more limit skip pages := by
  induction hleft : l.length - skip using Nat.strongRecOn generalizing skip with
  | ind left ih =>
    cases hlast : more (answer skip) with
    | false => exact ⟨_, .last hlast⟩
    | true =>
      have hlt : skip + limit < l.length := hasMore_iff.mp (hmore skip ▸ hlast)
      obtain ⟨pages, hpages⟩ := ih (l.length - (skip + limit)) (by omega) (skip + limit) rfl
      exact ⟨_, .next hlast hpages⟩

/-- The pages put together are the list. -/
theorem Reads.items {items : π → List α} (hitems : ∀ s, items (answer s) = rows l s limit)
    (h : Reads answer more limit skip pages) : pages.flatMap items = l.drop skip := by
  induction h with
  | @last skip hlast =>
    have hle : l.length ≤ skip + limit := hasMore_eq_false.mp (hmore skip ▸ hlast)
    rw [List.flatMap_singleton, hitems, rows_of_last hle]
  | next _ _ ih => rw [List.flatMap_cons, ih, hitems, rows_append_drop]

end

theorem map_rows {β : Type*} (f : α → β) (l : List α) (skip limit : ℕ) :
    (rows l skip limit).map f = rows (l.map f) skip limit := by
  rw [rows, rows, List.map_take, List.map_drop]

/-- A list that only grows while it is read, wherever the new rows come in: whatever was in it at
the beginning is on one of the pages. -/
theorem mem_rows_of_growing {lists : ℕ → List α} (hgrow : ∀ k, (lists k).Sublist (lists (k + 1)))
    {a : α} (ha : a ∈ lists 0) {last : ℕ}
    (hlast : hasMore (lists last) (last * limit) limit = false) :
    ∃ k ≤ last, a ∈ rows (lists k) (k * limit) limit := by
  by_contra hnone
  push Not at hnone
  -- a row that no page has shown is still behind the pages that were read
  have hbehind : ∀ k ≤ last, a ∈ (lists k).drop (k * limit) := by
    intro k
    induction k with
    | zero => exact fun _ => by simpa using ha
    | succ k ih =>
      intro hk
      have hleft : a ∈ (lists k).drop (k * limit) := ih (Nat.le_of_succ_le hk)
      rw [← rows_append_drop, List.mem_append] at hleft
      have hnext := hleft.resolve_left (hnone k (Nat.le_of_succ_le hk))
      rw [Nat.succ_mul]
      exact ((hgrow k).drop _).subset hnext
  have hshown := hbehind last (Nat.le_refl last)
  rw [← rows_of_last (hasMore_eq_false.mp hlast)] at hshown
  exact hnone last (Nat.le_refl last) hshown

end Pages
