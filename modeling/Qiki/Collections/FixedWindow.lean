import Mathlib.Algebra.Order.Group.Defs
import Mathlib.Algebra.Order.Group.Unbundled.Basic
import Mathlib.Data.List.Basic
import Qiki.Collections.Expiring

/-! Counters that expire some time after their first hit, as limits on what is let through. -/
namespace FixedWindow

section Window
variable {τ : Type*} [LinearOrder τ] [Add τ] (ttl : τ)

/-- The window that is open: its first hit, and how many hits it has seen. -/
def opened (w : Option (τ × ℕ)) (now : τ) : Option (τ × ℕ) := w.filter (now < ·.1 + ttl)

/-- The window after one more hit. -/
def hit (w : Option (τ × ℕ)) (now : τ) : τ × ℕ :=
  match opened ttl w now with
  | some (first, hits) => (first, hits + 1)
  | none => (now, 1)

/-- The hits that a limit lets through. -/
def admitted (limit : ℕ) : Option (τ × ℕ) → List τ → List τ
  | _, [] => []
  | w, t :: ts =>
    if (hit ttl w t).2 ≤ limit then t :: admitted limit (some (hit ttl w t)) ts
    else admitted limit (some (hit ttl w t)) ts

variable {ttl} {w : Option (τ × ℕ)} {now first : τ} {hits : ℕ}

theorem opened_some (h : now < first + ttl) : opened ttl (some (first, hits)) now =
    some (first, hits) := by
  rw [opened, Option.filter_some, if_pos (decide_eq_true h)]

theorem opened_eq_none (h : ¬ now < first + ttl) : opened ttl (some (first, hits)) now = none := by
  rw [opened, Option.filter_some, if_neg (by simpa using h)]

theorem hit_of_opened (h : opened ttl w now = some (first, hits)) :
    hit ttl w now = (first, hits + 1) := by
  rw [hit, h]

theorem hit_of_none (h : opened ttl w now = none) : hit ttl w now = (now, 1) := by
  rw [hit, h]

end Window

section Limit
variable {τ : Type*} [LinearOrder τ] [Add τ] {ttl : τ} {limit : ℕ}

/-- A window that stays open lets through what is left of its limit. -/
theorem admitted_opened_le {first : τ} {hits : ℕ} {ts : List τ} (h : ∀ t ∈ ts, t < first + ttl) :
    (admitted ttl limit (some (first, hits)) ts).length ≤ limit - hits := by
  induction ts generalizing hits with
  | nil => exact Nat.zero_le _
  | cons t ts ih =>
    have hhit : hit ttl (some (first, hits)) t = (first, hits + 1) :=
      hit_of_opened (opened_some (h t List.mem_cons_self))
    have hrest : (admitted ttl limit (some (first, hits + 1)) ts).length ≤ limit - (hits + 1) :=
      ih fun t' ht' => h t' (List.mem_cons_of_mem t ht')
    rw [admitted, hhit]
    split_ifs with hlimit
    · rw [List.length_cons]
      dsimp only at hlimit
      omega
    · omega

/-- Any stretch no longer than a window meets at most two of them. -/
theorem admitted_le [AddRightMono τ] {w : Option (τ × ℕ)} {a : τ} {ts : List τ}
    (h : ∀ t ∈ ts, a ≤ t ∧ t < a + ttl) :
    (admitted ttl limit w ts).length ≤ (limit - w.elim 0 (·.2)) + limit := by
  induction ts generalizing w with
  | nil => exact Nat.zero_le _
  | cons t ts ih =>
    have hrest : ∀ t' ∈ ts, a ≤ t' ∧ t' < a + ttl := fun t' ht' => h t' (List.mem_cons_of_mem t ht')
    rw [admitted]
    cases hopen : opened ttl w t with
    | none =>
      rw [hit_of_none hopen]
      have hcovered : ∀ t' ∈ ts, t' < t + ttl := fun t' ht' =>
        lt_of_lt_of_le (hrest t' ht').2 (add_le_add_left (h t List.mem_cons_self).1 ttl)
      have hle : (admitted ttl limit (some (t, 1)) ts).length ≤ limit - 1 :=
        admitted_opened_le hcovered
      split_ifs with hlimit
      · rw [List.length_cons]
        dsimp only at hlimit
        omega
      · omega
    | some o =>
      obtain ⟨first, hits⟩ := o
      have hw : w = some (first, hits) := (Option.filter_eq_some_iff.mp hopen).1
      rw [hit_of_opened hopen, hw, Option.elim_some]
      have hle := ih (w := some (first, hits + 1)) hrest
      rw [Option.elim_some] at hle
      split_ifs with hlimit
      · rw [List.length_cons]
        dsimp only at hlimit hle ⊢
        omega
      · dsimp only at hlimit hle ⊢
        omega

/-- What was let through since the window's first hit, up to the limit, is what it has counted. -/
structure Counted (limit : ℕ) (w : Option (τ × ℕ)) (past : List τ) (now : τ) : Prop where
  started : ∀ first hits, w = some (first, hits) → first ≤ now ∧ 1 ≤ hits
  counted : ∀ first hits, w = some (first, hits) → min hits limit ≤ past.countP (first ≤ ·)

section Counted
variable {w : Option (τ × ℕ)} {past : List τ} {now later : τ}

omit [Add τ] in
theorem counted_none : Counted limit none past now where
  started _ _ h := by cases h
  counted _ _ h := by cases h

omit [Add τ] in
theorem Counted.mono (h : Counted limit w past now) (hle : now ≤ later) :
    Counted limit w past later :=
  ⟨fun first hits hw => ⟨(h.started first hits hw).1.trans hle, (h.started first hits hw).2⟩,
    h.counted⟩

theorem Counted.hit (h : Counted limit w past now) :
    Counted limit (some (hit ttl w now))
      (if (FixedWindow.hit ttl w now).2 ≤ limit then past ++ [now] else past) now := by
  cases hopen : opened ttl w now with
  | none =>
    rw [hit_of_none hopen]
    refine ⟨fun first hits hw => ?_, fun first hits hw => ?_⟩
    · cases hw
      exact ⟨le_rfl, le_rfl⟩
    · cases hw
      split_ifs with hlimit
      · rw [List.countP_append, List.countP_singleton, if_pos (decide_eq_true le_rfl)]
        exact (min_le_left 1 limit).trans (Nat.le_add_left 1 _)
      · have hzero : limit = 0 := Nat.lt_one_iff.mp (Nat.lt_of_not_le hlimit)
        rw [hzero]
        exact Nat.zero_le _
  | some o =>
    obtain ⟨first, hits⟩ := o
    have hw : w = some (first, hits) := (Option.filter_eq_some_iff.mp hopen).1
    obtain ⟨hfirst, -⟩ := h.started first hits hw
    have hcounted := h.counted first hits hw
    rw [hit_of_opened hopen]
    refine ⟨fun first' hits' hw' => ?_, fun first' hits' hw' => ?_⟩
    · cases hw'
      exact ⟨hfirst, Nat.le_add_left 1 hits⟩
    · cases hw'
      split_ifs with hlimit
      · rw [List.countP_append, List.countP_singleton, if_pos (decide_eq_true hfirst)]
        omega
      · omega

/-- A hit beyond the limit comes when the limit was used up within one window's time. -/
theorem Counted.refused [AddRightMono τ] (h : Counted limit w past now) (hlimit : 0 < limit)
    (hrefused : limit < (FixedWindow.hit ttl w now).2) :
    limit ≤ past.countP (now < · + ttl) := by
  cases hopen : opened ttl w now with
  | none =>
    rw [hit_of_none hopen] at hrefused
    exact absurd hrefused (Nat.not_lt.mpr hlimit)
  | some o =>
    obtain ⟨first, hits⟩ := o
    obtain ⟨hw, hlive⟩ := Option.filter_eq_some_iff.mp hopen
    have hlive : now < first + ttl := of_decide_eq_true hlive
    rw [hit_of_opened hopen] at hrefused
    have hcounted := h.counted first hits hw
    rw [min_eq_right (Nat.le_of_lt_succ hrefused)] at hcounted
    refine hcounted.trans (List.countP_mono_left fun t _ ht => ?_)
    exact decide_eq_true (lt_of_lt_of_le hlive (add_le_add_left (of_decide_eq_true ht) ttl))

end Counted

end Limit

section Counter
variable {κ τ : Type*} [DecidableEq κ] [LinearOrder τ] [Add τ]

/-- `INCR`, with `EXPIRE` after the first hit. -/
def count (s : Expiring.Store κ ℕ τ) (k : κ) (ttl now : τ) : ℕ × Expiring.Store κ ℕ τ :=
  let (hits, s) := Expiring.incr s k now
  (hits, if hits = 1 then Expiring.expire s k ttl now else s)

/-- From now on the counter shows the window. -/
def Shows (ttl : τ) (s : Expiring.Store κ ℕ τ) (k : κ) (w : Option (τ × ℕ)) (now : τ) : Prop :=
  ∀ t, now ≤ t → Expiring.peek s k t = (opened ttl w t).map fun o => ⟨o.2, some (o.1 + ttl)⟩

variable {ttl now later : τ} {s : Expiring.Store κ ℕ τ} {k k' : κ} {w : Option (τ × ℕ)}

omit [DecidableEq κ] in
theorem Shows.mono (h : Shows ttl s k w now) (hle : now ≤ later) : Shows ttl s k w later :=
  fun t ht => h t (hle.trans ht)

theorem shows_delete : Shows ttl (Expiring.delete s k) k none now :=
  fun _ _ => Expiring.peek_delete_self

theorem shows_update (first : τ) (hits : ℕ) :
    Shows ttl (Function.update s k (some ⟨hits, some (first + ttl)⟩)) k (some (first, hits)) now := by
  intro t _
  rw [Expiring.peek, Function.update_self, Option.filter_some]
  by_cases hlive : t < first + ttl
  · rw [opened_some hlive, if_pos (by simpa [Expiring.Entry.live] using hlive), Option.map_some]
  · rw [opened_eq_none hlive, if_neg (by simpa [Expiring.Entry.live] using hlive), Option.map_none]

theorem Shows.count (h : Shows ttl s k w now) (hw : ∀ o, w = some o → 1 ≤ o.2) :
    (FixedWindow.count s k ttl now).1 = (FixedWindow.hit ttl w now).2 ∧
      Shows ttl (FixedWindow.count s k ttl now).2 k (some (FixedWindow.hit ttl w now)) now := by
  have hpeek := h now le_rfl
  cases hopen : opened ttl w now with
  | none =>
    rw [hopen, Option.map_none] at hpeek
    rw [hit_of_none hopen, FixedWindow.count, Expiring.incr_of_peek_none hpeek]
    refine ⟨rfl, ?_⟩
    dsimp only
    rw [if_pos rfl, Expiring.expire, Function.update_self, Function.update_idem, Option.filter_some,
      if_pos (by rfl), Option.map_some]
    exact shows_update now 1
  | some o =>
    obtain ⟨first, hits⟩ := o
    rw [hopen, Option.map_some] at hpeek
    have hpos : 1 ≤ hits := hw _ (Option.filter_eq_some_iff.mp hopen).1
    rw [hit_of_opened hopen, FixedWindow.count, Expiring.incr_of_peek hpeek]
    refine ⟨rfl, ?_⟩
    dsimp only
    rw [if_neg (by omega)]
    exact shows_update first (hits + 1)

theorem peek_count_of_ne (h : k' ≠ k) (t : τ) :
    Expiring.peek (FixedWindow.count s k ttl now).2 k' t = Expiring.peek s k' t := by
  simp only [FixedWindow.count]
  split_ifs
  · rw [Expiring.peek_expire_of_ne h, Expiring.peek_incr_of_ne h]
  · rw [Expiring.peek_incr_of_ne h]

end Counter

end FixedWindow
