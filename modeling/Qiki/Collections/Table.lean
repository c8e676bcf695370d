import Mathlib.Algebra.BigOperators.Group.List.Basic
import Mathlib.Data.List.Nodup
import Mathlib.Tactic.Abel

/-! Tables of rows with a primary key, and insertion-ordered dictionaries. -/

namespace Table

variable {ρ κ : Type*} [DecidableEq κ]

/-- The row with primary key `k`. -/
def find (key : ρ → κ) (k : κ) (rows : List ρ) : Option ρ := rows.find? fun r => key r = k

/-- `UPDATE` of the row with primary key `k`. -/
def modify (key : ρ → κ) (k : κ) (f : ρ → ρ) (rows : List ρ) : List ρ :=
  rows.map fun r => if key r = k then f r else r

section Lemmas
variable {key : ρ → κ} {k k' : κ} {f : ρ → ρ} {rows : List ρ} {r : ρ}

theorem mem_of_find (h : find key k rows = some r) : r ∈ rows := List.mem_of_find?_eq_some h

theorem key_of_find (h : find key k rows = some r) : key r = k := by
  simpa using List.find?_some h

theorem find_eq_none : find key k rows = none ↔ ∀ r ∈ rows, key r ≠ k := by
  simp [find, List.find?_eq_none]

/-- With distinct keys a row is found under its own key. -/
theorem find_of_mem (hn : (rows.map key).Nodup) (hr : r ∈ rows) :
    find key (key r) rows = some r := by
  induction rows with
  | nil => cases hr
  | cons a rows ih =>
    simp only [List.map_cons, List.nodup_cons] at hn
    rcases List.mem_cons.mp hr with rfl | hr
    · simp [find]
    · have hne : key a ≠ key r := fun h => hn.1 (h ▸ List.mem_map_of_mem hr)
      simpa [find, hne] using ih hn.2 hr

theorem find_append (a : ρ) :
    find key k (rows ++ [a]) = (find key k rows).or (if key a = k then some a else none) := by
  by_cases h : key a = k <;> simp [find, h]

@[simp] theorem modify_nil : modify key k f [] = [] := rfl

theorem mem_modify {a : ρ} :
    a ∈ modify key k f rows ↔ ∃ r ∈ rows, (if key r = k then f r else r) = a := by
  simp [modify]

@[simp] theorem length_modify : (modify key k f rows).length = rows.length := by simp [modify]

theorem map_modify {β : Type*} {g : ρ → β} (hg : ∀ r, key r = k → g (f r) = g r) :
    (modify key k f rows).map g = rows.map g := by
  simp only [modify, List.map_map]
  refine List.map_congr_left fun r _ => ?_
  by_cases h : key r = k <;> simp [h, hg]

theorem find_modify_self (hf : ∀ r, key (f r) = key r) :
    find key k (modify key k f rows) = (find key k rows).map f := by
  induction rows with
  | nil => rfl
  | cons a rows ih =>
    by_cases h : key a = k
    · simp [find, modify, h, hf]
    · simpa [find, modify, h] using ih

theorem find_modify_const {a : ρ} (ha : key a = k) :
    find key k (modify key k (fun _ => a) rows) = (find key k rows).map fun _ => a := by
  induction rows with
  | nil => rfl
  | cons b rows ih =>
    by_cases h : key b = k
    · simp [find, modify, h, ha]
    · simpa [find, modify, h] using ih

theorem find_modify_ne (hf : ∀ r, key (f r) = key r) (hk : k' ≠ k) :
    find key k' (modify key k f rows) = find key k' rows := by
  induction rows with
  | nil => rfl
  | cons a rows ih =>
    by_cases h : key a = k
    · have hne : key a ≠ k' := fun h' => hk (h' ▸ h)
      simpa [find, modify, h, hf, hk.symm] using ih
    · by_cases h' : key a = k'
      · simp [find, modify, h', hk]
      · simpa [find, modify, h, h'] using ih

theorem modify_eq_self (h : ∀ r ∈ rows, key r ≠ k) : modify key k f rows = rows := by
  unfold modify
  conv_rhs => rw [← List.map_id rows]
  exact List.map_congr_left fun r hr => by simp [h r hr]

/-- An update changes a sum over the table by what it changes in its row. -/
theorem sum_modify {M : Type*} [AddCommGroup M] (g : ρ → M) (hn : (rows.map key).Nodup)
    (h : find key k rows = some r) :
    ((modify key k f rows).map g).sum = (rows.map g).sum + (g (f r) - g r) := by
  induction rows with
  | nil => cases h
  | cons a rows ih =>
    simp only [List.map_cons, List.nodup_cons, List.mem_map, not_exists, not_and] at hn
    by_cases ha : key a = k
    · obtain rfl : a = r := by simpa [find, ha] using h
      have hrest : modify key k f rows = rows :=
        modify_eq_self fun r' hr' he => hn.1 r' hr' (he.trans ha.symm)
      have hc : modify key k f (a :: rows) = f a :: modify key k f rows := by simp [modify, ha]
      rw [hc, hrest]
      simp only [List.map_cons, List.sum_cons]
      abel
    · have hc : modify key k f (a :: rows) = a :: modify key k f rows := by simp [modify, ha]
      have h' : find key k rows = some r := by simpa [find, ha] using h
      rw [hc]
      simp only [List.map_cons, List.sum_cons, ih hn.2 h']
      abel

/-- An update that lowers its row's summand lowers the sum over the table. -/
theorem sum_modify_le (g : ρ → ℕ) (hn : (rows.map key).Nodup) (h : find key k rows = some r)
    (hle : g (f r) ≤ g r) : ((modify key k f rows).map g).sum ≤ (rows.map g).sum := by
  induction rows with
  | nil => cases h
  | cons a rows ih =>
    simp only [List.map_cons, List.nodup_cons, List.mem_map, not_exists, not_and] at hn
    by_cases ha : key a = k
    · obtain rfl : a = r := by simpa [find, ha] using h
      have hrest : modify key k f rows = rows :=
        modify_eq_self fun r' hr' he => hn.1 r' hr' (he.trans ha.symm)
      have hc : modify key k f (a :: rows) = f a :: modify key k f rows := by simp [modify, ha]
      rw [hc, hrest]
      simpa using hle
    · have hc : modify key k f (a :: rows) = a :: modify key k f rows := by simp [modify, ha]
      have h' : find key k rows = some r := by simpa [find, ha] using h
      rw [hc]
      simpa using ih hn.2 h'

/-- An update commutes with a selection that does not look at what it writes. -/
theorem filter_modify {p : ρ → Bool} (hp : ∀ r, key r = k → p (f r) = p r) :
    (modify key k f rows).filter p = modify key k f (rows.filter p) := by
  induction rows with
  | nil => rfl
  | cons a rows ih =>
    have hc : modify key k f (a :: rows) = (if key a = k then f a else a) :: modify key k f rows :=
      rfl
    have ha : p (if key a = k then f a else a) = p a := by
      split_ifs with h
      · exact hp a h
      · rfl
    by_cases h : p a
    · rw [hc, List.filter_cons_of_pos (ha.trans h), List.filter_cons_of_pos h, ih]
      rfl
    · rw [hc, List.filter_cons_of_neg (by rw [ha]; exact h), List.filter_cons_of_neg h, ih]

/-- An update that keeps `g` and selects no further row. -/
theorem map_filter_modify_sublist {β : Type*} {g : ρ → β} {p : ρ → Bool} (hg : ∀ r, g (f r) = g r)
    (hp : ∀ r, p (f r) = true → p r = true) :
    (((modify key k f rows).filter p).map g).Sublist ((rows.filter p).map g) := by
  induction rows with
  | nil => exact List.Sublist.slnil
  | cons a rows ih =>
    have hc : modify key k f (a :: rows) = (if key a = k then f a else a) :: modify key k f rows :=
      rfl
    have hga : g (if key a = k then f a else a) = g a := by
      split_ifs
      · exact hg a
      · rfl
    have hpa : p (if key a = k then f a else a) = true → p a = true := by
      split_ifs
      · exact hp a
      · exact id
    rw [hc]
    by_cases h : p (if key a = k then f a else a) = true
    · rw [List.filter_cons_of_pos h, List.filter_cons_of_pos (hpa h), List.map_cons, List.map_cons,
        hga]
      exact ih.cons_cons _
    · rw [List.filter_cons_of_neg h]
      exact ih.trans (((List.sublist_cons_self a rows).filter p).map g)

/-- Selecting rows by their keys keeps every row with such a key. -/
theorem find_filter_key {ks : List κ} (hk : k ∈ ks) :
    find key k (rows.filter fun r => key r ∈ ks) = find key k rows := by
  induction rows with
  | nil => rfl
  | cons a rows ih =>
    by_cases ha : key a = k
    · have hpa : decide (key a ∈ ks) = true := by simpa [ha] using hk
      rw [List.filter_cons_of_pos (p := fun r => decide (key r ∈ ks)) hpa]
      simp [find, ha]
    · by_cases hpa : key a ∈ ks
      · rw [List.filter_cons_of_pos (p := fun r => decide (key r ∈ ks)) (by simpa using hpa)]
        simpa [find, ha] using ih
      · rw [List.filter_cons_of_neg (p := fun r => decide (key r ∈ ks)) (by simpa using hpa)]
        simpa [find, ha] using ih

/-- Tables with the same keys, and the same rows under some of them, agree on these. -/
theorem filter_key_congr {rows' : List ρ} {ks : List κ} (hkeys : rows.map key = rows'.map key)
    (hn : (rows.map key).Nodup) (hfind : ∀ k ∈ ks, find key k rows = find key k rows') :
    rows.filter (fun r => key r ∈ ks) = rows'.filter fun r => key r ∈ ks := by
  induction rows generalizing rows' with
  | nil => rw [List.map_eq_nil_iff.mp hkeys.symm]
  | cons a rows ih =>
    cases rows' with
    | nil => cases hkeys
    | cons b rows' =>
      obtain ⟨hab, hrest⟩ := List.cons.inj hkeys
      obtain ⟨hnew, hn⟩ := List.nodup_cons.mp hn
      have htail : rows.filter (fun r => key r ∈ ks) = rows'.filter fun r => key r ∈ ks := by
        refine ih hrest hn fun k hk => ?_
        by_cases ha : key a = k
        · have hnone : find key k rows = none := find_eq_none.mpr fun r hr he =>
            hnew (ha.trans he.symm ▸ List.mem_map_of_mem hr)
          have hnone' : find key k rows' = none := find_eq_none.mpr fun r hr he =>
            hnew (ha.trans he.symm ▸ hrest ▸ List.mem_map_of_mem hr)
          rw [hnone, hnone']
        · have hb : key b ≠ k := fun he => ha (hab.trans he)
          simpa [find, ha, hb] using hfind k hk
      by_cases hmem : key a ∈ ks
      · have hsame : a = b := by simpa [find, hab] using hfind (key a) hmem
        rw [← hsame, List.filter_cons_of_pos (by simpa using hmem),
          List.filter_cons_of_pos (by simpa using hmem), htail]
      · rw [List.filter_cons_of_neg (by simpa using hmem),
          List.filter_cons_of_neg (by simpa [← hab] using hmem), htail]

end Lemmas

end Table

namespace Dict

variable {κ υ : Type*} [DecidableEq κ]

/-- `d[k] = f(d.get(k))`: a new key goes to the end, an old one keeps its place. -/
def alter (k : κ) (f : Option υ → υ) : List (κ × υ) → List (κ × υ)
  | [] => [(k, f none)]
  | (k', v) :: d => if k' = k then (k', f (some v)) :: d else (k', v) :: alter k f d

/-- `d.get(k)`. -/
def get (k : κ) : List (κ × υ) → Option υ
  | [] => none
  | (k', v) :: d => if k' = k then some v else get k d

theorem keys_alter (k : κ) (f : Option υ → υ) (d : List (κ × υ)) :
    (alter k f d).map Prod.fst = if k ∈ d.map Prod.fst then d.map Prod.fst
      else d.map Prod.fst ++ [k] := by
  induction d with
  | nil => rfl
  | cons e d ih =>
    obtain ⟨k', v⟩ := e
    by_cases h : k' = k
    · simp [alter, h]
    · have h' : k ≠ k' := fun e => h e.symm
      simp only [alter, h, if_false, List.map_cons, ih, List.mem_cons, h', false_or]
      split_ifs <;> rfl

/-- A dictionary has one entry for each key. -/
theorem nodup_alter {k : κ} {f : Option υ → υ} {d : List (κ × υ)} (hd : (d.map Prod.fst).Nodup) :
    ((alter k f d).map Prod.fst).Nodup := by
  rw [keys_alter]
  split_ifs with h
  · exact hd
  · refine List.nodup_append.mpr ⟨hd, by simp, fun a ha b hb => ?_⟩
    obtain rfl : b = k := by simpa using hb
    exact fun he => h (he ▸ ha)

theorem mem_alter {k : κ} {f : Option υ → υ} {d : List (κ × υ)} {e : κ × υ}
    (h : e ∈ alter k f d) : e ∈ d ∨ ∃ v : Option υ, (∀ w ∈ v, (k, w) ∈ d) ∧ e = (k, f v) := by
  induction d with
  | nil =>
    obtain rfl : e = (k, f none) := by simpa [alter] using h
    exact Or.inr ⟨none, (fun _ hw => nomatch hw), rfl⟩
  | cons e' d ih =>
    obtain ⟨k', v⟩ := e'
    by_cases hk : k' = k
    · subst hk
      simp only [alter, if_true, List.mem_cons] at h
      rcases h with rfl | h
      · refine Or.inr ⟨some v, fun w hw => ?_, rfl⟩
        cases hw
        exact List.mem_cons_self ..
      · exact Or.inl (List.mem_cons_of_mem _ h)
    · simp only [alter, hk, if_false, List.mem_cons] at h
      rcases h with rfl | h
      · exact Or.inl (List.mem_cons_self ..)
      · rcases ih h with hd | ⟨w, hw, he⟩
        · exact Or.inl (List.mem_cons_of_mem _ hd)
        · exact Or.inr ⟨w, fun x hx => List.mem_cons_of_mem _ (hw x hx), he⟩

section Build
variable {α : Type*} (k : α → κ) (f : α → Option υ → υ)

/-- What the entries put into a dictionary keep of its entries. -/
theorem forall_entries_foldl {P : κ → υ → Prop} (as : List α) {d : List (κ × υ)}
    (hf : ∀ a ∈ as, ∀ v : Option υ, (∀ w ∈ v, P (k a) w) → P (k a) (f a v))
    (hd : ∀ e ∈ d, P e.1 e.2) :
    ∀ e ∈ as.foldl (fun d a => alter (k a) (f a) d) d, P e.1 e.2 := by
  induction as generalizing d with
  | nil => exact hd
  | cons a as ih =>
    refine ih (fun b hb => hf b (List.mem_cons_of_mem _ hb)) fun e he => ?_
    rcases mem_alter he with he | ⟨v, hv, rfl⟩
    · exact hd e he
    · exact hf a (List.mem_cons_self ..) v fun w hw => hd _ (hv w hw)

/-- What the entries put into a dictionary keep of its values. -/
theorem forall_values_foldl {P : υ → Prop} (as : List α) {d : List (κ × υ)}
    (hf : ∀ a ∈ as, ∀ v : Option υ, (∀ w ∈ v, P w) → P (f a v)) (hd : ∀ e ∈ d, P e.2) :
    ∀ e ∈ as.foldl (fun d a => alter (k a) (f a) d) d, P e.2 :=
  forall_entries_foldl (P := fun _ v => P v) k f as hf hd

/-- A dictionary that is built entry by entry has the keys of its entries. -/
theorem mem_keys_foldl (as : List α) (d : List (κ × υ)) (x : κ) :
    x ∈ (as.foldl (fun d a => alter (k a) (f a) d) d).map Prod.fst ↔
      x ∈ d.map Prod.fst ∨ x ∈ as.map k := by
  induction as generalizing d with
  | nil => simp
  | cons a as ih =>
    have hkeys : x ∈ (alter (k a) (f a) d).map Prod.fst ↔ x ∈ d.map Prod.fst ∨ x = k a := by
      rw [keys_alter]
      split_ifs with h
      · exact ⟨Or.inl, fun hx => hx.elim id fun he => he ▸ h⟩
      · simp
    rw [List.foldl_cons, ih, hkeys, List.map_cons, List.mem_cons, or_assoc]

theorem nodup_foldl (as : List α) {d : List (κ × υ)} (hd : (d.map Prod.fst).Nodup) :
    ((as.foldl (fun d a => alter (k a) (f a) d) d).map Prod.fst).Nodup := by
  induction as generalizing d with
  | nil => exact hd
  | cons a as ih => exact ih (nodup_alter hd)

end Build

@[simp] theorem get_alter_self (k : κ) (f : Option υ → υ) (d : List (κ × υ)) :
    get k (alter k f d) = some (f (get k d)) := by
  induction d with
  | nil => simp [alter, get]
  | cons e d ih =>
    obtain ⟨k', v⟩ := e
    by_cases h : k' = k <;> simp [alter, get, h, ih]

theorem get_alter_ne {k k' : κ} (h : k' ≠ k) (f : Option υ → υ) (d : List (κ × υ)) :
    get k' (alter k f d) = get k' d := by
  induction d with
  | nil => simp [alter, get, h.symm]
  | cons e d ih =>
    obtain ⟨k'', v⟩ := e
    by_cases h' : k'' = k
    · subst h'; simp [alter, get, h.symm]
    · simp only [alter, h', if_false, get, ih]

theorem alter_of_not_mem {k : κ} {f : Option υ → υ} {d : List (κ × υ)} (h : k ∉ d.map Prod.fst) :
    alter k f d = d ++ [(k, f none)] := by
  induction d with
  | nil => rfl
  | cons e d ih =>
    obtain ⟨k', v⟩ := e
    have hk : ¬ k' = k := fun he => h (he ▸ List.mem_cons_self ..)
    rw [alter, if_neg hk, ih fun hmem => h (List.mem_cons_of_mem _ hmem)]
    rfl

/-- New keys are entered in their order. -/
theorem foldl_alter_of_nodup {α : Type*} (k : α → κ) (f : α → Option υ → υ) (as : List α)
    {d : List (κ × υ)} (h : (d.map Prod.fst ++ as.map k).Nodup) :
    as.foldl (fun d a => alter (k a) (f a) d) d = d ++ as.map fun a => (k a, f a none) := by
  induction as generalizing d with
  | nil => exact (List.append_nil d).symm
  | cons a as ih =>
    have hnew : k a ∉ d.map Prod.fst := fun hmem =>
      (List.nodup_append.mp h).2.2 (k a) hmem (k a) (List.mem_cons_self ..) rfl
    have hrest : ((d ++ [(k a, f a none)]).map Prod.fst ++ as.map k).Nodup := by
      rw [List.map_append, List.append_assoc]
      exact h
    rw [List.foldl_cons, alter_of_not_mem hnew, ih hrest, List.append_assoc]
    rfl

/-- An entry is found under its key. -/
theorem get_eq_some_iff {k : κ} {v : υ} {d : List (κ × υ)} (hd : (d.map Prod.fst).Nodup) :
    get k d = some v ↔ (k, v) ∈ d := by
  induction d with
  | nil => simp [get]
  | cons e d ih =>
    obtain ⟨k', w⟩ := e
    obtain ⟨hnew, hd⟩ := List.nodup_cons.mp hd
    by_cases h : k' = k
    · subst h
      have hrest : (k', v) ∉ d := fun hmem => hnew (List.mem_map.mpr ⟨_, hmem, rfl⟩)
      simp [get, hrest, eq_comm]
    · simp [get, h, ih hd, Ne.symm h]

/-- The entries of a dictionary stay when the same keys are entered with what they have. -/
theorem alter_getD_of_mem {k : κ} {v : υ} {d : List (κ × υ)} (h : k ∈ d.map Prod.fst) :
    alter k (fun known => known.getD v) d = d := by
  induction d with
  | nil => cases h
  | cons e d ih =>
    obtain ⟨k', w⟩ := e
    by_cases hk : k' = k
    · rw [alter, if_pos hk]
      rfl
    · have hmem : k ∈ d.map Prod.fst := (List.mem_cons.mp h).resolve_left fun he => hk he.symm
      rw [alter, if_neg hk, ih hmem]

section Missing
variable {α : Type*} (k : α → κ) (v : α → υ)

/-- Of distinct keys, those that the dictionary lacks are entered behind it. -/
theorem foldl_alter_getD {as : List α} (has : (as.map k).Nodup) (d : List (κ × υ)) :
    as.foldl (fun d a => alter (k a) (fun known => known.getD (v a)) d) d =
      d ++ (as.filter fun a => k a ∉ d.map Prod.fst).map fun a => (k a, v a) := by
  induction as generalizing d with
  | nil => exact (List.append_nil d).symm
  | cons a as ih =>
    obtain ⟨hnew, has⟩ := List.nodup_cons.mp has
    rw [List.foldl_cons, List.filter_cons]
    by_cases ha : k a ∈ d.map Prod.fst
    · rw [alter_getD_of_mem ha, ih has, if_neg (by simpa using ha)]
    · have hkeys : (as.filter fun b => k b ∉ (d ++ [(k a, v a)]).map Prod.fst) =
          as.filter fun b => k b ∉ d.map Prod.fst := by
        refine List.filter_congr fun b hb => ?_
        have hne : k b ≠ k a := fun he => hnew (he ▸ List.mem_map_of_mem hb)
        simp [hne]
      rw [alter_of_not_mem ha, Option.getD_none, ih has, hkeys, if_pos (by simpa using ha),
        List.append_assoc]
      rfl

/-- A key keeps its entry, and a missing one gets the first that is entered for it. -/
theorem get_foldl_alter_getD (x : κ) (as : List α) (d : List (κ × υ)) :
    get x (as.foldl (fun d a => alter (k a) (fun known => known.getD (v a)) d) d) =
      (get x d).or (get x (as.map fun a => (k a, v a))) := by
  induction as generalizing d with
  | nil => exact (Option.or_none).symm
  | cons a as ih =>
    rw [List.foldl_cons, ih, List.map_cons, get]
    by_cases hk : k a = x
    · rw [if_pos hk, ← hk, get_alter_self]
      cases get (k a) d <;> rfl
    · rw [if_neg hk, get_alter_ne (Ne.symm hk)]

end Missing

/-- The places of the keys of a list. -/
theorem get_zipIdx [BEq κ] [LawfulBEq κ] (x : κ) (l : List κ) (n : ℕ) :
    get x (l.zipIdx n) = if x ∈ l then some (n + l.idxOf x) else none := by
  induction l generalizing n with
  | nil => rfl
  | cons y l ih =>
    rw [List.zipIdx_cons, get, ih]
    by_cases h : y = x
    · simp [h]
    · have hx : ¬ x = y := fun he => h he.symm
      rw [if_neg h, List.idxOf_cons_ne l h]
      simp only [List.mem_cons, hx, false_or]
      split_ifs
      · rw [Nat.add_right_comm]
        rfl
      · rfl

section Sum
variable {M : Type*} [AddCommMonoid υ] [AddCommMonoid M] (g : κ → υ →+ M)

/-- Adding to an entry adds its part to the sum over the dictionary. -/
theorem sum_alter (k : κ) (w : υ) (d : List (κ × υ)) :
    ((alter k (fun v => v.getD 0 + w) d).map fun e => g e.1 e.2).sum =
      (d.map fun e => g e.1 e.2).sum + g k w := by
  induction d with
  | nil => simp [alter]
  | cons e d ih =>
    obtain ⟨k', v⟩ := e
    by_cases h : k' = k
    · subst h
      simp only [alter, if_true, Option.getD_some, List.map_cons, List.sum_cons, map_add]
      exact add_right_comm _ _ _
    · simp only [alter, h, if_false, List.map_cons, List.sum_cons, ih]
      exact (add_assoc _ _ _).symm

/-- Adding up the entries of a key first does not change the sum. -/
theorem sum_foldl_alter {α : Type*} (k : α → κ) (w : α → υ) (as : List α) (d : List (κ × υ)) :
    ((as.foldl (fun d a => alter (k a) (fun v => v.getD 0 + w a) d) d).map fun e => g e.1 e.2).sum =
      (d.map fun e => g e.1 e.2).sum + (as.map fun a => g (k a) (w a)).sum := by
  induction as generalizing d with
  | nil => simp
  | cons a as ih =>
    rw [List.foldl_cons, ih, sum_alter, List.map_cons, List.sum_cons]
    exact add_assoc _ _ _

end Sum

end Dict
