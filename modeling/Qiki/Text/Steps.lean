import Qiki.Text.Search

/-! Patterns of single letters and gaps: where they occur in a text, and what a text can go through
without losing an occurrence. -/

/-- One letter of a kind, or a gap of any length. -/
inductive Step (κ : Type)
  | one (x : κ)
  | gap
  deriving DecidableEq, Repr

namespace Step

variable {κ α β : Type}

/-- The text is read step by step; a gap reads the letters that are `free`. -/
def Reads (accepts : κ → α → Prop) (free : α → Prop) : List (Step κ) → List α → Prop
  | [], s => s = []
  | one x :: steps, s => ∃ c t, s = c :: t ∧ accepts x c ∧ Reads accepts free steps t
  | gap :: steps, s => ∃ g t, s = g ++ t ∧ (∀ c ∈ g, free c) ∧ Reads accepts free steps t

/-- The steps are read somewhere in the text. -/
def Occurs (accepts : κ → α → Prop) (free : α → Prop) (steps : List (Step κ)) (s : List α) : Prop :=
  ∃ t, t <:+: s ∧ Reads accepts free steps t

section
variable {accepts : κ → α → Prop} {free : α → Prop} {steps : List (Step κ)} {s t : List α}

theorem reads_append (first second : List (Step κ)) (s : List α) :
    Reads accepts free (first ++ second) s ↔
      ∃ x y, s = x ++ y ∧ Reads accepts free first x ∧ Reads accepts free second y := by
  induction first generalizing s with
  | nil =>
    constructor
    · intro h
      exact ⟨[], s, rfl, rfl, h⟩
    · rintro ⟨x, y, rfl, rfl, h⟩
      exact h
  | cons step first ih =>
    cases step with
    | one x =>
      constructor
      · rintro ⟨c, t, rfl, hc, ht⟩
        obtain ⟨u, v, rfl, hu, hv⟩ := (ih t).mp ht
        exact ⟨c :: u, v, rfl, ⟨c, u, rfl, hc, hu⟩, hv⟩
      · rintro ⟨_, v, rfl, ⟨c, u, rfl, hc, hu⟩, hv⟩
        exact ⟨c, u ++ v, rfl, hc, (ih _).mpr ⟨u, v, rfl, hu, hv⟩⟩
    | gap =>
      constructor
      · rintro ⟨g, t, rfl, hg, ht⟩
        obtain ⟨u, v, rfl, hu, hv⟩ := (ih t).mp ht
        exact ⟨g ++ u, v, (List.append_assoc g u v).symm, ⟨g, u, rfl, hg, hu⟩, hv⟩
      · rintro ⟨_, v, rfl, ⟨g, u, rfl, hg, hu⟩, hv⟩
        exact ⟨g, u ++ v, List.append_assoc g u v, hg, (ih _).mpr ⟨u, v, rfl, hu, hv⟩⟩

theorem Occurs.extend (h : Occurs accepts free steps s) (hst : s <:+: t) :
    Occurs accepts free steps t := by
  obtain ⟨m, hm, hreads⟩ := h
  exact ⟨m, hm.trans hst, hreads⟩

/-- A gap on either side reads what stands around an occurrence. -/
theorem occurs_iff : Occurs accepts (fun _ => True) steps s ↔
    Reads accepts (fun _ => True) (gap :: (steps ++ [gap])) s := by
  constructor
  · rintro ⟨m, ⟨x, y, rfl⟩, hm⟩
    refine ⟨x, m ++ y, List.append_assoc x m y, fun _ _ => trivial, ?_⟩
    have hlast : Reads accepts (fun _ => True) [gap] y :=
      ⟨y, [], (List.append_nil y).symm, fun _ _ => trivial, rfl⟩
    exact (reads_append steps [gap] _).mpr ⟨m, y, rfl, hm, hlast⟩
  · rintro ⟨x, t, rfl, -, ht⟩
    obtain ⟨m, y, rfl, hm, -⟩ := (reads_append steps [gap] _).mp ht
    exact ⟨m, ⟨x, y, List.append_assoc x m y⟩, hm⟩

end

/-! Texts that are rewritten letter by letter. -/

section
variable {accepts : κ → α → Prop} {accepts' : κ → β → Prop} {free : α → Prop} {free' : β → Prop}
  {f : α → List β} {steps : List (Step κ)} {s : List α}

/-- Every accepted letter becomes one accepted letter, and a gap stays a gap. -/
theorem Reads.flatMap (h : Reads accepts free steps s)
    (hone : ∀ x c, one x ∈ steps → c ∈ s → accepts x c → ∃ d, f c = [d] ∧ accepts' x d)
    (hgap : ∀ c ∈ s, free c → ∀ d ∈ f c, free' d) :
    Reads accepts' free' steps (s.flatMap f) := by
  induction steps generalizing s with
  | nil =>
    have hs : s = [] := h
    rw [hs]
    exact rfl
  | cons step steps ih =>
    cases step with
    | one x =>
      obtain ⟨c, t, rfl, hc, ht⟩ := h
      obtain ⟨d, hd, hxd⟩ := hone x c List.mem_cons_self List.mem_cons_self hc
      have hrest := ih ht
        (fun x' c' hx' hc' => hone x' c' (List.mem_cons_of_mem _ hx') (List.mem_cons_of_mem c hc'))
        fun c' hc' => hgap c' (List.mem_cons_of_mem c hc')
      refine ⟨d, t.flatMap f, ?_, hxd, hrest⟩
      rw [List.flatMap_cons, hd]
      rfl
    | gap =>
      obtain ⟨g, t, rfl, hg, ht⟩ := h
      have hrest := ih ht
        (fun x c hx hc => hone x c (List.mem_cons_of_mem _ hx) (List.mem_append_right g hc))
        fun c hc => hgap c (List.mem_append_right g hc)
      refine ⟨g.flatMap f, t.flatMap f, List.flatMap_append, ?_, hrest⟩
      intro d hd
      obtain ⟨c, hc, hdc⟩ := List.mem_flatMap.mp hd
      exact hgap c (List.mem_append_left t hc) (hg c hc) d hdc

theorem Occurs.flatMap (h : Occurs accepts free steps s)
    (hone : ∀ x c, one x ∈ steps → c ∈ s → accepts x c → ∃ d, f c = [d] ∧ accepts' x d)
    (hgap : ∀ c ∈ s, free c → ∀ d ∈ f c, free' d) : Occurs accepts' free' steps (s.flatMap f) := by
  obtain ⟨m, ⟨x, y, rfl⟩, hm⟩ := h
  have hmem : ∀ c ∈ m, c ∈ x ++ m ++ y := fun c hc =>
    List.mem_append_left y (List.mem_append_right x hc)
  refine ⟨m.flatMap f, ⟨x.flatMap f, y.flatMap f, ?_⟩, ?_⟩
  · rw [List.flatMap_append, List.flatMap_append]
  · exact hm.flatMap (fun x c hx hc => hone x c hx (hmem c hc)) fun c hc => hgap c (hmem c hc)

/-- Reading the image of a text is reading the text through the map. -/
theorem reads_map (f : α → β) {accepts' : κ → β → Prop} {free' : β → Prop} (steps : List (Step κ))
    (s : List α) : Reads accepts' free' steps (s.map f) ↔
      Reads (fun x c => accepts' x (f c)) (fun c => free' (f c)) steps s := by
  induction steps generalizing s with
  | nil => exact List.map_eq_nil_iff
  | cons step steps ih =>
    cases step with
    | one x =>
      constructor
      · rintro ⟨d, t, hst, hd, ht⟩
        obtain ⟨c, u, rfl, rfl, rfl⟩ := List.map_eq_cons_iff.mp hst
        exact ⟨c, u, rfl, hd, (ih u).mp ht⟩
      · rintro ⟨c, u, rfl, hc, hu⟩
        exact ⟨f c, u.map f, rfl, hc, (ih u).mpr hu⟩
    | gap =>
      constructor
      · rintro ⟨g, t, hst, hg, ht⟩
        obtain ⟨x, y, rfl, rfl, rfl⟩ := List.map_eq_append_iff.mp hst
        exact ⟨x, y, rfl, fun c hc => hg _ (List.mem_map_of_mem hc), (ih y).mp ht⟩
      · rintro ⟨x, y, rfl, hx, hy⟩
        refine ⟨x.map f, y.map f, List.map_append, fun d hd => ?_, (ih y).mpr hy⟩
        obtain ⟨c, hc, rfl⟩ := List.mem_map.mp hd
        exact hx c hc

theorem occurs_map (f : α → β) {accepts' : κ → β → Prop} {free' : β → Prop} (steps : List (Step κ))
    (s : List α) : Occurs accepts' free' steps (s.map f) ↔
      Occurs (fun x c => accepts' x (f c)) (fun c => free' (f c)) steps s := by
  constructor
  · rintro ⟨m, ⟨x, y, hm⟩, hreads⟩
    obtain ⟨u, v, rfl, hu, rfl⟩ := List.map_eq_append_iff.mp hm.symm
    obtain ⟨u₁, u₂, rfl, rfl, rfl⟩ := List.map_eq_append_iff.mp hu
    exact ⟨u₂, ⟨u₁, v, rfl⟩, (reads_map f steps u₂).mp hreads⟩
  · rintro ⟨m, ⟨x, y, rfl⟩, hreads⟩
    refine ⟨m.map f, ⟨x.map f, y.map f, ?_⟩, (reads_map f steps m).mpr hreads⟩
    rw [List.map_append, List.map_append]

end

/-! Separators that can be dropped. -/

section
variable {accepts : κ → α → Prop} {sep : α} {reads : κ → Bool} {steps : List (Step κ)}

/-- The first step reads a letter, and no separator. -/
def beginsInside (reads : κ → Bool) : List (Step κ) → Bool
  | one x :: _ => !reads x
  | _ => false

/-- A step that may read a separator stands between steps that read other letters; `inside` says
whether such a step comes before. -/
def spaced (reads : κ → Bool) : Bool → List (Step κ) → Bool
  | _, [] => true
  | inside, one x :: steps =>
    (!reads x || inside && beginsInside reads steps) && spaced reads (!reads x) steps
  | _, gap :: steps => spaced reads false steps

theorem spaced_append_gap (inside : Bool) (h : spaced reads inside steps = true) :
    spaced reads inside (steps ++ [gap]) = true := by
  induction steps generalizing inside with
  | nil => rfl
  | cons step steps ih =>
    cases step with
    | one x =>
      rw [spaced, Bool.and_eq_true] at h
      rw [List.cons_append, spaced, ih _ h.2, Bool.and_true]
      cases hx : reads x with
      | false => rfl
      | true =>
        rw [hx] at h
        obtain ⟨hinside, hbegins⟩ := Bool.and_eq_true_iff.mp h.1
        rw [hinside, Bool.not_true, Bool.false_or, Bool.true_and]
        cases steps with
        | nil => cases hbegins
        | cons next steps =>
          cases next with
          | one y => exact hbegins
          | gap => cases hbegins
    | gap => exact ih false h

variable (hreads : ∀ x, accepts x sep → reads x = true)
include hreads

/-- A separator before another one, or at the end, is not needed. -/
theorem Reads.drop_sep {inside : Bool} {x y : List α} (hspaced : spaced reads inside steps = true)
    (hy : y = [] ∨ ∃ z, y = sep :: z) (h : Reads accepts (fun _ => True) steps (x ++ sep :: y)) :
    Reads accepts (fun _ => True) steps (x ++ y) := by
  induction steps generalizing inside x with
  | nil =>
    have hnil : x ++ sep :: y = [] := h
    exact absurd (List.append_eq_nil_iff.mp hnil).2 (List.cons_ne_nil sep y)
  | cons step steps ih =>
    cases step with
    | one k =>
      obtain ⟨c, t, hct, hc, ht⟩ := h
      rw [spaced, Bool.and_eq_true] at hspaced
      cases x with
      | cons d x =>
        obtain ⟨rfl, rfl⟩ := List.cons.inj hct
        exact ⟨d, x ++ y, rfl, hc, ih hspaced.2 ht⟩
      | nil =>
        -- the separator was read, so the next step reads another letter
        obtain ⟨rfl, rfl⟩ := List.cons.inj hct
        exfalso
        have hbegins := hspaced.1
        rw [hreads k hc, Bool.not_true, Bool.false_or, Bool.and_eq_true] at hbegins
        cases steps with
        | nil => cases hbegins.2
        | cons next steps =>
          cases next with
          | gap => cases hbegins.2
          | one k' =>
            obtain ⟨c', t', rfl, hc', -⟩ := ht
            rcases hy with hnil | ⟨z, hz⟩
            · cases hnil
            · obtain ⟨rfl, -⟩ := List.cons.inj hz
              have hnot : (!reads k') = true := hbegins.2
              rw [hreads k' hc'] at hnot
              cases hnot
    | gap =>
      obtain ⟨g, t, hgt, -, ht⟩ := h
      rcases List.append_eq_append_iff.mp hgt with ⟨g', rfl, hrest⟩ | ⟨x', rfl, rfl⟩
      · cases g' with
        | nil =>
          rw [List.nil_append] at hrest
          rw [← hrest] at ht
          exact ⟨x, y, rfl, fun _ _ => trivial, ih (x := []) hspaced ht⟩
        | cons d g' =>
          obtain ⟨rfl, rfl⟩ := List.cons.inj hrest
          exact ⟨x ++ g', t, (List.append_assoc x g' t).symm, fun _ _ => trivial, ht⟩
      · exact ⟨g, x' ++ y, List.append_assoc g x' y, fun _ _ => trivial, ih hspaced ht⟩

/-- A separator in front is not needed. -/
theorem Reads.drop_front {y : List α} (hspaced : spaced reads false steps = true)
    (h : Reads accepts (fun _ => True) (gap :: steps) (sep :: y)) :
    Reads accepts (fun _ => True) (gap :: steps) y := by
  obtain ⟨g, t, hgt, -, ht⟩ := h
  cases g with
  | cons d g =>
    obtain ⟨rfl, rfl⟩ := List.cons.inj hgt
    exact ⟨g, t, rfl, fun _ _ => trivial, ht⟩
  | nil =>
    rw [List.nil_append] at hgt
    rw [← hgt] at ht
    induction steps with
    | nil => cases ht
    | cons step steps ih =>
      cases step with
      | one k =>
        obtain ⟨c, t', hct, hc, -⟩ := ht
        obtain ⟨rfl, -⟩ := List.cons.inj hct
        rw [spaced, hreads k hc] at hspaced
        cases hspaced
      | gap =>
        obtain ⟨g, t', hgt', -, ht'⟩ := ht
        cases g with
        | cons d g =>
          obtain ⟨rfl, rfl⟩ := List.cons.inj hgt'
          exact ⟨[], g ++ t', rfl, fun _ _ => trivial, g, t', rfl, fun _ _ => trivial, ht'⟩
        | nil =>
          rw [List.nil_append] at hgt'
          rw [← hgt'] at ht'
          obtain ⟨g, u, rfl, -, hu⟩ := ih hspaced ht'
          exact ⟨[], g ++ u, rfl, fun _ _ => trivial, g, u, rfl, fun _ _ => trivial, hu⟩

/-- Words that are empty are not needed, with a separator before each word. -/
theorem Occurs.drop_empty {ws : List (List α)} (hspaced : spaced reads false steps = true)
    (h : Occurs accepts (fun _ => True) steps (ws.flatMap (sep :: ·))) :
    Occurs accepts (fun _ => True) steps ((ws.filter fun w => !w.isEmpty).flatMap (sep :: ·)) := by
  have hrun : spaced reads false (gap :: (steps ++ [gap])) = true := spaced_append_gap false hspaced
  suffices hfrom : ∀ x, Reads accepts (fun _ => True) (gap :: (steps ++ [gap]))
      (x ++ ws.flatMap (sep :: ·)) → Reads accepts (fun _ => True) (gap :: (steps ++ [gap]))
        (x ++ (ws.filter fun w => !w.isEmpty).flatMap (sep :: ·)) from
    occurs_iff.mpr (hfrom [] (occurs_iff.mp h))
  clear h
  induction ws with
  | nil => exact fun _ h => h
  | cons w ws ih =>
    intro x h
    rw [List.flatMap_cons] at h
    cases w with
    | nil =>
      rw [List.filter_cons_of_neg (by simp)]
      refine ih x (Reads.drop_sep hreads hrun ?_ h)
      cases ws with
      | nil => exact Or.inl rfl
      | cons v ws => exact Or.inr ⟨_, List.flatMap_cons⟩
    | cons c w =>
      rw [List.filter_cons_of_pos (by simp), List.flatMap_cons, ← List.append_assoc]
      rw [← List.append_assoc] at h
      exact ih _ h

/-- The separator in front of the first word is not needed. -/
theorem occurs_cons_sep {y : List α} (hspaced : spaced reads false steps = true) :
    Occurs accepts (fun _ => True) steps (sep :: y) ↔ Occurs accepts (fun _ => True) steps y := by
  constructor
  · intro h
    exact occurs_iff.mpr (Reads.drop_front hreads (spaced_append_gap false hspaced) (occurs_iff.mp h))
  · exact fun h => h.extend (List.suffix_cons sep y).isInfix

end

/-! Texts whose letters are replaced by ones that are accepted just as well. -/

/-- Each letter is replaced by one that is accepted where it was, or is accepted nowhere and
replaced by any text. -/
inductive Improves (accepts : κ → α → Prop) : List α → List α → Prop
  | nil : Improves accepts [] []
  | keep {c d : α} {s t : List α} (h : ∀ x, accepts x c → accepts x d) (rest : Improves accepts s t) :
    Improves accepts (c :: s) (d :: t)
  | change {c : α} {s t : List α} (v : List α) (h : ∀ x, ¬ accepts x c)
    (rest : Improves accepts s t) : Improves accepts (c :: s) (v ++ t)

section
variable {accepts : κ → α → Prop} {steps : List (Step κ)} {s t u v : List α}

theorem Improves.refl (s : List α) : Improves accepts s s := by
  induction s with
  | nil => exact .nil
  | cons c s ih => exact .keep (fun _ h => h) ih

theorem Improves.append (h : Improves accepts s t) (h' : Improves accepts u v) :
    Improves accepts (s ++ u) (t ++ v) := by
  induction h with
  | nil => exact h'
  | keep hc _ ih => exact .keep hc ih
  | change w hc _ ih =>
    rw [List.append_assoc]
    exact .change w hc ih

/-- Letters that are accepted nowhere may become any text. -/
theorem Improves.of_unread (hne : s ≠ []) (h : ∀ c ∈ s, ∀ x, ¬ accepts x c) (t : List α) :
    Improves accepts s t := by
  cases s with
  | nil => exact absurd rfl hne
  | cons c s =>
    have hrest : Improves accepts s [] := by
      clear hne
      induction s with
      | nil => exact .nil
      | cons d s ih =>
        refine .change [] (h d (List.mem_cons_of_mem c List.mem_cons_self)) (ih fun e he => h e ?_)
        rcases List.mem_cons.mp he with rfl | he
        · exact List.mem_cons_self
        · exact List.mem_cons_of_mem c (List.mem_cons_of_mem d he)
    have hall := Improves.change t (h c List.mem_cons_self) hrest
    rwa [List.append_nil] at hall

theorem Improves.split {g : List α} (h : Improves accepts (g ++ s) t) :
    ∃ x y, t = x ++ y ∧ Improves accepts s y := by
  induction g generalizing t with
  | nil => exact ⟨[], t, rfl, h⟩
  | cons c g ih =>
    rw [List.cons_append] at h
    cases h with
    | keep _ rest =>
      obtain ⟨x, y, rfl, hy⟩ := ih rest
      exact ⟨_ :: x, y, rfl, hy⟩
    | change v _ rest =>
      obtain ⟨x, y, rfl, hy⟩ := ih rest
      exact ⟨v ++ x, y, (List.append_assoc v x y).symm, hy⟩

theorem Occurs.improve (h : Occurs accepts (fun _ => True) steps s) (hst : Improves accepts s t) :
    Occurs accepts (fun _ => True) steps t := by
  suffices hreads : ∀ (steps : List (Step κ)) (s t : List α), Improves accepts s t →
      Reads accepts (fun _ => True) (steps ++ [gap]) s →
      Reads accepts (fun _ => True) (steps ++ [gap]) t from
    occurs_iff.mpr (hreads (gap :: steps) s t hst (occurs_iff.mp h))
  clear h hst
  intro steps
  induction steps with
  | nil => exact fun s t _ _ => ⟨t, [], (List.append_nil t).symm, fun _ _ => trivial, rfl⟩
  | cons step steps ih =>
    intro s t hst h
    cases step with
    | one x =>
      obtain ⟨c, s, rfl, hc, hs⟩ := h
      cases hst with
      | keep hcd rest => exact ⟨_, _, rfl, hcd x hc, ih s _ rest hs⟩
      | change v hno rest => exact absurd hc (hno x)
    | gap =>
      obtain ⟨g, s, rfl, -, hs⟩ := h
      obtain ⟨x, y, rfl, hy⟩ := hst.split
      exact ⟨x, y, rfl, fun _ _ => trivial, ih s y hy hs⟩

end

end Step

/-! Expressions of single characters and gaps. -/
namespace Regex

/-- The steps of an expression that is made of characters and `.*` only. -/
def steps : Regex → Option (List (Step (List CharClass)))
  | empty => some []
  | oneOf false classes => some [.one classes]
  | star true (oneOf false [.any]) => some [.gap]
  | seq a b => return (← steps a) ++ (← steps b)
  | _ => none

/-- What stands for a step. -/
def Mode.accepts (m : Mode) (classes : List CharClass) (c : Char) : Prop :=
  classes.any (m.matchesClass c) = true

theorem spells_steps {m : Mode} {r : Regex} {l : List (Step (List CharClass))}
    (h : r.steps = some l) : Spells m r (Step.Reads m.accepts (· ≠ '\n') l) := by
  induction r using steps.induct generalizing l with
  | case1 =>
    obtain rfl := Option.some.inj h
    exact Spells.empty
  | case2 classes =>
    obtain rfl := Option.some.inj h
    refine (Spells.oneOf classes).congr fun s => ?_
    constructor
    · rintro ⟨c, hc, rfl⟩
      exact ⟨c, [], rfl, hc, rfl⟩
    · rintro ⟨c, t, rfl, hc, rfl⟩
      exact ⟨c, hc, rfl⟩
  | case3 =>
    obtain rfl := Option.some.inj h
    refine (Spells.starOneOf true [.any]).congr fun s => ?_
    have hany (c : Char) : [CharClass.any].any (m.matchesClass c) = true ↔ c ≠ '\n' := by
      simp [Mode.matchesClass]
    simp only [hany]
    constructor
    · exact fun hs => ⟨s, [], (List.append_nil s).symm, hs, rfl⟩
    · rintro ⟨g, t, rfl, hg, rfl⟩
      rw [List.append_nil]
      exact hg
  | case4 a b iha ihb =>
    obtain ⟨la, ha, lb, hb, hl⟩ : ∃ la, a.steps = some la ∧ ∃ lb, b.steps = some lb ∧ la ++ lb = l := by
      simpa [steps, Option.bind_eq_some_iff] using h
    rw [← hl]
    refine ((iha ha).seq (ihb hb)).congr fun s => ?_
    rw [Step.reads_append]
    constructor
    · rintro ⟨x, y, hx, hy, hs⟩
      exact ⟨x, y, hs, hx, hy⟩
    · rintro ⟨x, y, hs, hx, hy⟩
      exact ⟨x, y, hx, hy, hs⟩
  | case5 r hempty hone hgap hseq => simp [steps, *] at h

/-- A search finds the expression where its steps occur. -/
theorem search_steps {m : Mode} {r : Regex} {l : List (Step (List CharClass))}
    (h : r.steps = some l) (s : Text) :
    (search m r s).isSome = true ↔ Step.Occurs m.accepts (· ≠ '\n') l s := by
  rw [search_isSome]
  constructor
  · rintro ⟨x, y, k', rfl, hk'⟩
    obtain ⟨t, rest, ht, hrest, -⟩ := (spells_steps h _ _).mp hk'
    have hy : y = t ++ rest := hrest
    refine ⟨t, ⟨x, rest, ?_⟩, ht⟩
    rw [hy, List.append_assoc]
  · rintro ⟨t, ⟨x, rest, rfl⟩, ht⟩
    have hmem := (spells_steps h (.between x (t ++ rest)) _).mpr ⟨t, rest, ht, rfl, rfl⟩
    exact ⟨x, t ++ rest, _, List.append_assoc x t rest, hmem⟩

end Regex
