import Mathlib.Data.List.Basic
import Mathlib.Logic.Basic

/-! Runs of labelled transition systems and the invariant rules for them. -/
namespace Transition

variable {σ α : Type*}

/-- Execute the labels in order. `none` means that some label was not enabled. -/
def exec (step : σ → α → Option σ) : σ → List α → Option σ
  | s, [] => some s
  | s, a :: as => (step s a).bind fun t => exec step t as

/-- Every step of the run from `s` meets `guard` in the state it is taken in. -/
def Guarded (step : σ → α → Option σ) (guard : σ → α → Prop) : σ → List α → Prop
  | _, [] => True
  | s, a :: as => guard s a ∧ ∀ t, step s a = some t → Guarded step guard t as

section Basic
variable {step : σ → α → Option σ} {guard : σ → α → Prop}

@[simp] theorem exec_nil (s : σ) : exec step s [] = some s := rfl

theorem exec_cons {s t : σ} {a : α} {as : List α} :
    exec step s (a :: as) = some t ↔ ∃ u, step s a = some u ∧ exec step u as = some t := by
  simp only [exec, Option.bind_eq_some_iff]

theorem exec_append {s t : σ} {as bs : List α} :
    exec step s (as ++ bs) = some t ↔
      ∃ u, exec step s as = some u ∧ exec step u bs = some t := by
  induction as generalizing s with
  | nil => simp
  | cons a as ih => simp only [List.cons_append, exec, Option.bind_eq_some_iff, ih]; aesop

/-- A prefix of a guarded run is guarded. -/
theorem Guarded.of_append {s : σ} {as bs : List α} (h : Guarded step guard s (as ++ bs)) :
    Guarded step guard s as := by
  induction as generalizing s with
  | nil => trivial
  | cons a as ih => exact ⟨h.1, fun t ht => ih (h.2 t ht)⟩

/-- Both parts of a guarded run are guarded. -/
theorem Guarded.split {s t : σ} {as bs : List α} (h : Guarded step guard s (as ++ bs))
    (hr : exec step s as = some t) : Guarded step guard s as ∧ Guarded step guard t bs := by
  refine ⟨h.of_append, ?_⟩
  induction as generalizing s with
  | nil => exact Option.some.inj hr ▸ h
  | cons a as ih =>
    obtain ⟨u, hu, hr⟩ := exec_cons.mp hr
    exact ih (h.2 u hu) hr

theorem Guarded.mono {guard' : σ → α → Prop} (hg : ∀ s a, guard s a → guard' s a) {s : σ}
    {as : List α} (h : Guarded step guard s as) : Guarded step guard' s as := by
  induction as generalizing s with
  | nil => trivial
  | cons a as ih => exact ⟨hg s a h.1, fun t ht => ih (h.2 t ht)⟩

theorem guarded_of_forall (h : ∀ s a, guard s a) (s : σ) (as : List α) :
    Guarded step guard s as := by
  induction as generalizing s with
  | nil => trivial
  | cons a as ih => exact ⟨h s a, fun t _ => ih t⟩

/-- A guard on the labels alone. -/
theorem guarded_of_forall_mem {p : α → Prop} {as : List α} (h : ∀ a ∈ as, p a) (s : σ) :
    Guarded step (fun _ a => p a) s as := by
  induction as generalizing s with
  | nil => trivial
  | cons a as ih =>
    exact ⟨h a (List.mem_cons_self ..), fun t _ => ih (fun b hb => h b (List.mem_cons_of_mem _ hb)) t⟩

instance Guarded.decidable [∀ s a, Decidable (guard s a)] :
    (s : σ) → (as : List α) → Decidable (Guarded step guard s as)
  | _, [] => isTrue trivial
  | s, a :: as =>
    match h : step s a with
    | none => decidable_of_iff (guard s a) ⟨fun hg => ⟨hg, fun t ht => by simp [h] at ht⟩, And.left⟩
    | some t =>
      have : Decidable (Guarded step guard t as) := Guarded.decidable t as
      decidable_of_iff (guard s a ∧ Guarded step guard t as)
        ⟨fun hg => ⟨hg.1, fun u hu => by rw [h] at hu; exact Option.some.inj hu ▸ hg.2⟩,
          fun hg => ⟨hg.1, hg.2 t h⟩⟩

/-- What every guarded step preserves, every guarded run preserves. -/
theorem Guarded.invariant {inv : σ → Prop}
    (hstep : ∀ s a t, inv s → guard s a → step s a = some t → inv t) {s t : σ} {as : List α}
    (hs : inv s) (hg : Guarded step guard s as) (hr : exec step s as = some t) : inv t := by
  induction as generalizing s with
  | nil => exact Option.some.inj hr ▸ hs
  | cons a as ih =>
    obtain ⟨u, hu, hr⟩ := exec_cons.mp hr
    exact ih (hstep s a u hs hg.1 hu) (hg.2 u hu) hr

/-- A run that is not guarded ends where an unguarded step led, when no step leads away from there. -/
theorem trapped_of_not_guarded {inv bad : σ → Prop}
    (hinv : ∀ s a t, inv s → step s a = some t → inv t)
    (htrap : ∀ s a t, inv s → ¬guard s a → step s a = some t → bad t)
    (hkeep : ∀ s a t, bad s → step s a = some t → bad t) {s t : σ} {as : List α}
    (hs : inv s) (hg : ¬Guarded step guard s as) (hr : exec step s as = some t) : bad t := by
  induction as generalizing s with
  | nil => exact absurd trivial hg
  | cons a as ih =>
    obtain ⟨u, hu, hr⟩ := exec_cons.mp hr
    by_cases ha : guard s a
    · refine ih (hinv s a u hs hu) (fun hrest => hg ⟨ha, fun v hv => ?_⟩) hr
      rw [hu] at hv
      exact Option.some.inj hv ▸ hrest
    · exact Guarded.invariant (fun s a t hs _ => hkeep s a t hs) (htrap s a u hs ha hu)
        (guarded_of_forall (fun _ _ => trivial) u as) hr

/-- What every step preserves, every run preserves. -/
theorem invariant_exec {inv : σ → Prop}
    (hstep : ∀ s a t, inv s → step s a = some t → inv t) {s t : σ} {as : List α}
    (hs : inv s) (hr : exec step s as = some t) : inv t :=
  have hg : Guarded step (fun _ _ => True) s as := guarded_of_forall (fun _ _ => trivial) s as
  Guarded.invariant (fun s a t hs _ => hstep s a t hs) hs hg hr

end Basic

/-- A system whose labels are always enabled runs as a fold. -/
theorem exec_some (f : σ → α → σ) (s : σ) (as : List α) :
    exec (fun s a => some (f s a)) s as = some (as.foldl f s) := by
  induction as generalizing s with
  | nil => rfl
  | cons a as ih => simpa [exec] using ih (f s a)


/-- When the guard says exactly whether one step keeps the states good, a run is guarded
exactly when every state it reaches is good. -/
theorem guarded_iff_forall_prefix {f : σ → α → σ} {inv good : σ → Prop} {guard : σ → α → Prop}
    (hgood : ∀ s, inv s → good s) (hstep : ∀ s a, inv s → (guard s a ↔ good (f s a)))
    (hinv : ∀ s a, inv s → guard s a → inv (f s a)) {s : σ} (hs : inv s) (as : List α) :
    (∀ bs, bs <+: as → good (bs.foldl f s)) ↔ Guarded (fun s a => some (f s a)) guard s as := by
  induction as generalizing s with
  | nil =>
    refine iff_of_true (fun bs hbs => ?_) trivial
    rw [List.prefix_nil.mp hbs]
    exact hgood s hs
  | cons a as ih =>
    constructor
    · intro h
      have hga : guard s a := (hstep s a hs).mpr (h [a] ⟨as, rfl⟩)
      refine ⟨hga, fun t ht => ?_⟩
      cases ht
      exact (ih (hinv s a hs hga)).mp fun bs hbs =>
        h (a :: bs) (List.cons_prefix_cons.mpr ⟨rfl, hbs⟩)
    · rintro ⟨hga, hrest⟩ bs hbs
      cases bs with
      | nil => exact hgood s hs
      | cons b bs =>
        obtain ⟨rfl, htail⟩ := List.cons_prefix_cons.mp hbs
        exact (ih (hinv s b hs hga)).mpr (hrest _ rfl) bs htail

end Transition
