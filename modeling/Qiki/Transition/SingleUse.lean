import Qiki.Transition.Threads

/-! Threads that check a credential in one step and consume it in a later one: when each
credential is consumed once. -/
namespace Transition

/-- Where a thread stands with the credential it presents. -/
inductive Stage
  | outside
  /-- The check has passed, the credential is not consumed yet. -/
  | holding
  | used
  deriving DecidableEq

section
variable {ι σ τ ε κ : Type*} [DecidableEq ι]

/-- What the steps of such threads do. `key` names the credential of a thread, `spent` says that it
no longer passes the check. -/
structure CheckThenConsume (step : ι → σ → τ → ε → Option (σ × τ))
    (guard : Threads ι σ τ → ι × ε → Prop) (stage : τ → Stage) (key : ι → Option κ)
    (spent : σ → κ → Prop) : Prop where
  /-- What passes the check is not spent. -/
  check : ∀ {c i a s' t' k}, guard c (i, a) → step i c.shared (c.thread i) a = some (s', t') →
    stage (c.thread i) ≠ .holding → stage t' = .holding →
    stage (c.thread i) = .outside ∧ (key i = some k → ¬ spent c.shared k)
  /-- Only a holder consumes, while no other thread holds the same credential. -/
  consume : ∀ {c i a s' t' k}, guard c (i, a) → step i c.shared (c.thread i) a = some (s', t') →
    stage (c.thread i) ≠ .used → stage t' = .used → key i = some k →
    stage (c.thread i) = .holding ∧ spent s' k ∧
      ∀ j, j ≠ i → key j = some k → stage (c.thread j) ≠ .holding
  stable : ∀ {c i a s' t' k}, guard c (i, a) → step i c.shared (c.thread i) a = some (s', t') →
    spent c.shared k → spent s' k

/-- A used credential is spent, and no other thread holds or has used it. -/
def UsedOnce (stage : τ → Stage) (key : ι → Option κ) (spent : σ → κ → Prop)
    (c : Threads ι σ τ) : Prop :=
  ∀ i k, key i = some k → stage (c.thread i) = .used →
    spent c.shared k ∧ ∀ j, j ≠ i → key j = some k → stage (c.thread j) = .outside

variable {step : ι → σ → τ → ε → Option (σ × τ)} {guard : Threads ι σ τ → ι × ε → Prop}
  {stage : τ → Stage} {key : ι → Option κ} {spent : σ → κ → Prop}

theorem CheckThenConsume.usedOnce_step (h : CheckThenConsume step guard stage key spent)
    {c c' : Threads ι σ τ} {e : ι × ε} (hc : UsedOnce stage key spent c) (hg : guard c e)
    (hs : interleave step c e = some c') : UsedOnce stage key spent c' := by
  obtain ⟨i, a⟩ := e
  obtain ⟨s', t', ht, rfl⟩ := interleave_eq_some.mp hs
  intro j k hk hused
  dsimp only at hused ⊢
  by_cases hji : j = i
  · subst hji
    rw [Function.update_self] at hused
    by_cases hbefore : stage (c.thread j) = .used
    · obtain ⟨hspent, hothers⟩ := hc j k hk hbefore
      refine ⟨h.stable hg ht hspent, fun l hl hlk => ?_⟩
      rw [Function.update_of_ne hl]
      exact hothers l hl hlk
    · obtain ⟨hholding, hspent, halone⟩ := h.consume hg ht hbefore hused hk
      refine ⟨hspent, fun l hl hlk => ?_⟩
      rw [Function.update_of_ne hl]
      have hnotHolding : stage (c.thread l) ≠ .holding := halone l hl hlk
      cases hstage : stage (c.thread l) with
      | outside => rfl
      | holding => exact absurd hstage hnotHolding
      | used =>
        -- a user of the credential would have kept `j` outside
        have houtside := (hc l k hlk hstage).2 j (Ne.symm hl) hk
        rw [hholding] at houtside
        cases houtside
  · rw [Function.update_of_ne hji] at hused
    obtain ⟨hspent, hothers⟩ := hc j k hk hused
    refine ⟨h.stable hg ht hspent, fun l hl hlk => ?_⟩
    by_cases hli : l = i
    · subst hli
      rw [Function.update_self]
      have houtside : stage (c.thread l) = .outside := hothers l hl hlk
      cases hstage : stage t' with
      | outside => rfl
      | holding =>
        have hnotHolding : stage (c.thread l) ≠ .holding := by rw [houtside]; decide
        exact absurd hspent ((h.check hg ht hnotHolding hstage).2 hlk)
      | used =>
        have hnotUsed : stage (c.thread l) ≠ .used := by rw [houtside]; decide
        have hholding := (h.consume hg ht hnotUsed hstage hlk).1
        rw [houtside] at hholding
        cases hholding
    · rw [Function.update_of_ne hli]
      exact hothers l hl hlk

/-- In a guarded run from threads that hold nothing, each credential is used at most once. -/
theorem CheckThenConsume.usedOnce (h : CheckThenConsume step guard stage key spent)
    {c c' : Threads ι σ τ} {es : List (ι × ε)} (hstart : ∀ i, stage (c.thread i) = .outside)
    (hg : Guarded (interleave step) guard c es) (hr : exec (interleave step) c es = some c') :
    UsedOnce stage key spent c' := by
  have hempty : UsedOnce stage key spent c := by
    intro i k hk hused
    rw [hstart i] at hused
    cases hused
  exact hg.invariant (fun _ _ _ hc hg hs => h.usedOnce_step hc hg hs) hempty hr

end

end Transition
