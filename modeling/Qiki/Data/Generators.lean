import Mathlib.Data.List.Basic

/-! Asynchronous generators over a state: what they add to it, what they hand out, and the places
where they are suspended and can be resumed or interrupted. -/

/-- A generator. At a suspension it is resumed, or an exception is thrown into it. -/
inductive Gen (ε ο σ α : Type)
  | done (a : α)
  | raise (e : ε)
  | read (next : σ → Gen ε ο σ α)
  | write (f : σ → σ) (next : Gen ε ο σ α)
  | await (resumed : Gen ε ο σ α) (thrown : ε → Gen ε ο σ α)
  | emit (o : ο) (resumed : Gen ε ο σ α) (thrown : ε → Gen ε ο σ α)

namespace Gen

variable {ε ο σ α β : Type}

def bind : Gen ε ο σ α → (α → Gen ε ο σ β) → Gen ε ο σ β
  | done a, f => f a
  | raise e, _ => raise e
  | read next, f => read fun s => (next s).bind f
  | write g next, f => write g (next.bind f)
  | await resumed thrown, f => await (resumed.bind f) fun e => (thrown e).bind f
  | emit o resumed thrown, f => emit o (resumed.bind f) fun e => (thrown e).bind f

instance : Monad (Gen ε ο σ) where
  pure := done
  bind := bind

/-- `try: body finally: last` -/
def tryFinally : Gen ε ο σ α → Gen ε ο σ Unit → Gen ε ο σ α
  | done a, last => last.bind fun _ => done a
  | raise e, last => last.bind fun _ => raise e
  | read next, last => read fun s => (next s).tryFinally last
  | write g next, last => write g (next.tryFinally last)
  | await resumed thrown, last => await (resumed.tryFinally last) fun e => (thrown e).tryFinally last
  | emit o resumed thrown, last =>
    emit o (resumed.tryFinally last) fun e => (thrown e).tryFinally last

/-- One `await` of something else, or one `yield`, that passes an exception on. -/
def pause : Gen ε ο σ Unit := await (done ()) raise

def yield (o : ο) : Gen ε ο σ Unit := emit o (done ()) raise

def modify (f : σ → σ) : Gen ε ο σ Unit := write f (done ())

def get : Gen ε ο σ σ := read done

/-- `n` awaits in a row. -/
def pauses : ℕ → Gen ε ο σ Unit
  | 0 => done ()
  | n + 1 => pause.bind fun _ => pauses n

/-- What came of a run: how it ended, the state, what was handed out, and the interruption that is
still to come. -/
structure Ran (ε ο σ α : Type) where
  result : Except ε α
  state : σ
  out : List ο := []
  left : Option (ℕ × ε)

def Ran.after (out : List ο) (r : Ran ε ο σ α) : Ran ε ο σ α := { r with out := out ++ r.out }

/-- A run with at most one interruption: after how many suspensions it comes, and what is thrown. -/
def run : Gen ε ο σ α → Option (ℕ × ε) → σ → Ran ε ο σ α
  | done a, i, s => { result := .ok a, state := s, left := i }
  | raise e, i, s => { result := .error e, state := s, left := i }
  | read next, i, s => (next s).run i s
  | write f next, i, s => next.run i (f s)
  | await resumed thrown, i, s =>
    match i with
    | none => resumed.run none s
    | some (0, e) => (thrown e).run none s
    | some (n + 1, e) => resumed.run (some (n, e)) s
  | emit o resumed thrown, i, s =>
    match i with
    | none => (resumed.run none s).after [o]
    | some (0, e) => ((thrown e).run none s).after [o]
    | some (n + 1, e) => (resumed.run (some (n, e)) s).after [o]

variable {g : Gen ε ο σ α} {i : Option (ℕ × ε)} {s : σ}

theorem bind_assoc {γ : Type} (g : Gen ε ο σ α) (f : α → Gen ε ο σ β) (k : β → Gen ε ο σ γ) :
    (g.bind f).bind k = g.bind fun a => (f a).bind k := by
  induction g with
  | done a => rfl
  | raise e => rfl
  | read next ih => exact congrArg read (funext ih)
  | write h next ih => exact congrArg (write h) ih
  | await resumed thrown ihr iht => exact congrArg₂ await ihr (funext iht)
  | emit o resumed thrown ihr iht => exact congrArg₂ (emit o) ihr (funext iht)

/-- The second part goes on where the first has ended. -/
theorem run_bind (f : α → Gen ε ο σ β) : (g.bind f).run i s =
    match (g.run i s).result with
    | .ok a => ((f a).run (g.run i s).left (g.run i s).state).after (g.run i s).out
    | .error e => ⟨.error e, (g.run i s).state, (g.run i s).out, (g.run i s).left⟩ := by
  have hafter (o : ο) (r : Ran ε ο σ α) :
      (match r.result with
        | .ok a => ((f a).run r.left r.state).after r.out
        | .error e => (⟨.error e, r.state, r.out, r.left⟩ : Ran ε ο σ β)).after [o] =
      match (r.after [o]).result with
        | .ok a => ((f a).run (r.after [o]).left (r.after [o]).state).after (r.after [o]).out
        | .error e => ⟨.error e, (r.after [o]).state, (r.after [o]).out, (r.after [o]).left⟩ := by
    cases hresult : r.result <;> simp [Ran.after, hresult]
  induction g generalizing i s with
  | done a => rfl
  | raise e => rfl
  | read next ih => exact ih s
  | write g next ih => exact ih
  | await resumed thrown ihr iht =>
    rcases i with _ | ⟨_ | n, e⟩
    · exact ihr
    · exact iht e
    · exact ihr
  | emit o resumed thrown ihr iht =>
    rcases i with _ | ⟨_ | n, e⟩
    · exact (congrArg (Ran.after [o]) ihr).trans (hafter o _)
    · exact (congrArg (Ran.after [o]) (iht e)).trans (hafter o _)
    · exact (congrArg (Ran.after [o]) ihr).trans (hafter o _)

/-- The last part runs however the body has ended, and passes its end on. -/
theorem run_tryFinally (last : Gen ε ο σ Unit) : (g.tryFinally last).run i s =
    let body := g.run i s
    let final := last.run body.left body.state
    ⟨match final.result with
      | .ok _ => body.result
      | .error e => .error e, final.state, body.out ++ final.out, final.left⟩ := by
  have hafter (o : ο) (r : Ran ε ο σ α) :
      (⟨match (last.run r.left r.state).result with
        | .ok _ => r.result
        | .error e => .error e, (last.run r.left r.state).state,
          r.out ++ (last.run r.left r.state).out, (last.run r.left r.state).left⟩ :
            Ran ε ο σ α).after [o] =
      ⟨match (last.run (r.after [o]).left (r.after [o]).state).result with
        | .ok _ => (r.after [o]).result
        | .error e => .error e, (last.run (r.after [o]).left (r.after [o]).state).state,
          (r.after [o]).out ++ (last.run (r.after [o]).left (r.after [o]).state).out,
          (last.run (r.after [o]).left (r.after [o]).state).left⟩ := by
    simp [Ran.after]
  induction g generalizing i s with
  | done a =>
    rw [tryFinally, run_bind]
    simp only [run]
    cases (last.run i s).result <;> simp [Ran.after]
  | raise e =>
    rw [tryFinally, run_bind]
    simp only [run]
    cases (last.run i s).result <;> simp [Ran.after]
  | read next ih => exact ih s
  | write g next ih => exact ih
  | await resumed thrown ihr iht =>
    rcases i with _ | ⟨_ | n, e⟩
    · exact ihr
    · exact iht e
    · exact ihr
  | emit o resumed thrown ihr iht =>
    rcases i with _ | ⟨_ | n, e⟩
    · exact (congrArg (Ran.after [o]) ihr).trans (hafter o _)
    · exact (congrArg (Ran.after [o]) (iht e)).trans (hafter o _)
    · exact (congrArg (Ran.after [o]) ihr).trans (hafter o _)

/-- An exception that comes before the awaits are over ends them. -/
theorem run_pauses (n : ℕ) (i : Option (ℕ × ε)) (s : σ) : (pauses n : Gen ε ο σ Unit).run i s =
    match i with
    | none => ⟨.ok (), s, [], none⟩
    | some (k, e) => if k < n then ⟨.error e, s, [], none⟩ else ⟨.ok (), s, [], some (k - n, e)⟩ := by
  induction n generalizing i with
  | zero => rcases i with _ | ⟨k, e⟩ <;> rfl
  | succ n ih =>
    rcases i with _ | ⟨_ | k, e⟩
    · exact ih none
    · simp only [Nat.zero_lt_succ, if_true]
      rfl
    · have hstep : (pauses (n + 1) : Gen ε ο σ Unit).run (some (k + 1, e)) s =
          (pauses n : Gen ε ο σ Unit).run (some (k, e)) s := rfl
      rw [hstep, ih]
      simp only [Nat.succ_lt_succ_iff, Nat.succ_sub_succ]

end Gen
