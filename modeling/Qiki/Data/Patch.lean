import Mathlib.Logic.Basic

/-! Partial updates: a payload leaves a field out, clears it or gives it a value. -/

/-- One field of a partial payload. -/
inductive Patch (α : Type*)
  | unset
  | null
  | given (a : α)
  deriving DecidableEq, Repr

namespace Patch
variable {α β ε : Type*}

/-- What the field holds after the update: `data.get(key, old)`. -/
def get (p : Patch α) (old : Option α) : Option α :=
  match p with
  | unset => old
  | null => none
  | given a => some a

/-- The value that the payload gives, if it gives one. -/
def value : Patch α → Option α
  | unset => none
  | null => none
  | given a => some a

def map (f : α → β) : Patch α → Patch β
  | unset => unset
  | null => null
  | given a => given (f a)

/-- Change the given value by a step that may fail. -/
def traverse (f : α → Except ε β) : Patch α → Except ε (Patch β)
  | unset => .ok unset
  | null => .ok null
  | given a => (f a).map given

/-- A rule on the value that the payload gives. -/
def All (p : Patch α) (rule : α → Prop) : Prop := ∀ a ∈ p.value, rule a

@[simp] theorem map_id (p : Patch α) : p.map id = p := by cases p <;> rfl

@[simp] theorem get_unset (old : Option α) : (unset : Patch α).get old = old := rfl

@[simp] theorem get_null (old : Option α) : (null : Patch α).get old = none := rfl

@[simp] theorem get_given (a : α) (old : Option α) : (given a).get old = some a := rfl

@[simp] theorem value_unset : (unset : Patch α).value = none := rfl

@[simp] theorem value_null : (null : Patch α).value = none := rfl

@[simp] theorem value_given (a : α) : (given a).value = some a := rfl

@[simp] theorem all_unset {rule : α → Prop} : (unset : Patch α).All rule := fun _ h => nomatch h

@[simp] theorem all_null {rule : α → Prop} : (null : Patch α).All rule := fun _ h => nomatch h

@[simp] theorem all_given {a : α} {rule : α → Prop} : (given a).All rule ↔ rule a := by
  simp [All]

/-- Only a null takes the value out of a field that has one. -/
theorem get_some_eq_none {p : Patch α} {old : α} : p.get (some old) = none ↔ p = null := by
  cases p <;> simp

theorem exists_get {p : Patch α} (h : p ≠ null) (old : α) : ∃ a, p.get (some old) = some a :=
  Option.ne_none_iff_exists'.mp (mt get_some_eq_none.mp h)

theorem map_ne_null {f : α → β} {p : Patch α} (h : p ≠ null) : p.map f ≠ null := by
  cases p with
  | unset => exact fun heq => nomatch heq
  | null => exact absurd rfl h
  | given a => exact fun heq => nomatch heq

theorem all_map {f : α → β} {p : Patch α} {rule : β → Prop} :
    (p.map f).All rule ↔ p.All fun a => rule (f a) := by
  cases p with
  | unset => simp [map, All]
  | null => simp [map, All]
  | given a => simp [map, All]

/-- What holds of the old value and of the given one holds of the new one. -/
theorem All.get {p : Patch α} {rule : α → Prop} {old : Option α} (hold : ∀ a ∈ old, rule a)
    (h : p.All rule) : ∀ a ∈ p.get old, rule a := by
  cases p with
  | unset => exact hold
  | null => exact fun a ha => nomatch ha
  | given a => exact h

theorem All.get_some {p : Patch α} {rule : α → Prop} {old : α} (hold : rule old) (h : p.All rule) :
    ∀ a ∈ p.get (some old), rule a :=
  h.get fun _ ha => Option.some.inj ha ▸ hold

/-- A rule on the new value is one on the given value. -/
theorem all_of_get {p : Patch α} {rule : α → Prop} {old : Option α} (h : ∀ a ∈ p.get old, rule a) :
    p.All rule := by
  cases p with
  | unset => exact all_unset
  | null => exact all_null
  | given a => exact all_given.mpr (h a rfl)

/-- A change that leaves the old value alone changes the new one. -/
theorem map_mem_get {f : α → α} {p : Patch α} {old : Option α} (hold : ∀ a ∈ old, f a = a) {a : α}
    (h : a ∈ p.get old) : f a ∈ (p.map f).get old := by
  cases p with
  | unset => exact (hold a h).symm ▸ h
  | null => cases h
  | given b =>
    obtain rfl := Option.some.inj h
    rfl

theorem ne_null_of_get {p : Patch α} {old a : α} (h : p.get (some old) = some a) : p ≠ null := by
  rintro rfl
  cases h

theorem ne_null_of_map_get {f : α → β} {p : Patch α} {old b : β}
    (h : (p.map f).get (some old) = some b) : p ≠ null := by
  rintro rfl
  cases h

/-- A step that gives `g a` on the value `a`, wherever it succeeds. -/
theorem traverse_eq_ok {f : α → Except ε β} {g : α → β} (hg : ∀ a b, f a = .ok b → b = g a)
    {p : Patch α} {q : Patch β} :
    p.traverse f = .ok q ↔ (p.All fun a => f a = .ok (g a)) ∧ q = p.map g := by
  cases p with
  | unset => simp [traverse, map, All, eq_comm]
  | null => simp [traverse, map, All, eq_comm]
  | given a =>
    rw [all_given]
    cases hf : f a with
    | error e => simp [traverse, hf, Except.map]
    | ok b =>
      rw [hg a b hf]
      simp [traverse, hf, hg a b hf, map, Except.map, eq_comm]

theorem traverse_eq_error {f : α → Except ε β} {p : Patch α} {e : ε} (h : p.traverse f = .error e) :
    ∃ a ∈ p.value, f a = .error e := by
  cases p with
  | unset => cases h
  | null => cases h
  | given a =>
    refine ⟨a, rfl, ?_⟩
    cases hf : f a with
    | error e' =>
      rw [traverse, hf] at h
      exact congrArg Except.error (Except.error.inj h)
    | ok b =>
      rw [traverse, hf] at h
      cases h

end Patch
