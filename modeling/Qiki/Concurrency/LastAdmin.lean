import Qiki.Collections.Table
import Qiki.Orders.Model
import Qiki.Transition.Acyclic
import Qiki.Transition.Threads

/-! Administrators who change each other's accounts at READ COMMITTED, statement by statement. -/
namespace Qiki.Concurrency.LastAdmin

open Orders Transition

/-- A row of `users`, as far as the endpoints read it. -/
structure UserRow where
  id : Uuid
  role : Role
  isActive : Bool
  deriving DecidableEq, Repr

/-- Whom `get_current_admin` lets in. -/
def UserRow.activeAdmin (u : UserRow) : Bool := u.isActive && u.role = .admin

/-- `PATCH /admin/users/{user_id}/role` or `.../status` -/
inductive Change
  | role (newRole : Role)
  | status (isActive : Bool)
  deriving DecidableEq, Repr

def Change.apply : Change → UserRow → UserRow
  | .role newRole, u => { u with role := newRole }
  | .status isActive, u => { u with isActive := isActive }

structure AdminRequest where
  admin : Uuid
  target : Uuid
  change : Change
  deriving DecidableEq, Repr

inductive AdminExn
  | unauthorized (message errorCode : String)
  | forbidden (message errorCode : String)
  | notFound (message errorCode : String)
  | validation (message errorCode : String)
  deriving DecidableEq, Repr

/-- The dependencies of the endpoint and its first test. -/
def authenticate (r : AdminRequest) (users : List UserRow) : Except AdminExn Unit :=
  match Table.find UserRow.id r.admin users with
  | none => .error (.unauthorized "Phiên đăng nhập không hợp lệ hoặc đã hết hạn." "invalid_token")
  | some admin =>
    if !admin.isActive then
      .error (.unauthorized "Tài khoản đã bị vô hiệu hóa." "inactive_user")
    else if admin.role ≠ .admin then .error (.forbidden "Admin role required" "admin_required")
    else if r.target = admin.id then
      match r.change with
      | .role _ =>
        .error (.forbidden "Admins cannot change their own role" "self_role_change_forbidden")
      | .status _ =>
        .error (.forbidden "Admins cannot change their own status" "self_status_change_forbidden")
    else .ok ()

/-- What `_ensure_admin_change_is_safe` counts before the change of `target`: all administrators,
only the active ones, or nobody. -/
def countsAdmins (change : Change) (target : UserRow) : Option Bool :=
  if target.role ≠ .admin then none
  else match change with
    | .role newRole => if newRole ≠ .admin then some false else none
    | .status isActive => if !isActive && target.isActive then some true else none

/-- `_count_admins` -/
def countAdmins (activeOnly : Bool) (users : List UserRow) : ℕ :=
  users.countP fun u => u.role = .admin && (!activeOnly || u.isActive)

def finalAdminRequired : Change → AdminExn
  | .role _ => .validation "Cannot demote the final admin user" "final_admin_required"
  | .status _ => .validation "Cannot deactivate the final active admin user" "final_admin_required"

/-- The committed rows, and the row locks. -/
structure Shared (ι : Type*) where
  users : List UserRow
  locks : Locks Uuid ι

/-- The statement a session is about to send. -/
inductive Phase
  | authenticate
  | readTarget
  | countAdmins (activeOnly : Bool)
  | update
  /-- `written` tells whether an `UPDATE` was sent. -/
  | commit (written : Bool)
  | committed
  | failed (e : AdminExn)
  | rolledBack
  deriving DecidableEq, Repr

/-- `rollback` is a fault of the database. -/
inductive Event
  | statement
  | rollback
  deriving DecidableEq, Repr

/-- The checks are passed: a column that does not change is not written. -/
def writePhase (change : Change) (target : UserRow) : Phase :=
  if change.apply target = target then .commit false else .update

section Step
variable {ι : Type*} [DecidableEq ι]

/-- One statement of session `i`; `none` when it waits for a row lock or has ended. -/
def step (requests : ι → AdminRequest) (i : ι) (g : Shared ι) (t : Phase) :
    Event → Option (Shared ι × Phase)
  | .rollback =>
    match t with
    | .committed | .failed _ | .rolledBack => none
    | _ => some ({ g with locks := g.locks.release i }, .rolledBack)
  | .statement =>
    match t with
    | .authenticate =>
      match authenticate (requests i) g.users with
      | .error e => some (g, .failed e)
      | .ok () => some (g, .readTarget)
    | .readTarget =>
      match Table.find UserRow.id (requests i).target g.users with
      | none => some (g, .failed (.notFound "User not found" "user_not_found"))
      | some target =>
        match countsAdmins (requests i).change target with
        | some activeOnly => some (g, .countAdmins activeOnly)
        | none => some (g, writePhase (requests i).change target)
    | .countAdmins activeOnly =>
      if countAdmins activeOnly g.users ≤ 1 then
        some (g, .failed (finalAdminRequired (requests i).change))
      else
        -- only a change that takes an administrator away is counted for
        some (g, .update)
    | .update =>
      (g.locks.acquire (requests i).target i).map fun locks =>
        ({ g with locks := locks }, .commit true)
    | .commit written =>
      let users := if written then
          Table.modify UserRow.id (requests i).target (requests i).change.apply g.users
        else g.users
      some (⟨users, g.locks.release i⟩, .committed)
    | .committed | .failed _ | .rolledBack => none

end Step

def init (ι : Type*) (users : List UserRow) : Threads ι (Shared ι) Phase where
  shared := ⟨users, fun _ => none⟩
  thread := fun _ => .authenticate

/-! Who can still be an administrator. -/

/-- One of the requests is made by `a` and changes `b`. -/
def Changes {ι : Type*} (requests : ι → AdminRequest) (a b : Uuid) : Prop :=
  ∃ i, (requests i).admin = a ∧ (requests i).target = b

def IsActiveAdmin (users : List UserRow) (id : Uuid) : Prop :=
  ∃ u ∈ users, u.id = id ∧ u.activeAdmin = true

/-- The session has been let in as its administrator. -/
def Phase.authenticated : Phase → Bool
  | .authenticate | .failed _ | .rolledBack => false
  | _ => true

/-- `ever` has all who have been active administrators: each of them still is one, or has been
changed by another of them. -/
structure KeepsAdmins {ι : Type*} (requests : ι → AdminRequest) (ever : Set Uuid)
    (c : Threads ι (Shared ι) Phase) : Prop where
  nonempty : ever.Nonempty
  admins : ∀ id, IsActiveAdmin c.shared.users id → id ∈ ever
  changed : ∀ id ∈ ever, IsActiveAdmin c.shared.users id ∨ ∃ a ∈ ever, Changes requests a id
  authenticated : ∀ i, (c.thread i).authenticated = true → (requests i).admin ∈ ever

section Steps
variable {ι : Type*} [DecidableEq ι] {requests : ι → AdminRequest}

theorem isActiveAdmin_of_authenticate {r : AdminRequest} {users : List UserRow}
    (h : authenticate r users = .ok ()) : IsActiveAdmin users r.admin := by
  unfold authenticate at h
  split at h
  · cases h
  · rename_i admin hadmin
    split_ifs at h with hactive hrole htarget
    · split at h <;> cases h
    · refine ⟨admin, Table.mem_of_find hadmin, Table.key_of_find hadmin, ?_⟩
      rw [UserRow.activeAdmin, Bool.and_eq_true]
      exact ⟨by simpa using hactive, by simpa using hrole⟩

/-- A change of one row leaves the others. -/
theorem isActiveAdmin_modify {users : List UserRow} {target id : Uuid} {change : Change}
    (hne : id ≠ target) :
    IsActiveAdmin (Table.modify UserRow.id target change.apply users) id ↔
      IsActiveAdmin users id := by
  have hid (u : UserRow) : (change.apply u).id = u.id := by cases change <;> rfl
  constructor
  · rintro ⟨u, hu, rfl, hadmin⟩
    obtain ⟨row, hrow, rfl⟩ := Table.mem_modify.mp hu
    split_ifs at hne hadmin ⊢ with hrowId
    · exact absurd ((hid row).trans hrowId) hne
    · exact ⟨row, hrow, rfl, hadmin⟩
  · rintro ⟨u, hu, rfl, hadmin⟩
    exact ⟨u, Table.mem_modify.mpr ⟨u, hu, if_neg hne⟩, rfl, hadmin⟩

/-- What a statement does: it changes no row, or it commits a change of an administrator that was
let in; and an administrator that it lets in is active. -/
theorem step_cases {i : ι} {g g' : Shared ι} {t t' : Phase} {e : Event}
    (h : step requests i g t e = some (g', t')) :
    (g'.users = g.users ∨ (t.authenticated = true ∧
      g'.users = Table.modify UserRow.id (requests i).target (requests i).change.apply g.users)) ∧
    (t'.authenticated = true →
      t.authenticated = true ∨ IsActiveAdmin g.users (requests i).admin) := by
  cases e with
  | rollback =>
    simp only [step] at h
    split at h
    · cases h
    · cases h
    · cases h
    · cases h
      exact ⟨Or.inl rfl, fun hauth => by cases hauth⟩
  | statement =>
    cases t with
    | authenticate =>
      simp only [step] at h
      split at h
      · cases h
        exact ⟨Or.inl rfl, fun hauth => by cases hauth⟩
      · rename_i hok
        cases h
        exact ⟨Or.inl rfl, fun _ => Or.inr (isActiveAdmin_of_authenticate hok)⟩
    | readTarget =>
      simp only [step] at h
      split at h
      · cases h
        exact ⟨Or.inl rfl, fun _ => Or.inl rfl⟩
      · split at h <;> cases h <;> exact ⟨Or.inl rfl, fun _ => Or.inl rfl⟩
    | countAdmins activeOnly =>
      simp only [step] at h
      split_ifs at h <;> cases h <;> exact ⟨Or.inl rfl, fun _ => Or.inl rfl⟩
    | update =>
      obtain ⟨locks, -, hnext⟩ := Option.map_eq_some_iff.mp h
      cases hnext
      exact ⟨Or.inl rfl, fun _ => Or.inl rfl⟩
    | commit written =>
      cases h
      refine ⟨?_, fun _ => Or.inl rfl⟩
      cases written
      · exact Or.inl rfl
      · exact Or.inr ⟨rfl, rfl⟩
    | committed => cases h
    | failed e => cases h
    | rolledBack => cases h

/-- One statement keeps the history, with the administrators that it makes. -/
theorem keepsAdmins_step {ever : Set Uuid} {c c' : Threads ι (Shared ι) Phase} {e : ι × Event}
    (hc : KeepsAdmins requests ever c) (h : interleave (step requests) c e = some c') :
    ∃ ever, KeepsAdmins requests ever c' := by
  obtain ⟨i, a⟩ := e
  obtain ⟨g', t', hstep, rfl⟩ := interleave_eq_some.mp h
  obtain ⟨husers, hauth⟩ := step_cases hstep
  have hlet (k : ι) (hk : (Function.update c.thread i t' k).authenticated = true) :
      (requests k).admin ∈ ever := by
    by_cases hki : k = i
    · subst hki
      rw [Function.update_self] at hk
      exact (hauth hk).elim (hc.authenticated k) (hc.admins _)
    · rw [Function.update_of_ne hki] at hk
      exact hc.authenticated k hk
  rcases husers with hsame | ⟨hactive, hchange⟩
  · refine ⟨ever, hc.nonempty, fun id hid => ?_, fun id hid => ?_, hlet⟩
    · exact hc.admins id (by rwa [← hsame])
    · dsimp only
      rw [hsame]
      exact hc.changed id hid
  · refine ⟨ever ∪ {id | IsActiveAdmin g'.users id}, hc.nonempty.inl, fun id hid => Or.inr hid,
      fun id hid => ?_, fun k hk => Or.inl (hlet k hk)⟩
    rcases hid with hid | hid
    · by_cases htarget : id = (requests i).target
      · exact Or.inr ⟨_, Or.inl (hc.authenticated i hactive), i, rfl, htarget.symm⟩
      · rcases hc.changed id hid with hstill | ⟨b, hb, hchanges⟩
        · left
          dsimp only
          rw [hchange]
          exact (isActiveAdmin_modify htarget).mpr hstill
        · exact Or.inr ⟨b, Or.inl hb, hchanges⟩
    · exact Or.inl hid

omit [DecidableEq ι] in
/-- An administrator whom nobody in the history changes is still there. -/
theorem KeepsAdmins.exists_admin {ever : Set Uuid} {c : Threads ι (Shared ι) Phase}
    (hc : KeepsAdmins requests ever c) (hwf : WellFounded (Changes requests)) :
    ∃ u ∈ c.shared.users, u.activeAdmin = true := by
  obtain ⟨top, htop, hmin⟩ := hwf.has_min ever hc.nonempty
  rcases hc.changed top htop with ⟨u, hu, -, hadmin⟩ | ⟨a, ha, hchanges⟩
  · exact ⟨u, hu, hadmin⟩
  · exact absurd hchanges (hmin a ha)

end Steps

/-- In every interleaving of administrators who change the role or the status of others, with any
faults, an active administrator remains, unless the requests can go round in a circle: a changes
b, who changes a third, who in the end changes a. -/
theorem admin_remains {ι : Type*} [DecidableEq ι] [Finite ι] (requests : ι → AdminRequest)
    (users : List UserRow) (admin : ∃ u ∈ users, u.activeAdmin = true)
    (acyclic : ∀ id, ¬ Relation.TransGen (Changes requests) id id) {events : List (ι × Event)}
    {c : Threads ι (Shared ι) Phase}
    (h : exec (interleave (step requests)) (init ι users) events = some c) :
    ∃ u ∈ c.shared.users, u.activeAdmin = true := by
  have hinit : ∃ ever, KeepsAdmins requests ever (init ι users) := by
    obtain ⟨u, hu, hactive⟩ := admin
    refine ⟨{id | IsActiveAdmin users id}, ⟨u.id, u, hu, rfl, hactive⟩, fun id hid => hid,
      fun id hid => Or.inl hid, fun i hi => ?_⟩
    cases hi
  let inv (c : Threads ι (Shared ι) Phase) := ∃ ever, KeepsAdmins requests ever c
  have hstep (c : Threads ι (Shared ι) Phase) (event : ι × Event) (d : Threads ι (Shared ι) Phase)
      (hc : inv c) (hd : interleave (step requests) c event = some d) : inv d :=
    hc.elim fun _ hever => keepsAdmins_step hever hd
  obtain ⟨ever, hever⟩ := invariant_exec hstep hinit h
  exact hever.exists_admin (wellFounded_of_acyclic _ _ acyclic)

/-- The owner deactivates the manager while the manager demotes a clerk. -/
def ownerAndManager (i : Fin 2) : AdminRequest :=
  if i = 0 then ⟨1, 2, .status false⟩ else ⟨2, 3, .role .staff⟩

def threeAdmins : List UserRow := [⟨1, .admin, true⟩, ⟨2, .admin, true⟩, ⟨3, .admin, true⟩]

theorem ownerAndManager_acyclic (id : Uuid) :
    ¬ Relation.TransGen (Changes ownerAndManager) id id := by
  have hlt {a b : Uuid} (hab : Relation.TransGen (Changes ownerAndManager) a b) : a < b := by
    refine Relation.TransGen.trans_induction_on hab (fun h => ?_) fun _ _ h h' => h.trans h'
    obtain ⟨i, rfl, rfl⟩ := h
    fin_cases i <;> decide
  exact fun hid => lt_irrefl _ (hlt hid)

/-- Both are let in before either of them commits. -/
def sideBySide : List (Fin 2 × Event) :=
  [(0, .statement), (1, .statement), (0, .statement), (1, .statement), (0, .statement),
    (1, .statement), (0, .statement), (1, .statement), (0, .statement), (1, .statement)]

theorem admin_remains_ownerAndManager : ∃ c, exec (interleave (step ownerAndManager))
      (init (Fin 2) threeAdmins) sideBySide = some c ∧
    ∃ u ∈ c.shared.users, u.activeAdmin = true := by
  have hrun : (exec (interleave (step ownerAndManager)) (init (Fin 2) threeAdmins)
      sideBySide).isSome := by decide
  obtain ⟨c, hc⟩ := Option.isSome_iff_exists.mp hrun
  exact ⟨c, hc, admin_remains ownerAndManager threeAdmins (by decide) ownerAndManager_acyclic hc⟩

/-- Two administrators who deactivate each other at once leave none; each of them counted two. -/
example : (exec (interleave (step fun i : Fin 2 => if i = 0 then ⟨1, 2, .status false⟩
      else ⟨2, 1, .status false⟩)) (init (Fin 2) (threeAdmins.take 2)) sideBySide).any
    (fun c => c.shared.users.all fun u => !u.activeAdmin) = true := by decide

end Qiki.Concurrency.LastAdmin
