import Qiki.Chat.Plan
import Qiki.Collections.FirstRows
import Qiki.Orders.Session

/-! Whom an escalated conversation is assigned to, of all the users of the shop. -/
namespace Qiki.Chat

open Orders FirstRows

/-- A row of `users`, as far as the routing reads it. -/
structure UserRow extends StaffUser where
  role : Orders.Role
  createdAt : Timestamp
  deriving DecidableEq, Repr

/-- `list_users(skip=0, limit=limit, role_filter=role)`, without the total: the newest users of the
role, those of the same time in any order. -/
def ListsUsers (users : List UserRow) (limit : ℕ) (role : Orders.Role) (page : List UserRow) : Prop :=
  IsFirst (fun user => OrderDual.toDual user.createdAt) limit
    (users.filter fun user => user.role = role) page

inductive ConversationStatus
  | active | escalated | flagged | resolved | closed | abandoned
  deriving DecidableEq, Repr

/-- A row of `conversations` with the columns of the escalation. -/
structure ConversationRow where
  id : Uuid
  status : ConversationStatus
  assignedTo : Option Uuid
  escalatedAt : Option Timestamp
  escalationReason : Option Text
  deriving DecidableEq, Repr

def ConversationRow.assign (staffId : Option Uuid) (reason : Text) (now : Timestamp)
    (conversation : ConversationRow) : ConversationRow :=
  { conversation with
    status := .escalated
    assignedTo := staffId
    escalatedAt := some now
    escalationReason := some reason }

def assignToStaff (conversationId : Uuid) (staffId : Option Uuid) (reason : Text) (now : Timestamp)
    (conversations : List ConversationRow) : Except Exn (List ConversationRow) :=
  match Table.find ConversationRow.id conversationId conversations with
  | none => .error (.notFound "Conversation not found" "conversation_not_found")
  | some _ => .ok
    (Table.modify ConversationRow.id conversationId (·.assign staffId reason now) conversations)

/-- The routing of `_plan_response`: the pages of staff and admins are those that it reads. -/
def routeConversation (intent : IntentResult) (staff admins : List UserRow) (conversationId : Uuid)
    (now : Timestamp) (conversations : List ConversationRow) : Except Exn (List ConversationRow) :=
  let routing := routeIntent intent (staff.map (·.toStaffUser)) (admins.map (·.toStaffUser))
  if routing.requiresHuman then
    assignToStaff conversationId routing.assignedStaffId routing.reason now conversations
  else .ok conversations

/-! Who should be found. -/

def hasActive (users : List UserRow) (role : Orders.Role) : Bool :=
  users.any fun user => user.role = role && user.isActive

/-- The role that the intent goes to: staff, or failing that admins. -/
def availableRole (users : List UserRow) : Option Orders.Role :=
  if hasActive users .staff then some .staff
  else if hasActive users .admin then some .admin
  else none

/-- The conversation is assigned to an active user of the role, whatever pages the database gives. -/
def FindsHuman (users : List UserRow) (intent : IntentResult) : Prop :=
  ∀ role, availableRole users = some role → ∀ staff admins, ListsUsers users 50 .staff staff →
    ListsUsers users 50 .admin admins → ∀ conversationId now conversations,
      (Table.find ConversationRow.id conversationId conversations).isSome →
        ∃ user ∈ users, user.role = role ∧ user.isActive = true ∧
          (routeIntent intent (staff.map (·.toStaffUser)) (admins.map (·.toStaffUser))).assignedStaffId =
            some user.id ∧
          ∃ conversations' conversation,
            routeConversation intent staff admins conversationId now conversations =
              .ok conversations' ∧
            Table.find ConversationRow.id conversationId conversations' = some conversation ∧
            conversation.status = .escalated ∧ conversation.assignedTo = some user.id

/-- The inactive users of the role that are not older than the user. -/
def inactiveSince (users : List UserRow) (role : Orders.Role) (user : UserRow) : ℕ :=
  users.countP fun other => other.role = role && (!other.isActive && user.createdAt ≤ other.createdAt)

/-- Fewer than fifty inactive users of the role are newer than an active one or as new. -/
def OnFirstPage (users : List UserRow) (role : Orders.Role) : Prop :=
  ∃ user ∈ users, user.role = role ∧ user.isActive = true ∧ inactiveSince users role user < 50

section
variable {users staff admins : List UserRow} {role : Orders.Role} {intent : IntentResult}

theorem head_active (page : List UserRow) :
    ((page.map (·.toStaffUser)).filter (·.isActive)).head? =
      ((page.filter (·.isActive)).head?).map (·.toStaffUser) := by
  have hfilter : (page.map (·.toStaffUser)).filter (·.isActive) =
      (page.filter (·.isActive)).map (·.toStaffUser) := by
    rw [List.filter_map]
    rfl
  rw [hfilter, List.head?_map]

theorem mem_of_head_active {page : List UserRow} {user : UserRow}
    (h : (page.filter (·.isActive)).head? = some user) : user ∈ page ∧ user.isActive = true :=
  List.mem_filter.mp (List.mem_of_head? h)

theorem ListsUsers.mem {page : List UserRow} (h : ListsUsers users 50 role page) {user : UserRow}
    (hmem : user ∈ page) : user ∈ users ∧ user.role = role := by
  have hrow := h.mem_rows hmem
  rwa [List.mem_filter, decide_eq_true_iff] at hrow

/-- A page without an active user has no head to assign. -/
theorem head_eq_none {page : List UserRow} (h : ∀ user ∈ page, user.isActive = false) :
    (page.filter (·.isActive)).head? = none := by
  rw [List.head?_eq_none_iff, List.filter_eq_nil_iff]
  intro user hmem
  rw [h user hmem]
  exact Bool.false_ne_true

theorem exists_head {page : List UserRow} (h : ∃ user ∈ page, user.isActive = true) :
    ∃ user, (page.filter (·.isActive)).head? = some user := by
  cases hhead : (page.filter (·.isActive)).head? with
  | some user => exact ⟨user, rfl⟩
  | none =>
    obtain ⟨user, hmem, hactive⟩ := h
    have hnil := List.head?_eq_none_iff.mp hhead
    exact absurd hactive (List.filter_eq_nil_iff.mp hnil user hmem)

/-- Every page of the role shows an active user exactly when one of them is on the first page. -/
theorem onFirstPage_iff : OnFirstPage users role ↔
    ∀ page, ListsUsers users 50 role page → ∃ user ∈ page, user.isActive = true := by
  unfold OnFirstPage ListsUsers
  rw [forall_isFirst_exists_iff fun user : UserRow => user.isActive]
  refine exists_congr fun user => ?_
  have hcount : ((users.filter fun user => user.role = role).countP fun other =>
      OrderDual.toDual other.createdAt ≤ OrderDual.toDual user.createdAt && !other.isActive) =
        inactiveSince users role user := by
    rw [List.countP_filter]
    refine List.countP_congr fun other _ => ?_
    simp only [Bool.and_eq_true, decide_eq_true_iff, OrderDual.toDual_le_toDual, Bool.not_eq_true']
    tauto
  rw [hcount, List.mem_filter, decide_eq_true_iff, and_assoc]

theorem hasActive_iff : hasActive users role = true ↔
    ∃ user ∈ users, user.role = role ∧ user.isActive = true := by
  simp [hasActive]

theorem routeIntent_human (hhuman : (intentRoutingRules intent.category).1 = true)
    (staff admins : List StaffUser) : (routeIntent intent staff admins).requiresHuman = true ∧
      (routeIntent intent staff admins).assignedStaffId =
        (findAvailableStaff staff admins).map (·.id) := by
  simp only [routeIntent, hhuman, if_true]
  split_ifs
  · exact ⟨rfl, rfl⟩
  · exact ⟨rfl, rfl⟩

theorem assignedStaffId_eq (hhuman : (intentRoutingRules intent.category).1 = true) :
    (routeIntent intent (staff.map (·.toStaffUser)) (admins.map (·.toStaffUser))).assignedStaffId =
      (((staff.filter (·.isActive)).head?).or ((admins.filter (·.isActive)).head?)).map (·.id) := by
  rw [(routeIntent_human hhuman _ _).2, findAvailableStaff, head_active, head_active]
  cases (staff.filter (·.isActive)).head? <;> cases (admins.filter (·.isActive)).head? <;> rfl

theorem assignToStaff_find {conversationId : Uuid} {conversations : List ConversationRow}
    (hfind : (Table.find ConversationRow.id conversationId conversations).isSome)
    (staffId : Option Uuid) (reason : Text) (now : Timestamp) : ∃ conversations' conversation,
      assignToStaff conversationId staffId reason now conversations = .ok conversations' ∧
      Table.find ConversationRow.id conversationId conversations' = some conversation ∧
      conversation.status = .escalated ∧ conversation.assignedTo = staffId := by
  obtain ⟨conversation, hconversation⟩ := Option.isSome_iff_exists.mp hfind
  have hmodified : Table.find ConversationRow.id conversationId
      (Table.modify ConversationRow.id conversationId (·.assign staffId reason now) conversations) =
        some (conversation.assign staffId reason now) := by
    have hkeeps : ∀ row : ConversationRow, (row.assign staffId reason now).id = row.id := fun _ => rfl
    rw [Table.find_modify_self hkeeps, hconversation]
    rfl
  exact ⟨_, _, by rw [assignToStaff, hconversation], hmodified, rfl, rfl⟩

/-- An intent that requires a human escalates the conversation with the assignment. -/
theorem routeConversation_find (staff admins : List UserRow)
    (hhuman : (intentRoutingRules intent.category).1 = true)
    {conversationId : Uuid} {conversations : List ConversationRow}
    (hfind : (Table.find ConversationRow.id conversationId conversations).isSome) (now : Timestamp) :
    ∃ conversations' conversation,
      routeConversation intent staff admins conversationId now conversations = .ok conversations' ∧
      Table.find ConversationRow.id conversationId conversations' = some conversation ∧
      conversation.status = .escalated ∧ conversation.assignedTo =
        (routeIntent intent (staff.map (·.toStaffUser)) (admins.map (·.toStaffUser))).assignedStaffId := by
  have hrequires := (routeIntent_human hhuman (staff.map (·.toStaffUser))
    (admins.map (·.toStaffUser))).1
  simp only [routeConversation, hrequires, if_true]
  exact assignToStaff_find hfind _ _ now

theorem availableRole_eq_some (h : availableRole users = some role) :
    (role = .staff ∧ hasActive users .staff = true) ∨
      (role = .admin ∧ hasActive users .staff = false ∧ hasActive users .admin = true) := by
  unfold availableRole at h
  split_ifs at h with hstaff hadmin
  · exact Or.inl ⟨(Option.some.inj h).symm, hstaff⟩
  · exact Or.inr ⟨(Option.some.inj h).symm, by simpa using hstaff, hadmin⟩

/-- Without an active staff member no page of the staff has one. -/
theorem head_staff_eq_none (h : hasActive users .staff = false) (hstaff : ListsUsers users 50 .staff staff) :
    (staff.filter (·.isActive)).head? = none := by
  refine head_eq_none fun user hmem => ?_
  obtain ⟨hrow, hrole⟩ := hstaff.mem hmem
  by_contra hactive
  have hsome : hasActive users .staff = true := hasActive_iff.mpr ⟨user, hrow, hrole, by simpa using hactive⟩
  rw [h] at hsome
  cases hsome

/-- Where a human is found on every page, the first page holds an active one. -/
theorem FindsHuman.onFirstPage (h : FindsHuman users intent) (hids : (users.map (·.id)).Nodup)
    (hhuman : (intentRoutingRules intent.category).1 = true) (hrole : availableRole users = some role) :
    OnFirstPage users role := by
  refine onFirstPage_iff.mpr fun page hpage => ?_
  by_contra hnone
  push Not at hnone
  have hhead : (page.filter (·.isActive)).head? = none :=
    head_eq_none fun user hmem => by simpa using hnone user hmem
  have hopen : (Table.find ConversationRow.id 0 [⟨0, .active, none, none, none⟩]).isSome := rfl
  rcases availableRole_eq_some hrole with ⟨rfl, -⟩ | ⟨rfl, hstaff, -⟩
  · obtain ⟨admins, hadmins⟩ := exists_isFirst (fun user : UserRow => OrderDual.toDual user.createdAt)
      50 (users.filter fun user => user.role = .admin)
    obtain ⟨user, huser, huserRole, -, hassigned, -⟩ := h _ hrole page admins hpage hadmins 0 0 _ hopen
    rw [assignedStaffId_eq hhuman, hhead, Option.none_or] at hassigned
    obtain ⟨admin, hadmin, hid⟩ := Option.map_eq_some_iff.mp hassigned
    obtain ⟨hrow, hadminRole⟩ := ListsUsers.mem hadmins (mem_of_head_active hadmin).1
    have hsame : admin = user := List.inj_on_of_nodup_map hids hrow huser hid
    rw [hsame, huserRole] at hadminRole
    cases hadminRole
  · obtain ⟨staff, hpageStaff⟩ := exists_isFirst (fun user : UserRow => OrderDual.toDual user.createdAt)
      50 (users.filter fun user => user.role = .staff)
    obtain ⟨user, -, -, -, hassigned, -⟩ := h _ hrole staff page hpageStaff hpage 0 0 _ hopen
    rw [assignedStaffId_eq hhuman, head_staff_eq_none hstaff hpageStaff, hhead] at hassigned
    cases hassigned

/-- A human is found exactly when an active one is on the first page of the role. -/
theorem findsHuman_iff (users : List UserRow) (hids : (users.map (·.id)).Nodup) (intent : IntentResult)
    (hhuman : (intentRoutingRules intent.category).1 = true) :
    FindsHuman users intent ↔ ∀ role, availableRole users = some role → OnFirstPage users role := by
  constructor
  · exact fun h role hrole => h.onFirstPage hids hhuman hrole
  · intro h role hrole staff admins hstaff hadmins conversationId now conversations hfind
    have hpage := onFirstPage_iff.mp (h role hrole)
    have hassigned : ∃ user ∈ users, user.role = role ∧ user.isActive = true ∧
        (routeIntent intent (staff.map (·.toStaffUser))
          (admins.map (·.toStaffUser))).assignedStaffId = some user.id := by
      rw [assignedStaffId_eq hhuman]
      rcases availableRole_eq_some hrole with ⟨rfl, -⟩ | ⟨rfl, hnostaff, -⟩
      · obtain ⟨user, hhead⟩ := exists_head (hpage staff hstaff)
        obtain ⟨hmem, hactive⟩ := mem_of_head_active hhead
        obtain ⟨hrow, huserRole⟩ := hstaff.mem hmem
        exact ⟨user, hrow, huserRole, hactive, by rw [hhead]; rfl⟩
      · obtain ⟨user, hhead⟩ := exists_head (hpage admins hadmins)
        obtain ⟨hmem, hactive⟩ := mem_of_head_active hhead
        obtain ⟨hrow, huserRole⟩ := hadmins.mem hmem
        exact ⟨user, hrow, huserRole, hactive, by
          rw [head_staff_eq_none hnostaff hstaff, hhead]
          rfl⟩
    obtain ⟨user, hrow, huserRole, hactive, hid⟩ := hassigned
    obtain ⟨conversations', conversation, hok, hfound, hstatus, hassignedTo⟩ :=
      routeConversation_find staff admins hhuman hfind now
    exact ⟨user, hrow, huserRole, hactive, hid, conversations', conversation, hok, hfound, hstatus,
      hassignedTo.trans hid⟩

end

def emergencyIntent : IntentResult := ⟨.safetyEmergency, 1, "gas smell", "hybrid_safety"⟩

/-- Fifty staff accounts that were closed, and the older one of the owner. -/
def closedAccounts : List UserRow :=
  ⟨⟨0, true⟩, .staff, 0⟩ :: (List.range 50).map fun n => ⟨⟨n + 1, false⟩, .staff, n + 1⟩

theorem closedAccounts_ids : (closedAccounts.map (·.id)).Nodup := by decide +kernel

theorem owner_found : FindsHuman (closedAccounts.take 50) emergencyIntent := by
  have hids : ((closedAccounts.take 50).map (·.id)).Nodup := by
    rw [List.map_take]
    exact closedAccounts_ids.sublist (List.take_sublist 50 _)
  refine (findsHuman_iff _ hids emergencyIntent rfl).mpr fun role hrole => ?_
  have hstaff : availableRole (closedAccounts.take 50) = some .staff := rfl
  obtain rfl := Option.some.inj (hrole.symm.trans hstaff)
  refine ⟨⟨⟨0, true⟩, .staff, 0⟩, List.mem_cons_self, rfl, rfl, ?_⟩
  decide +kernel

/-- With one more closed account the owner is on no first page. -/
theorem owner_missed : ¬ ∀ (users : List UserRow) (intent : IntentResult), (users.map (·.id)).Nodup →
    (intentRoutingRules intent.category).1 = true → FindsHuman users intent := by
  intro h
  have hstaff : availableRole closedAccounts = some .staff := rfl
  have hpage := (h closedAccounts emergencyIntent closedAccounts_ids rfl).onFirstPage
    closedAccounts_ids rfl hstaff
  have hhidden : ¬ OnFirstPage closedAccounts .staff := by
    unfold OnFirstPage inactiveSince
    decide +kernel
  exact hhidden hpage

end Qiki.Chat
