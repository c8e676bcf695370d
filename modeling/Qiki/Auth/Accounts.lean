import Qiki.Auth.Login

/-! Accounts over their life: registration, profile and password changes, and logging in. -/
namespace Qiki.Auth

/-- What accounts use of other libraries: `EmailStr`, the letters of a strong password, and
bcrypt, which is given a salt. -/
structure AccountRules where
  db : Unicode.Database
  emailStr : Text → Option Text
  isUpper : Char → Bool
  isDigit : Char → Bool
  hash : Text → Text → Text
  verify : Text → Text → Bool

inductive AccountExn
  /-- A payload that its schema refuses. -/
  | unprocessable
  | conflict (message errorCode : Text)
  | unauthorized (message errorCode : Text)
  | validation (message errorCode : Text)
  deriving DecidableEq

structure Accounts where
  users : List User := []
  nextId : Uuid := 0

inductive AccountRequest
  | register (phone password : Text) (email : Option Text) (salt : Text)
  /-- `PATCH /auth/me`; `none` when the payload has no phone. -/
  | updateProfile (userId : Uuid) (phone : Option (Option Text))
  | changePassword (userId : Uuid) (oldPassword newPassword salt : Text)
  /-- `reset_password` with a token of this user. -/
  | resetPassword (userId : Uuid) (newPassword salt : Text)
  /-- `PATCH /admin/users/{id}/status` -/
  | setActive (userId : Uuid) (isActive : Bool)

inductive AccountOutcome
  | registered (userId : Uuid) (password : Text)
  | passwordSet (userId : Uuid) (password : Text)
  | done
  | raised (e : AccountExn)
  deriving DecidableEq

section
variable (rules : AccountRules)

def validatePasswordStrength (password : Text) : Bool :=
  6 ≤ password.length && password.length ≤ 128 && password.any rules.isUpper &&
    password.any rules.isDigit

/-- `UserBase.normalize_email`; `none` when the payload is refused. -/
def normalizeEmail : Option Text → Option (Option Text)
  | none => some none
  | some email => (rules.emailStr email).map fun value =>
      if value.isEmpty then none else some (Unicode.lower rules.db value)

/-- The phone and the e-mail of a `UserCreate`. -/
def userCreate (phone password : Text) (email : Option Text) : Option (Text × Option Text) := do
  let phone ← Chat.validatePhone rules.db phone
  let email ← normalizeEmail rules email
  if validatePasswordStrength rules password then some (phone, email) else none

/-- `register_user`, which validates the endpoint's payload once more. -/
def Accounts.registerUser (phone password : Text) (email : Option Text) (salt : Text)
    (s : Accounts) : Except AccountExn Accounts :=
  match (userCreate rules phone password email).bind
      fun payload => userCreate rules payload.1 password payload.2 with
  | none => .error .unprocessable
  | some (phone, email) =>
    if (User.getByPhone s.users phone).isSome then
      .error (.conflict "Số điện thoại đã được đăng ký." "phone_already_exists")
    else if (email.bind (User.getByEmail rules.db s.users)).isSome then
      .error (.conflict "Email này đã được sử dụng." "email_already_exists")
    else .ok
      { users := s.users ++ [{
          id := s.nextId
          email := email.map (Unicode.lower rules.db)
          phone := some phone
          hashedPassword := some (rules.hash salt password) }]
        nextId := s.nextId + 1 }

/-- The phone of a `ProfileUpdate`; `none` when the payload is refused. -/
def profilePhone : Option Text → Option (Option Text)
  | none => some none
  | some [] => some none
  | some phone => (Chat.validatePhone rules.db phone).map some

def Accounts.updateProfile (userId : Uuid) (phone : Option (Option Text)) (s : Accounts) :
    Except AccountExn Accounts :=
  match phone.map (profilePhone rules), User.getById s.users userId with
  | some none, _ => .error .unprocessable
  | _, none => .error (.unauthorized invalidSessionMessage "invalid_session")
  | none, some _ => .ok s
  | some (some newPhone), some user =>
    if newPhone.any fun p => some p ≠ user.phone &&
        (User.getByPhone s.users p).any (·.id ≠ userId) then
      .error (.conflict "Số điện thoại này đã được sử dụng." "phone_taken")
    else .ok { s with
      users := Table.modify User.id userId (fun u => { u with phone := newPhone }) s.users }

def Accounts.setPassword (userId : Uuid) (password salt : Text) (s : Accounts) : Accounts :=
  { s with
    users := Table.modify User.id userId
      (fun u => { u with hashedPassword := some (rules.hash salt password) }) s.users }

def Accounts.changePassword (userId : Uuid) (oldPassword newPassword salt : Text) (s : Accounts) :
    Except AccountExn Accounts :=
  if !validatePasswordStrength rules newPassword then .error .unprocessable
  else if ((User.getById s.users userId).bind (·.hashedPassword)).any
      fun hashed => !hashed.isEmpty && rules.verify oldPassword hashed then
    .ok (Accounts.setPassword rules userId newPassword salt s)
  else .error (.unauthorized "Mật khẩu hiện tại không đúng." "invalid_credentials")

def Accounts.resetPassword (userId : Uuid) (newPassword salt : Text) (s : Accounts) :
    Except AccountExn Accounts :=
  if !validatePasswordStrength rules newPassword then .error .unprocessable
  else if (User.getById s.users userId).isSome then
    .ok (Accounts.setPassword rules userId newPassword salt s)
  else .error (.validation "Liên kết đặt lại mật khẩu không hợp lệ hoặc đã hết hạn."
    "invalid_reset_token")

def Accounts.setActive (userId : Uuid) (isActive : Bool) (s : Accounts) : Accounts :=
  { s with users := Table.modify User.id userId (fun u => { u with isActive := isActive }) s.users }

/-- The accounts after a request, and what came of it. -/
def serveAccount (s : Accounts) : AccountRequest → Accounts × AccountOutcome
  | .register phone password email salt =>
    match Accounts.registerUser rules phone password email salt s with
    | .ok t => (t, .registered s.nextId password)
    | .error e => (s, .raised e)
  | .updateProfile userId phone =>
    match Accounts.updateProfile rules userId phone s with
    | .ok t => (t, .done)
    | .error e => (s, .raised e)
  | .changePassword userId oldPassword newPassword salt =>
    match Accounts.changePassword rules userId oldPassword newPassword salt s with
    | .ok t => (t, .passwordSet userId newPassword)
    | .error e => (s, .raised e)
  | .resetPassword userId newPassword salt =>
    match Accounts.resetPassword rules userId newPassword salt s with
    | .ok t => (t, .passwordSet userId newPassword)
    | .error e => (s, .raised e)
  | .setActive userId isActive => (Accounts.setActive userId isActive s, .done)

/-- A run, with the outcomes so far. -/
structure AccountsRun where
  state : Accounts := {}
  history : List AccountOutcome := []

def AccountsRun.next (run : AccountsRun) (r : AccountRequest) : AccountsRun where
  state := (serveAccount rules run.state r).1
  history := run.history ++ [(serveAccount rules run.state r).2]

def serveAccounts (rs : List AccountRequest) : AccountsRun := rs.foldl (AccountsRun.next rules) {}

end

/-- The password of an account after one outcome. -/
def passwordAfter (userId : Uuid) (password : Option Text) : AccountOutcome → Option Text
  | .registered id new | .passwordSet id new => if id = userId then some new else password
  | _ => password

/-- The password that was set last for an account. -/
def lastPassword (userId : Uuid) (history : List AccountOutcome) : Option Text :=
  history.foldl (passwordAfter userId) none

/-- Two accounts that share a key are one. -/
def KeyOnce (key : User → Option Text) (users : List User) : Prop :=
  ∀ u ∈ users, ∀ v ∈ users, ∀ k, key u = some k → key v = some k → u = v

/-- The accounts that requests leave: each key belongs to one account, and each password is the
one that was set last. -/
structure SoundAccounts (rules : AccountRules) (run : AccountsRun) : Prop where
  ids : (run.state.users.map User.id).Nodup
  used : ∀ u ∈ run.state.users, u.id < run.state.nextId
  phones : KeyOnce User.phone run.state.users
  emails : KeyOnce User.email run.state.users
  passwords : ∀ u ∈ run.state.users, ∃ password salt,
    lastPassword u.id run.history = some password ∧
      u.hashedPassword = some (rules.hash salt password)

section
variable {rules : AccountRules} {s t : Accounts}

theorem keyOnce_append {key : User → Option Text} {users : List User} {u : User}
    (h : KeyOnce key users) (hu : ∀ k, key u = some k → ∀ v ∈ users, key v ≠ some k) :
    KeyOnce key (users ++ [u]) := by
  intro a ha b hb k hka hkb
  rcases List.mem_append.mp ha with hold | hnew
  · rcases List.mem_append.mp hb with hold' | hnew
    · exact h a hold b hold' k hka hkb
    · obtain rfl := List.mem_singleton.mp hnew
      exact absurd hka (hu k hkb a hold)
  · obtain rfl := List.mem_singleton.mp hnew
    rcases List.mem_append.mp hb with hold | hnew'
    · exact absurd hkb (hu k hka b hold)
    · exact (List.mem_singleton.mp hnew').symm

/-- An update of one account that gives it no key of another one. -/
theorem keyOnce_modify {key : User → Option Text} {users : List User} {userId : Uuid}
    {f : User → User} (h : KeyOnce key users) (hids : (users.map User.id).Nodup)
    (hf : ∀ u ∈ users, u.id = userId → ∀ k, key (f u) = some k →
      ∀ v ∈ users, key v = some k → v.id = userId) :
    KeyOnce key (Table.modify User.id userId f users) := by
  intro a ha b hb k hka hkb
  obtain ⟨u, hu, rfl⟩ := Table.mem_modify.mp ha
  obtain ⟨v, hv, rfl⟩ := Table.mem_modify.mp hb
  by_cases hua : u.id = userId
  · rw [if_pos hua] at hka ⊢
    by_cases hvb : v.id = userId
    · rw [if_pos hvb]
      rw [List.inj_on_of_nodup_map hids hu hv (hua.trans hvb.symm)]
    · rw [if_neg hvb] at hkb
      exact absurd (hf u hu hua k hka v hv hkb) hvb
  · rw [if_neg hua] at hka ⊢
    by_cases hvb : v.id = userId
    · rw [if_pos hvb] at hkb
      exact absurd (hf v hv hvb k hkb u hu hka) hua
    · rw [if_neg hvb] at hkb ⊢
      exact h u hu v hv k hka hkb

theorem keyOnce_modify_same {key : User → Option Text} {users : List User} {userId : Uuid}
    {f : User → User} (h : KeyOnce key users) (hids : (users.map User.id).Nodup)
    (hf : ∀ u, key (f u) = key u) : KeyOnce key (Table.modify User.id userId f users) := by
  refine keyOnce_modify h hids fun u hu huid k hk v hv hkv => ?_
  rw [hf u] at hk
  rw [← h u hu v hv k hk hkv, huid]

/-- What a registration writes. -/
theorem registerUser_eq_ok {phone password : Text} {email : Option Text} {salt : Text}
    (h : Accounts.registerUser rules phone password email salt s = .ok t) :
    ∃ p e, (∀ v ∈ s.users, v.phone ≠ some p) ∧
      (∀ address, e = some address →
        ∀ v ∈ s.users, v.email ≠ some (Unicode.lower rules.db address)) ∧
      t = { users := s.users ++ [{ id := s.nextId, email := e.map (Unicode.lower rules.db)
                                   phone := some p
                                   hashedPassword := some (rules.hash salt password) }]
            nextId := s.nextId + 1 } := by
  unfold Accounts.registerUser at h
  cases hpayload : (userCreate rules phone password email).bind
      fun payload => userCreate rules payload.1 password payload.2 with
  | none => simp [hpayload] at h
  | some payload =>
    obtain ⟨p, e⟩ := payload
    simp only [hpayload] at h
    split_ifs at h with hphone hemail
    cases h
    refine ⟨p, e, fun v hv hvp => hphone ?_, fun address he v hv hve => hemail ?_, rfl⟩
    · exact List.find?_isSome.mpr ⟨v, hv, decide_eq_true hvp⟩
    · rw [he, Option.bind_some]
      exact List.find?_isSome.mpr ⟨v, hv, decide_eq_true hve⟩

/-- What a profile update writes. -/
theorem updateProfile_eq_ok {userId : Uuid} {phone : Option (Option Text)}
    (h : Accounts.updateProfile rules userId phone s = .ok t) :
    t = s ∨ ∃ newPhone, t = { s with
      users := Table.modify User.id userId (fun u => { u with phone := newPhone }) s.users } ∧
      ∀ p, newPhone = some p → ∃ user ∈ s.users, user.id = userId ∧
        (user.phone = some p ∨ (User.getByPhone s.users p).any (·.id ≠ userId) = false) := by
  unfold Accounts.updateProfile at h
  split at h
  · cases h
  · cases h
  · cases h
    exact Or.inl rfl
  · rename_i newPhone user _ hfound
    split_ifs at h with htaken
    cases h
    refine Or.inr ⟨newPhone, rfl, fun p hp => ⟨user, Table.mem_of_find hfound,
      Table.key_of_find hfound, ?_⟩⟩
    subst hp
    by_cases hsame : user.phone = some p
    · exact Or.inl hsame
    · refine Or.inr ?_
      simpa [Ne.symm hsame] using htaken

theorem lastPassword_append (userId : Uuid) (history : List AccountOutcome) (o : AccountOutcome) :
    lastPassword userId (history ++ [o]) = passwordAfter userId (lastPassword userId history) o := by
  simp [lastPassword]

variable {run : AccountsRun}

/-- A request that only updates one account. -/
theorem SoundAccounts.modify {userId : Uuid} {f : User → User} {o : AccountOutcome}
    (h : SoundAccounts rules run) (hid : ∀ u, (f u).id = u.id)
    (hphones : KeyOnce User.phone (Table.modify User.id userId f run.state.users))
    (hemail : ∀ u, (f u).email = u.email)
    (hpasswords : ∀ u ∈ run.state.users, ∃ password salt,
      passwordAfter u.id (lastPassword u.id run.history) o = some password ∧
        (if u.id = userId then f u else u).hashedPassword = some (rules.hash salt password)) :
    SoundAccounts rules
      { state := { run.state with users := Table.modify User.id userId f run.state.users }
        history := run.history ++ [o] } where
  ids := by
    rw [Table.map_modify fun r _ => hid r]
    exact h.ids
  used := by
    intro u hu
    obtain ⟨v, hv, rfl⟩ := Table.mem_modify.mp hu
    have hsame : (if v.id = userId then f v else v).id = v.id := by
      split_ifs
      · exact hid v
      · rfl
    rw [hsame]
    exact h.used v hv
  phones := hphones
  emails := keyOnce_modify_same h.emails h.ids hemail
  passwords := by
    intro u hu
    obtain ⟨v, hv, rfl⟩ := Table.mem_modify.mp hu
    have hsame : (if v.id = userId then f v else v).id = v.id := by
      split_ifs
      · exact hid v
      · rfl
    rw [hsame, lastPassword_append]
    exact hpasswords v hv

theorem SoundAccounts.raised (h : SoundAccounts rules run) (e : AccountExn) :
    SoundAccounts rules { run with history := run.history ++ [.raised e] } :=
  { h with
    passwords := by
      intro u hu
      rw [lastPassword_append]
      exact h.passwords u hu }

theorem SoundAccounts.setPassword (h : SoundAccounts rules run) (userId : Uuid)
    (password salt : Text) :
    SoundAccounts rules
      { state := Accounts.setPassword rules userId password salt run.state
        history := run.history ++ [.passwordSet userId password] } := by
  refine h.modify (fun _ => rfl) (keyOnce_modify_same h.phones h.ids fun _ => rfl) (fun _ => rfl) ?_
  intro u hu
  by_cases hid : u.id = userId
  · exact ⟨password, salt, by simp [passwordAfter, hid], by simp [hid]⟩
  · obtain ⟨last, salt', hlast, hhash⟩ := h.passwords u hu
    refine ⟨last, salt', ?_, ?_⟩
    · simpa [passwordAfter, Ne.symm hid] using hlast
    · simpa [hid] using hhash

theorem SoundAccounts.register (h : SoundAccounts rules run) {p password salt : Text}
    {e : Option Text} (hphone : ∀ v ∈ run.state.users, v.phone ≠ some p)
    (hemail : ∀ address, e = some address →
      ∀ v ∈ run.state.users, v.email ≠ some (Unicode.lower rules.db address)) :
    SoundAccounts rules
      { state :=
          { users := run.state.users ++ [{
              id := run.state.nextId
              email := e.map (Unicode.lower rules.db)
              phone := some p
              hashedPassword := some (rules.hash salt password) }]
            nextId := run.state.nextId + 1 }
        history := run.history ++ [.registered run.state.nextId password] } where
  ids := by
    rw [List.map_append, List.nodup_append]
    refine ⟨h.ids, List.nodup_singleton _, fun a ha b hb => ?_⟩
    obtain ⟨v, hv, rfl⟩ := List.mem_map.mp ha
    obtain rfl := List.mem_singleton.mp hb
    exact (h.used v hv).ne
  used := by
    intro u hu
    rcases List.mem_append.mp hu with hold | hnew
    · exact (h.used u hold).trans (Nat.lt_succ_self _)
    · obtain rfl := List.mem_singleton.mp hnew
      exact Nat.lt_succ_self _
  phones := by
    refine keyOnce_append h.phones fun k hk v hv => ?_
    cases hk
    exact hphone v hv
  emails := by
    refine keyOnce_append h.emails fun k hk v hv => ?_
    obtain ⟨address, haddress, rfl⟩ := Option.map_eq_some_iff.mp hk
    exact hemail address haddress v hv
  passwords := by
    intro u hu
    rw [lastPassword_append]
    rcases List.mem_append.mp hu with hold | hnew
    · have hne : run.state.nextId ≠ u.id := (h.used u hold).ne'
      obtain ⟨last, salt', hlast, hhash⟩ := h.passwords u hold
      exact ⟨last, salt', by simpa [passwordAfter, hne] using hlast, hhash⟩
    · obtain rfl := List.mem_singleton.mp hnew
      exact ⟨password, salt, by simp [passwordAfter], rfl⟩

/-- A phone that a profile update writes is its account's own, or nobody else has it. -/
theorem SoundAccounts.updateProfile (h : SoundAccounts rules run) {userId : Uuid}
    {newPhone : Option Text}
    (hfree : ∀ p, newPhone = some p → ∃ user ∈ run.state.users, user.id = userId ∧
      (user.phone = some p ∨ (User.getByPhone run.state.users p).any (·.id ≠ userId) = false)) :
    SoundAccounts rules
      { state := { run.state with
          users := Table.modify User.id userId (fun u => { u with phone := newPhone })
            run.state.users }
        history := run.history ++ [.done] } := by
  refine h.modify (fun _ => rfl) (keyOnce_modify h.phones h.ids ?_) (fun _ => rfl) ?_
  · intro u hu hid p hp v hv hvp
    obtain ⟨user, huser, huserId, hown | hnone⟩ := hfree p hp
    · rw [h.phones v hv user huser p hvp hown, huserId]
    · cases hfound : User.getByPhone run.state.users p with
      | none =>
        rw [User.getByPhone, List.find?_eq_none] at hfound
        exact absurd (decide_eq_true hvp) (hfound v hv)
      | some w =>
        have hw : w.id = userId := by simpa [hfound] using hnone
        have hwp : w.phone = some p := by simpa using List.find?_some hfound
        rw [h.phones v hv w (List.mem_of_find?_eq_some hfound) p hvp hwp, hw]
  · intro u hu
    obtain ⟨last, salt, hlast, hhash⟩ := h.passwords u hu
    refine ⟨last, salt, hlast, ?_⟩
    split_ifs
    · exact hhash
    · exact hhash

/-- Every request keeps the accounts sound. -/
theorem SoundAccounts.next (h : SoundAccounts rules run) (r : AccountRequest) :
    SoundAccounts rules (run.next rules r) := by
  cases r with
  | register phone password email salt =>
    simp only [AccountsRun.next, serveAccount]
    cases hr : Accounts.registerUser rules phone password email salt run.state with
    | error e => exact h.raised e
    | ok t =>
      obtain ⟨p, e, hphone, hemail, rfl⟩ := registerUser_eq_ok hr
      exact h.register hphone hemail
  | updateProfile userId phone =>
    simp only [AccountsRun.next, serveAccount]
    cases hr : Accounts.updateProfile rules userId phone run.state with
    | error e => exact h.raised e
    | ok t =>
      obtain rfl | ⟨newPhone, rfl, hfree⟩ := updateProfile_eq_ok hr
      · exact { h with
          passwords := by
            intro u hu
            rw [lastPassword_append]
            exact h.passwords u hu }
      · exact h.updateProfile hfree
  | changePassword userId oldPassword newPassword salt =>
    simp only [AccountsRun.next, serveAccount, Accounts.changePassword]
    split_ifs
    · exact h.raised _
    · exact h.setPassword userId newPassword salt
    · exact h.raised _
  | resetPassword userId newPassword salt =>
    simp only [AccountsRun.next, serveAccount, Accounts.resetPassword]
    split_ifs
    · exact h.raised _
    · exact h.setPassword userId newPassword salt
    · exact h.raised _
  | setActive userId isActive =>
    refine h.modify (fun _ => rfl) (keyOnce_modify_same h.phones h.ids fun _ => rfl)
      (fun _ => rfl) ?_
    intro u hu
    obtain ⟨last, salt, hlast, hhash⟩ := h.passwords u hu
    refine ⟨last, salt, hlast, ?_⟩
    split_ifs
    · exact hhash
    · exact hhash

theorem serveAccounts_sound (rules : AccountRules) (rs : List AccountRequest) :
    SoundAccounts rules (serveAccounts rules rs) := by
  have hrun (run : AccountsRun) (h : SoundAccounts rules run) :
      SoundAccounts rules (rs.foldl (AccountsRun.next rules) run) := by
    induction rs generalizing run with
    | nil => exact h
    | cons r rs ih => exact ih _ (h.next r)
  refine hrun {} ⟨List.nodup_nil, ?_, ?_, ?_, ?_⟩
  · intro u hu
    cases hu
  · intro u hu
    cases hu
  · intro u hu
    cases hu
  · intro u hu
    cases hu

end

/-- The identifiers that stand for an account: its phone in any spelling, or its e-mail when no
account has the identifier as its phone. -/
def Identifies (db : Unicode.Database) (users : List User) (identifier : Text) (u : User) : Prop :=
  (∃ p, Chat.validatePhone db (Text.strip db.space identifier) = some p ∧ u.phone = some p) ∨
    (∀ p, Chat.validatePhone db (Text.strip db.space identifier) = some p →
        ∀ v ∈ users, v.phone ≠ some p) ∧
      u.email = some (Unicode.lower db (Unicode.lower db (Text.strip db.space identifier)))

section
variable {rules : AccountRules} {run : AccountsRun} {users : List User} {u : User}

theorem find_eq_some_iff_of_keyOnce {key : User → Option Text} (h : KeyOnce key users) {k : Text} :
    (users.find? fun v => key v = some k) = some u ↔ u ∈ users ∧ key u = some k := by
  constructor
  · intro hfound
    exact ⟨List.mem_of_find?_eq_some hfound, by simpa using List.find?_some hfound⟩
  · rintro ⟨hu, hk⟩
    cases hfound : users.find? fun v => key v = some k with
    | none =>
      rw [List.find?_eq_none] at hfound
      exact absurd (decide_eq_true hk) (hfound u hu)
    | some v =>
      have hv : key v = some k := by simpa using List.find?_some hfound
      rw [h v (List.mem_of_find?_eq_some hfound) u hu k hv hk]

/-- With keys that belong to one account each, an identifier resolves to the account it stands
for. -/
theorem resolveLoginUser_iff (db : Unicode.Database) (hphones : KeyOnce User.phone users)
    (hemails : KeyOnce User.email users) {identifier : Text} (hu : u ∈ users) :
    resolveLoginUser db users identifier = some u ↔ Identifies db users identifier u := by
  simp only [resolveLoginUser, Identifies]
  cases hvalid : Chat.validatePhone db (Text.strip db.space identifier) with
  | none =>
    simp only [Option.bind_none]
    rw [User.getByEmail, find_eq_some_iff_of_keyOnce hemails]
    simp [hu]
  | some p =>
    simp only [Option.bind_some]
    cases hfound : User.getByPhone users p with
    | some v =>
      have hv := (find_eq_some_iff_of_keyOnce hphones).mp hfound
      simp only [Option.some.injEq, exists_eq_left', forall_eq']
      constructor
      · rintro rfl
        exact Or.inl hv.2
      · rintro (hp | ⟨hnone, -⟩)
        · exact hphones v hv.1 u hu p hv.2 hp
        · exact absurd hv.2 (hnone v hv.1)
    | none =>
      have hnone : ∀ v ∈ users, v.phone ≠ some p := by
        intro v hv hp
        rw [User.getByPhone, List.find?_eq_none] at hfound
        exact hfound v hv (decide_eq_true hp)
      simp only
      rw [User.getByEmail, find_eq_some_iff_of_keyOnce hemails]
      constructor
      · rintro ⟨-, hemail⟩
        exact Or.inr ⟨fun q hq => by cases hq; exact hnone, hemail⟩
      · rintro (⟨q, hq, hp⟩ | ⟨-, hemail⟩)
        · cases hq
          exact absurd hp (hnone u hu)
        · exact ⟨hu, hemail⟩

/-- While its keys are not locked, an attempt logs in exactly the active account that its
identifier resolves to, with a password that its hash accepts. -/
theorem loginUser_eq_ok_iff (db : Unicode.Database) (verify : Text → Text → Bool)
    {attempt : LoginAttempt} {keys : LoginKeys}
    (hopen : isAccountLocked db (lookupKey db attempt.identifier) attempt.now keys = false) :
    (loginUser db verify users attempt keys).1 = .ok u ↔
      resolveLoginUser db users attempt.identifier = some u ∧ u.isActive = true ∧
        ∃ hashed, u.hashedPassword = some hashed ∧ hashed ≠ [] ∧
          verify attempt.password hashed = true := by
  unfold loginUser
  rw [if_neg (by simp [hopen])]
  cases hresolved : resolveLoginUser db users attempt.identifier with
  | none => simp
  | some v =>
    simp only [Option.some.injEq]
    split_ifs with hpassword hactive
    · simp only [false_iff]
      rintro ⟨rfl, -, hashed, hhashed, hne, hverify⟩
      simp [hhashed, hne, hverify] at hpassword
    · simp only [false_iff]
      rintro ⟨rfl, hactive', -⟩
      simp [hactive'] at hactive
    · simp only [Except.ok.injEq]
      constructor
      · rintro rfl
        refine ⟨rfl, by simpa using hactive, ?_⟩
        simpa [Option.any_eq_true, and_assoc] using hpassword
      · exact And.left

end

/-- After every run of requests a phone number and an e-mail address belong to one account, and an
attempt that is not locked out logs in as an account exactly when its identifier stands for the
account, the account is active, and its hash of the password set last accepts the attempt's. -/
theorem accounts_login (rules : AccountRules) (rs : List AccountRequest)
    (hhash : ∀ salt password, rules.hash salt password ≠ []) :
    let run := serveAccounts rules rs
    KeyOnce User.phone run.state.users ∧ KeyOnce User.email run.state.users ∧
      ∀ u ∈ run.state.users, ∃ password salt,
        lastPassword u.id run.history = some password ∧
          ∀ attempt keys,
            isAccountLocked rules.db (lookupKey rules.db attempt.identifier) attempt.now keys =
              false →
            ((loginUser rules.db rules.verify run.state.users attempt keys).1 = .ok u ↔
              Identifies rules.db run.state.users attempt.identifier u ∧ u.isActive = true ∧
                rules.verify attempt.password (rules.hash salt password) = true) := by
  intro run
  have hsound : SoundAccounts rules run := serveAccounts_sound rules rs
  refine ⟨hsound.phones, hsound.emails, fun u hu => ?_⟩
  obtain ⟨password, salt, hlast, hhashed⟩ := hsound.passwords u hu
  refine ⟨password, salt, hlast, fun attempt keys hopen => ?_⟩
  rw [loginUser_eq_ok_iff rules.db rules.verify hopen,
    resolveLoginUser_iff rules.db hsound.phones hsound.emails hu]
  simp [hhashed, hhash]

/-! An account that changes its phone and its password. -/

/-- A hash is the salt and the password, each after a dollar sign. -/
def plainRules : AccountRules where
  db := Unicode.Vietnamese.database
  emailStr := fun email => if '@' ∈ email then some email else none
  isUpper := fun c => 'A' ≤ c && c ≤ 'Z'
  isDigit := fun c => '0' ≤ c && c ≤ '9'
  hash := fun salt password => '$' :: salt ++ '$' :: password
  verify := fun password hashed => ('$' :: password).isSuffixOf hashed

def binhRequests : List AccountRequest :=
  [.register "0912345678" "Matkhau1" (some "Binh@qiki.vn") "a",
    .updateProfile 0 (some (some "0987 654 321")), .changePassword 0 "Matkhau1" "Matkhau2" "b"]

def binh : User :=
  ⟨0, some "binh@qiki.vn", some "+84987654321", some "$b$Matkhau2", false, true⟩

/-- The changed phone and the changed password log in. -/
theorem accounts_login_binh :
    ∃ password salt, lastPassword 0 (serveAccounts plainRules binhRequests).history = some password ∧
      ((loginUser plainRules.db plainRules.verify (serveAccounts plainRules binhRequests).state.users
          ⟨"0987654321", "Matkhau2", 0⟩ {}).1 = .ok binh ↔
        Identifies plainRules.db (serveAccounts plainRules binhRequests).state.users "0987654321"
          binh ∧ binh.isActive = true ∧
          plainRules.verify "Matkhau2" (plainRules.hash salt password) = true) := by
  have hlogin := (accounts_login plainRules binhRequests fun _ _ => List.cons_ne_nil _ _).2.2 binh
  obtain ⟨password, salt, hlast, hattempt⟩ := hlogin (by decide +kernel)
  exact ⟨password, salt, hlast, hattempt ⟨"0987654321", "Matkhau2", 0⟩ {} (by decide +kernel)⟩

end Qiki.Auth
