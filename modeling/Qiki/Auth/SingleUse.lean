import Qiki.Auth.Model
import Qiki.Transition.SingleUse

/-! `refresh_access_token`, `reset_password` and `verify_email_otp`, one Redis command or SQL
statement a step, in any interleaving of requests. -/
namespace Qiki.Auth.SingleUse

open Transition

inductive Request
  | refreshAccessToken (refreshToken : Token)
  | resetPassword (token newHash : Text)
  | verifyEmailOtp (userId : Uuid) (code : Text)

/-- What a request presents. -/
inductive Credential
  | refreshToken (jti : Text)
  | passwordReset (token : Text)
  | emailOtp (userId : Uuid)
  deriving DecidableEq

def Credential.key : Credential → Text
  | .refreshToken jti => blacklistKey jti
  | .passwordReset token => "password_reset:" ++ token
  | .emailOtp userId => "email_otp:" ++ Text.ofNat userId

def otpResendKey (userId : Uuid) : Text := "email_otp_resend:" ++ Text.ofNat userId

def Request.credential : Request → Option Credential
  | .refreshAccessToken (.ok payload) => payload.tokenId.map .refreshToken
  | .refreshAccessToken (.error _) => none
  | .resetPassword token _ => some (.passwordReset token)
  | .verifyEmailOtp userId _ => some (.emailOtp userId)

/-- What a request has done so far. -/
inductive Phase
  | start
  | decoded | notRevoked | loaded
  | named (userId : Uuid) | found (userId : Uuid)
  | matched
  | updated (userId : Uuid) | deleted (userId : Uuid) | cleared (userId : Uuid)
  | succeeded
  | raised (e : AuthExn)
  | returnedFalse
  | crashed
  deriving DecidableEq

structure Shared (ι : Type) where
  redis : Redis
  /-- The committed rows. -/
  users : List User
  rowLocks : Locks Uuid ι

inductive Event
  | next (now : Instant)
  /-- An exception of Redis or of the database. -/
  | fault

def invalidResetToken : AuthExn :=
  .validation "Liên kết đặt lại mật khẩu không hợp lệ hoặc đã hết hạn." "invalid_reset_token"

/-- What the transaction of a request has written to its user's row. -/
def Request.write : Request → User → User
  | .refreshAccessToken _, user => user
  | .resetPassword _ newHash, user => { user with hashedPassword := some newHash }
  | .verifyEmailOtp _ _, user => { user with emailVerified := true }

section
variable {ι : Type} [DecidableEq ι] (requests : ι → Request)

/-- `user_repository.update`: it waits while another transaction has written the row. -/
def update (i : ι) (userId : Uuid) (g : Shared ι) : Option (Shared ι × Phase) :=
  match User.getById g.users userId with
  | none => some (g, .updated userId)
  | some _ => (g.rowLocks.acquire userId i).map fun rowLocks =>
    ({ g with rowLocks := rowLocks }, .updated userId)

def commit (i : ι) (userId : Uuid) (g : Shared ι) : Shared ι :=
  { g with
    users := Table.modify User.id userId (requests i).write g.users
    rowLocks := g.rowLocks.release i }

def refreshAccessToken (refreshToken : Token) (g : Shared ι) (phase : Phase) (now : Instant) :
    Option (Shared ι × Phase) :=
  match phase, refreshToken with
  | .start, refreshToken =>
    match decodeToken refreshToken now with
    | .error e => some (g, .raised e)
    | .ok payload =>
      if payload.type ≠ .refresh then
        some (g, .raised (.unauthorized invalidSessionMessage "invalid_token"))
      else some (g, .decoded)
  | .decoded, .ok payload =>
    match raiseIfBlacklisted g.redis payload now with
    | .error e => some (g, .raised e)
    | .ok () => some (g, .notRevoked)
  | .notRevoked, .ok payload =>
    match payloadUserId payload with
    | .error e => some (g, .raised e)
    | .ok userId =>
      if (User.getById g.users userId).any (·.isActive) then some (g, .loaded)
      else some (g, .raised (.unauthorized inactiveAccountMessage "inactive_user"))
  | .loaded, .ok payload =>
    some ({ g with redis := blacklistPayload payload now g.redis }, .succeeded)
  | _, _ => none

def resetPassword (i : ι) (token : Text) (g : Shared ι) (phase : Phase) (now : Instant) :
    Option (Shared ι × Phase) :=
  match phase with
  | .start =>
    match (Expiring.get g.redis (Credential.passwordReset token).key now).filter (!·.isEmpty) with
    | none => some (g, .raised invalidResetToken)
    | some raw =>
      match Text.toNat Text.asciiDigit raw with
      | none => some (g, .crashed)
      | some userId => some (g, .named userId)
  | .named userId =>
    if (User.getById g.users userId).isSome then some (g, .found userId)
    else some (g, .raised invalidResetToken)
  | .found userId => update i userId g
  | .updated userId =>
    some ({ g with redis := Expiring.delete g.redis (Credential.passwordReset token).key },
      .deleted userId)
  | .deleted userId => some (commit requests i userId g, .succeeded)
  | _ => none

def verifyEmailOtp (i : ι) (userId : Uuid) (code : Text) (g : Shared ι) (phase : Phase)
    (now : Instant) : Option (Shared ι × Phase) :=
  match phase with
  | .start =>
    match (Expiring.get g.redis (Credential.emailOtp userId).key now).filter (!·.isEmpty) with
    | none => some (g, .returnedFalse)
    | some raw => if raw = code then some (g, .matched) else some (g, .returnedFalse)
  | .matched => update i userId g
  | .updated _ =>
    some ({ g with redis := Expiring.delete g.redis (Credential.emailOtp userId).key },
      .deleted userId)
  | .deleted _ =>
    some ({ g with redis := Expiring.delete g.redis (otpResendKey userId) }, .cleared userId)
  | .cleared userId => some (commit requests i userId g, .succeeded)
  | _ => none

def step (i : ι) (g : Shared ι) (phase : Phase) : Event → Option (Shared ι × Phase)
  | .fault =>
    match phase with
    | .succeeded | .raised _ | .returnedFalse | .crashed => none
    | _ => some ({ g with rowLocks := g.rowLocks.release i }, .crashed)
  | .next now =>
    match requests i with
    | .refreshAccessToken refreshToken => refreshAccessToken refreshToken g phase now
    | .resetPassword token _ => resetPassword requests i token g phase now
    | .verifyEmailOtp userId code => verifyEmailOtp requests i userId code g phase now

/-- Where a request stands with its credential. -/
def Phase.stage : Phase → Stage
  | .notRevoked | .loaded | .named _ | .found _ | .matched | .updated _ => .holding
  | .deleted _ | .cleared _ | .succeeded => .used
  | _ => .outside

/-- The next step of the request deletes its key or blacklists its token. -/
def Phase.invalidates : Phase → Bool
  | .loaded | .updated _ => true
  | _ => false

/-- The blacklist entry that this lookup would have met has expired. -/
def lapsed (redis : Redis) (request : Request) (phase : Phase) (now : Instant) : Bool :=
  match request, phase with
  | .refreshAccessToken (.ok payload), .decoded =>
    payload.tokenId.any fun jti => (redis (blacklistKey jti)).any fun entry => !entry.live now
  | _, _ => false

/-- No lookup comes after the token's blacklist entry has expired, and no request invalidates its
credential while another that presents it stands between its check and its own invalidation. -/
def Undisturbed (c : Threads ι (Shared ι) Phase) (e : ι × Event) : Prop :=
  match e.2 with
  | .fault => True
  | .next now =>
    lapsed c.shared.redis (requests e.1) (c.thread e.1) now = false ∧
      ((c.thread e.1).invalidates = true → ∀ j, j ≠ e.1 →
        (requests j).credential = (requests e.1).credential → (c.thread j).stage ≠ .holding)

end

instance {ι : Type} [DecidableEq ι] [Fintype ι] (requests : ι → Request)
    (c : Threads ι (Shared ι) Phase) : (e : ι × Event) → Decidable (Undisturbed requests c e)
  | (_, .fault) => isTrue trivial
  | (_, .next _) => inferInstanceAs (Decidable (_ ∧ _))

/-- The credential no longer passes the check. -/
def Spent (redis : Redis) : Credential → Prop
  | .refreshToken jti => ∃ entry, redis (blacklistKey jti) = some entry ∧ entry.value ≠ []
  | c => redis c.key = none

section
variable {ι : Type} [DecidableEq ι] {requests : ι → Request} {i : ι} {g g' : Shared ι}
  {phase phase' : Phase} {event : Event}

/-- The request passes the check of its credential: what it found in Redis. -/
def Passes (request : Request) (redis : Redis) (now : Instant) : Prop :=
  match request with
  | .refreshAccessToken (.ok payload) => blacklisted redis payload now = false
  | .refreshAccessToken (.error _) => True
  | request => ∀ credential, request.credential = some credential → redis credential.key ≠ none

/-- What Redis holds after the request has invalidated its credential. -/
def invalidated (request : Request) (redis : Redis) (now : Instant) : Redis :=
  match request with
  | .refreshAccessToken (.ok payload) => blacklistPayload payload now redis
  | .refreshAccessToken (.error _) => redis
  | .resetPassword token _ => Expiring.delete redis (Credential.passwordReset token).key
  | .verifyEmailOtp userId _ => Expiring.delete redis (Credential.emailOtp userId).key

theorem update_cases {userId : Uuid} (h : update i userId g = some (g', phase')) :
    g'.redis = g.redis ∧ phase' = .updated userId := by
  unfold update at h
  split at h
  · obtain ⟨rfl, rfl⟩ := Prod.mk.inj (Option.some.inj h)
    exact ⟨rfl, rfl⟩
  · obtain ⟨rowLocks, -, h⟩ := Option.map_eq_some_iff.mp h
    obtain ⟨rfl, rfl⟩ := Prod.mk.inj h
    exact ⟨rfl, rfl⟩

theorem ne_none_of_get {redis : Redis} {key raw : Text} {now : Instant}
    (h : (Expiring.get redis key now).filter (!·.isEmpty) = some raw) : redis key ≠ none := by
  obtain ⟨hget, -⟩ := Option.filter_eq_some_iff.mp h
  obtain ⟨entry, hentry, -, -⟩ := Expiring.get_eq_some.mp hget
  rw [hentry]
  exact Option.some_ne_none entry

/-- What one step of a request does: it ends the request, goes on, passes the check, invalidates
the credential, or deletes a resend counter. -/
def Moved (request : Request) (redis : Redis) (phase : Phase) (now : Instant) (redis' : Redis)
    (phase' : Phase) : Prop :=
  (redis' = redis ∧ phase'.stage = .outside) ∨
  (redis' = redis ∧ phase'.stage = phase.stage) ∨
  (redis' = redis ∧ phase.stage = .outside ∧ phase'.stage = .holding ∧
    (∀ payload, request = .refreshAccessToken (.ok payload) → phase = .decoded) ∧
    Passes request redis now) ∨
  (phase.invalidates = true ∧ phase.stage = .holding ∧ redis' = invalidated request redis now) ∨
  (∃ userId, phase'.stage = phase.stage ∧ redis' = Expiring.delete redis (otpResendKey userId))

theorem Moved.ended {request : Request} {redis : Redis} {now : Instant}
    (h : phase'.stage = .outside) : Moved request redis phase now redis phase' :=
  Or.inl ⟨rfl, h⟩

theorem Moved.on {request : Request} {redis redis' : Redis} {now : Instant}
    (hredis : redis' = redis) (h : phase'.stage = phase.stage) :
    Moved request redis phase now redis' phase' :=
  Or.inr (Or.inl ⟨hredis, h⟩)

omit [DecidableEq ι] in
theorem refreshAccessToken_moved {refreshToken : Token} {now : Instant}
    (h : refreshAccessToken refreshToken g phase now = some (g', phase')) :
    Moved (.refreshAccessToken refreshToken) g.redis phase now g'.redis phase' := by
  unfold refreshAccessToken at h
  split at h
  case h_1 =>
    split at h
    · obtain ⟨rfl, rfl⟩ := Prod.mk.inj (Option.some.inj h)
      exact .ended rfl
    · split_ifs at h <;> (obtain ⟨rfl, rfl⟩ := Prod.mk.inj (Option.some.inj h); exact .ended rfl)
  case h_2 payload =>
    split at h
    · obtain ⟨rfl, rfl⟩ := Prod.mk.inj (Option.some.inj h)
      exact .ended rfl
    case h_2 hpassed =>
      obtain ⟨rfl, rfl⟩ := Prod.mk.inj (Option.some.inj h)
      refine Or.inr (Or.inr (Or.inl ⟨rfl, rfl, rfl, fun _ _ => rfl, ?_⟩))
      unfold raiseIfBlacklisted at hpassed
      split_ifs at hpassed with hblacklisted
      simpa [Passes] using hblacklisted
  case h_3 =>
    split at h
    · obtain ⟨rfl, rfl⟩ := Prod.mk.inj (Option.some.inj h)
      exact .ended rfl
    · split_ifs at h
      · obtain ⟨rfl, rfl⟩ := Prod.mk.inj (Option.some.inj h)
        exact .on rfl rfl
      · obtain ⟨rfl, rfl⟩ := Prod.mk.inj (Option.some.inj h)
        exact .ended rfl
  case h_4 =>
    obtain ⟨rfl, rfl⟩ := Prod.mk.inj (Option.some.inj h)
    exact Or.inr (Or.inr (Or.inr (Or.inl ⟨rfl, rfl, rfl⟩)))
  case h_5 => cases h

theorem resetPassword_moved {token newHash : Text} {now : Instant}
    (h : resetPassword requests i token g phase now = some (g', phase')) :
    Moved (.resetPassword token newHash) g.redis phase now g'.redis phase' := by
  unfold resetPassword at h
  split at h
  case h_1 =>
    split at h
    · obtain ⟨rfl, rfl⟩ := Prod.mk.inj (Option.some.inj h)
      exact .ended rfl
    case h_2 raw hraw =>
      split at h
      · obtain ⟨rfl, rfl⟩ := Prod.mk.inj (Option.some.inj h)
        exact .ended rfl
      · obtain ⟨rfl, rfl⟩ := Prod.mk.inj (Option.some.inj h)
        refine Or.inr (Or.inr (Or.inl ⟨rfl, rfl, rfl, (fun _ hrefresh => nomatch hrefresh), ?_⟩))
        intro credential hcredential
        obtain rfl := Option.some.inj hcredential
        exact ne_none_of_get hraw
  case h_2 =>
    split_ifs at h
    · obtain ⟨rfl, rfl⟩ := Prod.mk.inj (Option.some.inj h)
      exact .on rfl rfl
    · obtain ⟨rfl, rfl⟩ := Prod.mk.inj (Option.some.inj h)
      exact .ended rfl
  case h_3 =>
    obtain ⟨hredis, rfl⟩ := update_cases h
    exact .on hredis rfl
  case h_4 =>
    obtain ⟨rfl, rfl⟩ := Prod.mk.inj (Option.some.inj h)
    exact Or.inr (Or.inr (Or.inr (Or.inl ⟨rfl, rfl, rfl⟩)))
  case h_5 =>
    obtain ⟨rfl, rfl⟩ := Prod.mk.inj (Option.some.inj h)
    exact .on rfl rfl
  case h_6 => cases h

theorem verifyEmailOtp_moved {userId : Uuid} {code : Text} {now : Instant}
    (h : verifyEmailOtp requests i userId code g phase now = some (g', phase')) :
    Moved (.verifyEmailOtp userId code) g.redis phase now g'.redis phase' := by
  unfold verifyEmailOtp at h
  split at h
  case h_1 =>
    split at h
    · obtain ⟨rfl, rfl⟩ := Prod.mk.inj (Option.some.inj h)
      exact .ended rfl
    case h_2 raw hraw =>
      split_ifs at h
      · obtain ⟨rfl, rfl⟩ := Prod.mk.inj (Option.some.inj h)
        refine Or.inr (Or.inr (Or.inl ⟨rfl, rfl, rfl, (fun _ hrefresh => nomatch hrefresh), ?_⟩))
        intro credential hcredential
        obtain rfl := Option.some.inj hcredential
        exact ne_none_of_get hraw
      · obtain ⟨rfl, rfl⟩ := Prod.mk.inj (Option.some.inj h)
        exact .ended rfl
  case h_2 =>
    obtain ⟨hredis, rfl⟩ := update_cases h
    exact .on hredis rfl
  case h_3 =>
    obtain ⟨rfl, rfl⟩ := Prod.mk.inj (Option.some.inj h)
    exact Or.inr (Or.inr (Or.inr (Or.inl ⟨rfl, rfl, rfl⟩)))
  case h_4 =>
    obtain ⟨rfl, rfl⟩ := Prod.mk.inj (Option.some.inj h)
    exact Or.inr (Or.inr (Or.inr (Or.inr ⟨userId, rfl, rfl⟩)))
  case h_5 =>
    obtain ⟨rfl, rfl⟩ := Prod.mk.inj (Option.some.inj h)
    exact .on rfl rfl
  case h_6 => cases h

theorem step_next_moved {now : Instant} (h : step requests i g phase (.next now) = some (g', phase')) :
    Moved (requests i) g.redis phase now g'.redis phase' := by
  dsimp only [step] at h
  cases hrequest : requests i with
  | refreshAccessToken refreshToken =>
    rw [hrequest] at h
    exact refreshAccessToken_moved h
  | resetPassword token newHash =>
    rw [hrequest] at h
    exact resetPassword_moved h
  | verifyEmailOtp userId code =>
    rw [hrequest] at h
    exact verifyEmailOtp_moved h

/-- A fault leaves Redis as it is and ends the request. -/
theorem step_fault (h : step requests i g phase .fault = some (g', phase')) :
    g'.redis = g.redis ∧ phase'.stage = .outside := by
  cases phase <;> simp only [step, Option.some.injEq, Prod.mk.injEq, reduceCtorEq] at h <;>
    (obtain ⟨rfl, rfl⟩ := h; exact ⟨rfl, rfl⟩)

end

section
variable {redis : Redis} {credential : Credential} {request : Request} {now : Instant}

/-! The keys that are deleted are apart from the blacklist keys. -/

theorem ne_blacklistKey {key : Text} (h : key.head? ≠ some 'b') (jti : Text) :
    key ≠ blacklistKey jti := by
  rintro rfl
  exact h rfl

theorem head_passwordReset (token : Text) :
    (Credential.passwordReset token).key.head? ≠ some 'b' := by
  have hhead : (Credential.passwordReset token).key.head? = some 'p' := rfl
  rw [hhead]
  decide

theorem head_emailOtp (userId : Uuid) : (Credential.emailOtp userId).key.head? ≠ some 'b' := by
  have hhead : (Credential.emailOtp userId).key.head? = some 'e' := rfl
  rw [hhead]
  decide

theorem head_otpResendKey (userId : Uuid) : (otpResendKey userId).head? ≠ some 'b' := by
  have hhead : (otpResendKey userId).head? = some 'e' := rfl
  rw [hhead]
  decide

/-- `DEL` of a key that is not a blacklist key leaves spent what is spent. -/
theorem Spent.delete {key : Text} (h : Spent redis credential) (hkey : key.head? ≠ some 'b') :
    Spent (Expiring.delete redis key) credential := by
  cases credential with
  | refreshToken jti =>
    obtain ⟨entry, hentry, hvalue⟩ := h
    have hother : blacklistKey jti ≠ key := (ne_blacklistKey hkey jti).symm
    refine ⟨entry, ?_, hvalue⟩
    rw [Expiring.delete, Function.update_of_ne hother]
    exact hentry
  | passwordReset token =>
    by_cases hsame : (Credential.passwordReset token).key = key
    · exact hsame ▸ Function.update_self ..
    · exact (Function.update_of_ne hsame _ _).trans h
  | emailOtp userId =>
    by_cases hsame : (Credential.emailOtp userId).key = key
    · exact hsame ▸ Function.update_self ..
    · exact (Function.update_of_ne hsame _ _).trans h

theorem Spent.blacklistPayload (h : Spent redis credential) (payload : TokenPayload) :
    Spent (blacklistPayload payload now redis) credential := by
  unfold Auth.blacklistPayload
  split
  · exact h
  case h_2 jti _ =>
    cases credential with
    | refreshToken other =>
      by_cases hsame : blacklistKey other = blacklistKey jti
      · refine ⟨⟨"1", some (now + secondsUntilExpiry payload now)⟩, ?_, List.cons_ne_nil '1' []⟩
        rw [Expiring.setex, hsame]
        exact Function.update_self ..
      · obtain ⟨entry, hentry, hvalue⟩ := h
        refine ⟨entry, ?_, hvalue⟩
        rw [Expiring.setex, Function.update_of_ne hsame]
        exact hentry
    | passwordReset token =>
      have hother := ne_blacklistKey (head_passwordReset token) jti
      exact (Function.update_of_ne hother _ _).trans h
    | emailOtp userId =>
      have hother := ne_blacklistKey (head_emailOtp userId) jti
      exact (Function.update_of_ne hother _ _).trans h

/-- The invalidation of one credential leaves spent what is spent. -/
theorem Spent.invalidated (h : Spent redis credential) (request : Request) :
    Spent (invalidated request redis now) credential := by
  cases request with
  | refreshAccessToken refreshToken =>
    cases refreshToken with
    | error reason => exact h
    | ok payload => exact h.blacklistPayload payload
  | resetPassword token newHash => exact h.delete (head_passwordReset token)
  | verifyEmailOtp userId code => exact h.delete (head_emailOtp userId)

theorem spent_invalidated (h : request.credential = some credential) :
    Spent (invalidated request redis now) credential := by
  cases request with
  | refreshAccessToken refreshToken =>
    cases refreshToken with
    | error reason => cases h
    | ok payload =>
      obtain ⟨jti, hjti, rfl⟩ := Option.map_eq_some_iff.mp h
      refine ⟨⟨"1", some (now + secondsUntilExpiry payload now)⟩, ?_, List.cons_ne_nil '1' []⟩
      dsimp only [SingleUse.invalidated, Auth.blacklistPayload]
      rw [hjti]
      exact Function.update_self ..
  | resetPassword token newHash =>
    obtain rfl := Option.some.inj h
    exact Function.update_self ..
  | verifyEmailOtp userId code =>
    obtain rfl := Option.some.inj h
    exact Function.update_self ..

/-- What passes its check, with no lapsed blacklist entry, is not spent. -/
theorem not_spent_of_passes {phase : Phase} (hpasses : Passes request redis now)
    (hdecoded : ∀ payload, request = .refreshAccessToken (.ok payload) → phase = .decoded)
    (hlapsed : lapsed redis request phase now = false) (h : request.credential = some credential) :
    ¬ Spent redis credential := by
  cases request with
  | refreshAccessToken refreshToken =>
    cases refreshToken with
    | error reason => cases h
    | ok payload =>
      obtain ⟨jti, hjti, rfl⟩ := Option.map_eq_some_iff.mp h
      rintro ⟨entry, hentry, hvalue⟩
      have hlive : entry.live now = true := by
        simpa [lapsed, hdecoded payload rfl, hjti, hentry] using hlapsed
      have hget : Expiring.get redis (blacklistKey jti) now = some entry.value := by
        simp [Expiring.get, hentry, hlive]
      have hblacklisted : blacklisted redis payload now = true := by
        simp [blacklisted, hjti, hget, hvalue]
      exact absurd hblacklisted (by simpa [Passes] using hpasses)
  | resetPassword token newHash =>
    obtain rfl := Option.some.inj h
    exact hpasses _ rfl
  | verifyEmailOtp userId code =>
    obtain rfl := Option.some.inj h
    exact hpasses _ rfl

end

section
variable {ι : Type} [DecidableEq ι] (requests : ι → Request)

/-- The requests check and consume their credentials. -/
theorem checkThenConsume : CheckThenConsume (step requests) (Undisturbed requests) Phase.stage
    (fun i => (requests i).credential) (fun g : Shared ι => Spent g.redis) where
  check := by
    intro c i event g' phase' credential hguard hstep hbefore hafter
    cases event with
    | fault =>
      rw [(step_fault hstep).2] at hafter
      cases hafter
    | next now =>
      rcases step_next_moved hstep with ⟨-, hended⟩ | ⟨-, hsame⟩ |
        ⟨-, houtside, -, hdecoded, hpasses⟩ | ⟨hinvalidates, hholding, -⟩ | ⟨userId, hsame, -⟩
      · rw [hended] at hafter
        cases hafter
      · exact absurd (hsame.symm.trans hafter) hbefore
      · exact ⟨houtside, not_spent_of_passes hpasses hdecoded hguard.1⟩
      · exact absurd hholding hbefore
      · exact absurd (hsame.symm.trans hafter) hbefore
  consume := by
    intro c i event g' phase' credential hguard hstep hbefore hafter hcredential
    cases event with
    | fault =>
      rw [(step_fault hstep).2] at hafter
      cases hafter
    | next now =>
      rcases step_next_moved hstep with ⟨-, hended⟩ | ⟨-, hsame⟩ |
        ⟨-, -, hpassed, -⟩ | ⟨hinvalidates, hholding, hredis⟩ | ⟨userId, hsame, -⟩
      · rw [hended] at hafter
        cases hafter
      · exact absurd (hsame.symm.trans hafter) hbefore
      · rw [hpassed] at hafter
        cases hafter
      · refine ⟨hholding, ?_, fun j hj hjcredential => ?_⟩
        · rw [hredis]
          exact spent_invalidated hcredential
        · exact hguard.2 hinvalidates j hj (hjcredential.trans hcredential.symm)
      · exact absurd (hsame.symm.trans hafter) hbefore
  stable := by
    intro c i event g' phase' credential hguard hstep hspent
    cases event with
    | fault =>
      rw [(step_fault hstep).1]
      exact hspent
    | next now =>
      rcases step_next_moved hstep with ⟨hredis, -⟩ | ⟨hredis, -⟩ | ⟨hredis, -⟩ | ⟨-, -, hredis⟩ |
        ⟨userId, -, hredis⟩
      · rw [hredis]
        exact hspent
      · rw [hredis]
        exact hspent
      · rw [hredis]
        exact hspent
      · rw [hredis]
        exact hspent.invalidated _
      · rw [hredis]
        exact hspent.delete (head_otpResendKey userId)

/-- In every undisturbed run, of the requests that present one credential at most one succeeds. -/
theorem credential_used_once {c c' : Threads ι (Shared ι) Phase} {events : List (ι × Event)}
    (hstart : ∀ i, c.thread i = .start)
    (hguard : Guarded (interleave (step requests)) (Undisturbed requests) c events)
    (hrun : exec (interleave (step requests)) c events = some c') {i j : ι} (hij : i ≠ j)
    {credential : Credential} (hi : (requests i).credential = some credential)
    (hj : (requests j).credential = some credential) :
    ¬ (c'.thread i = .succeeded ∧ c'.thread j = .succeeded) := by
  rintro ⟨hsucceeded, hagain⟩
  have honce := (checkThenConsume requests).usedOnce
    (fun i => congrArg Phase.stage (hstart i)) hguard hrun
  have hused : (c'.thread i).stage = .used := by
    rw [hsucceeded]
    rfl
  have houtside : (c'.thread j).stage = .outside := (honce i _ hi hused).2 j hij.symm hj
  rw [hagain] at houtside
  cases houtside

end

/-! Two requests with one refresh token. -/

/-- A token of user 1 that expires at 100. -/
def refreshPayload : TokenPayload := ⟨some 1, some 100, .refresh, some "j"⟩

def twoRefreshes (_ : Bool) : Request := .refreshAccessToken (.ok refreshPayload)

def noOneYet : Threads Bool (Shared Bool) Phase where
  shared := ⟨fun _ => none, [⟨1, none, some "+84912345678", some "x", false, true⟩], fun _ => none⟩
  thread _ := .start

/-- One after the other, the second is turned away. -/
theorem credential_used_once_inOrder :
    ∃ c, exec (interleave (step twoRefreshes)) noOneYet
      [(true, .next 0), (true, .next 0), (true, .next 0), (true, .next 0), (false, .next 1),
        (false, .next 1)] = some c ∧
      ¬ (c.thread true = .succeeded ∧ c.thread false = .succeeded) := by
  have hrun : (exec (interleave (step twoRefreshes)) noOneYet
      [(true, .next 0), (true, .next 0), (true, .next 0), (true, .next 0), (false, .next 1),
        (false, .next 1)]).isSome = true := by decide +kernel
  obtain ⟨c, hrun⟩ := Option.isSome_iff_exists.mp hrun
  exact ⟨c, hrun, credential_used_once twoRefreshes (fun _ => rfl) (by decide +kernel) hrun
    (by decide) rfl rfl⟩

/-- Both requests look up the blacklist before either is on it. -/
theorem both_refreshes_succeed :
    ¬ ∀ (requests : Bool → Request) (c c' : Threads Bool (Shared Bool) Phase)
      (events : List (Bool × Event)), (∀ i, c.thread i = .start) →
      exec (interleave (step requests)) c events = some c' →
      ∀ i j, i ≠ j → ∀ credential, (requests i).credential = some credential →
        (requests j).credential = some credential →
        ¬ (c'.thread i = .succeeded ∧ c'.thread j = .succeeded) := by
  intro h
  have hrun : (exec (interleave (step twoRefreshes)) noOneYet
      [(true, .next 0), (false, .next 0), (true, .next 0), (false, .next 0), (true, .next 0),
        (false, .next 0), (true, .next 0), (false, .next 0)]).any (fun c =>
          c.thread true = .succeeded ∧ c.thread false = .succeeded) = true := by
    decide
  obtain ⟨c, hrun, hboth⟩ := (Option.any_eq_true _ _).mp hrun
  exact h twoRefreshes noOneYet c _ (fun _ => rfl) hrun true false (by decide) _ rfl rfl
    (of_decide_eq_true hboth)

end Qiki.Auth.SingleUse
