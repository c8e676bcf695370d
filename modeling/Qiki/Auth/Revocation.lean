import Mathlib.Tactic.Linarith
import Qiki.Auth.Model
import Qiki.Data.Stages

/-! Revoked tokens: `logout_user`, `refresh_access_token` and `change_password` put a token on the
blacklist, and no later request accepts it. A request runs at one instant here. -/
namespace Qiki.Auth

structure AuthState where
  redis : Redis
  users : List User

/-- The payload that `create_access_token` or `create_refresh_token` signs; PyJWT writes `exp` in
whole seconds. -/
def issuedPayload (type : TokenType) (subject : Uuid) (expire : Instant) (jti : Text) : TokenPayload :=
  ⟨some subject, some ⌊expire⌋, type, some jti⟩

section
variable (verify : Text → Text → Bool)

def activeUser (users : List User) (userId : Uuid) : Except AuthExn User :=
  match (User.getById users userId).filter (·.isActive) with
  | none => .error (.unauthorized inactiveAccountMessage "inactive_user")
  | some user => .ok user

/-- `refresh_access_token`, but for the tokens that it makes. -/
def refreshAccessToken (refreshToken : Token) (now : Instant) (s : AuthState) :
    Except AuthExn (User × AuthState) := do
  let payload ← decodeToken refreshToken now
  if payload.type ≠ .refresh then .error (.unauthorized invalidSessionMessage "invalid_token")
  else
    raiseIfBlacklisted s.redis payload now
    let userId ← payloadUserId payload
    let user ← activeUser s.users userId
    return (user, { s with redis := blacklistPayload payload now s.redis })

/-- `logout_user`: what it raises, if anything, and the state it leaves. -/
def logoutUser (accessToken : Token) (refreshToken : Option Token) (now : Instant) (s : AuthState) :
    Except AuthExn Unit × AuthState :=
  match decodeToken accessToken now with
  | .error e => (.error e, s)
  | .ok accessPayload =>
    let s := { s with redis := blacklistPayload accessPayload now s.redis }
    match refreshToken with
    | none => (.ok (), s)
    | some refreshToken =>
      match decodeToken refreshToken now with
      | .error e => (.error e, s)
      | .ok refreshPayload =>
        (.ok (), { s with redis := blacklistPayload refreshPayload now s.redis })

def verifyToken (token : Token) (now : Instant) (s : AuthState) : Except AuthExn User := do
  let payload ← decodeToken token now
  if payload.type ≠ .access then .error (.unauthorized invalidSessionMessage "invalid_token")
  else
    raiseIfBlacklisted s.redis payload now
    let userId ← payloadUserId payload
    match User.getById s.users userId with
    | none => .error (.unauthorized invalidSessionMessage "invalid_token")
    | some user =>
      if !user.isActive then .error (.unauthorized inactiveAccountMessage "inactive_user")
      else return user

def wrongPassword : AuthExn :=
  .unauthorized "Mật khẩu hiện tại không đúng." "invalid_credentials"

/-- `change_password`; a token that does not decode rolls the new password back. -/
def changePassword (userId : Uuid) (oldPassword newHash : Text)
    (currentAccessToken : Option Token) (now : Instant) (s : AuthState) :
    Except AuthExn AuthState := do
  match User.getById s.users userId with
  | none => .error wrongPassword
  | some user =>
    if !user.hashedPassword.any fun hashed => !hashed.isEmpty && verify oldPassword hashed then
      .error wrongPassword
    else
      let changed (user : User) := { user with hashedPassword := some newHash }
      let s := { s with users := Table.modify User.id userId changed s.users }
      match currentAccessToken with
      | none => return s
      | some token =>
        let payload ← decodeToken token now
        return { s with redis := blacklistPayload payload now s.redis }

inductive Operation
  | logoutUser (accessToken : Token) (refreshToken : Option Token)
  | refreshAccessToken (refreshToken : Token)
  | changePassword (userId : Uuid) (oldPassword newHash : Text) (currentAccessToken : Option Token)
  /-- A command of another request, on a key that is not a blacklist key. -/
  | command (key : Text) (apart : ∀ jti, blacklistKey jti ≠ key)
    (entry : Option (Expiring.Entry Text Instant))

def Operation.apply (s : AuthState) (now : Instant) : Operation → AuthState
  | .logoutUser accessToken refreshToken => (Auth.logoutUser accessToken refreshToken now s).2
  | .refreshAccessToken refreshToken =>
    match Auth.refreshAccessToken refreshToken now s with
    | .ok (_, s') => s'
    | .error _ => s
  | .changePassword userId oldPassword newHash currentAccessToken =>
    match Auth.changePassword verify userId oldPassword newHash currentAccessToken now s with
    | .ok s' => s'
    | .error _ => s
  | .command key _ entry => { s with redis := Function.update s.redis key entry }

def Operation.tokens : Operation → List Token
  | .logoutUser accessToken refreshToken => accessToken :: refreshToken.toList
  | .refreshAccessToken refreshToken => [refreshToken]
  | .changePassword _ _ _ currentAccessToken => currentAccessToken.toList
  | .command _ _ _ => []

def served (s : AuthState) (operations : List (Instant × Operation)) : AuthState :=
  operations.foldl (fun s o => o.2.apply verify s o.1) s

/-- The operation puts the token on the blacklist. -/
def Operation.Revokes (s : AuthState) (now : Instant) (payload : TokenPayload) : Operation → Prop
  | .logoutUser accessToken refreshToken =>
    decodeToken accessToken now = .ok payload ∨
      ∃ accessPayload token, decodeToken accessToken now = .ok accessPayload ∧
        refreshToken = some token ∧ decodeToken token now = .ok payload
  | .refreshAccessToken refreshToken =>
    refreshToken = .ok payload ∧ ∃ r, Auth.refreshAccessToken refreshToken now s = .ok r
  | .changePassword userId oldPassword newHash currentAccessToken =>
    currentAccessToken = some (.ok payload) ∧
      ∃ s', Auth.changePassword verify userId oldPassword newHash currentAccessToken now s = .ok s'
  | .command _ _ _ => False

end

/-! The entry of a revoked token. -/

/-- The blacklist entry is there until the token has expired. -/
def Revoked (redis : Redis) (jti : Text) (exp : ℤ) : Prop :=
  ∃ expiresAt, redis (blacklistKey jti) = some ⟨"1", some expiresAt⟩ ∧ (exp : ℚ) ≤ expiresAt

section
variable {verify : Text → Text → Bool} {redis : Redis} {payload other : TokenPayload} {jti : Text}
  {exp : ℤ} {now t : Instant} {s : AuthState}

/-- From any instant, the truncated seconds reach the end of the token's life. -/
theorem exp_le_expiry (hexp : payload.exp = some exp) (now : Instant) :
    (exp : ℚ) ≤ now + secondsUntilExpiry payload now := by
  have hfloor : (⌊now⌋ : ℚ) ≤ now := Int.floor_le now
  have hseconds : exp - ⌊now⌋ ≤ secondsUntilExpiry payload now := by
    unfold secondsUntilExpiry
    rw [hexp]
    exact le_max_right _ _
  have hcast : (exp : ℚ) - ⌊now⌋ ≤ secondsUntilExpiry payload now := by exact_mod_cast hseconds
  linarith

theorem revoked_blacklistPayload (hjti : payload.tokenId = some jti) (hexp : payload.exp = some exp)
    (now : Instant) (redis : Redis) : Revoked (blacklistPayload payload now redis) jti exp := by
  refine ⟨now + secondsUntilExpiry payload now, ?_, exp_le_expiry hexp now⟩
  unfold blacklistPayload
  rw [hjti]
  exact Function.update_self ..

/-- Another token on the blacklist does not shorten the entry. -/
theorem Revoked.blacklistPayload (h : Revoked redis jti exp)
    (hother : other.tokenId = some jti → other.exp = some exp) (now : Instant) :
    Revoked (blacklistPayload other now redis) jti exp := by
  by_cases hsame : other.tokenId = some jti
  · exact revoked_blacklistPayload hsame (hother hsame) now redis
  · obtain ⟨expiresAt, hentry, hle⟩ := h
    refine ⟨expiresAt, ?_, hle⟩
    unfold Auth.blacklistPayload
    cases hid : other.tokenId with
    | none => exact hentry
    | some jti' =>
      have hne : blacklistKey jti ≠ blacklistKey jti' := by
        intro hkey
        apply hsame
        rw [hid, List.append_cancel_left hkey]
      exact (Function.update_of_ne hne _ _).trans hentry

/-- While the token lives, its entry turns it away. -/
theorem Revoked.blacklisted (h : Revoked redis jti exp) (hjti : payload.tokenId = some jti)
    (ht : t < exp) : blacklisted redis payload t = true := by
  obtain ⟨expiresAt, hentry, hle⟩ := h
  have hget : Expiring.get redis (blacklistKey jti) t = some "1" := by
    apply Expiring.get_eq_some.mpr
    refine ⟨_, hentry, fun u hu => ?_, rfl⟩
    obtain rfl := Option.some.inj hu
    exact ht.trans_le hle
  unfold Auth.blacklisted
  rw [hjti]
  dsimp only
  rw [hget]
  rfl

theorem decodeToken_eq_ok {token : Token} (h : decodeToken token now = .ok payload) :
    token = .ok payload := by
  unfold decodeToken at h
  split at h
  · cases h
  · split_ifs at h
    exact congrArg Except.ok (Except.ok.inj h)

theorem refreshAccessToken_eq_ok {token : Token} {r : User × AuthState}
    (h : refreshAccessToken token now s = .ok r) :
    ∃ payload, token = .ok payload ∧ decodeToken token now = .ok payload ∧
      blacklisted s.redis payload now = false ∧
      r.2 = { s with redis := blacklistPayload payload now s.redis } := by
  obtain ⟨payload, hdecode, h⟩ := Except.bind_eq_ok h
  split_ifs at h
  obtain ⟨_, hpassed, h⟩ := Except.bind_eq_ok h
  obtain ⟨userId, -, h⟩ := Except.bind_eq_ok h
  obtain ⟨user, -, h⟩ := Except.bind_eq_ok h
  refine ⟨payload, decodeToken_eq_ok hdecode, hdecode, ?_, ?_⟩
  · unfold raiseIfBlacklisted at hpassed
    split_ifs at hpassed with hblacklisted
    simpa using hblacklisted
  · exact congrArg Prod.snd (Except.ok.inj h).symm

theorem verifyToken_eq_ok {token : Token} {user : User} (h : verifyToken token now s = .ok user) :
    ∃ payload, token = .ok payload ∧ decodeToken token now = .ok payload ∧
      blacklisted s.redis payload now = false := by
  obtain ⟨payload, hdecode, h⟩ := Except.bind_eq_ok h
  split_ifs at h
  obtain ⟨_, hpassed, -⟩ := Except.bind_eq_ok h
  refine ⟨payload, decodeToken_eq_ok hdecode, hdecode, ?_⟩
  unfold raiseIfBlacklisted at hpassed
  split_ifs at hpassed with hblacklisted
  simpa using hblacklisted

theorem changePassword_eq_ok {userId : Uuid} {oldPassword newHash : Text} {token : Option Token}
    {s' : AuthState}
    (h : changePassword verify userId oldPassword newHash token now s = .ok s') :
    (token = none ∧ s'.redis = s.redis) ∨
      ∃ payload, token = some (.ok payload) ∧
        s'.redis = blacklistPayload payload now s.redis := by
  unfold changePassword at h
  split at h
  · cases h
  · split_ifs at h
    dsimp only at h
    split at h
    · left
      exact ⟨rfl, by rw [← Except.ok.inj h]⟩
    case h_2 token =>
      obtain ⟨payload, hdecode, h⟩ := Except.bind_eq_ok h
      right
      refine ⟨payload, by rw [decodeToken_eq_ok hdecode], by rw [← Except.ok.inj h]⟩

/-- A token on the blacklist stays there over an operation. -/
theorem Revoked.apply {operation : Operation} (h : Revoked s.redis jti exp)
    (hunique : ∀ q, .ok q ∈ operation.tokens → q.tokenId = some jti → q.exp = some exp) :
    Revoked (operation.apply verify s now).redis jti exp := by
  cases operation with
  | logoutUser accessToken refreshToken =>
    dsimp only [Operation.apply, logoutUser]
    split
    · exact h
    case h_2 accessPayload haccess =>
      have haccessToken := decodeToken_eq_ok haccess
      have hfirst := h.blacklistPayload
        (hunique accessPayload (List.mem_cons.mpr (Or.inl haccessToken.symm))) now
      split
      · exact hfirst
      case h_2 token =>
        split
        · exact hfirst
        case h_2 refreshPayload hrefresh =>
          apply hfirst.blacklistPayload
          apply hunique
          rw [Operation.tokens, decodeToken_eq_ok hrefresh]
          exact List.mem_cons_of_mem _ (List.mem_singleton_self _)
  | refreshAccessToken refreshToken =>
    dsimp only [Operation.apply]
    split
    case h_1 user s' hok =>
      obtain ⟨payload, htoken, -, -, hstate⟩ := refreshAccessToken_eq_ok hok
      obtain rfl : s' = { s with redis := Auth.blacklistPayload payload now s.redis } := hstate
      apply h.blacklistPayload
      apply hunique
      rw [Operation.tokens, htoken]
      exact List.mem_singleton_self _
    · exact h
  | changePassword userId oldPassword newHash currentAccessToken =>
    dsimp only [Operation.apply]
    split
    case h_1 s' hok =>
      rcases changePassword_eq_ok hok with ⟨-, hredis⟩ | ⟨payload, htoken, hredis⟩
      · rw [hredis]
        exact h
      · rw [hredis]
        apply h.blacklistPayload
        apply hunique
        rw [Operation.tokens, htoken]
        exact List.mem_singleton_self _
    · exact h
  | command key apart entry =>
    obtain ⟨expiresAt, hentry, hle⟩ := h
    exact ⟨expiresAt, (Function.update_of_ne (apart jti) _ _).trans hentry, hle⟩

/-- An operation that revokes a token leaves it on the blacklist. -/
theorem revoked_of_revokes {operation : Operation} (hjti : payload.tokenId = some jti)
    (hexp : payload.exp = some exp)
    (hunique : ∀ q, .ok q ∈ operation.tokens → q.tokenId = some jti → q.exp = some exp)
    (h : operation.Revokes verify s now payload) :
    Revoked (operation.apply verify s now).redis jti exp := by
  cases operation with
  | logoutUser accessToken refreshToken =>
    dsimp only [Operation.apply, logoutUser]
    rcases h with haccess | ⟨accessPayload, token, haccess, rfl, hrefresh⟩
    · rw [haccess]
      have hfirst := revoked_blacklistPayload hjti hexp now s.redis
      dsimp only
      split
      · exact hfirst
      case h_2 token =>
        split
        · exact hfirst
        case h_2 refreshPayload hrefresh =>
          apply hfirst.blacklistPayload
          apply hunique
          rw [Operation.tokens, decodeToken_eq_ok hrefresh]
          exact List.mem_cons_of_mem _ (List.mem_singleton_self _)
    · rw [haccess]
      dsimp only
      rw [hrefresh]
      exact revoked_blacklistPayload hjti hexp now _
  | refreshAccessToken refreshToken =>
    obtain ⟨rfl, r, hok⟩ := h
    obtain ⟨_, htoken, -, -, hstate⟩ := refreshAccessToken_eq_ok hok
    obtain rfl := Except.ok.inj htoken
    dsimp only [Operation.apply]
    rw [hok]
    dsimp only
    rw [hstate]
    exact revoked_blacklistPayload hjti hexp now s.redis
  | changePassword userId oldPassword newHash currentAccessToken =>
    obtain ⟨rfl, s', hok⟩ := h
    dsimp only [Operation.apply]
    rw [hok]
    rcases changePassword_eq_ok hok with ⟨hnone, -⟩ | ⟨_, htoken, hredis⟩
    · cases hnone
    · obtain rfl := Except.ok.inj (Option.some.inj htoken)
      dsimp only
      rw [hredis]
      exact revoked_blacklistPayload hjti hexp now s.redis
  | command key apart entry => exact h.elim

theorem Revoked.served {operations : List (Instant × Operation)} (h : Revoked s.redis jti exp)
    (hunique : ∀ o ∈ operations, ∀ q, .ok q ∈ o.2.tokens → q.tokenId = some jti →
      q.exp = some exp) : Revoked (served verify s operations).redis jti exp := by
  induction operations generalizing s with
  | nil => exact h
  | cons o operations ih =>
    have ho : Revoked (o.2.apply verify s o.1).redis jti exp :=
      h.apply (hunique o List.mem_cons_self)
    exact ih ho fun o' ho' => hunique o' (List.mem_cons_of_mem o ho')

end

/-- A token that an operation has put on the blacklist is rejected at every time: until it expires
its entry is there, from then on it does not decode. -/
theorem revocation_lasts (verify : Text → Text → Bool) (s : AuthState) {type : TokenType}
    {subject : Uuid} {expire now : Instant} {jti : Text} (hjti : jti ≠ [])
    {before after : List (Instant × Operation)} {operation : Operation}
    (hunique : ∀ o ∈ (now, operation) :: after, ∀ q, .ok q ∈ o.2.tokens → q.jti = some jti →
      q = issuedPayload type subject expire jti)
    (hrevokes : operation.Revokes verify (served verify s before) now
      (issuedPayload type subject expire jti)) (t : Instant) :
    let later := served verify s (before ++ (now, operation) :: after)
    let payload := issuedPayload type subject expire jti
    (∀ user, verifyToken (.ok payload) t later ≠ .ok user) ∧
    (∀ r, refreshAccessToken (.ok payload) t later ≠ .ok r) ∧
    (t < ⌊expire⌋ → blacklisted later.redis payload t = true) ∧
    (⌊expire⌋ ≤ t → decodeToken (.ok payload) t =
      .error (.unauthorized "Invalid token: Signature has expired" "invalid_token")) := by
  intro later payload
  have hid : payload.tokenId = some jti := by
    have hkept : (!jti.isEmpty) = true := by simpa using hjti
    exact Option.filter_eq_some_iff.mpr ⟨rfl, hkept⟩
  have hexp : payload.exp = some ⌊expire⌋ := rfl
  have hexps : ∀ o ∈ (now, operation) :: after, ∀ q, .ok q ∈ o.2.tokens → q.tokenId = some jti →
      q.exp = some ⌊expire⌋ := by
    intro o ho q hq hqid
    rw [hunique o ho q hq (Option.filter_eq_some_iff.mp hqid).1]
    rfl
  have hrevoked : Revoked later.redis jti ⌊expire⌋ := by
    have hnow := revoked_of_revokes hid hexp (hexps _ List.mem_cons_self) hrevokes
    have hlater : later = served verify (operation.apply verify (served verify s before) now) after :=
      List.foldl_append
    rw [hlater]
    exact hnow.served fun o ho => hexps o (List.mem_cons_of_mem _ ho)
  have hexpired : (⌊expire⌋ : ℚ) ≤ t → decodeToken (.ok payload) t =
      .error (.unauthorized "Invalid token: Signature has expired" "invalid_token") := by
    intro ht
    exact if_pos (decide_eq_true ht)
  have hrejected : decodeToken (.ok payload) t = .ok payload →
      blacklisted later.redis payload t = true := by
    intro hdecode
    apply hrevoked.blacklisted hid
    by_contra hnot
    rw [hexpired (not_lt.mp hnot)] at hdecode
    cases hdecode
  refine ⟨fun user huser => ?_, fun r hr => ?_, hrevoked.blacklisted hid, hexpired⟩
  · obtain ⟨_, htoken, hdecode, hnot⟩ := verifyToken_eq_ok huser
    obtain rfl := Except.ok.inj htoken
    rw [hrejected hdecode] at hnot
    cases hnot
  · obtain ⟨_, htoken, hdecode, hnot, -⟩ := refreshAccessToken_eq_ok hr
    obtain rfl := Except.ok.inj htoken
    rw [hrejected hdecode] at hnot
    cases hnot

/-- An access token whose life ends at 1000, logged out a tenth of a second before. -/
def lastMinute : TokenPayload := issuedPayload .access 1 (2001 / 2) "j"

def oneUser : AuthState := ⟨fun _ => none, [⟨1, none, none, none, false, true⟩]⟩

theorem revocation_lasts_lastMinute :
    ¬ ∃ user, verifyToken (.ok lastMinute) (19999 / 20) (served (fun _ _ => false) oneUser
      ([] ++ [(9999 / 10, .logoutUser (.ok lastMinute) none)])) = .ok user := by
  have hdecode : decodeToken (.ok lastMinute) (9999 / 10) = .ok lastMinute := by decide +kernel
  have honly : ∀ o ∈ [((9999 / 10 : Instant), Operation.logoutUser (.ok lastMinute) none)],
      ∀ q, .ok q ∈ o.2.tokens → q.jti = some ['j'] → q = lastMinute := by
    intro o ho q hq _
    obtain rfl := List.mem_singleton.mp ho
    exact Except.ok.inj (List.mem_singleton.mp hq)
  rintro ⟨user, hverified⟩
  exact (revocation_lasts (fun _ _ => false) oneUser (List.cons_ne_nil 'j' []) honly
    (show Operation.Revokes _ _ _ _ (.logoutUser (.ok lastMinute) none) from Or.inl hdecode)
    _).1 user hverified

end Qiki.Auth
