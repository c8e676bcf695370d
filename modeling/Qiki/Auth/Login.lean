import Qiki.Auth.Model
import Qiki.Chat.PhoneNumber

/-! `login_user`: the lookup of the account, and the counters and locks of failed logins. The new
tokens of a login are left out. -/
namespace Qiki.Auth

/-- The keys of failed logins in Redis. -/
structure LoginKeys where
  failedLogins : Expiring.Store Text ℕ Instant := fun _ => none
  lockouts : Expiring.Store Text Text Instant := fun _ => none

structure LoginAttempt where
  identifier : Text
  password : Text
  now : Instant

def failedLoginTtlSeconds : ℤ := 3600

def failedLoginLimit : ℕ := 5

def failedLoginKey (email : Text) : Text := "failed_login:" ++ email

def lockoutKey (email : Text) : Text := "lockout:" ++ email

def accountLocked : AuthExn :=
  .unauthorized "Tài khoản tạm thời bị khóa. Vui lòng thử lại sau." "account_locked"

def invalidCredentials : AuthExn :=
  .unauthorized "Số điện thoại/email hoặc mật khẩu không đúng." "invalid_credentials"

def inactiveUser : AuthExn := .unauthorized inactiveAccountMessage "inactive_user"

section
variable (db : Unicode.Database)

def trackFailedLogin (email : Text) (now : Instant) (keys : LoginKeys) : LoginKeys :=
  let normalizedEmail := Unicode.lower db email
  let counterKey := failedLoginKey normalizedEmail
  let (attempts, failedLogins) := Expiring.incr keys.failedLogins counterKey now
  { failedLogins :=
      if attempts = 1 then Expiring.expire failedLogins counterKey failedLoginTtlSeconds now
      else failedLogins
    lockouts :=
      if failedLoginLimit ≤ attempts then
        Expiring.setex keys.lockouts (lockoutKey normalizedEmail) lockoutTtlSeconds "1" now
      else keys.lockouts }

def isAccountLocked (email : Text) (now : Instant) (keys : LoginKeys) : Bool :=
  (Expiring.get keys.lockouts (lockoutKey (Unicode.lower db email)) now).any (!·.isEmpty)

def User.getByPhone (users : List User) (phone : Text) : Option User :=
  users.find? fun user => user.phone = some phone

def User.getByEmail (users : List User) (email : Text) : Option User :=
  users.find? fun user => user.email = some (Unicode.lower db email)

def resolveLoginUser (users : List User) (identifier : Text) : Option User :=
  let candidate := Text.strip db.space identifier
  match (Chat.validatePhone db candidate).bind (User.getByPhone users) with
  | some user => some user
  | none => User.getByEmail db users (Unicode.lower db candidate)

def lookupKey (identifier : Text) : Text := Unicode.lower db (Text.strip db.space identifier)

/-- `login_user`, with `verify` for `verify_password`: the user it logs in, and the keys afterwards. -/
def loginUser (verify : Text → Text → Bool) (users : List User) (attempt : LoginAttempt)
    (keys : LoginKeys) : Except AuthExn User × LoginKeys :=
  let lookupKey := lookupKey db attempt.identifier
  if isAccountLocked db lookupKey attempt.now keys then (.error accountLocked, keys)
  else
    match resolveLoginUser db users attempt.identifier with
    | none => (.error invalidCredentials, trackFailedLogin db lookupKey attempt.now keys)
    | some user =>
      if !user.hashedPassword.any fun hashed => !hashed.isEmpty && verify attempt.password hashed then
        (.error invalidCredentials, trackFailedLogin db lookupKey attempt.now keys)
      else if !user.isActive then (.error inactiveUser, keys)
      else (.ok user,
        { keys with failedLogins := Expiring.delete keys.failedLogins (failedLoginKey lookupKey) })

end

end Qiki.Auth
