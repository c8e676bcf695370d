import Mathlib.Algebra.Order.Floor.Ring
import Mathlib.Data.Rat.Floor
import Qiki.Collections.Expiring
import Qiki.Collections.Table
import Qiki.Orders.Model
import Qiki.Text.Decimal

/-! Accounts, tokens and the Redis keys of `AuthService`. -/
namespace Qiki.Auth

/-- Seconds since the epoch. -/
abbrev Instant := ℚ

abbrev Redis := Expiring.Store Text Text Instant

/-- The columns of `users` that authentication reads and writes. -/
structure User where
  id : Uuid
  email : Option Text
  phone : Option Text
  hashedPassword : Option Text
  emailVerified : Bool := false
  isActive : Bool := true
  deriving DecidableEq

def User.getById (users : List User) (userId : Uuid) : Option User :=
  Table.find User.id userId users

inductive AuthExn
  | unauthorized (message errorCode : Text)
  | validation (message errorCode : Text)
  deriving DecidableEq

def invalidSessionMessage : Text := "Phiên đăng nhập không hợp lệ hoặc đã hết hạn."
def inactiveAccountMessage : Text := "Tài khoản đã bị vô hiệu hóa."

/-- `LOCKOUT_TTL_SECONDS` -/
def lockoutTtlSeconds : ℤ := 900

inductive TokenType
  | access | refresh | other
  deriving DecidableEq

/-- The claims of a token that the service reads. -/
structure TokenPayload where
  /-- `none` when it is not a string. -/
  sub : Option Uuid
  /-- `none` when it is missing. -/
  exp : Option ℤ
  type : TokenType
  jti : Option Text
  deriving DecidableEq

/-- What PyJWT reads from a token: its claims, or the text of the error when it is not signed by
the service. -/
abbrev Token := Except Text TokenPayload

def decodeToken (token : Token) (now : Instant) : Except AuthExn TokenPayload :=
  match token with
  | .error reason => .error (.unauthorized ("Invalid token: " ++ reason) "invalid_token")
  | .ok payload =>
    if payload.exp.any fun exp => (exp : ℚ) ≤ now then
      .error (.unauthorized "Invalid token: Signature has expired" "invalid_token")
    else .ok payload

/-- The `jti`, if there is one that counts as true. -/
def TokenPayload.tokenId (payload : TokenPayload) : Option Text :=
  payload.jti.filter (!·.isEmpty)

def blacklistKey (jti : Text) : Text := "blacklist:" ++ jti

/-- `max(1, exp - int(now))`; `int` truncates, and `now` is after the epoch. -/
def secondsUntilExpiry (payload : TokenPayload) (now : Instant) : ℤ :=
  match payload.exp with
  | none => lockoutTtlSeconds
  | some exp => max 1 (exp - ⌊now⌋)

def blacklisted (redis : Redis) (payload : TokenPayload) (now : Instant) : Bool :=
  match payload.tokenId with
  | none => false
  | some jti => (Expiring.get redis (blacklistKey jti) now).any (!·.isEmpty)

def raiseIfBlacklisted (redis : Redis) (payload : TokenPayload) (now : Instant) :
    Except AuthExn Unit :=
  if blacklisted redis payload now then .error (.unauthorized invalidSessionMessage "token_revoked")
  else .ok ()

def blacklistPayload (payload : TokenPayload) (now : Instant) (redis : Redis) : Redis :=
  match payload.tokenId with
  | none => redis
  | some jti => Expiring.setex redis (blacklistKey jti) (secondsUntilExpiry payload now) "1" now

def payloadUserId (payload : TokenPayload) : Except AuthExn Uuid :=
  match payload.sub with
  | none => .error (.unauthorized invalidSessionMessage "invalid_token")
  | some userId => .ok userId

end Qiki.Auth
