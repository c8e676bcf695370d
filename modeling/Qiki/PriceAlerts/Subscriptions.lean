import Mathlib.Data.List.Sort
import Qiki.Collections.Table
import Qiki.Orders.Model
import Qiki.Text.Unicode

/-! `PriceAlertService` over `PriceSubscriptionRepository`: double opt-in to price mails, and what
is mailed to whom. The texts of the mails are left out, the addresses and links in them are not. -/
namespace Qiki.PriceAlerts

open Orders

/-- Microseconds since the epoch, UTC: the resolution of a `datetime`. -/
abbrev Instant := ℕ

/-- A row of `price_subscriptions`. -/
structure PriceSubscription where
  id : Uuid
  email : Text
  userId : Option Uuid := none
  confirmed : Bool := false
  confirmToken : Text
  unsubscribeToken : Text
  confirmExpiresAt : Option Instant
  confirmedAt : Option Instant := none
  unsubscribedAt : Option Instant := none
  createdAt : Instant
  deriving DecidableEq

def PriceSubscription.active (r : PriceSubscription) : Bool := r.unsubscribedAt.isNone

inductive Mail
  | confirmation (email confirmUrl unsubscribeUrl : Text)
  | notification (email : Text) (priceRows : List (Text × Text)) (unsubscribeUrl : Text)
  deriving DecidableEq

/-- The table, and the mails handed to the email service in order. -/
structure Store where
  rows : List PriceSubscription := []
  nextId : Uuid := 0
  outbox : List Mail := []

inductive Acknowledged
  | acknowledged (message : Text)
  /-- The address does not fit its column. -/
  | dataError
  deriving DecidableEq

inductive ConfirmResult
  | confirmed | invalid | expired
  deriving DecidableEq

structure PriceAlertNotifyResult where
  sentCount : ℕ
  recipientCount : ℕ
  deriving DecidableEq

def subscribeAckMessage : Text := "Nếu địa chỉ email hợp lệ, chúng tôi đã gửi email xác nhận. " ++
  "Vui lòng kiểm tra hộp thư để hoàn tất đăng ký."

/-- `CONFIRM_TOKEN_TTL` -/
def confirmTokenTtl : Instant := 7 * 24 * 3600 * 1000000

/-! The repository. The unique indexes leave at most one row to each of its lookups. -/

def getActiveByEmail (rows : List PriceSubscription) (email : Text) : Option PriceSubscription :=
  rows.find? fun r => r.email = email && r.active

def getByConfirmToken (rows : List PriceSubscription) (token : Text) : Option PriceSubscription :=
  rows.find? fun r => r.confirmToken = token

def getByUnsubscribeToken (rows : List PriceSubscription) (token : Text) :
    Option PriceSubscription :=
  rows.find? fun r => r.unsubscribeToken = token

def listConfirmedActive (rows : List PriceSubscription) : List PriceSubscription :=
  (rows.filter fun r => r.confirmed && r.active).insertionSort fun a b => a.createdAt ≤ b.createdAt

/-- The three unique indexes, of which the one on addresses covers active rows only. -/
def violatesIndex (rows : List PriceSubscription) (new : PriceSubscription) : Bool :=
  rows.any fun r => r.confirmToken = new.confirmToken ||
    r.unsubscribeToken = new.unsubscribeToken || (r.email = new.email && r.active && new.active)

def markConfirmed (now : Instant) (r : PriceSubscription) (rows : List PriceSubscription) :
    List PriceSubscription :=
  if r.confirmed then rows
  else Table.modify PriceSubscription.id r.id
    (fun r => { r with confirmed := true, confirmedAt := some now }) rows

def markUnsubscribed (now : Instant) (r : PriceSubscription) (rows : List PriceSubscription) :
    List PriceSubscription :=
  if r.unsubscribedAt.isNone then
    Table.modify PriceSubscription.id r.id (fun r => { r with unsubscribedAt := some now }) rows
  else rows

section
variable (frontendUrl : Text)

def linkBase : Text := (frontendUrl.reverse.dropWhile (· = '/')).reverse

def confirmUrl (token : Text) : Text :=
  linkBase frontendUrl ++ "/price-alerts/confirm?token=" ++ token

def unsubscribeUrl (token : Text) : Text :=
  linkBase frontendUrl ++ "/price-alerts/unsubscribe?token=" ++ token

def sendConfirmEmail (email confirmToken unsubscribeToken : Text) (s : Store) : Store :=
  { s with outbox := s.outbox ++ [.confirmation email (confirmUrl frontendUrl confirmToken)
      (unsubscribeUrl frontendUrl unsubscribeToken)] }

/-- What the service reads from elsewhere while it subscribes an address. -/
structure SubscribeCall where
  email : Text
  userId : Option Uuid
  confirmToken : Text
  unsubscribeToken : Text
  now : Instant
  /-- The lookup ran before a concurrent request committed its row for the address. -/
  lookedUpEarly : Bool

variable (db : Unicode.Database)

/-- `email.strip().lower()` -/
def normalizeEmail (email : Text) : Text := Unicode.lower db (Text.strip db.space email)

def newSubscription (c : SubscribeCall) (id : Uuid) : PriceSubscription where
  id := id
  email := normalizeEmail db c.email
  userId := c.userId
  confirmToken := c.confirmToken
  unsubscribeToken := c.unsubscribeToken
  confirmExpiresAt := some (c.now + confirmTokenTtl)
  createdAt := c.now

def subscribe (c : SubscribeCall) (s : Store) : Acknowledged × Store :=
  let normalized := normalizeEmail db c.email
  match if c.lookedUpEarly then none else getActiveByEmail s.rows normalized with
  | some existing =>
    if existing.confirmed then (.acknowledged subscribeAckMessage, s)
    else (.acknowledged subscribeAckMessage,
      sendConfirmEmail frontendUrl normalized existing.confirmToken existing.unsubscribeToken s)
  | none =>
    let row := newSubscription db c s.nextId
    if 255 < normalized.length then (.dataError, s)
    else if violatesIndex s.rows row then (.acknowledged subscribeAckMessage, s)
    else (.acknowledged subscribeAckMessage,
      sendConfirmEmail frontendUrl normalized c.confirmToken c.unsubscribeToken
        { s with rows := s.rows ++ [row], nextId := s.nextId + 1 })

def confirm (token : Text) (now : Instant) (s : Store) : ConfirmResult × Store :=
  match getByConfirmToken s.rows token with
  | none => (.invalid, s)
  | some subscription =>
    if !subscription.active then (.invalid, s)
    else if subscription.confirmed then (.confirmed, s)
    else if subscription.confirmExpiresAt.any (· ≤ now) then (.expired, s)
    else (.confirmed, { s with rows := markConfirmed now subscription s.rows })

def unsubscribe (token : Text) (now : Instant) (s : Store) : Bool × Store :=
  match getByUnsubscribeToken s.rows token with
  | none => (false, s)
  | some subscription => (true, { s with rows := markUnsubscribed now subscription s.rows })

def notification (priceRows : List (Text × Text)) (r : PriceSubscription) : Mail :=
  .notification r.email priceRows (unsubscribeUrl frontendUrl r.unsubscribeToken)

/-- `notify_price_change`, with the price table it built and whether each mail was delivered. -/
def notifyPriceChange (priceRows : List (Text × Text)) (delivered : Mail → Bool) (s : Store) :
    PriceAlertNotifyResult × Store :=
  let recipients := listConfirmedActive s.rows
  let mails := recipients.map (notification frontendUrl priceRows)
  (⟨mails.countP delivered, recipients.length⟩, { s with outbox := s.outbox ++ mails })

inductive Request
  | subscribe (call : SubscribeCall)
  | confirm (token : Text) (now : Instant)
  | unsubscribe (token : Text) (now : Instant)
  | notifyPriceChange (priceRows : List (Text × Text)) (delivered : Mail → Bool)

/-- The tokens generated for a request. -/
def Request.tokens : Request → List Text
  | .subscribe call => [call.confirmToken, call.unsubscribeToken]
  | _ => []

def Request.apply (s : Store) : Request → Store
  | .subscribe call => (PriceAlerts.subscribe frontendUrl db call s).2
  | .confirm token now => (PriceAlerts.confirm token now s).2
  | .unsubscribe token now => (PriceAlerts.unsubscribe token now s).2
  | .notifyPriceChange priceRows delivered =>
    (PriceAlerts.notifyPriceChange frontendUrl priceRows delivered s).2

/-- The store after the requests. -/
def served (requests : List Request) : Store := requests.foldl (Request.apply frontendUrl db) {}

end

end Qiki.PriceAlerts
