import Mathlib.Tactic.Linarith
import Qiki.Auth.Login
import Qiki.Text.LetterCase
import Qiki.Text.Vietnamese
import Qiki.Transition.Run

/-! The lockout of an account after failed logins, against the counters and locks that `login_user`
keeps under what is typed. -/
namespace Qiki.Auth

open Transition

/-- What protects one account: the failures in its counting window, and until when it is locked. -/
structure Lockout where
  /-- The first failure of the window and how many it has. -/
  window : Option (Instant × ℕ) := none
  lockedUntil : Option Instant := none

/-- The window that is open at the time. -/
def Lockout.counting (l : Lockout) (now : Instant) : Option (Instant × ℕ) :=
  l.window.filter fun w => now < w.1 + failedLoginTtlSeconds

def Lockout.locked (l : Lockout) (now : Instant) : Bool := l.lockedUntil.any (now < ·)

/-- A failed attempt is counted, in a new window if none is open; the fifth locks the account. -/
def Lockout.fail (l : Lockout) (now : Instant) : Lockout :=
  let w := match l.counting now with
    | some (first, failures) => (first, failures + 1)
    | none => (now, 1)
  { window := some w
    lockedUntil := if failedLoginLimit ≤ w.2 then some (now + lockoutTtlSeconds) else l.lockedUntil }

/-- A successful login closes the window. -/
def Lockout.succeed (l : Lockout) : Lockout := { l with window := none }

def Lockout.after (l : Lockout) (result : Except AuthExn User) (now : Instant) : Lockout :=
  match result with
  | .ok _ => l.succeed
  | .error e => if e = invalidCredentials then l.fail now else l

/-- The state of a run, seen from one account: Redis, the account's lockout, and the lookup key of
the last attempt on it. -/
structure Watched where
  keys : LoginKeys := {}
  lockout : Lockout := {}
  lastKey : Option Text := none
  clock : Instant

section
variable (db : Unicode.Database) (verify : Text → Text → Bool) (users : List User) (account : Uuid)

/-- The identifier resolves to the account. -/
def OnAccount (identifier : Text) : Prop :=
  (resolveLoginUser db users identifier).map (·.id) = some account

instance (identifier : Text) : Decidable (OnAccount db users account identifier) :=
  inferInstanceAs (Decidable (_ = _))

def watch (w : Watched) (attempt : LoginAttempt) : Watched :=
  let (result, keys) := loginUser db verify users attempt w.keys
  if OnAccount db users account attempt.identifier then
    { keys := keys
      lockout := w.lockout.after result attempt.now
      lastKey := some (lookupKey db attempt.identifier)
      clock := attempt.now }
  else { w with keys := keys, clock := attempt.now }

/-- The clock does not go back, and while failures of the account are counted or it is locked, the
attempts on it have one lookup key. -/
def OneKeyAtATime (w : Watched) (attempt : LoginAttempt) : Prop :=
  w.clock ≤ attempt.now ∧ (OnAccount db users account attempt.identifier →
    (w.lockout.counting attempt.now).isSome = true ∨ w.lockout.locked attempt.now = true →
    w.lastKey = some (lookupKey db attempt.identifier))

end

section
variable {db : Unicode.Database} {users : List User} {account : Uuid}
  (h : Unicode.LowersOnce Chat.phoneChar db)
include h

/-- Identifiers with one lookup key resolve alike. -/
theorem resolveLoginUser_congr {a b : Text} (hkey : lookupKey db a = lookupKey db b) :
    resolveLoginUser db users a = resolveLoginUser db users b := by
  -- a phone number is its own lookup key, and no other text has it
  have hphone {a b p : Text} (hkey : lookupKey db a = lookupKey db b)
      (ha : Chat.validatePhone db a = some p) :
      Text.strip db.space a = Text.strip db.space b := by
    have hchars := Chat.phoneChar_of_validatePhone ha
    have hself : lookupKey db a = Text.strip db.space a := h.lower_of_plain hchars
    have hother : Unicode.lower db (Text.strip db.space b) = Text.strip db.space a :=
      hkey.symm.trans hself
    have hsame : Unicode.lower db (Text.strip db.space b) = Text.strip db.space b := by
      apply h.eq_of_lower_plain
      rw [hother]
      exact hchars
    exact hother.symm.trans hsame
  have hstrip (s : Text) : Chat.validatePhone db (Text.strip db.space s) = Chat.validatePhone db s :=
    Chat.validatePhone_strip s
  unfold resolveLoginUser
  dsimp only
  rw [hstrip a, hstrip b]
  cases ha : Chat.validatePhone db a with
  | some p =>
    have hsame := hphone hkey ha
    have hb : Chat.validatePhone db b = some p := by rw [← hstrip b, ← hsame, hstrip a, ha]
    rw [hb, hsame]
  | none =>
    cases hb : Chat.validatePhone db b with
    | some p =>
      have hsame := hphone hkey.symm hb
      rw [← hstrip a, ← hsame, hstrip b, hb] at ha
      cases ha
    | none =>
      unfold lookupKey at hkey
      rw [hkey]

end

/-! The keys under one lookup key, from a time on. -/

/-- The counter and the lock under the key are those of the lockout. -/
structure Tracks (keys : LoginKeys) (l : Lockout) (key : Text) (now : Instant) : Prop where
  counter : ∀ later, now ≤ later → Expiring.peek keys.failedLogins (failedLoginKey key) later =
    (l.counting later).map fun w => ⟨w.2, some (w.1 + failedLoginTtlSeconds)⟩
  lock : ∀ later, now ≤ later → Expiring.peek keys.lockouts (lockoutKey key) later =
    (l.lockedUntil.filter (later < ·)).map fun expiry => ⟨"1", some expiry⟩

/-- Nothing is counted or locked under the key. -/
structure Quiet (keys : LoginKeys) (key : Text) (now : Instant) : Prop where
  counter : ∀ later, now ≤ later → Expiring.peek keys.failedLogins (failedLoginKey key) later = none
  lock : ∀ later, now ≤ later → Expiring.peek keys.lockouts (lockoutKey key) later = none

/-- A window has at least one failure. -/
def Lockout.WellFormed (l : Lockout) : Prop := ∀ w, l.window = some w → 1 ≤ w.2

section
variable {keys : LoginKeys} {l : Lockout} {key other : Text} {now later : Instant}

theorem Tracks.mono (h : Tracks keys l key now) (hle : now ≤ later) : Tracks keys l key later where
  counter t ht := h.counter t (hle.trans ht)
  lock t ht := h.lock t (hle.trans ht)

theorem Quiet.mono (h : Quiet keys key now) (hle : now ≤ later) : Quiet keys key later where
  counter t ht := h.counter t (hle.trans ht)
  lock t ht := h.lock t (hle.trans ht)

theorem Lockout.counting_of_later (hle : now ≤ later) (hnone : l.counting now = none) :
    l.counting later = none := by
  unfold Lockout.counting at hnone ⊢
  cases hw : l.window with
  | none => rfl
  | some w =>
    rw [hw, Option.filter_eq_none_iff] at hnone
    rw [Option.filter_eq_none_iff]
    intro w' hw'
    have hclosed := hnone w' hw'
    simp only [decide_eq_true_eq, not_lt] at hclosed ⊢
    exact hclosed.trans hle

theorem Lockout.not_locked_of_later (hle : now ≤ later) (hopen : l.locked now = false) :
    l.lockedUntil.filter (later < ·) = none := by
  unfold Lockout.locked at hopen
  rw [Option.filter_eq_none_iff]
  intro u hu
  rw [hu] at hopen
  simp only [Option.any_some, decide_eq_false_iff_not, not_lt] at hopen
  simpa using hopen.trans hle

/-- With no window open and no lock, a key that tracks the lockout is quiet, and the other way. -/
theorem tracks_iff_quiet (hcounting : l.counting now = none) (hlocked : l.locked now = false) :
    Tracks keys l key now ↔ Quiet keys key now := by
  constructor
  · intro h
    constructor
    · intro t ht
      rw [h.counter t ht, Lockout.counting_of_later ht hcounting]
      rfl
    · intro t ht
      rw [h.lock t ht, Lockout.not_locked_of_later ht hlocked]
      rfl
  · intro h
    constructor
    · intro t ht
      rw [h.counter t ht, Lockout.counting_of_later ht hcounting]
      rfl
    · intro t ht
      rw [h.lock t ht, Lockout.not_locked_of_later ht hlocked]
      rfl

theorem Tracks.isAccountLocked {db : Unicode.Database} (h : Tracks keys l key now)
    (hkey : Unicode.lower db key = key) : isAccountLocked db key now keys = l.locked now := by
  rw [Auth.isAccountLocked, hkey, Expiring.get_eq_peek, h.lock now le_rfl, Lockout.locked]
  cases l.lockedUntil with
  | none => rfl
  | some u =>
    by_cases hu : now < u
    · simp [Option.filter, hu]
    · simp [Option.filter, hu]

theorem failedLoginKey_ne (hne : other ≠ key) : failedLoginKey other ≠ failedLoginKey key :=
  fun h => hne (List.append_cancel_left h)

theorem lockoutKey_ne (hne : other ≠ key) : lockoutKey other ≠ lockoutKey key :=
  fun h => hne (List.append_cancel_left h)

theorem Lockout.fail_of_none (h : l.counting now = none) : l.fail now =
    { window := some (now, 1)
      lockedUntil := if failedLoginLimit ≤ 1 then some (now + lockoutTtlSeconds)
        else l.lockedUntil } := by
  rw [Lockout.fail, h]

theorem Lockout.fail_of_some {first : Instant} {failures : ℕ}
    (h : l.counting now = some (first, failures)) : l.fail now =
    { window := some (first, failures + 1)
      lockedUntil := if failedLoginLimit ≤ failures + 1 then some (now + lockoutTtlSeconds)
        else l.lockedUntil } := by
  rw [Lockout.fail, h]

/-- The lock after a failure. -/
theorem Tracks.lock_fail (h : Tracks keys l key now) (failures : ℕ) {t : Instant} (ht : now ≤ t) :
    Expiring.peek (if failedLoginLimit ≤ failures then
        Expiring.setex keys.lockouts (lockoutKey key) lockoutTtlSeconds "1" now
      else keys.lockouts) (lockoutKey key) t =
      ((if failedLoginLimit ≤ failures then some (now + lockoutTtlSeconds)
        else l.lockedUntil).filter (t < ·)).map fun expiry => ⟨"1", some expiry⟩ := by
  split_ifs with hlimit
  · rw [Expiring.peek_setex_self]
    by_cases hlive : t < now + lockoutTtlSeconds
    · rw [if_pos hlive, Option.filter_some, if_pos (decide_eq_true hlive)]
      rfl
    · rw [if_neg hlive, Option.filter_some, if_neg (by simpa using hlive)]
      rfl
  · exact h.lock t ht

/-- A failed attempt is counted under its key as in the lockout. -/
theorem Tracks.fail {db : Unicode.Database} (h : Tracks keys l key now)
    (hkey : Unicode.lower db key = key) (hl : l.WellFormed) :
    Tracks (trackFailedLogin db key now keys) (l.fail now) key now := by
  have hpeek := h.counter now le_rfl
  cases hcounting : l.counting now with
  | none =>
    rw [hcounting] at hpeek
    have hincr := Expiring.incr_of_peek_none hpeek
    rw [Lockout.fail_of_none hcounting]
    constructor
    · intro t ht
      simp only [trackFailedLogin, hkey, hincr, Lockout.counting, if_true,
        Expiring.peek, Expiring.expire, Function.update_self, Expiring.Entry.live,
        Option.filter_some, Option.all_none, Option.map_some, Option.all_some]
      split_ifs
      · rfl
      · rfl
    · intro t ht
      simp only [trackFailedLogin, hkey, hincr]
      exact h.lock_fail 1 ht
  | some w =>
    obtain ⟨first, failures⟩ := w
    rw [hcounting] at hpeek
    have hincr := Expiring.incr_of_peek hpeek
    have hfailures : 1 ≤ failures := hl _ (Option.filter_eq_some_iff.mp hcounting).1
    have hnotFirst : failures + 1 ≠ 1 := by omega
    rw [Lockout.fail_of_some hcounting]
    constructor
    · intro t ht
      simp only [trackFailedLogin, hkey, hincr, Lockout.counting,
        if_neg hnotFirst, Expiring.peek, Function.update_self, Expiring.Entry.live,
        Option.filter_some, Option.all_some]
      split_ifs
      · rfl
      · rfl
    · intro t ht
      simp only [trackFailedLogin, hkey, hincr]
      exact h.lock_fail (failures + 1) ht

theorem Lockout.wellFormed_fail (l : Lockout) (now : Instant) : (l.fail now).WellFormed := by
  intro w hw
  obtain rfl := Option.some.inj hw
  cases hcounting : l.counting now with
  | none => exact le_rfl
  | some w => exact Nat.le_add_left 1 w.2

/-- A failed attempt under one key leaves the other keys as they are. -/
theorem peek_trackFailedLogin (db : Unicode.Database) (hkey : Unicode.lower db key = key)
    (hne : other ≠ key) (t : Instant) :
    Expiring.peek (trackFailedLogin db key now keys).failedLogins (failedLoginKey other) t =
        Expiring.peek keys.failedLogins (failedLoginKey other) t ∧
      Expiring.peek (trackFailedLogin db key now keys).lockouts (lockoutKey other) t =
        Expiring.peek keys.lockouts (lockoutKey other) t := by
  simp only [trackFailedLogin, hkey]
  constructor
  · split_ifs
    · rw [Expiring.peek_expire_of_ne (failedLoginKey_ne hne),
        Expiring.peek_incr_of_ne (failedLoginKey_ne hne)]
    · rw [Expiring.peek_incr_of_ne (failedLoginKey_ne hne)]
  · split_ifs
    · rw [Expiring.peek_setex_of_ne (lockoutKey_ne hne)]
    · rfl

end

section
variable {db : Unicode.Database} {verify : Text → Text → Bool} {users : List User}
  {account : Uuid} {keys keys' : LoginKeys} {l : Lockout} {attempt : LoginAttempt}
  {key other : Text} {now : Instant}

/-- The keys agree on what is counted and locked under a lookup key. -/
def AgreeOn (keys keys' : LoginKeys) (key : Text) : Prop :=
  ∀ t, Expiring.peek keys'.failedLogins (failedLoginKey key) t =
      Expiring.peek keys.failedLogins (failedLoginKey key) t ∧
    Expiring.peek keys'.lockouts (lockoutKey key) t = Expiring.peek keys.lockouts (lockoutKey key) t

theorem Tracks.congr (h : Tracks keys l key now) (hagree : AgreeOn keys keys' key) :
    Tracks keys' l key now where
  counter t ht := (hagree t).1.trans (h.counter t ht)
  lock t ht := (hagree t).2.trans (h.lock t ht)

theorem Quiet.congr (h : Quiet keys key now) (hagree : AgreeOn keys keys' key) :
    Quiet keys' key now where
  counter t ht := (hagree t).1.trans (h.counter t ht)
  lock t ht := (hagree t).2.trans (h.lock t ht)

/-- A login leaves alone what is kept under other lookup keys. -/
theorem agreeOn_loginUser
    (hkey : Unicode.lower db (lookupKey db attempt.identifier) = lookupKey db attempt.identifier)
    (hne : other ≠ lookupKey db attempt.identifier) :
    AgreeOn keys (loginUser db verify users attempt keys).2 other := by
  intro t
  unfold loginUser
  dsimp only
  split_ifs
  · exact ⟨rfl, rfl⟩
  split
  · exact peek_trackFailedLogin db hkey hne t
  split_ifs
  · exact peek_trackFailedLogin db hkey hne t
  · exact ⟨rfl, rfl⟩
  · exact ⟨Expiring.peek_delete_of_ne (failedLoginKey_ne hne), rfl⟩

/-- A login under a key that tracks the lockout: the key goes on tracking it, and a locked account
is turned away. -/
theorem Tracks.login (h : Tracks keys l (lookupKey db attempt.identifier) attempt.now)
    (hkey : Unicode.lower db (lookupKey db attempt.identifier) = lookupKey db attempt.identifier)
    (hl : l.WellFormed) :
    let r := loginUser db verify users attempt keys
    Tracks r.2 (l.after r.1 attempt.now) (lookupKey db attempt.identifier) attempt.now ∧
      (l.after r.1 attempt.now).WellFormed ∧
      (l.locked attempt.now = true → r.1 = .error accountLocked) := by
  have hlock := h.isAccountLocked hkey
  have hlockedError : accountLocked ≠ invalidCredentials := by decide
  have hinactiveError : inactiveUser ≠ invalidCredentials := by decide
  unfold loginUser
  dsimp only
  rw [hlock]
  split_ifs with hlocked
  · rw [Lockout.after, if_neg hlockedError]
    exact ⟨h, hl, fun _ => rfl⟩
  split
  · rw [Lockout.after, if_pos rfl]
    exact ⟨h.fail hkey hl, l.wellFormed_fail _, fun hyes => absurd hyes hlocked⟩
  split_ifs
  · rw [Lockout.after, if_pos rfl]
    exact ⟨h.fail hkey hl, l.wellFormed_fail _, fun hyes => absurd hyes hlocked⟩
  · rw [Lockout.after, if_neg hinactiveError]
    exact ⟨h, hl, fun hyes => absurd hyes hlocked⟩
  · refine ⟨⟨fun t _ => Expiring.peek_delete_self, h.lock⟩, ?_, fun hyes => absurd hyes hlocked⟩
    intro w hw
    cases hw

/-- The key of the last attempt tracks the lockout; the account's other keys are quiet. -/
structure Sound (db : Unicode.Database) (users : List User) (account : Uuid) (w : Watched) :
    Prop where
  wellFormed : w.lockout.WellFormed
  tracked : ∀ key, w.lastKey = some key → Tracks w.keys w.lockout key w.clock
  quiet : ∀ identifier, OnAccount db users account identifier →
    w.lastKey ≠ some (lookupKey db identifier) → Quiet w.keys (lookupKey db identifier) w.clock
  known : ∀ key, w.lastKey = some key →
    ∃ identifier, OnAccount db users account identifier ∧ lookupKey db identifier = key

section Attempt
variable {w : Watched} (hw : Sound db users account w)
  (hguard : OneKeyAtATime db users account w attempt)
include hw hguard

theorem Sound.tracks_now (hon : OnAccount db users account attempt.identifier) :
    Tracks w.keys w.lockout (lookupKey db attempt.identifier) attempt.now := by
  obtain ⟨hclock, hone⟩ := hguard
  by_cases hlast : w.lastKey = some (lookupKey db attempt.identifier)
  · exact (hw.tracked _ hlast).mono hclock
  · have hidle := mt (hone hon) hlast
    rw [not_or, Option.not_isSome_iff_eq_none, Bool.not_eq_true] at hidle
    exact (tracks_iff_quiet hidle.1 hidle.2).mpr ((hw.quiet _ hon hlast).mono hclock)

theorem Sound.quiet_now (hon : OnAccount db users account attempt.identifier) {identifier : Text}
    (hother : OnAccount db users account identifier)
    (hne : lookupKey db identifier ≠ lookupKey db attempt.identifier) :
    Quiet w.keys (lookupKey db identifier) attempt.now := by
  obtain ⟨hclock, hone⟩ := hguard
  by_cases hlast : w.lastKey = some (lookupKey db identifier)
  · have hidle := mt (hone hon) fun hsame => hne (Option.some.inj (hlast.symm.trans hsame))
    rw [not_or, Option.not_isSome_iff_eq_none, Bool.not_eq_true] at hidle
    exact (tracks_iff_quiet hidle.1 hidle.2).mp ((hw.tracked _ hlast).mono hclock)
  · exact (hw.quiet _ hother hlast).mono hclock

theorem Sound.watch (h : Unicode.LowersOnce Chat.phoneChar db) :
    Sound db users account (watch db verify users account w attempt) := by
  have hkey : Unicode.lower db (lookupKey db attempt.identifier) = lookupKey db attempt.identifier :=
    h.lower_lower _
  unfold Auth.watch
  dsimp only
  split_ifs with hon
  · obtain ⟨htracks, hwell, -⟩ := @Tracks.login db verify users _ _ attempt
      (hw.tracks_now hguard hon) hkey hw.wellFormed
    constructor
    · exact hwell
    · intro key hlast
      obtain rfl := Option.some.inj hlast
      exact htracks
    · intro identifier hother hlast
      have hne : lookupKey db identifier ≠ lookupKey db attempt.identifier :=
        fun hsame => hlast (congrArg some hsame.symm)
      exact (hw.quiet_now hguard hon hother hne).congr (agreeOn_loginUser hkey hne)
    · intro key hlast
      exact ⟨attempt.identifier, hon, Option.some.inj hlast⟩
  · have hapart {identifier : Text} (hother : OnAccount db users account identifier) :
        lookupKey db identifier ≠ lookupKey db attempt.identifier := by
      intro hsame
      apply hon
      unfold OnAccount at hother ⊢
      rwa [← resolveLoginUser_congr h hsame]
    constructor
    · exact hw.wellFormed
    · intro key hlast
      obtain ⟨identifier, hother, rfl⟩ := hw.known key hlast
      exact ((hw.tracked _ hlast).mono hguard.1).congr (agreeOn_loginUser hkey (hapart hother))
    · intro identifier hother hlast
      exact ((hw.quiet _ hother hlast).mono hguard.1).congr (agreeOn_loginUser hkey (hapart hother))
    · exact hw.known

end Attempt

/-- Nothing is counted at first. -/
theorem sound_start (clock : Instant) : Sound db users account { clock := clock } where
  wellFormed := fun _ hw => nomatch hw
  tracked := fun _ hlast => nomatch hlast
  quiet := fun _ _ _ => ⟨fun _ _ => rfl, fun _ _ => rfl⟩
  known := fun _ hlast => nomatch hlast

end

/-- Five failures in one counting window lock for 900 seconds from the fifth. -/
theorem Lockout.fifth_failure (l : Lockout) {t₁ t₂ t₃ t₄ t₅ : Instant}
    (hnew : l.counting t₁ = none) (h₂ : t₂ < t₁ + 3600) (h₃ : t₃ < t₁ + 3600)
    (h₄ : t₄ < t₁ + 3600) (h₅ : t₅ < t₁ + 3600) :
    (((((l.fail t₁).fail t₂).fail t₃).fail t₄).fail t₅).lockedUntil = some (t₅ + 900) := by
  have hnext {l : Lockout} {t : Instant} {failures : ℕ} (ht : t < t₁ + 3600)
      (hw : l.window = some (t₁, failures)) : (l.fail t).window = some (t₁, failures + 1) ∧
        (failedLoginLimit ≤ failures + 1 → (l.fail t).lockedUntil = some (t + 900)) := by
    have hcounting : l.counting t = some (t₁, failures) := by
      rw [Lockout.counting, hw, Option.filter_some, if_pos]
      exact decide_eq_true ht
    rw [Lockout.fail_of_some hcounting]
    exact ⟨rfl, fun hlimit => if_pos hlimit⟩
  have w₁ : (l.fail t₁).window = some (t₁, 1) := by rw [Lockout.fail_of_none hnew]
  have w₂ := (hnext h₂ w₁).1
  have w₃ := (hnext h₃ w₂).1
  have w₄ := (hnext h₄ w₃).1
  exact (hnext h₅ w₄).2 le_rfl

/-- In every run whose attempts on the account keep to one lookup key while failures are counted or
it is locked, a locked account turns every attempt away; five failures in a counting window, with
no success in between, lock it for 900 seconds. -/
theorem lockout_protects {db : Unicode.Database} (h : Unicode.LowersOnce Chat.phoneChar db)
    (verify : Text → Text → Bool) (users : List User) (account : Uuid) (start : Instant)
    {attempts : List LoginAttempt} {attempt : LoginAttempt}
    (hguard : Guarded (fun w a => some (watch db verify users account w a))
      (OneKeyAtATime db users account) { clock := start } (attempts ++ [attempt]))
    (hon : OnAccount db users account attempt.identifier) :
    let w := attempts.foldl (watch db verify users account) { clock := start }
    (w.lockout.locked attempt.now = true →
      (loginUser db verify users attempt w.keys).1 = .error accountLocked) ∧
    ∀ (l : Lockout) (t₁ t₂ t₃ t₄ t₅ : Instant), l.counting t₁ = none → t₂ < t₁ + 3600 →
      t₃ < t₁ + 3600 → t₄ < t₁ + 3600 → t₅ < t₁ + 3600 →
      (((((l.fail t₁).fail t₂).fail t₃).fail t₄).fail t₅).lockedUntil = some (t₅ + 900) := by
  intro w
  refine ⟨fun hlocked => ?_, fun l _ _ _ _ _ => l.fifth_failure⟩
  have hrun : exec (fun w a => some (watch db verify users account w a)) { clock := start } attempts
      = some w := exec_some _ _ _
  obtain ⟨hbefore, hlast⟩ := hguard.split hrun
  have hsound : Sound db users account w := by
    refine hbefore.invariant (fun s a t hs hg hstep => ?_) (sound_start start) hrun
    obtain rfl := Option.some.inj hstep
    exact hs.watch hg h
  have htracks := hsound.tracks_now hlast.1 hon
  exact (@Tracks.login db verify users _ _ attempt htracks (h.lower_lower _)
    hsound.wellFormed).2.2 hlocked

instance (db : Unicode.Database) (users : List User) (account : Uuid) (w : Watched)
    (attempt : LoginAttempt) : Decidable (OneKeyAtATime db users account w attempt) :=
  inferInstanceAs (Decidable (_ ∧ _))

/-! The lower case of Vietnamese letters and of ASCII. -/

/-- What is asked of one character. -/
def lowersOnce (c : Char) : Bool :=
  let d := Unicode.Vietnamese.lower c
  d != 'Σ' && Unicode.Vietnamese.lower d == d && (!Chat.phoneChar d || d == c)

theorem isAscii_of_phoneChar {c : Char} (h : Chat.phoneChar c = true) :
    Unicode.Vietnamese.isAscii c = true := by
  rw [Chat.phoneChar, Bool.or_eq_true] at h
  rcases h with hdigit | hlisted
  · have hle : c ≤ '9' := of_decide_eq_true (Bool.and_eq_true_iff.mp hdigit).2
    have hnat : c.toNat ≤ '9'.toNat := hle
    exact decide_eq_true (hnat.trans_lt (by decide))
  · have hall : ['+', ' ', '-', '\n'].all Unicode.Vietnamese.isAscii = true := by decide
    exact List.all_eq_true.mp hall c (of_decide_eq_true hlisted)

/-- What holds of the first 128 characters. -/
theorem of_isAscii {P : Char → Bool} (h : ((List.range 128).all fun n => P (Char.ofNat n)) = true)
    {c : Char} (hascii : Unicode.Vietnamese.isAscii c = true) : P c = true := by
  have hlt : c.toNat < 128 := of_decide_eq_true hascii
  have hchar := List.all_eq_true.mp h c.toNat (List.mem_range.mpr hlt)
  rwa [Char.ofNat_toNat] at hchar

theorem lowersOnce_of_ne_sigma {c : Char} (hc : c ≠ 'Σ') : lowersOnce c = true := by
  by_cases hascii : Unicode.Vietnamese.isAscii c = true
  · have hall : ∀ n < 128, lowersOnce (Char.ofNat n) = true := by decide
    have hlt : c.toNat < 128 := of_decide_eq_true hascii
    have hchar := hall c.toNat hlt
    rwa [Char.ofNat_toNat] at hchar
  · cases hlookup : Unicode.Vietnamese.letterCases.lookup c with
    | some d =>
      have hall : ∀ l ∈ Unicode.Vietnamese.letterCases,
          (l.2 != 'Σ' && Unicode.Vietnamese.lower l.2 == l.2 && !Chat.phoneChar l.2) = true := by
        decide
      obtain ⟨before, after, hcases, -⟩ := List.lookup_eq_some_iff.mp hlookup
      have hmem : (c, d) ∈ Unicode.Vietnamese.letterCases := by
        rw [hcases]
        exact List.mem_append_right _ List.mem_cons_self
      have hd := hall (c, d) hmem
      have hlower : Unicode.Vietnamese.lower c = d := by
        rw [Unicode.Vietnamese.lower, if_neg hascii, hlookup, Option.getD_some]
      simp only [Bool.and_eq_true] at hd
      simp only [lowersOnce, hlower, hd.1.1, hd.1.2, hd.2, Bool.true_or, Bool.and_self]
    | none =>
      have hlower : Unicode.Vietnamese.lower c = c := by
        rw [Unicode.Vietnamese.lower, if_neg hascii, hlookup, Option.getD_none]
      simp [lowersOnce, hlower, hc]

theorem lowersOnce_database : Unicode.LowersOnce Chat.phoneChar Unicode.Vietnamese.database where
  lowered := by
    intro c hc d hd
    obtain rfl := List.mem_singleton.mp hd
    have hfacts := lowersOnce_of_ne_sigma hc
    simp only [lowersOnce, Bool.and_eq_true, bne_iff_ne, beq_iff_eq] at hfacts
    exact ⟨hfacts.1.1, congrArg (fun d => [d]) hfacts.1.2⟩
  sigma := by
    intro c hc
    rcases List.mem_cons.mp hc with rfl | hc
    · decide
    · rw [List.mem_singleton.mp hc]
      decide
  plain_self := by
    intro c hplain
    have hfact : (!Chat.phoneChar c || (c != 'Σ' && Unicode.Vietnamese.lower c == c)) = true :=
      @of_isAscii (fun c => !Chat.phoneChar c || (c != 'Σ' && Unicode.Vietnamese.lower c == c))
        (by decide +kernel) c (isAscii_of_phoneChar hplain)
    simp only [hplain, Bool.not_true, Bool.false_or, Bool.and_eq_true, bne_iff_ne, beq_iff_eq]
      at hfact
    exact ⟨hfact.1, congrArg (fun d => [d]) hfact.2⟩
  plain_only := by
    intro c hplain
    have hd : Chat.phoneChar (Unicode.Vietnamese.lower c) = true :=
      hplain _ (List.mem_singleton_self _)
    have hc : c ≠ 'Σ' := by
      rintro rfl
      revert hd
      decide
    have hfacts := lowersOnce_of_ne_sigma hc
    simp only [lowersOnce, Bool.and_eq_true, Bool.or_eq_true, Bool.not_eq_true', beq_iff_eq] at hfacts
    rcases hfacts.2 with hnot | hsame
    · rw [hd] at hnot
      cases hnot
    · exact congrArg (fun d => [d]) hsame

/-! An account with a phone number. -/

def lan : User := ⟨1, none, some "+84912345678", some "hash", false, true⟩

/-- The password is the hash. -/
def verifyPlain (password hashed : Text) : Bool := password = hashed

def wrongPasswords (identifier : Text) : List LoginAttempt :=
  [⟨identifier, "a", 0⟩, ⟨identifier, "b", 1⟩, ⟨identifier, "c", 2⟩, ⟨identifier, "d", 3⟩,
    ⟨identifier, "e", 4⟩]

/-- After five wrong passwords the right one is turned away under the same identifier. -/
theorem lockout_protects_lan :
    (loginUser Unicode.Vietnamese.database verifyPlain [lan] ⟨"0912345678", "hash", 5⟩
      ((wrongPasswords "0912345678").foldl
        (watch Unicode.Vietnamese.database verifyPlain [lan] 1) { clock := 0 }).keys).1 =
      .error accountLocked := by
  have hprotects := @lockout_protects _ lowersOnce_database verifyPlain [lan] 1 0
    (wrongPasswords "0912345678") ⟨"0912345678", "hash", 5⟩ (by decide +kernel) (by decide +kernel)
  exact hprotects.1 (by decide +kernel)

/-- Five wrong passwords for the number as it is dialled, then the right one with the country code. -/
theorem other_spelling_logs_in :
    ¬ ∀ (verify : Text → Text → Bool) (users : List User) (account : Uuid)
      (attempts : List LoginAttempt) (attempt : LoginAttempt),
      (attempts ++ [attempt]).Pairwise (fun a b => a.now ≤ b.now) →
      (∀ a ∈ attempts ++ [attempt], OnAccount Unicode.Vietnamese.database users account a.identifier) →
      (attempts.foldl (watch Unicode.Vietnamese.database verify users account)
        { clock := 0 }).lockout.locked attempt.now = true →
      (loginUser Unicode.Vietnamese.database verify users attempt
        (attempts.foldl (watch Unicode.Vietnamese.database verify users account)
          { clock := 0 }).keys).1 = .error accountLocked := by
  intro h
  have hresult := h verifyPlain [lan] 1 (wrongPasswords "0912345678") ⟨"+84912345678", "hash", 5⟩
    (by decide +kernel) (by decide +kernel) (by decide +kernel)
  revert hresult
  decide +kernel

end Qiki.Auth
