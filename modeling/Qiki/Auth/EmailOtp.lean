import Qiki.Auth.Login
import Qiki.Auth.SingleUse
import Qiki.Collections.FixedWindow

/-! The codes that verify an e-mail address: mailing them, how often, and confirming one. -/
namespace Qiki.Auth

open SingleUse (Credential otpResendKey)

/-- The keys of e-mail codes in Redis. -/
structure OtpKeys where
  codes : Redis := fun _ => none
  resends : Expiring.Store Text ℕ Instant := fun _ => none

structure OtpState where
  users : List User
  keys : OtpKeys

def emailOtpTtlSeconds : Instant := 600

def emailOtpResendTtlSeconds : Instant := 3600

def emailOtpResendLimit : ℕ := 5

def emailOtpKey (userId : Uuid) : Text := (Credential.emailOtp userId).key

inductive OtpRequest
  /-- `send_email_verification`, with what `secrets.randbelow(1_000_000)` draws. -/
  | send (email : Text) (draw : Fin 1000000)
  /-- `confirm_email_otp` -/
  | confirm (email code : Text)

/-- What comes of a request, for the account that it is about. -/
inductive OtpOutcome
  | mailed (userId : Uuid) (code : Text)
  | limited (userId : Uuid)
  | noAccount
  | verified (userId : Uuid)
  | refused
  /-- `compare_digest` takes ASCII texts only. -/
  | typeError
  deriving DecidableEq

/-- `secrets.compare_digest` on texts; `none` is its `TypeError`. -/
def compareDigest (a b : Text) : Option Bool :=
  if a.all Unicode.Vietnamese.isAscii && b.all Unicode.Vietnamese.isAscii then some (a = b) else none

def requestEmailOtp (user : User) (draw : Fin 1000000) (now : Instant) (keys : OtpKeys) :
    OtpKeys × OtpOutcome :=
  match user.email.filter (!·.isEmpty) with
  | none => (keys, .noAccount)
  | some _ =>
    let (attempts, resends) := FixedWindow.count keys.resends (otpResendKey user.id)
      emailOtpResendTtlSeconds now
    if emailOtpResendLimit < attempts then ({ keys with resends := resends }, .limited user.id)
    else
      let code := Text.padZeros 6 (Text.ofNat draw)
      ({ codes := Expiring.setex keys.codes (emailOtpKey user.id) emailOtpTtlSeconds code now
         resends := resends }, .mailed user.id code)

def verifyEmailOtp (user : User) (code : Text) (now : Instant) (s : OtpState) :
    OtpState × OtpOutcome :=
  match (Expiring.get s.keys.codes (emailOtpKey user.id) now).filter (!·.isEmpty) with
  | none => (s, .refused)
  | some raw =>
    match compareDigest raw code with
    | none => (s, .typeError)
    | some false => (s, .refused)
    | some true =>
      ({ users := Table.modify User.id user.id ({ · with emailVerified := true }) s.users
         keys :=
          { codes := Expiring.delete s.keys.codes (emailOtpKey user.id)
            resends := Expiring.delete s.keys.resends (otpResendKey user.id) } },
        .verified user.id)

section
variable (db : Unicode.Database)

def serveOtp (now : Instant) (s : OtpState) : OtpRequest → OtpState × OtpOutcome
  | .send email draw =>
    match User.getByEmail db s.users (Unicode.lower db email) with
    | none => (s, .noAccount)
    | some user =>
      let (keys, outcome) := requestEmailOtp user draw now s.keys
      ({ s with keys := keys }, outcome)
  | .confirm email code =>
    match User.getByEmail db s.users (Unicode.lower db email) with
    | none => (s, .refused)
    | some user => verifyEmailOtp user code now s

/-- A run, with the outcomes so far. -/
structure OtpRun where
  state : OtpState
  history : List (Instant × OtpOutcome) := []

def OtpRun.next (run : OtpRun) (e : Instant × OtpRequest) : OtpRun where
  state := (serveOtp db e.1 run.state e.2).1
  history := run.history ++ [(e.1, (serveOtp db e.1 run.state e.2).2)]

def OtpRun.serveAll (run : OtpRun) (events : List (Instant × OtpRequest)) : OtpRun :=
  events.foldl (OtpRun.next db) run

end

/-! What a history says about one account. -/

/-- The code mailed last and when, until it is used, and all mails since a code was used. -/
structure Otp where
  mail : Option (Text × Instant) := none
  mails : List Instant := []

def Otp.after (userId : Uuid) (o : Otp) (e : Instant × OtpOutcome) : Otp :=
  match e.2 with
  | .mailed u code => if u = userId then ⟨some (code, e.1), o.mails ++ [e.1]⟩ else o
  | .verified u => if u = userId then {} else o
  | _ => o

def otpOf (userId : Uuid) (history : List (Instant × OtpOutcome)) : Otp :=
  history.foldl (Otp.after userId) {}

theorem otpOf_append (userId : Uuid) (history : List (Instant × OtpOutcome))
    (e : Instant × OtpOutcome) :
    otpOf userId (history ++ [e]) = (otpOf userId history).after userId e := by
  rw [otpOf, List.foldl_append]
  rfl

/-- The counting window of an account after an outcome. -/
def windowAfter (userId : Uuid) (w : Option (Instant × ℕ)) (now : Instant) :
    OtpOutcome → Option (Instant × ℕ)
  | .mailed u _ | .limited u =>
    if u = userId then some (FixedWindow.hit emailOtpResendTtlSeconds w now) else w
  | .verified u => if u = userId then none else w
  | _ => w

/-- The counting window that a history leaves. -/
def windowOf (userId : Uuid) (history : List (Instant × OtpOutcome)) : Option (Instant × ℕ) :=
  history.foldl (fun w e => windowAfter userId w e.1 e.2) none

/-- Mails go out within the limit of the window, and only beyond it are they held back. -/
def Limited (userId : Uuid) : Option (Instant × ℕ) → List (Instant × OtpOutcome) → Prop
  | _, [] => True
  | w, e :: history =>
    ((∀ code, e.2 = .mailed userId code →
        (FixedWindow.hit emailOtpResendTtlSeconds w e.1).2 ≤ emailOtpResendLimit) ∧
      (e.2 = .limited userId →
        emailOtpResendLimit < (FixedWindow.hit emailOtpResendTtlSeconds w e.1).2)) ∧
      Limited userId (windowAfter userId w e.1 e.2) history

theorem limited_append {userId : Uuid} {w : Option (Instant × ℕ)}
    {h₁ h₂ : List (Instant × OtpOutcome)} : Limited userId w (h₁ ++ h₂) ↔ Limited userId w h₁ ∧
      Limited userId (h₁.foldl (fun w e => windowAfter userId w e.1 e.2) w) h₂ := by
  induction h₁ generalizing w with
  | nil => exact (iff_of_eq (true_and _)).symm
  | cons e h₁ ih =>
    rw [List.cons_append, Limited, Limited, ih, List.foldl_cons]
    exact and_assoc.symm

theorem emailOtpKey_ne {u userId : Uuid} (h : userId ≠ u) : emailOtpKey userId ≠ emailOtpKey u :=
  fun he => h (Text.ofNat_injective (List.append_cancel_left he))

theorem otpResendKey_ne {u userId : Uuid} (h : userId ≠ u) :
    otpResendKey userId ≠ otpResendKey u :=
  fun he => h (Text.ofNat_injective (List.append_cancel_left he))

theorem isAscii_padZeros (n : ℕ) :
    (Text.padZeros 6 (Text.ofNat n)).all Unicode.Vietnamese.isAscii = true := by
  refine List.all_eq_true.mpr fun c hc => ?_
  have hdigit : 48 ≤ c.val ∧ c.val ≤ 57 := by
    simpa [Char.isDigit] using Text.isDigit_of_mem_padZeros hc
  have hle : c.toNat ≤ 57 := hdigit.2
  exact decide_eq_true (by omega)

/-! One request. -/

/-- Everything that serving a request can do. -/
inductive OtpEffect (now : Instant) (s : OtpState) : OtpState → OtpOutcome → Prop
  | idle (outcome : OtpOutcome)
      (nothing : outcome = .noAccount ∨ outcome = .refused ∨ outcome = .typeError) :
      OtpEffect now s s outcome
  | limited (userId : Uuid)
      (spent : emailOtpResendLimit < (FixedWindow.count s.keys.resends (otpResendKey userId)
        emailOtpResendTtlSeconds now).1) :
      OtpEffect now s { s with keys := { s.keys with
        resends := (FixedWindow.count s.keys.resends (otpResendKey userId)
          emailOtpResendTtlSeconds now).2 } } (.limited userId)
  | mailed (userId : Uuid) (code : Text) (nonempty : code ≠ [])
      (ascii : code.all Unicode.Vietnamese.isAscii = true)
      (left : (FixedWindow.count s.keys.resends (otpResendKey userId)
        emailOtpResendTtlSeconds now).1 ≤ emailOtpResendLimit) :
      OtpEffect now s { s with keys :=
        { codes := Expiring.setex s.keys.codes (emailOtpKey userId) emailOtpTtlSeconds code now
          resends := (FixedWindow.count s.keys.resends (otpResendKey userId)
            emailOtpResendTtlSeconds now).2 } } (.mailed userId code)
  | verified (userId : Uuid) :
      OtpEffect now s
        { users := Table.modify User.id userId ({ · with emailVerified := true }) s.users
          keys :=
            { codes := Expiring.delete s.keys.codes (emailOtpKey userId)
              resends := Expiring.delete s.keys.resends (otpResendKey userId) } }
        (.verified userId)

theorem requestEmailOtp_effect (user : User) (draw : Fin 1000000) (now : Instant) (s : OtpState) :
    OtpEffect now s { s with keys := (requestEmailOtp user draw now s.keys).1 }
      (requestEmailOtp user draw now s.keys).2 := by
  unfold requestEmailOtp
  cases user.email.filter (!·.isEmpty) with
  | none => exact .idle _ (Or.inl rfl)
  | some email =>
    dsimp only
    split_ifs with hspent
    · exact .limited user.id hspent
    · exact .mailed user.id _ (Text.padZeros_ne_nil 6 _) (isAscii_padZeros _) (Nat.le_of_not_lt hspent)

theorem verifyEmailOtp_effect (user : User) (code : Text) (now : Instant) (s : OtpState) :
    OtpEffect now s (verifyEmailOtp user code now s).1 (verifyEmailOtp user code now s).2 := by
  unfold verifyEmailOtp
  cases (Expiring.get s.keys.codes (emailOtpKey user.id) now).filter (!·.isEmpty) with
  | none => exact .idle _ (Or.inr (Or.inl rfl))
  | some raw =>
    dsimp only
    cases compareDigest raw code with
    | none => exact .idle _ (Or.inr (Or.inr rfl))
    | some same =>
      cases same with
      | false => exact .idle _ (Or.inr (Or.inl rfl))
      | true => exact .verified user.id

theorem serveOtp_effect (db : Unicode.Database) (now : Instant) (s : OtpState) (r : OtpRequest) :
    OtpEffect now s (serveOtp db now s r).1 (serveOtp db now s r).2 := by
  cases r with
  | send email draw =>
    cases hfound : User.getByEmail db s.users (Unicode.lower db email) with
    | none =>
      simp only [serveOtp, hfound]
      exact .idle _ (Or.inl rfl)
    | some user =>
      simp only [serveOtp, hfound]
      exact requestEmailOtp_effect user draw now s
  | confirm email code =>
    cases hfound : User.getByEmail db s.users (Unicode.lower db email) with
    | none =>
      simp only [serveOtp, hfound]
      exact .idle _ (Or.inr (Or.inl rfl))
    | some user =>
      simp only [serveOtp, hfound]
      exact verifyEmailOtp_effect user code now s

/-- What Redis holds for an account with this history, from now on. -/
structure OtpSound (userId : Uuid) (s : OtpState) (o : Otp) (w : Option (Instant × ℕ))
    (now : Instant) : Prop where
  code : ∀ t, now ≤ t → Expiring.peek s.keys.codes (emailOtpKey userId) t =
    (o.mail.filter (t < ·.2 + emailOtpTtlSeconds)).map fun m =>
      ⟨m.1, some (m.2 + emailOtpTtlSeconds)⟩
  text : ∀ m, o.mail = some m → m.1 ≠ [] ∧ m.1.all Unicode.Vietnamese.isAscii = true
  resend : FixedWindow.Shows emailOtpResendTtlSeconds s.keys.resends (otpResendKey userId) w now
  counted : FixedWindow.Counted emailOtpResendLimit w o.mails now

theorem OtpSound.mono {userId : Uuid} {s : OtpState} {o : Otp} {w : Option (Instant × ℕ)}
    {now later : Instant} (h : OtpSound userId s o w now) (hle : now ≤ later) :
    OtpSound userId s o w later where
  code t ht := h.code t (hle.trans ht)
  text := h.text
  resend := h.resend.mono hle
  counted := h.counted.mono hle

theorem otpSound_start (userId : Uuid) (users : List User) (now : Instant) :
    OtpSound userId ⟨users, {}⟩ {} none now where
  code _ _ := rfl
  text _ h := by cases h
  resend _ _ := rfl
  counted := FixedWindow.counted_none

theorem OtpSound.count {userId : Uuid} {s : OtpState} {o : Otp} {w : Option (Instant × ℕ)}
    {now : Instant} (h : OtpSound userId s o w now) :
    (FixedWindow.count s.keys.resends (otpResendKey userId) emailOtpResendTtlSeconds now).1 =
        (FixedWindow.hit emailOtpResendTtlSeconds w now).2 ∧
      FixedWindow.Shows emailOtpResendTtlSeconds (FixedWindow.count s.keys.resends
        (otpResendKey userId) emailOtpResendTtlSeconds now).2 (otpResendKey userId)
        (some (FixedWindow.hit emailOtpResendTtlSeconds w now)) now :=
  h.resend.count fun o ho => (h.counted.started o.1 o.2 ho).2

theorem OtpSound.counted_hit {userId : Uuid} {s : OtpState} {o : Otp} {w : Option (Instant × ℕ)}
    {now : Instant} (h : OtpSound userId s o w now) :
    FixedWindow.Counted emailOtpResendLimit (some (FixedWindow.hit emailOtpResendTtlSeconds w now))
      (if (FixedWindow.hit emailOtpResendTtlSeconds w now).2 ≤ emailOtpResendLimit then
        o.mails ++ [now] else o.mails) now :=
  h.counted.hit

/-- The step lemma. -/
theorem OtpSound.effect {userId : Uuid} {s t : OtpState} {o : Otp} {w : Option (Instant × ℕ)}
    {now : Instant} {outcome : OtpOutcome} (h : OtpSound userId s o w now)
    (heffect : OtpEffect now s t outcome) :
    OtpSound userId t (o.after userId (now, outcome)) (windowAfter userId w now outcome) now := by
  cases heffect with
  | idle outcome nothing =>
    rcases nothing with rfl | rfl | rfl <;> exact h
  | limited u spent =>
    by_cases hu : u = userId
    · subst hu
      obtain ⟨hcount, hshows⟩ := h.count
      rw [hcount] at spent
      have hcounted := h.counted_hit
      rw [if_neg (Nat.not_le.mpr spent)] at hcounted
      rw [windowAfter, if_pos rfl]
      exact ⟨h.code, h.text, hshows, hcounted⟩
    · rw [windowAfter, if_neg hu]
      refine ⟨h.code, h.text, fun t ht => ?_, h.counted⟩
      rw [FixedWindow.peek_count_of_ne (otpResendKey_ne (Ne.symm hu))]
      exact h.resend t ht
  | mailed u code nonempty ascii left =>
    by_cases hu : u = userId
    · subst hu
      obtain ⟨hcount, hshows⟩ := h.count
      rw [hcount] at left
      have hcounted := h.counted_hit
      rw [if_pos left] at hcounted
      have hafter : o.after u (now, .mailed u code) = ⟨some (code, now), o.mails ++ [now]⟩ :=
        if_pos rfl
      rw [windowAfter, if_pos rfl, hafter]
      refine ⟨fun t ht => ?_, fun m hm => ?_, hshows, hcounted⟩
      · rw [Expiring.peek_setex_self, Option.filter_some]
        simp only [decide_eq_true_eq]
        split_ifs <;> rfl
      · cases hm
        exact ⟨nonempty, ascii⟩
    · have hafter : o.after userId (now, .mailed u code) = o := if_neg hu
      rw [windowAfter, if_neg hu, hafter]
      refine ⟨fun t ht => ?_, h.text, fun t ht => ?_, h.counted⟩
      · rw [Expiring.peek_setex_of_ne (emailOtpKey_ne (Ne.symm hu))]
        exact h.code t ht
      · rw [FixedWindow.peek_count_of_ne (otpResendKey_ne (Ne.symm hu))]
        exact h.resend t ht
  | verified u =>
    by_cases hu : u = userId
    · subst hu
      have hafter : o.after u (now, .verified u) = {} := if_pos rfl
      rw [windowAfter, if_pos rfl, hafter]
      refine ⟨fun t ht => ?_, fun m hm => (by cases hm), FixedWindow.shows_delete,
        FixedWindow.counted_none⟩
      rw [Expiring.peek_delete_self]
      rfl
    · have hafter : o.after userId (now, .verified u) = o := if_neg hu
      rw [windowAfter, if_neg hu, hafter]
      refine ⟨fun t ht => ?_, h.text, fun t ht => ?_, h.counted⟩
      · rw [Expiring.peek_delete_of_ne (emailOtpKey_ne (Ne.symm hu))]
        exact h.code t ht
      · rw [Expiring.peek_delete_of_ne (otpResendKey_ne (Ne.symm hu))]
        exact h.resend t ht

/-! Runs. -/

def OtpRun.start (users : List User) : OtpRun := { state := ⟨users, {}⟩ }

section
variable {db : Unicode.Database} {userId : Uuid} {users : List User}
  {events : List (Instant × OtpRequest)} {now later : Instant}

/-- An outcome that counts an account's window does so within its limit, or says so. -/
theorem OtpSound.limited {s t : OtpState} {o : Otp} {w : Option (Instant × ℕ)}
    {outcome : OtpOutcome} (h : OtpSound userId s o w now) (heffect : OtpEffect now s t outcome) :
    Limited userId w [(now, outcome)] := by
  cases heffect with
  | idle outcome nothing =>
    rcases nothing with rfl | rfl | rfl <;>
      exact ⟨⟨fun _ h => (by cases h), fun h => (by cases h)⟩, trivial⟩
  | limited u spent =>
    refine ⟨⟨fun _ h => (by cases h), fun hu => ?_⟩, trivial⟩
    cases hu
    rwa [h.count.1] at spent
  | mailed u code nonempty ascii left =>
    refine ⟨⟨fun _ hu => ?_, fun h => (by cases h)⟩, trivial⟩
    cases hu
    rwa [h.count.1] at left
  | verified u => exact ⟨⟨fun _ h => (by cases h), fun h => (by cases h)⟩, trivial⟩

/-- Redis agrees with the history, and the history keeps the limit. -/
structure OtpRun.Sound (userId : Uuid) (run : OtpRun) (now : Instant) : Prop where
  state : OtpSound userId run.state (otpOf userId run.history) (windowOf userId run.history) now
  limited : Limited userId none run.history

theorem OtpRun.Sound.next {run : OtpRun} {e : Instant × OtpRequest}
    (h : run.Sound userId now) (hle : now ≤ e.1) : (run.next db e).Sound userId e.1 := by
  have heffect := serveOtp_effect db e.1 run.state e.2
  have hstate := h.state.mono hle
  constructor
  · have hsound := hstate.effect heffect
    rw [← otpOf_append] at hsound
    have hwindow : windowOf userId (run.next db e).history =
        windowAfter userId (windowOf userId run.history) e.1 (serveOtp db e.1 run.state e.2).2 := by
      rw [OtpRun.next, windowOf, List.foldl_append]
      rfl
    rw [hwindow]
    exact hsound
  · exact limited_append.mpr ⟨h.limited, hstate.limited heffect⟩

/-- The run lemma. -/
theorem OtpRun.Sound.serveAll {run : OtpRun} (h : run.Sound userId now)
    (hclock : (now :: (events.map Prod.fst ++ [later])).Pairwise (· ≤ ·)) :
    (run.serveAll db events).Sound userId later := by
  induction events generalizing run now with
  | nil =>
    have hle := (List.pairwise_cons.mp hclock).1 later List.mem_cons_self
    exact ⟨h.state.mono hle, h.limited⟩
  | cons e events ih =>
    obtain ⟨hle, hrest⟩ := List.pairwise_cons.mp hclock
    exact ih (h.next (hle e.1 List.mem_cons_self)) hrest

theorem exists_cons_pairwise {l : List Instant} (h : l.Pairwise (· ≤ ·)) :
    ∃ t, (t :: l).Pairwise (· ≤ ·) := by
  cases l with
  | nil => exact ⟨0, List.pairwise_singleton _ 0⟩
  | cons t l =>
    refine ⟨t, List.pairwise_cons.mpr ⟨fun t' ht' => ?_, h⟩⟩
    rcases List.mem_cons.mp ht' with rfl | ht'
    · exact le_rfl
    · exact (List.pairwise_cons.mp h).1 t' ht'

theorem sound_serveAll (db : Unicode.Database) (userId : Uuid) (users : List User)
    (hclock : (events.map Prod.fst ++ [later]).Pairwise (· ≤ ·)) :
    ((OtpRun.start users).serveAll db events).Sound userId later := by
  obtain ⟨t, ht⟩ := exists_cons_pairwise hclock
  exact OtpRun.Sound.serveAll ⟨otpSound_start userId users t, trivial⟩ ht

/-- The accounts of a run, each verified when a code of its own was accepted. -/
def verifiedBy (history : List (Instant × OtpOutcome)) (u : User) : User :=
  { u with emailVerified := u.emailVerified || history.any (·.2 = .verified u.id) }

theorem verifiedBy_append (history : List (Instant × OtpOutcome)) (e : Instant × OtpOutcome)
    (u : User) : verifiedBy (history ++ [e]) u = verifiedBy [e] (verifiedBy history u) := by
  simp only [verifiedBy, List.any_append, Bool.or_assoc]
  rfl

theorem verifiedBy_of_ne {outcome : OtpOutcome} (h : ∀ u, outcome ≠ .verified u) :
    users.map (verifiedBy [(now, outcome)]) = users := by
  refine (List.map_congr_left fun u _ => ?_).trans (List.map_id users)
  simp [verifiedBy, h u.id]

theorem users_effect {s t : OtpState} {outcome : OtpOutcome} (h : OtpEffect now s t outcome) :
    t.users = s.users.map (verifiedBy [(now, outcome)]) := by
  cases h with
  | idle outcome nothing =>
    rcases nothing with rfl | rfl | rfl <;>
      exact (verifiedBy_of_ne fun u hu => (by cases hu)).symm
  | limited u spent => exact (verifiedBy_of_ne fun u hu => (by cases hu)).symm
  | mailed u code nonempty ascii left => exact (verifiedBy_of_ne fun u hu => (by cases hu)).symm
  | verified userId =>
    refine List.map_congr_left fun u _ => ?_
    by_cases hu : u.id = userId
    · simp [verifiedBy, hu]
    · simp [verifiedBy, hu, Ne.symm hu]

theorem users_serveAll (db : Unicode.Database) (users : List User)
    (events : List (Instant × OtpRequest)) :
    ((OtpRun.start users).serveAll db events).state.users =
      users.map (verifiedBy ((OtpRun.start users).serveAll db events).history) := by
  induction events using List.reverseRecOn with
  | nil =>
    have hnil : verifiedBy [] = id := by
      funext u
      simp [verifiedBy]
    exact (congrArg (List.map · users) hnil).symm ▸ (List.map_id users).symm
  | append_singleton events e ih =>
    rw [OtpRun.serveAll, List.foldl_append, List.foldl_cons, List.foldl_nil]
    change (OtpRun.next db ((OtpRun.start users).serveAll db events) e).state.users = _
    rw [OtpRun.next, users_effect (serveOtp_effect db e.1 _ e.2), ih, List.map_map]
    exact List.map_congr_left fun u _ => (verifiedBy_append _ _ u).symm

theorem getByEmail_map (history : List (Instant × OtpOutcome)) (email : Text) :
    User.getByEmail db (users.map (verifiedBy history)) email =
      (User.getByEmail db users email).map (verifiedBy history) := by
  rw [User.getByEmail, List.find?_map]
  rfl

theorem compareDigest_eq_true {raw code : Text}
    (h : raw.all Unicode.Vietnamese.isAscii = true) :
    compareDigest raw code = some true ↔ raw = code := by
  unfold compareDigest
  rw [h, Bool.true_and]
  constructor
  · intro hsame
    split_ifs at hsame with hcode
    exact of_decide_eq_true (Option.some.inj hsame)
  · rintro rfl
    rw [if_pos h, decide_eq_true rfl]

theorem verifyEmailOtp_outcome (user : User) (code : Text) (now : Instant) (s : OtpState)
    (userId : Uuid) : (verifyEmailOtp user code now s).2 = .verified userId ↔ user.id = userId ∧
      ∃ raw, (Expiring.get s.keys.codes (emailOtpKey user.id) now).filter (!·.isEmpty) = some raw ∧
        compareDigest raw code = some true := by
  unfold verifyEmailOtp
  cases (Expiring.get s.keys.codes (emailOtpKey user.id) now).filter (!·.isEmpty) with
  | none => simp
  | some raw =>
    cases hdigest : compareDigest raw code with
    | none => simp [hdigest]
    | some same =>
      cases same with
      | false => simp [hdigest]
      | true => simp [hdigest]

/-- A code is accepted when it is the one mailed last and its time has not passed. -/
theorem verifyEmailOtp_iff {s : OtpState} {user : User} {o : Otp} {w : Option (Instant × ℕ)}
    (h : OtpSound user.id s o w now) (code : Text) (userId : Uuid) :
    (verifyEmailOtp user code now s).2 = .verified userId ↔ user.id = userId ∧
      ∃ sent, o.mail = some (code, sent) ∧ now < sent + emailOtpTtlSeconds := by
  rw [verifyEmailOtp_outcome, Expiring.get_eq_peek, h.code now le_rfl]
  refine and_congr_right fun _ => ?_
  cases hmail : o.mail with
  | none => simp
  | some m =>
    obtain ⟨raw, sent⟩ := m
    obtain ⟨hnonempty, hascii⟩ := h.text _ hmail
    rw [Option.filter_some]
    by_cases hlive : now < sent + emailOtpTtlSeconds
    · simp [hlive, hnonempty, compareDigest_eq_true hascii]
    · simp only [hlive, decide_false, Bool.false_eq_true, if_false, Option.map_none,
        Option.filter_none, reduceCtorEq, false_and, exists_false, Option.some.injEq,
        Prod.mk.injEq, false_iff, not_exists]
      rintro t ⟨⟨-, rfl⟩, ht⟩
      exact hlive ht

/-- After any requests on any accounts, a code is accepted exactly when it is the one mailed last
to the account, less than its time to live ago and not used since; and the accounts are the ones
of the start, verified by the codes that were accepted. -/
theorem otp_accepts_last_mail (db : Unicode.Database) (users : List User)
    (events : List (Instant × OtpRequest)) (now : Instant)
    (hclock : (events.map Prod.fst ++ [now]).Pairwise (· ≤ ·)) :
    (∀ email code userId,
      (serveOtp db now ((OtpRun.start users).serveAll db events).state (.confirm email code)).2 =
          .verified userId ↔
        (User.getByEmail db users (Unicode.lower db email)).map (·.id) = some userId ∧
          ∃ sent, (otpOf userId ((OtpRun.start users).serveAll db events).history).mail =
            some (code, sent) ∧ now < sent + emailOtpTtlSeconds) ∧
    ((OtpRun.start users).serveAll db events).state.users =
      users.map (verifiedBy ((OtpRun.start users).serveAll db events).history) := by
  refine ⟨fun email code userId => ?_, users_serveAll db users events⟩
  have haccount := @getByEmail_map db users
    ((OtpRun.start users).serveAll db events).history (Unicode.lower db email)
  rw [← users_serveAll] at haccount
  cases hfound : User.getByEmail db users (Unicode.lower db email) with
  | none =>
    rw [hfound, Option.map_none] at haccount
    simp [serveOtp, haccount]
  | some user =>
    rw [hfound, Option.map_some] at haccount
    have hsound := sound_serveAll db
      (verifiedBy ((OtpRun.start users).serveAll db events).history user).id users hclock
    simp only [serveOtp, haccount, Option.map_some, Option.some.injEq]
    refine (verifyEmailOtp_iff hsound.state code userId).trans ?_
    exact and_congr_right fun hid => hid ▸ Iff.rfl

/-- An account, and a first code for it at noon. -/
def an : User := ⟨1, some "an@qiki.vn", none, none, false, true⟩

def firstCode : List (Instant × OtpRequest) := [(43200, .send "An@qiki.vn" 42)]

theorem otp_accepts_an :
    (serveOtp Unicode.Vietnamese.database 43500 ((OtpRun.start [an]).serveAll
      Unicode.Vietnamese.database firstCode).state (.confirm "an@qiki.vn" "000042")).2 =
        .verified 1 := by
  have haccept := (otp_accepts_last_mail Unicode.Vietnamese.database [an] firstCode 43500
    (by decide +kernel)).1 "an@qiki.vn" "000042" 1
  exact haccept.mpr ⟨by decide +kernel, 43200, by decide +kernel, by decide +kernel⟩

/-! The limit on mails. -/

/-- When mails went out to an account. -/
def mailsTo (userId : Uuid) (history : List (Instant × OtpOutcome)) : List Instant :=
  history.filterMap fun e =>
    match e.2 with
    | .mailed u _ => if u = userId then some e.1 else none
    | _ => none

/-- When a mail to an account was asked for. -/
def hitsOn (userId : Uuid) (history : List (Instant × OtpOutcome)) : List Instant :=
  history.filterMap fun e =>
    match e.2 with
    | .mailed u _ | .limited u => if u = userId then some e.1 else none
    | _ => none

/-- Without a confirmation, the mails are the requests that the window lets through. -/
theorem mailsTo_eq_admitted {w : Option (Instant × ℕ)} {history : List (Instant × OtpOutcome)}
    (h : Limited userId w history) (hopen : ∀ e ∈ history, e.2 ≠ .verified userId) :
    mailsTo userId history = FixedWindow.admitted emailOtpResendTtlSeconds emailOtpResendLimit w
      (hitsOn userId history) := by
  induction history generalizing w with
  | nil => rfl
  | cons e history ih =>
    obtain ⟨t, outcome⟩ := e
    obtain ⟨⟨hmailed, hlimited⟩, hrest⟩ := h
    have hih := ih hrest fun e he => hopen e (List.mem_cons_of_mem _ he)
    have hother (h₁ : mailsTo userId ((t, outcome) :: history) = mailsTo userId history)
        (h₂ : hitsOn userId ((t, outcome) :: history) = hitsOn userId history)
        (h₃ : windowAfter userId w t outcome = w) :
        mailsTo userId ((t, outcome) :: history) = FixedWindow.admitted emailOtpResendTtlSeconds
          emailOtpResendLimit w (hitsOn userId ((t, outcome) :: history)) := by
      rw [h₁, h₂, hih, h₃]
    cases outcome with
    | mailed u code =>
      by_cases hu : u = userId
      · subst hu
        have hmails : mailsTo u ((t, .mailed u code) :: history) = t :: mailsTo u history := by
          simp [mailsTo]
        have hhits : hitsOn u ((t, .mailed u code) :: history) = t :: hitsOn u history := by
          simp [hitsOn]
        rw [hmails, hhits, FixedWindow.admitted, if_pos (hmailed code rfl), hih, windowAfter,
          if_pos rfl]
      · exact hother (by simp [mailsTo, hu]) (by simp [hitsOn, hu]) (if_neg hu)
    | limited u =>
      by_cases hu : u = userId
      · subst hu
        have hhits : hitsOn u ((t, .limited u) :: history) = t :: hitsOn u history := by
          simp [hitsOn]
        have hmails : mailsTo u ((t, .limited u) :: history) = mailsTo u history := rfl
        rw [hmails, hhits, FixedWindow.admitted, if_neg (Nat.not_le.mpr (hlimited rfl)), hih,
          windowAfter, if_pos rfl]
      · exact hother rfl (by simp [hitsOn, hu]) (if_neg hu)
    | noAccount => exact hother rfl rfl rfl
    | verified u =>
      have hu : u ≠ userId := fun hu => hopen _ List.mem_cons_self (hu ▸ rfl)
      exact hother rfl rfl (if_neg hu)
    | refused => exact hother rfl rfl rfl
    | typeError => exact hother rfl rfl rfl

theorem mem_hitsOn {history : List (Instant × OtpOutcome)} {t : Instant}
    (h : t ∈ hitsOn userId history) : ∃ e ∈ history, e.1 = t := by
  obtain ⟨e, he, ht⟩ := List.mem_filterMap.mp h
  refine ⟨e, he, ?_⟩
  split at ht
  · split_ifs at ht
    exact Option.some.inj ht
  · split_ifs at ht
    exact Option.some.inj ht
  · cases ht

/-- No stretch of one window's length sees more than twice the limit of mails to an account that
confirms no code in it; and a mail is held back only when the limit went out within that time. -/
theorem otp_mail_rate (db : Unicode.Database) (users : List User)
    (events : List (Instant × OtpRequest)) (now : Instant)
    (hclock : (events.map Prod.fst ++ [now]).Pairwise (· ≤ ·)) (userId : Uuid) :
    (∀ before during after a,
      ((OtpRun.start users).serveAll db events).history = before ++ during ++ after →
      (∀ e ∈ during, a ≤ e.1 ∧ e.1 < a + emailOtpResendTtlSeconds) →
      (∀ e ∈ during, e.2 ≠ .verified userId) →
      (mailsTo userId during).length ≤ 2 * emailOtpResendLimit) ∧
    ∀ email draw,
      (serveOtp db now ((OtpRun.start users).serveAll db events).state (.send email draw)).2 =
        .limited userId →
      emailOtpResendLimit ≤ (otpOf userId ((OtpRun.start users).serveAll db events).history).mails.countP
        (now < · + emailOtpResendTtlSeconds) := by
  have hsound := sound_serveAll db userId users hclock
  refine ⟨fun before during after a hsplit htimes hopen => ?_, fun email draw hlimited => ?_⟩
  · have hlimited := hsound.limited
    rw [hsplit, limited_append, limited_append] at hlimited
    rw [mailsTo_eq_admitted hlimited.1.2 hopen]
    refine (FixedWindow.admitted_le (a := a) fun t ht => ?_).trans ?_
    · obtain ⟨e, he, rfl⟩ := mem_hitsOn ht
      exact htimes e he
    · omega
  · have hlast := hsound.state.limited
      (serveOtp_effect db now ((OtpRun.start users).serveAll db events).state (.send email draw))
    exact hsound.state.counted.refused (by decide) (hlast.1.2 hlimited)

/-- Five codes within a minute, and the sixth is held back. -/
theorem otp_mail_rate_an :
    5 ≤ (otpOf 1 ((OtpRun.start [an]).serveAll Unicode.Vietnamese.database
      (firstCode ++ firstCode ++ firstCode ++ firstCode ++ firstCode)).history).mails.countP
        (43260 < · + emailOtpResendTtlSeconds) := by
  have hrate := otp_mail_rate Unicode.Vietnamese.database [an]
    (firstCode ++ firstCode ++ firstCode ++ firstCode ++ firstCode) 43260 (by decide +kernel) 1
  exact hrate.2 "an@qiki.vn" 7 (by decide +kernel)

end

end Qiki.Auth
