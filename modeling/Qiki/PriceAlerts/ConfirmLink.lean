import Qiki.PriceAlerts.DoubleOptIn

/-! The link that `subscribe` mails, and for how long it confirms. -/
namespace Qiki.PriceAlerts

section
variable (frontendUrl : Text) (db : Unicode.Database) (requests : List Request)
  (call : SubscribeCall)

/-- The row that `subscribe` finds for its address. -/
def existingSubscription (s : Store) : Option PriceSubscription :=
  if call.lookedUpEarly then none else getActiveByEmail s.rows (normalizeEmail db call.email)

def confirmationMail (token unsubscribeToken : Text) : Mail :=
  .confirmation (normalizeEmail db call.email) (confirmUrl frontendUrl token)
    (unsubscribeUrl frontendUrl unsubscribeToken)

/-- The request sends this mail. -/
def Mails (token unsubscribeToken : Text) : Prop :=
  (served frontendUrl db (requests ++ [.subscribe call])).outbox =
    (served frontendUrl db requests).outbox ++
      [confirmationMail frontendUrl db call token unsubscribeToken]

/-- The link that the request mails confirms until `CONFIRM_TOKEN_TTL` is over, whatever requests
come in between, unless one of them unsubscribes with the other link of the mail. -/
def LinkWorks : Prop :=
  ∀ token unsubscribeToken, Mails frontendUrl db requests call token unsubscribeToken →
    ∀ later, (∀ unsubscribedAt, Request.unsubscribe unsubscribeToken unsubscribedAt ∉ later) →
      ∀ now, call.now ≤ now → now < call.now + confirmTokenTtl →
        (confirm token now (served frontendUrl db (requests ++ .subscribe call :: later))).1 =
          .confirmed

end

section
variable {frontendUrl : Text} {db : Unicode.Database} {s : Store} {request : Request}
  {r row : PriceSubscription} {requests : List Request} {call : SubscribeCall}

theorem confirmUrl_injective : (confirmUrl frontendUrl).Injective :=
  fun _ _ h => List.append_cancel_left h

theorem unsubscribeUrl_injective : (unsubscribeUrl frontendUrl).Injective :=
  fun _ _ h => List.append_cancel_left h

theorem served_concat (requests : List Request) (request : Request) :
    served frontendUrl db (requests ++ [request]) =
      request.apply frontendUrl db (served frontendUrl db requests) :=
  served_append requests [request]

/-- The index on confirm tokens. -/
theorem confirmTokens_nodup (requests : List Request) :
    ((served frontendUrl db requests).rows.map PriceSubscription.confirmToken).Nodup := by
  induction requests using List.reverseRecOn with
  | nil => exact List.nodup_nil
  | append_singleton requests request ih =>
    rw [served_concat]
    rcases @apply_rows frontendUrl db _ request (consistent_served requests).unsubscribeTokens with
      ⟨hrows, -⟩ | ⟨call, -, hrows, -, hindex⟩ | ⟨now, row, -, -, -, -, -, hrows⟩ |
      ⟨now, row, -, -, -, -, hrows⟩
    · rw [hrows]
      exact ih
    · rw [hrows, List.map_append, List.nodup_append]
      refine ⟨ih, List.nodup_singleton _, ?_⟩
      rintro _ htoken _ hnew rfl
      obtain ⟨r, hr, htoken⟩ := List.mem_map.mp htoken
      have hsame : r.confirmToken = call.confirmToken := htoken.trans (List.mem_singleton.mp hnew)
      have hno := List.any_eq_false.mp hindex r hr
      simp [hsame, newSubscription] at hno
    · rw [hrows, Table.map_modify]
      · exact ih
      · exact fun _ _ => rfl
    · rw [hrows, Table.map_modify]
      · exact ih
      · exact fun _ _ => rfl

/-- What one request leaves of an active row. -/
theorem active_apply (hr : r ∈ (served frontendUrl db requests).rows) (hactive : r.active = true)
    (hrequest : ∀ now, request ≠ .unsubscribe r.unsubscribeToken now) :
    ∃ kept ∈ (served frontendUrl db (requests ++ [request])).rows,
      kept.confirmToken = r.confirmToken ∧ kept.unsubscribeToken = r.unsubscribeToken ∧
      kept.active = true ∧ kept.confirmExpiresAt = r.confirmExpiresAt := by
  have hbefore := @consistent_served frontendUrl db requests
  rw [served_concat]
  rcases @apply_rows frontendUrl db _ request hbefore.unsubscribeTokens with
    ⟨hrows, -⟩ | ⟨call, -, hrows, -⟩ | ⟨now, row, hrow, rfl, -, -, -, hrows⟩ |
    ⟨now, row, hrow, rfl, -, -, hrows⟩
  · exact ⟨r, hrows ▸ hr, rfl, rfl, hactive, rfl⟩
  · exact ⟨r, hrows ▸ List.mem_append_left _ hr, rfl, rfl, hactive, rfl⟩
  · rw [hrows]
    by_cases hid : r.id = row.id
    · refine ⟨_, Table.mem_modify.mpr ⟨r, hr, rfl⟩, ?_⟩
      rw [if_pos hid]
      exact ⟨rfl, rfl, hactive, rfl⟩
    · exact ⟨r, Table.mem_modify.mpr ⟨r, hr, if_neg hid⟩, rfl, rfl, hactive, rfl⟩
  · rw [hrows]
    have hid : r.id ≠ row.id := by
      intro hid
      rw [List.inj_on_of_nodup_map hbefore.ids hr hrow hid] at hrequest
      exact hrequest now rfl
    exact ⟨r, Table.mem_modify.mpr ⟨r, hr, if_neg hid⟩, rfl, rfl, hactive, rfl⟩

/-- An active row stays with its tokens and its window until its own token unsubscribes it. -/
theorem active_served (hr : r ∈ (served frontendUrl db requests).rows) (hactive : r.active = true)
    (later : List Request)
    (hlater : ∀ now, Request.unsubscribe r.unsubscribeToken now ∉ later) :
    ∃ kept ∈ (served frontendUrl db (requests ++ later)).rows,
      kept.confirmToken = r.confirmToken ∧ kept.unsubscribeToken = r.unsubscribeToken ∧
      kept.active = true ∧ kept.confirmExpiresAt = r.confirmExpiresAt := by
  induction later using List.reverseRecOn with
  | nil =>
    rw [List.append_nil]
    exact ⟨r, hr, rfl, rfl, hactive, rfl⟩
  | append_singleton later request ih =>
    obtain ⟨old, hold, hconfirm, hunsubscribe, holdActive, hexpires⟩ :=
      ih fun now hmem => hlater now (List.mem_append_left _ hmem)
    have hrequest (now : Instant) : request ≠ .unsubscribe old.unsubscribeToken now := by
      rw [hunsubscribe]
      rintro rfl
      exact hlater now (List.mem_append_right _ (List.mem_singleton_self _))
    obtain ⟨kept, hkept, hconfirm', hunsubscribe', hkeptActive, hexpires'⟩ :=
      active_apply hold holdActive hrequest
    rw [← List.append_assoc]
    exact ⟨kept, hkept, hconfirm'.trans hconfirm, hunsubscribe'.trans hunsubscribe, hkeptActive,
      hexpires'.trans hexpires⟩

/-- The token of an active row confirms it, or confirms that it is, until its window closes. -/
theorem confirm_active (hr : r ∈ (served frontendUrl db requests).rows) (hactive : r.active = true)
    (now : Instant) : (confirm r.confirmToken now (served frontendUrl db requests)).1 = .confirmed ↔
      r.confirmed = true ∨ ∀ expiry, r.confirmExpiresAt = some expiry → now < expiry := by
  have hfound : getByConfirmToken (served frontendUrl db requests).rows r.confirmToken = some r := by
    cases hfind : getByConfirmToken (served frontendUrl db requests).rows r.confirmToken with
    | none =>
      have hno := List.find?_eq_none.mp hfind r hr
      simp at hno
    | some found =>
      have htoken : found.confirmToken = r.confirmToken := by simpa using List.find?_some hfind
      rw [List.inj_on_of_nodup_map (confirmTokens_nodup requests) (List.mem_of_find?_eq_some hfind)
        hr htoken]
  unfold confirm
  rw [hfound]
  cases hconfirmed : r.confirmed with
  | true => simp [hactive, hconfirmed]
  | false =>
    cases hexpires : r.confirmExpiresAt with
    | none => simp [hactive, hconfirmed, hexpires]
    | some expiry =>
      by_cases hlate : expiry ≤ now
      · simp [hactive, hconfirmed, hexpires, hlate]
      · simp [hactive, hconfirmed, hexpires, hlate, Nat.lt_of_not_le hlate]

theorem existing_mem {existing : PriceSubscription}
    (hexisting : existingSubscription db call s = some existing) : existing ∈ s.rows ∧
      existing.email = normalizeEmail db call.email ∧ existing.active = true := by
  unfold existingSubscription at hexisting
  split_ifs at hexisting
  have hmatch := List.find?_some hexisting
  simp only [Bool.and_eq_true, decide_eq_true_eq] at hmatch
  exact ⟨List.mem_of_find?_eq_some hexisting, hmatch⟩

/-- A pending row gets its link again. -/
theorem apply_existing {existing : PriceSubscription}
    (hexisting : existingSubscription db call s = some existing)
    (hpending : existing.confirmed = false) :
    Request.apply frontendUrl db s (.subscribe call) = { s with
      outbox := s.outbox ++ [confirmationMail frontendUrl db call existing.confirmToken
        existing.unsubscribeToken] } := by
  unfold existingSubscription at hexisting
  simp only [Request.apply, subscribe, hexisting, hpending]
  rfl

/-- Where no row is found, nothing happens or a new row gets its link. -/
theorem apply_new (hnone : existingSubscription db call s = none) :
    Request.apply frontendUrl db s (.subscribe call) = s ∨
      Request.apply frontendUrl db s (.subscribe call) = { s with
        rows := s.rows ++ [newSubscription db call s.nextId]
        nextId := s.nextId + 1
        outbox := s.outbox ++ [confirmationMail frontendUrl db call call.confirmToken
          call.unsubscribeToken] } := by
  unfold existingSubscription at hnone
  simp only [Request.apply, subscribe, hnone]
  split_ifs
  · exact .inl rfl
  · exact .inl rfl
  · exact .inr rfl

/-- The tokens of a mail are those of the row that was found, or of the row that was made. -/
theorem row_of_mails {token unsubscribeToken : Text}
    (hconsent : ∀ r ∈ (served frontendUrl db requests).rows,
      r.email = normalizeEmail db call.email → r.active = true → r.confirmed = false)
    (hmail : Mails frontendUrl db requests call token unsubscribeToken) :
    ∃ r ∈ (served frontendUrl db (requests ++ [.subscribe call])).rows, r.active = true ∧
      r.confirmToken = token ∧ r.unsubscribeToken = unsubscribeToken ∧
      (existingSubscription db call (served frontendUrl db requests) = some r ∨
        r.confirmExpiresAt = some (call.now + confirmTokenTtl)) := by
  have htokens {a b : Text} {outbox : List Mail}
      (h : outbox ++ [confirmationMail frontendUrl db call a b] =
        outbox ++ [confirmationMail frontendUrl db call token unsubscribeToken]) :
      a = token ∧ b = unsubscribeToken := by
    obtain ⟨-, hconfirm, hunsubscribe⟩ :=
      Mail.confirmation.inj (List.singleton_inj.mp (List.append_cancel_left h))
    exact ⟨confirmUrl_injective hconfirm, unsubscribeUrl_injective hunsubscribe⟩
  unfold Mails at hmail
  rw [served_concat] at hmail ⊢
  cases hfound : existingSubscription db call (served frontendUrl db requests) with
  | some existing =>
    obtain ⟨hexisting, hemail, hactive⟩ := existing_mem hfound
    have happly := @apply_existing frontendUrl db _ call existing hfound
      (hconsent existing hexisting hemail hactive)
    rw [happly] at hmail ⊢
    obtain ⟨hconfirm, hunsubscribe⟩ := htokens hmail
    exact ⟨existing, hexisting, hactive, hconfirm, hunsubscribe, .inl rfl⟩
  | none =>
    rcases @apply_new frontendUrl db _ call hfound with happly | happly
    · rw [happly] at hmail
      exact absurd (List.self_eq_append_right.mp hmail) (List.cons_ne_nil _ _)
    · rw [happly] at hmail ⊢
      obtain ⟨hconfirm, hunsubscribe⟩ := htokens hmail
      exact ⟨newSubscription db call _, List.mem_append_right _ (List.mem_singleton_self _), rfl,
        hconfirm, hunsubscribe, .inr rfl⟩

/-- The link works as long as promised exactly where no pending row is found whose window closes
earlier than that. -/
theorem linkWorks_iff (frontendUrl : Text) (db : Unicode.Database) (requests : List Request)
    (call : SubscribeCall)
    (hconsent : ∀ r ∈ (served frontendUrl db requests).rows,
      r.email = normalizeEmail db call.email → r.active = true → r.confirmed = false) :
    LinkWorks frontendUrl db requests call ↔
      ∀ existing expiry,
        existingSubscription db call (served frontendUrl db requests) = some existing →
        existing.confirmExpiresAt = some expiry → call.now + confirmTokenTtl ≤ expiry := by
  constructor
  · intro hworks existing expiry hfound hexpires
    obtain ⟨hexisting, hemail, hactive⟩ := existing_mem hfound
    have hpending : existing.confirmed = false := hconsent existing hexisting hemail hactive
    have happly := @apply_existing frontendUrl db _ call existing hfound hpending
    have hrows : (served frontendUrl db (requests ++ [.subscribe call])).rows =
        (served frontendUrl db requests).rows := by
      rw [served_concat, happly]
    have hmail : Mails frontendUrl db requests call existing.confirmToken
        existing.unsubscribeToken := by
      unfold Mails
      rw [served_concat, happly]
    by_contra hclosed
    have hopen : confirmTokenTtl > 0 := by decide
    -- the link is tried when the window has closed, or at once
    have hconfirm := hworks _ _ hmail [] (fun _ => List.not_mem_nil) (max expiry call.now)
      (le_max_right _ _) (max_lt (Nat.lt_of_not_le hclosed) (Nat.lt_add_of_pos_right hopen))
    rw [← hrows] at hexisting
    rcases (confirm_active hexisting hactive _).mp hconfirm with hconfirmed | hlate
    · rw [hpending] at hconfirmed
      cases hconfirmed
    · exact (hlate expiry hexpires).not_ge (le_max_left _ _)
  · intro hwindow token unsubscribeToken hmail later hlater now hnow hend
    obtain ⟨r, hr, hactive, rfl, rfl, hrow⟩ := row_of_mails hconsent hmail
    obtain ⟨kept, hkept, hconfirm, -, hkeptActive, hexpires⟩ := active_served hr hactive later hlater
    rw [List.append_assoc] at hkept
    rw [← hconfirm]
    refine (confirm_active hkept hkeptActive now).mpr (.inr fun expiry hexpiry => ?_)
    rw [hexpires] at hexpiry
    rcases hrow with hfound | hnew
    · exact hend.trans_le (hwindow r expiry hfound hexpiry)
    · rw [hnew] at hexpiry
      exact hend.trans_eq (Option.some.inj hexpiry)

/-- A request that is not overtaken, with new tokens and an address that fits, sends a link. -/
theorem subscribe_mails (hlookup : call.lookedUpEarly = false)
    (hfits : (normalizeEmail db call.email).length ≤ 255)
    (hconfirm : ∀ r ∈ (served frontendUrl db requests).rows, r.confirmToken ≠ call.confirmToken)
    (hunsubscribe : ∀ r ∈ (served frontendUrl db requests).rows,
      r.unsubscribeToken ≠ call.unsubscribeToken)
    (hconsent : ∀ r ∈ (served frontendUrl db requests).rows,
      r.email = normalizeEmail db call.email → r.active = true → r.confirmed = false) :
    ∃ token unsubscribeToken, Mails frontendUrl db requests call token unsubscribeToken := by
  unfold Mails
  rw [served_concat]
  cases hfound : existingSubscription db call (served frontendUrl db requests) with
  | some existing =>
    obtain ⟨hexisting, hemail, hactive⟩ := existing_mem hfound
    rw [apply_existing hfound (hconsent existing hexisting hemail hactive)]
    exact ⟨_, _, rfl⟩
  | none =>
    unfold existingSubscription at hfound
    have hindex : violatesIndex (served frontendUrl db requests).rows
        (newSubscription db call (served frontendUrl db requests).nextId) = false := by
      apply List.any_eq_false.mpr
      intro r hr
      have hother : ¬ (r.email = normalizeEmail db call.email ∧ r.active = true) := by
        rw [hlookup] at hfound
        simpa using List.find?_eq_none.mp hfound r hr
      simp only [newSubscription, hconfirm r hr, hunsubscribe r hr, decide_false, Bool.false_or,
        Bool.and_eq_true]
      exact fun h => hother ⟨of_decide_eq_true h.1.1, h.1.2⟩
    simp only [Request.apply, subscribe, hfound, Nat.not_lt.mpr hfits, hindex]
    exact ⟨_, _, rfl⟩

end

/-- An address is subscribed, and subscribed again after ten days. -/
def lateSubscription : SubscribeCall := ⟨"lan@qiki.vn", none, "c2", "u2", 864000000000, false⟩

def earlySubscription : List Request := [.subscribe ⟨"lan@qiki.vn", none, "c1", "u1", 0, false⟩]

/-- The second mail holds the first link, which has expired. -/
theorem late_link_expired : ¬ LinkWorks [] Unicode.Vietnamese.database earlySubscription
    lateSubscription := by
  intro hworks
  have hmail : Mails [] Unicode.Vietnamese.database earlySubscription lateSubscription "c1" "u1" := by
    unfold Mails
    decide
  have hconfirm := hworks _ _ hmail [] (fun _ => List.not_mem_nil) 864000000000 (by decide)
    (by decide)
  exact absurd hconfirm (by decide)

/-- The address is subscribed twice at once. -/
def secondSubscription : SubscribeCall := ⟨"lan@qiki.vn", none, "c2", "u2", 0, false⟩

/-- The second mail holds the first link, whose window has just begun. -/
theorem early_link_works : LinkWorks [] Unicode.Vietnamese.database earlySubscription
    secondSubscription := by
  have hpending : ∀ r ∈ (served [] Unicode.Vietnamese.database earlySubscription).rows,
      r.confirmed = false := by decide
  have hwindow : (existingSubscription Unicode.Vietnamese.database secondSubscription
      (served [] Unicode.Vietnamese.database earlySubscription)).bind (·.confirmExpiresAt) =
        some confirmTokenTtl := by decide
  refine (linkWorks_iff [] Unicode.Vietnamese.database earlySubscription secondSubscription
    fun r hr _ _ => hpending r hr).mpr fun existing expiry hexisting hexpires => ?_
  rw [hexisting, Option.bind_some, hexpires] at hwindow
  rw [Option.some.inj hwindow]
  decide

end Qiki.PriceAlerts
