import Qiki.PriceAlerts.Subscriptions
import Qiki.Text.Vietnamese

/-! Consent: who is mailed about prices has confirmed the address and not unsubscribed it since. -/
namespace Qiki.PriceAlerts

section
variable {frontendUrl : Text} {db : Unicode.Database} {s : Store} {request : Request}
  {r row : PriceSubscription} {requests : List Request}

/-- What one request does to the table. -/
theorem apply_rows (hsingle : (s.rows.map PriceSubscription.unsubscribeToken).Nodup) :
    let t := request.apply frontendUrl db s
    (t.rows = s.rows ∧ t.nextId = s.nextId ∧ ∀ now, ∀ r ∈ s.rows,
      request = .unsubscribe r.unsubscribeToken now → r.active = false) ∨
    (∃ call, request = .subscribe call ∧ t.rows = s.rows ++ [newSubscription db call s.nextId] ∧
      t.nextId = s.nextId + 1 ∧ violatesIndex s.rows (newSubscription db call s.nextId) = false) ∨
    (∃ now, ∃ r ∈ s.rows, request = .confirm r.confirmToken now ∧ r.active = true ∧
      (∀ expiry, r.confirmExpiresAt = some expiry → now < expiry) ∧ t.nextId = s.nextId ∧
      t.rows = Table.modify PriceSubscription.id r.id
        (fun r => { r with confirmed := true, confirmedAt := some now }) s.rows) ∨
    (∃ now, ∃ r ∈ s.rows, request = .unsubscribe r.unsubscribeToken now ∧ r.active = true ∧
      t.nextId = s.nextId ∧ t.rows = Table.modify PriceSubscription.id r.id
        (fun r => { r with unsubscribedAt := some now }) s.rows) := by
  cases request with
  | notifyPriceChange priceRows delivered => exact .inl ⟨rfl, rfl, fun _ _ _ h => by cases h⟩
  | subscribe call =>
    dsimp only [Request.apply, subscribe]
    split
    · split_ifs <;> exact .inl ⟨rfl, rfl, fun _ _ _ h => by cases h⟩
    · split_ifs with hlong hviolates
      · exact .inl ⟨rfl, rfl, fun _ _ _ h => by cases h⟩
      · exact .inl ⟨rfl, rfl, fun _ _ _ h => by cases h⟩
      · exact .inr (.inl ⟨call, rfl, rfl, rfl, by simpa using hviolates⟩)
  | confirm token now =>
    dsimp only [Request.apply, confirm]
    split
    · exact .inl ⟨rfl, rfl, fun _ _ _ h => by cases h⟩
    case h_2 r hfound =>
      have htoken : r.confirmToken = token := by simpa using List.find?_some hfound
      split_ifs with hinactive hconfirmed hexpired
      · exact .inl ⟨rfl, rfl, fun _ _ _ h => by cases h⟩
      · exact .inl ⟨rfl, rfl, fun _ _ _ h => by cases h⟩
      · exact .inl ⟨rfl, rfl, fun _ _ _ h => by cases h⟩
      · refine .inr (.inr (.inl ⟨now, r, List.mem_of_find?_eq_some hfound, by rw [htoken],
          by simpa using hinactive, ?_, rfl, by simp [markConfirmed, hconfirmed]⟩))
        intro expiry hexpiry
        rw [hexpiry] at hexpired
        simpa using hexpired
  | unsubscribe token now =>
    dsimp only [Request.apply, unsubscribe]
    split
    case h_1 hnone =>
      refine .inl ⟨rfl, rfl, fun _ r hr h => ?_⟩
      have hne : ¬ r.unsubscribeToken = token := by simpa using List.find?_eq_none.mp hnone r hr
      exact absurd (Request.unsubscribe.inj h).1.symm hne
    case h_2 r hfound =>
      have hr : r ∈ s.rows := List.mem_of_find?_eq_some hfound
      have htoken : r.unsubscribeToken = token := by simpa using List.find?_some hfound
      by_cases hactive : r.active = true
      · have hnull : r.unsubscribedAt.isNone = true := hactive
        exact .inr (.inr (.inr ⟨now, r, hr, by rw [htoken], hactive, rfl,
          by simp [markUnsubscribed, hnull]⟩))
      · have hnull : ¬ r.unsubscribedAt.isNone = true := hactive
        refine .inl ⟨by simp [markUnsubscribed, hnull], rfl, fun _ row hrow h => ?_⟩
        have hsame : row.unsubscribeToken = r.unsubscribeToken :=
          (Request.unsubscribe.inj h).1.symm.trans htoken.symm
        rw [List.inj_on_of_nodup_map hsingle hrow hr hsame]
        simpa using hactive

end

section
variable (frontendUrl : Text) (db : Unicode.Database) (requests : List Request)
  (r : PriceSubscription)

/-- A confirm request with the row's token came while the row was active and before its expiry,
and no unsubscribe request with its token after that. -/
def OptedIn : Prop :=
  ∃ before now after, requests = before ++ .confirm r.confirmToken now :: after ∧
    (∃ pending ∈ (served frontendUrl db before).rows, pending.id = r.id ∧
      pending.active = true) ∧
    (∃ expiry, r.confirmExpiresAt = some expiry ∧ now < expiry) ∧
    ∀ unsubscribedAt, Request.unsubscribe r.unsubscribeToken unsubscribedAt ∉ after

/-- What the requests so far say about a row. -/
structure Recorded : Prop where
  subscribed : ∃ call, .subscribe call ∈ requests ∧ r.confirmToken = call.confirmToken ∧
    r.unsubscribeToken = call.unsubscribeToken ∧ r.email = normalizeEmail db call.email ∧
    r.confirmExpiresAt = some (call.now + confirmTokenTtl)
  optedIn : r.confirmed = true → r.active = true → OptedIn frontendUrl db requests r

/-- The table after the requests: the primary key, the unique indexes, and each row's record. -/
structure Consistent (s : Store) : Prop where
  ids : (s.rows.map PriceSubscription.id).Nodup
  fresh : ∀ r ∈ s.rows, r.id < s.nextId
  unsubscribeTokens : (s.rows.map PriceSubscription.unsubscribeToken).Nodup
  activeEmails : ((s.rows.filter PriceSubscription.active).map PriceSubscription.email).Nodup
  recorded : ∀ r ∈ s.rows, Recorded frontendUrl db requests r

end

section
variable {frontendUrl : Text} {db : Unicode.Database} {s : Store} {request : Request}
  {r : PriceSubscription} {requests : List Request}

theorem served_append (requests later : List Request) :
    served frontendUrl db (requests ++ later) =
      later.foldl (Request.apply frontendUrl db) (served frontendUrl db requests) :=
  List.foldl_append

theorem OptedIn.append (h : OptedIn frontendUrl db requests r)
    (hrequest : ∀ now, request ≠ .unsubscribe r.unsubscribeToken now) :
    OptedIn frontendUrl db (requests ++ [request]) r := by
  obtain ⟨before, now, after, rfl, hpending, hexpiry, hafter⟩ := h
  refine ⟨before, now, after ++ [request], by simp, hpending, hexpiry, fun unsubscribedAt hmem => ?_⟩
  rcases List.mem_append.mp hmem with hmem | hmem
  · exact hafter unsubscribedAt hmem
  · exact hrequest unsubscribedAt (List.mem_singleton.mp hmem).symm

/-- A further request that does not unsubscribe the row leaves its record as it is. -/
theorem Recorded.append (h : Recorded frontendUrl db requests r)
    (hrequest : ∀ now, request = .unsubscribe r.unsubscribeToken now → r.active = false) :
    Recorded frontendUrl db (requests ++ [request]) r := by
  obtain ⟨call, hcall, hrow⟩ := h.subscribed
  constructor
  · exact ⟨call, List.mem_append_left _ hcall, hrow⟩
  · intro hconfirmed hactive
    apply (h.optedIn hconfirmed hactive).append
    intro now hunsubscribe
    have hinactive : r.active = false := hrequest now hunsubscribe
    rw [hactive] at hinactive
    cases hinactive

/-- A row that the indexes admit. -/
theorem violatesIndex_eq_false {rows : List PriceSubscription}
    (h : violatesIndex rows row = false) (hactive : row.active = true) :
    ∀ r ∈ rows, r.unsubscribeToken ≠ row.unsubscribeToken ∧
      (r.active = true → r.email ≠ row.email) := by
  intro r hr
  have hno := List.any_eq_false.mp h r hr
  simp only [hactive, Bool.and_true, Bool.or_eq_true, decide_eq_true_eq, Bool.and_eq_true,
    not_or, not_and] at hno
  exact ⟨hno.1.2, fun hr hemail => hno.2 hemail hr⟩

section Step
variable (h : Consistent frontendUrl db requests s)
include h

/-- A request that leaves the table as it is. -/
theorem Consistent.of_unchanged {t : Store} (hrows : t.rows = s.rows) (hnext : t.nextId = s.nextId)
    (hrequest : ∀ now, ∀ r ∈ s.rows, request = .unsubscribe r.unsubscribeToken now →
      r.active = false) : Consistent frontendUrl db (requests ++ [request]) t where
  ids := by rw [hrows]; exact h.ids
  fresh := by rw [hrows, hnext]; exact h.fresh
  unsubscribeTokens := by rw [hrows]; exact h.unsubscribeTokens
  activeEmails := by rw [hrows]; exact h.activeEmails
  recorded r hr := by
    rw [hrows] at hr
    exact (h.recorded r hr).append fun now => hrequest now r hr

/-- A new row is active, not confirmed, and alone with its tokens and its address. -/
theorem Consistent.of_subscribe {t : Store} {call : SubscribeCall}
    (hrows : t.rows = s.rows ++ [newSubscription db call s.nextId]) (hnext : t.nextId = s.nextId + 1)
    (hindex : violatesIndex s.rows (newSubscription db call s.nextId) = false) :
    Consistent frontendUrl db (requests ++ [.subscribe call]) t := by
  have hadmitted := violatesIndex_eq_false hindex rfl
  constructor
  · rw [hrows, List.map_append, List.nodup_append]
    refine ⟨h.ids, List.nodup_singleton _, ?_⟩
    rintro _ hid _ hnew rfl
    obtain ⟨r, hr, hid⟩ := List.mem_map.mp hid
    have hsame : r.id = s.nextId := hid.trans (List.mem_singleton.mp hnew)
    exact (h.fresh r hr).ne hsame
  · intro r hr
    rw [hrows] at hr
    rw [hnext]
    rcases List.mem_append.mp hr with hr | hr
    · exact (h.fresh r hr).trans (Nat.lt_succ_self _)
    · rw [List.mem_singleton.mp hr]
      exact Nat.lt_succ_self _
  · rw [hrows, List.map_append, List.nodup_append]
    refine ⟨h.unsubscribeTokens, List.nodup_singleton _, ?_⟩
    rintro _ htoken _ hnew rfl
    obtain ⟨r, hr, htoken⟩ := List.mem_map.mp htoken
    exact (hadmitted r hr).1 (htoken.trans (List.mem_singleton.mp hnew))
  · have hactive : (t.rows.filter PriceSubscription.active) =
        s.rows.filter PriceSubscription.active ++ [newSubscription db call s.nextId] := by
      rw [hrows, List.filter_append]
      rfl
    rw [hactive, List.map_append, List.nodup_append]
    refine ⟨h.activeEmails, List.nodup_singleton _, ?_⟩
    rintro _ hemail _ hnew rfl
    obtain ⟨r, hr, hemail⟩ := List.mem_map.mp hemail
    obtain ⟨hr, hractive⟩ := List.mem_filter.mp hr
    exact (hadmitted r hr).2 hractive (hemail.trans (List.mem_singleton.mp hnew))
  · intro r hr
    rw [hrows] at hr
    rcases List.mem_append.mp hr with hr | hr
    · exact (h.recorded r hr).append fun _ hrequest => nomatch hrequest
    · rw [List.mem_singleton.mp hr]
      constructor
      · exact ⟨call, List.mem_append_right _ (List.mem_singleton_self _), rfl, rfl, rfl, rfl⟩
      · intro hconfirmed
        cases hconfirmed

/-- What an update of one row keeps when it keeps the id, the tokens and the address and does not
activate the row. -/
theorem Consistent.of_modify {t : Store} {row : PriceSubscription}
    {f : PriceSubscription → PriceSubscription} (hnext : t.nextId = s.nextId)
    (hrows : t.rows = Table.modify PriceSubscription.id row.id f s.rows)
    (hid : ∀ r, (f r).id = r.id) (htoken : ∀ r, (f r).unsubscribeToken = r.unsubscribeToken)
    (hemail : ∀ r, (f r).email = r.email) (hactive : ∀ r, (f r).active = true → r.active = true)
    (hrecorded : ∀ r ∈ t.rows, Recorded frontendUrl db (requests ++ [request]) r) :
    Consistent frontendUrl db (requests ++ [request]) t := by
  refine ⟨?_, ?_, ?_, ?_, hrecorded⟩
  · rw [hrows, Table.map_modify fun r _ => hid r]
    exact h.ids
  · intro r hr
    rw [hrows] at hr
    obtain ⟨old, hold, rfl⟩ := Table.mem_modify.mp hr
    have hsame : (if old.id = row.id then f old else old).id = old.id := by
      split_ifs
      · exact hid old
      · rfl
    rw [hsame, hnext]
    exact h.fresh old hold
  · rw [hrows, Table.map_modify fun r _ => htoken r]
    exact h.unsubscribeTokens
  · rw [hrows]
    exact (Table.map_filter_modify_sublist hemail hactive).nodup h.activeEmails

end Step

/-- A row after an update that leaves its id is the updated row or another one. -/
theorem mem_modify_row {rows : List PriceSubscription} {row : PriceSubscription}
    {f : PriceSubscription → PriceSubscription} (hids : (rows.map PriceSubscription.id).Nodup)
    (hrow : row ∈ rows) (hr : r ∈ Table.modify PriceSubscription.id row.id f rows) :
    r = f row ∨ r ∈ rows := by
  obtain ⟨old, hold, rfl⟩ := Table.mem_modify.mp hr
  split_ifs with hid
  · have hsame : old = row := List.inj_on_of_nodup_map hids hold hrow hid
    rw [hsame]
    exact Or.inl rfl
  · exact Or.inr hold

theorem consistent_served (requests : List Request) :
    Consistent frontendUrl db requests (served frontendUrl db requests) := by
  induction requests using List.reverseRecOn with
  | nil =>
    constructor
    · exact List.nodup_nil
    · exact fun _ hr => nomatch hr
    · exact List.nodup_nil
    · exact List.nodup_nil
    · exact fun _ hr => nomatch hr
  | append_singleton requests request ih =>
    have hserved : served frontendUrl db (requests ++ [request]) =
        request.apply frontendUrl db (served frontendUrl db requests) := served_append _ _
    rw [hserved]
    rcases @apply_rows frontendUrl db _ request ih.unsubscribeTokens with ⟨hrows, hnext, hrequest⟩ |
      ⟨call, rfl, hrows, hnext, hindex⟩ | ⟨now, row, hrow, rfl, hactive, hexpiry, hnext, hrows⟩ |
      ⟨now, row, hrow, rfl, hactive, hnext, hrows⟩
    · exact ih.of_unchanged hrows hnext hrequest
    · exact ih.of_subscribe hrows hnext hindex
    · refine ih.of_modify hnext hrows (fun _ => rfl) (fun _ => rfl) (fun _ => rfl) (fun _ h => h)
        fun r hr => ?_
      rw [hrows] at hr
      rcases mem_modify_row ih.ids hrow hr with rfl | hr
      · obtain ⟨call, hcall, htoken, hunsubscribe, hemail, hexpires⟩ := (ih.recorded row hrow).subscribed
        constructor
        · exact ⟨call, List.mem_append_left _ hcall, htoken, hunsubscribe, hemail, hexpires⟩
        · intro _ _
          -- this very request confirmed the row
          exact ⟨requests, now, [], rfl, ⟨row, hrow, rfl, hactive⟩,
            ⟨_, hexpires, hexpiry _ hexpires⟩, fun _ hmem => nomatch hmem⟩
      · exact (ih.recorded r hr).append fun _ h => nomatch h
    · refine ih.of_modify hnext hrows (fun _ => rfl) (fun _ => rfl) (fun _ => rfl)
        (fun _ h => nomatch h) fun r hr => ?_
      rw [hrows] at hr
      obtain ⟨old, hold, rfl⟩ := Table.mem_modify.mp hr
      split_ifs with hid
      · obtain ⟨call, hcall, hcolumns⟩ := (ih.recorded old hold).subscribed
        constructor
        · exact ⟨call, List.mem_append_left _ hcall, hcolumns⟩
        · intro _ h
          cases h
      · apply (ih.recorded old hold).append
        intro _ hsame
        -- the token is the one of the updated row only
        have hrowOld : row = old := List.inj_on_of_nodup_map ih.unsubscribeTokens hrow hold
          (Request.unsubscribe.inj hsame).1
        exact absurd (congrArg PriceSubscription.id hrowOld.symm) hid

/-- The mails that a request sends. -/
theorem apply_outbox (s : Store) (request : Request) :
    ∃ mails, (request.apply frontendUrl db s).outbox = s.outbox ++ mails ∧
      ∀ mail ∈ mails, (∃ email link unlink, mail = .confirmation email link unlink) ∨
        ∃ priceRows delivered, request = .notifyPriceChange priceRows delivered ∧
          ∃ r ∈ s.rows, r.confirmed = true ∧ r.active = true ∧
            mail = notification frontendUrl priceRows r := by
  cases request with
  | subscribe call =>
    have hone (t : Store) (email confirmToken unsubscribeToken : Text) :
        ∀ mail ∈ [Mail.confirmation email (confirmUrl frontendUrl confirmToken)
          (unsubscribeUrl frontendUrl unsubscribeToken)],
          ∃ email link unlink, mail = .confirmation email link unlink := by
      intro mail hmail
      exact ⟨_, _, _, List.mem_singleton.mp hmail⟩
    dsimp only [Request.apply, subscribe]
    split
    · split_ifs
      · exact ⟨[], (List.append_nil _).symm, fun _ hmail => nomatch hmail⟩
      · exact ⟨_, rfl, fun mail hmail => Or.inl (hone s _ _ _ mail hmail)⟩
    · split_ifs
      · exact ⟨[], (List.append_nil _).symm, fun _ hmail => nomatch hmail⟩
      · exact ⟨[], (List.append_nil _).symm, fun _ hmail => nomatch hmail⟩
      · exact ⟨_, rfl, fun mail hmail => Or.inl (hone s _ _ _ mail hmail)⟩
  | confirm token now =>
    refine ⟨[], ?_, fun _ hmail => nomatch hmail⟩
    dsimp only [Request.apply, confirm]
    rw [List.append_nil]
    split
    · rfl
    · split_ifs <;> rfl
  | unsubscribe token now =>
    refine ⟨[], ?_, fun _ hmail => nomatch hmail⟩
    dsimp only [Request.apply, unsubscribe]
    rw [List.append_nil]
    split <;> rfl
  | notifyPriceChange priceRows delivered =>
    refine ⟨_, rfl, fun mail hmail => Or.inr ⟨priceRows, delivered, rfl, ?_⟩⟩
    obtain ⟨r, hr, rfl⟩ := List.mem_map.mp hmail
    have hrecipient : r ∈ s.rows.filter fun r => r.confirmed && r.active :=
      (List.mem_insertionSort _).mp hr
    obtain ⟨hr, hboth⟩ := List.mem_filter.mp hrecipient
    obtain ⟨hconfirmed, hactive⟩ := Bool.and_eq_true_iff.mp hboth
    exact ⟨r, hr, hconfirmed, hactive, rfl⟩

/-- Every notification in the outbox went, at its time, to a confirmed and active row. -/
theorem notification_sent {email link : Text} {priceRows : List (Text × Text)}
    (h : Mail.notification email priceRows link ∈ (served frontendUrl db requests).outbox) :
    ∃ before delivered after, requests = before ++ .notifyPriceChange priceRows delivered :: after ∧
      ∃ r ∈ (served frontendUrl db before).rows, r.confirmed = true ∧ r.active = true ∧
        email = r.email ∧ link = unsubscribeUrl frontendUrl r.unsubscribeToken := by
  induction requests using List.reverseRecOn with
  | nil => exact nomatch h
  | append_singleton requests request ih =>
    have hserved : served frontendUrl db (requests ++ [request]) =
        request.apply frontendUrl db (served frontendUrl db requests) := served_append _ _
    obtain ⟨mails, hmails, hsent⟩ := @apply_outbox frontendUrl db
      (served frontendUrl db requests) request
    rw [hserved, hmails] at h
    rcases List.mem_append.mp h with h | h
    · obtain ⟨before, delivered, after, rfl, hr⟩ := ih h
      exact ⟨before, delivered, after ++ [request], by simp, hr⟩
    · rcases hsent _ h with ⟨_, _, _, hconfirmation⟩ |
        ⟨_, delivered, hrequest, r, hr, hconfirmed, hactive, hmail⟩
      · cases hconfirmation
      · obtain ⟨hemail, hrows, hlink⟩ := Mail.notification.inj hmail
        subst hrows hrequest
        exact ⟨requests, delivered, [], rfl, r, hr, hconfirmed, hactive, hemail, hlink⟩

/-- Generated tokens that are pairwise distinct: no confirm token is an unsubscribe token. -/
theorem tokens_disjoint (hfresh : (requests.flatMap Request.tokens).Nodup) {a b : SubscribeCall}
    (ha : .subscribe a ∈ requests) (hb : .subscribe b ∈ requests) :
    a.confirmToken ≠ b.unsubscribeToken := by
  intro hsame
  obtain ⟨heach, hpairs⟩ := List.nodup_flatMap.mp hfresh
  by_cases hab : Request.subscribe a = .subscribe b
  · have hnodup : [a.confirmToken, a.unsubscribeToken].Nodup := heach _ ha
    have hdistinct : a.confirmToken ≠ a.unsubscribeToken := by simpa using hnodup
    obtain rfl := Request.subscribe.inj hab
    exact hdistinct hsame
  · have hsymm : Std.Symm (Function.onFun List.Disjoint Request.tokens) :=
      ⟨fun _ _ h => List.Disjoint.symm h⟩
    have hdisjoint : List.Disjoint [a.confirmToken, a.unsubscribeToken]
        [b.confirmToken, b.unsubscribeToken] := hpairs.forall ha hb hab
    exact hdisjoint (List.mem_cons_self ..) (by rw [hsame]; simp)

/-- An unsubscribed row is never written again. -/
theorem unsubscribed_stays {row : PriceSubscription} (later : List Request)
    (hrow : row ∈ (served frontendUrl db requests).rows) (hinactive : row.active = false) :
    row ∈ (served frontendUrl db (requests ++ later)).rows := by
  induction later using List.reverseRecOn with
  | nil => rwa [List.append_nil]
  | append_singleton later request ih =>
    have hbefore := @consistent_served frontendUrl db (requests ++ later)
    have hserved : served frontendUrl db (requests ++ (later ++ [request])) =
        request.apply frontendUrl db (served frontendUrl db (requests ++ later)) := by
      rw [← List.append_assoc, served_append (requests ++ later) [request]]
      rfl
    have hother {changed : PriceSubscription}
        (hchanged : changed ∈ (served frontendUrl db (requests ++ later)).rows)
        (hactive : changed.active = true) : row.id ≠ changed.id := by
      intro hid
      rw [List.inj_on_of_nodup_map hbefore.ids ih hchanged hid, hactive] at hinactive
      cases hinactive
    rw [hserved]
    rcases @apply_rows frontendUrl db _ request hbefore.unsubscribeTokens with ⟨hrows, -⟩ |
      ⟨call, -, hrows, -⟩ | ⟨now, changed, hchanged, -, hactive, -, -, hrows⟩ |
      ⟨now, changed, hchanged, -, hactive, -, hrows⟩
    · rw [hrows]
      exact ih
    · rw [hrows]
      exact List.mem_append_left _ ih
    · rw [hrows]
      exact Table.mem_modify.mpr ⟨row, ih, if_neg (hother hchanged hactive)⟩
    · rw [hrows]
      exact Table.mem_modify.mpr ⟨row, ih, if_neg (hother hchanged hactive)⟩

/-- A token of no row confirms nothing and unsubscribes nothing. -/
theorem confirm_of_not_mem {token : Text} (h : ∀ r ∈ s.rows, r.confirmToken ≠ token)
    (now : Instant) : confirm token now s = (.invalid, s) := by
  have hnone : getByConfirmToken s.rows token = none := by
    apply List.find?_eq_none.mpr
    intro r hr
    simpa using h r hr
  unfold confirm
  rw [hnone]

theorem unsubscribe_of_not_mem {token : Text} (h : ∀ r ∈ s.rows, r.unsubscribeToken ≠ token)
    (now : Instant) : unsubscribe token now s = (false, s) := by
  have hnone : getByUnsubscribeToken s.rows token = none := by
    apply List.find?_eq_none.mpr
    intro r hr
    simpa using h r hr
  unfold unsubscribe
  rw [hnone]

end

/-- Mails about prices go to confirmed addresses that have not unsubscribed since; each address has
at most one active row, confirm and unsubscribe tokens do nothing for each other, and what is
unsubscribed stays so. -/
theorem double_opt_in (frontendUrl : Text) (db : Unicode.Database) {requests : List Request}
    (hfresh : (requests.flatMap Request.tokens).Nodup) :
    (∀ email priceRows link,
      Mail.notification email priceRows link ∈ (served frontendUrl db requests).outbox →
      ∃ before delivered after,
        requests = before ++ .notifyPriceChange priceRows delivered :: after ∧
        ∃ r ∈ (served frontendUrl db before).rows, r.email = email ∧ r.active = true ∧
          link = unsubscribeUrl frontendUrl r.unsubscribeToken ∧
          OptedIn frontendUrl db before r) ∧
    (((served frontendUrl db requests).rows.filter PriceSubscription.active).map
      PriceSubscription.email).Nodup ∧
    (∀ call now, .subscribe call ∈ requests →
      unsubscribe call.confirmToken now (served frontendUrl db requests) =
        (false, served frontendUrl db requests) ∧
      confirm call.unsubscribeToken now (served frontendUrl db requests) =
        (.invalid, served frontendUrl db requests)) ∧
    ∀ row ∈ (served frontendUrl db requests).rows, row.active = false →
      ∀ later, ∀ r ∈ (served frontendUrl db (requests ++ later)).rows, r.id = row.id →
        r.active = false := by
  have hconsistent := @consistent_served frontendUrl db requests
  refine ⟨?_, hconsistent.activeEmails, ?_, ?_⟩
  · intro email priceRows link hmail
    obtain ⟨before, delivered, after, hrequests, r, hr, hconfirmed, hactive, rfl, rfl⟩ :=
      notification_sent hmail
    have hrecorded := (@consistent_served frontendUrl db before).recorded r hr
    exact ⟨before, delivered, after, hrequests, r, hr, rfl, hactive, rfl,
      hrecorded.optedIn hconfirmed hactive⟩
  · intro call now hcall
    constructor
    · apply unsubscribe_of_not_mem
      intro r hr hsame
      obtain ⟨other, hother, -, htoken, -⟩ := (hconsistent.recorded r hr).subscribed
      exact tokens_disjoint hfresh hcall hother (hsame.symm.trans htoken)
    · apply confirm_of_not_mem
      intro r hr hsame
      obtain ⟨other, hother, htoken, -⟩ := (hconsistent.recorded r hr).subscribed
      exact tokens_disjoint hfresh hother hcall (htoken.symm.trans hsame)
  · intro row hrow hinactive later r hr hid
    have hrowLater := unsubscribed_stays later hrow hinactive
    rw [List.inj_on_of_nodup_map (consistent_served (requests ++ later)).ids hr hrowLater hid]
    exact hinactive

/-- An address is subscribed, confirmed and mailed. -/
def confirmedAddress : List Request :=
  [.subscribe ⟨" Lan@Qiki.vn", none, "c1", "u1", 0, false⟩, .confirm "c1" 3600000000,
    .notifyPriceChange [] fun _ => true]

theorem double_opt_in_confirmedAddress :
    ∃ before, ∃ r ∈ (served [] Unicode.Vietnamese.database before).rows, r.email = "lan@qiki.vn" ∧
      OptedIn [] Unicode.Vietnamese.database before r := by
  have hmail : Mail.notification "lan@qiki.vn" [] (unsubscribeUrl [] "u1") ∈
      (served [] Unicode.Vietnamese.database confirmedAddress).outbox := by decide
  have hconsent := (double_opt_in [] Unicode.Vietnamese.database
    (show (confirmedAddress.flatMap Request.tokens).Nodup by decide)).1
  obtain ⟨before, -, -, -, r, hr, hemail, -, -, hopted⟩ := hconsent _ _ _ hmail
  exact ⟨before, r, hr, hemail, hopted⟩

end Qiki.PriceAlerts
