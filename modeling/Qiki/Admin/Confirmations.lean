import Qiki.Admin.Chat
import Qiki.Text.Vietnamese
import Qiki.Transition.Run

/-! Runs of admin-chat requests: what the confirmations change. -/
namespace Qiki.Admin

open Orders Transition

/-- A pending change in Redis. -/
structure Stored where
  token : Text
  pending : Pending
  expiresAt : Timestamp

/-- A confirmation that has claimed its token and has not run its transaction yet. -/
structure Claimed where
  token : Text
  pending : Pending
  admin : User
  confirmedAt : Timestamp

/-- A `confirm_required` reply. -/
structure Issued where
  token : Text
  pending : Pending
  issuedAt : Timestamp

/-- A change that a confirmation has committed. -/
structure Applied where
  token : Text
  adminId : Uuid
  productId : Uuid
  change : Change
  confirmedAt : Timestamp

/-- The service with its Redis, its tables and the history of replies and changes. -/
structure AdminChat where
  now : Timestamp
  catalog : List Product
  redis : List Stored := []
  minted : ℕ := 0
  inFlight : List Claimed := []
  audits : List AdminAuditLog := []
  issued : List Issued := []
  applied : List Applied := []

/-- Time passes, a request arrives, or a confirmation in flight runs its transaction. -/
inductive Step
  | wait (seconds : ℕ)
  | handle (request : AdminChatRequest) (admin : User)
  | finish (confirmation : ℕ) (databaseFails : Bool)

section Service
variable (db : Unicode.Database) (uuid4 : ℕ → Text)

/-- `_plan`: the reply to a recognised command carries a new token. -/
def AdminChat.plan (s : AdminChat) (message : Text) (admin : User) :
    AdminChatResponse × AdminChat :=
  match Admin.plan db s.catalog message with
  | .error response => (response, s)
  | .ok (product, parsed) =>
    let token := uuid4 s.minted
    let pending : Pending :=
      ⟨admin.id, product.id, parsed, (computeChange parsed product).1⟩
    ({ status := .confirmRequired
       reply := confirmPrompt parsed product
       pendingToken := some token
       action := some (buildPreview parsed product) },
      { s with
        minted := s.minted + 1
        redis := ⟨token, pending, s.now + pendingTtlSeconds⟩ ::
          s.redis.filter fun e => e.token ≠ token
        issued := s.issued ++ [⟨token, pending, s.now⟩] })

def expiredResponse : AdminChatResponse := { status := .expired, reply := expiredReply }

/-- The claim of `_execute_pending`: `GETDEL` and the check of the admin. There is no response
yet when the claim succeeds. -/
def AdminChat.claim (s : AdminChat) (token : Text) (admin : User) :
    Option AdminChatResponse × AdminChat :=
  let rest := s.redis.filter fun e => e.token ≠ token
  match s.redis.find? fun e => e.token = token ∧ s.now < e.expiresAt with
  | none => (some expiredResponse, { s with redis := rest })
  | some stored =>
    if stored.pending.adminId ≠ admin.id then (some expiredResponse, { s with redis := rest })
    else (none, { s with
      redis := rest
      inFlight := s.inFlight ++ [⟨token, stored.pending, admin, s.now⟩] })

def AdminChat.handle (s : AdminChat) (request : AdminChatRequest) (admin : User) :
    Option AdminChatResponse × AdminChat :=
  match request.confirm, request.pendingToken.filter fun token => !token.isEmpty with
  | true, some token => s.claim token admin
  | _, _ =>
    let (response, s) := s.plan db uuid4 request.message admin
    (some response, s)

/-- The transaction of a confirmation commits, or is rolled back without a response. -/
def AdminChat.finish (s : AdminChat) (confirmation : ℕ) (databaseFails : Bool) :
    Option AdminChatResponse × AdminChat :=
  match s.inFlight[confirmation]? with
  | none => (none, s)
  | some claimed =>
    let rest := s.inFlight.eraseIdx confirmation
    match databaseFails, executePending s.catalog claimed.admin claimed.pending with
    | false, .applied catalog audit response => (some response, { s with
        inFlight := rest
        catalog := catalog
        audits := s.audits ++ [audit]
        applied := s.applied ++ [⟨claimed.token, claimed.admin.id, claimed.pending.productId,
          claimed.pending.instruction.change, claimed.confirmedAt⟩] })
    | false, .replied response => (some response, { s with inFlight := rest })
    | _, _ => (none, { s with inFlight := rest })

def AdminChat.step (s : AdminChat) : Step → AdminChat
  | .wait seconds => { s with now := s.now + seconds }
  | .handle request admin => (s.handle db uuid4 request admin).2
  | .finish confirmation databaseFails => (s.finish confirmation databaseFails).2

/-- A service that starts with a catalog, after some steps. -/
def AdminChat.run (now : Timestamp) (catalog : List Product) (steps : List Step) : AdminChat :=
  steps.foldl (AdminChat.step db uuid4) { now := now, catalog := catalog }

end Service

/-- A change in the table. -/
def Applied.write (a : Applied) (catalog : List Product) : List Product :=
  Table.modify Product.id a.productId (fun p => assign p a.change) catalog

/-- The reply that a change was confirmed by: same token, admin, product, column and value,
and the confirmation came within the life of the reply. -/
structure ConfirmedBy (a : Applied) (i : Issued) : Prop where
  token : i.token = a.token
  admin : i.pending.adminId = a.adminId
  product : i.pending.productId = a.productId
  change : i.pending.instruction.change = a.change
  earlier : i.issuedAt ≤ a.confirmedAt
  alive : a.confirmedAt < i.issuedAt + pendingTtlSeconds

/-- Every change has a reply of its own and one audit entry, and the changes are all that has
happened to the catalog. -/
structure NothingUnseen (catalog : List Product) (s : AdminChat) : Prop where
  confirmed : ∀ a ∈ s.applied, ∃ i ∈ s.issued, ConfirmedBy a i
  distinct : (s.issued.map Issued.token).Nodup
  once : (s.applied.map Applied.token).Nodup
  audited : s.audits.map (fun log => (log.adminId, log.targetId, log.after)) =
    s.applied.map fun a => (a.adminId, a.productId, a.change)
  catalog : s.catalog = s.applied.foldl (fun c a => a.write c) catalog

section Runs
variable {db : Unicode.Database} {uuid4 : ℕ → Text}

/-! Steps. -/

/-- What one step can do. -/
inductive Effect (uuid4 : ℕ → Text) (s t : AdminChat) : Prop
  | idle (redis : t.redis.Sublist s.redis) (inFlight : t.inFlight.Sublist s.inFlight)
      (now : s.now ≤ t.now)
      (after : t = { s with now := t.now, redis := t.redis, inFlight := t.inFlight })
  | issued (pending : Pending)
      (after : t = { s with
        minted := s.minted + 1
        redis := ⟨uuid4 s.minted, pending, s.now + pendingTtlSeconds⟩ ::
          s.redis.filter fun e => e.token ≠ uuid4 s.minted
        issued := s.issued ++ [⟨uuid4 s.minted, pending, s.now⟩] })
  | claimed (stored : Stored) (admin : User) (mem : stored ∈ s.redis)
      (alive : s.now < stored.expiresAt) (own : stored.pending.adminId = admin.id)
      (after : t = { s with
        redis := s.redis.filter fun e => e.token ≠ stored.token
        inFlight := s.inFlight ++ [⟨stored.token, stored.pending, admin, s.now⟩] })
  | applied (n : ℕ) (c : Claimed) (get : s.inFlight[n]? = some c) (audit : AdminAuditLog)
      (log : (audit.adminId, audit.targetId, audit.after) =
        (c.admin.id, c.pending.productId, c.pending.instruction.change))
      (after : t = { s with
        inFlight := s.inFlight.eraseIdx n
        catalog := Table.modify Product.id c.pending.productId
          (fun p => assign p c.pending.instruction.change) s.catalog
        audits := s.audits ++ [audit]
        applied := s.applied ++ [⟨c.token, c.admin.id, c.pending.productId,
          c.pending.instruction.change, c.confirmedAt⟩] })

/-- A confirmation that changes the catalog assigns the pending value to the pending product,
and logs it. -/
theorem executePending_applied {catalog catalog' : List Product} {admin : User} {data : Pending}
    {audit : AdminAuditLog} {response : AdminChatResponse}
    (h : executePending catalog admin data = .applied catalog' audit response) :
    catalog' = Table.modify Product.id data.productId
        (fun p => assign p data.instruction.change) catalog ∧
      (audit.adminId, audit.targetId, audit.after) =
        (admin.id, data.productId, data.instruction.change) := by
  unfold executePending at h
  split at h
  · cases h
  · split at h
    · cases h
    · dsimp only [computeChange] at h
      split_ifs at h
      cases h
      exact ⟨rfl, rfl⟩

theorem effect_plan (s : AdminChat) (message : Text) (admin : User) :
    Effect uuid4 s (s.plan db uuid4 message admin).2 := by
  unfold AdminChat.plan
  split
  · exact .idle (List.Sublist.refl _) (List.Sublist.refl _) le_rfl rfl
  · exact .issued _ rfl

theorem effect_claim (s : AdminChat) (token : Text) (admin : User) :
    Effect uuid4 s (s.claim token admin).2 := by
  unfold AdminChat.claim
  dsimp only
  cases hfind : s.redis.find? fun e => e.token = token ∧ s.now < e.expiresAt with
  | none => exact .idle List.filter_sublist (List.Sublist.refl _) le_rfl rfl
  | some stored =>
    have hfound := List.find?_some hfind
    simp only [decide_eq_true_eq] at hfound
    obtain ⟨rfl, halive⟩ := hfound
    by_cases hown : stored.pending.adminId = admin.id
    · simp only [hown, ne_eq, not_true_eq_false, if_false]
      exact .claimed stored admin (List.mem_of_find?_eq_some hfind) halive hown rfl
    · simp only [ne_eq, hown, not_false_eq_true, if_true]
      exact .idle List.filter_sublist (List.Sublist.refl _) le_rfl rfl

theorem effect_finish (s : AdminChat) (n : ℕ) (databaseFails : Bool) :
    Effect uuid4 s (s.finish n databaseFails).2 := by
  unfold AdminChat.finish
  cases hget : s.inFlight[n]? with
  | none => exact .idle (List.Sublist.refl _) (List.Sublist.refl _) le_rfl rfl
  | some c =>
    dsimp only
    split
    · rename_i catalog audit response hexec
      obtain ⟨rfl, hlog⟩ := executePending_applied hexec
      exact .applied n c hget audit hlog rfl
    · exact .idle (List.Sublist.refl _) (List.eraseIdx_sublist ..) le_rfl rfl
    · exact .idle (List.Sublist.refl _) (List.eraseIdx_sublist ..) le_rfl rfl

theorem step_effect (s : AdminChat) (step : Step) : Effect uuid4 s (s.step db uuid4 step) := by
  cases step with
  | wait seconds =>
    exact .idle (List.Sublist.refl _) (List.Sublist.refl _) (Nat.le_add_right _ _) rfl
  | handle request admin =>
    show Effect uuid4 s (s.handle db uuid4 request admin).2
    unfold AdminChat.handle
    split
    · exact effect_claim s _ admin
    · exact effect_plan s request.message admin
  | finish n databaseFails => exact effect_finish s n databaseFails

/-! The invariant. -/

/-- The tokens that are pending, in flight or spent. -/
def AdminChat.tokens (s : AdminChat) : List Text :=
  s.redis.map Stored.token ++ (s.inFlight.map Claimed.token ++ s.applied.map Applied.token)

/-- A token is minted for one reply and is in one place at a time. -/
structure TokensOnce (uuid4 : ℕ → Text) (catalog : List Product) (s : AdminChat) : Prop where
  minted : ∀ i ∈ s.issued, ∃ k < s.minted, i.token = uuid4 k
  stored : ∀ e ∈ s.redis, ∃ i ∈ s.issued, i.token = e.token ∧ i.pending = e.pending ∧
    e.expiresAt = i.issuedAt + pendingTtlSeconds ∧ i.issuedAt ≤ s.now
  claimed : ∀ c ∈ s.inFlight, ∃ i ∈ s.issued, i.token = c.token ∧ i.pending = c.pending ∧
    c.pending.adminId = c.admin.id ∧ i.issuedAt ≤ c.confirmedAt ∧
    c.confirmedAt < i.issuedAt + pendingTtlSeconds
  tokens : s.tokens.Nodup
  unseen : NothingUnseen catalog s

/-- Every token belongs to a reply. -/
theorem TokensOnce.mem_tokens {catalog : List Product} {s : AdminChat}
    (h : TokensOnce uuid4 catalog s) {token : Text} (ht : token ∈ s.tokens) :
    ∃ k < s.minted, token = uuid4 k := by
  simp only [AdminChat.tokens, List.mem_append, List.mem_map] at ht
  rcases ht with ⟨e, he, rfl⟩ | ⟨c, hc, rfl⟩ | ⟨a, ha, rfl⟩
  · obtain ⟨i, hi, htoken, -⟩ := h.stored e he
    obtain ⟨k, hk, hik⟩ := h.minted i hi
    exact ⟨k, hk, htoken.symm.trans hik⟩
  · obtain ⟨i, hi, htoken, -⟩ := h.claimed c hc
    obtain ⟨k, hk, hik⟩ := h.minted i hi
    exact ⟨k, hk, htoken.symm.trans hik⟩
  · obtain ⟨i, hi, hconfirmed⟩ := h.unseen.confirmed a ha
    obtain ⟨k, hk, hik⟩ := h.minted i hi
    exact ⟨k, hk, hconfirmed.token.symm.trans hik⟩

/-- Removing a token from Redis keeps the others in order. -/
theorem tokens_without (s : AdminChat) (token : Text) :
    ((s.redis.filter fun e => e.token ≠ token).map Stored.token ++
      (s.inFlight.map Claimed.token ++ s.applied.map Applied.token)).Sublist s.tokens :=
  (List.filter_sublist.map _).append (List.Sublist.refl _)

theorem tokensOnce_idle {catalog : List Product} {s t : AdminChat}
    (h : TokensOnce uuid4 catalog s) (redis : t.redis.Sublist s.redis)
    (inFlight : t.inFlight.Sublist s.inFlight) (now : s.now ≤ t.now)
    (after : t = { s with now := t.now, redis := t.redis, inFlight := t.inFlight }) :
    TokensOnce uuid4 catalog t := by
  rw [after]
  refine ⟨h.minted, fun e he => ?_, fun c hc => h.claimed c (inFlight.subset hc), ?_, h.unseen.1,
    h.unseen.2, h.unseen.3, h.unseen.4, h.unseen.5⟩
  · obtain ⟨i, hi, htoken, hpending, hexpires, hissued⟩ := h.stored e (redis.subset he)
    exact ⟨i, hi, htoken, hpending, hexpires, hissued.trans now⟩
  · exact h.tokens.sublist ((redis.map _).append ((inFlight.map _).append (List.Sublist.refl _)))

theorem tokensOnce_issued (hu : Function.Injective uuid4) {catalog : List Product} {s : AdminChat}
    (h : TokensOnce uuid4 catalog s) (pending : Pending) :
    TokensOnce uuid4 catalog { s with
      minted := s.minted + 1
      redis := ⟨uuid4 s.minted, pending, s.now + pendingTtlSeconds⟩ ::
        s.redis.filter fun e => e.token ≠ uuid4 s.minted
      issued := s.issued ++ [⟨uuid4 s.minted, pending, s.now⟩] } := by
  have hold : ∀ {i : Issued}, i ∈ s.issued → i ∈ s.issued ++ [⟨uuid4 s.minted, pending, s.now⟩] :=
    fun hi => List.mem_append_left _ hi
  have hfresh : ∀ k < s.minted, uuid4 k ≠ uuid4 s.minted := fun k hk he =>
    (Nat.ne_of_lt hk) (hu he)
  constructor
  case minted =>
    intro i hi
    rcases List.mem_append.mp hi with hi | hi
    · obtain ⟨k, hk, hik⟩ := h.minted i hi
      exact ⟨k, Nat.lt_succ_of_lt hk, hik⟩
    · rw [List.mem_singleton.mp hi]
      exact ⟨s.minted, Nat.lt_succ_self _, rfl⟩
  case stored =>
    intro e he
    rcases List.mem_cons.mp he with rfl | he
    · exact ⟨_, List.mem_append_right _ (List.mem_singleton_self _), rfl, rfl, rfl, le_rfl⟩
    · obtain ⟨i, hi, hrest⟩ := h.stored e (List.mem_of_mem_filter he)
      exact ⟨i, hold hi, hrest⟩
  case claimed =>
    intro c hc
    obtain ⟨i, hi, hrest⟩ := h.claimed c hc
    exact ⟨i, hold hi, hrest⟩
  case tokens =>
    have hsub := tokens_without s (uuid4 s.minted)
    refine List.nodup_cons.mpr ⟨fun hmem => ?_, h.tokens.sublist hsub⟩
    obtain ⟨k, hk, he⟩ := h.mem_tokens (hsub.subset hmem)
    exact hfresh k hk he.symm
  case unseen =>
    refine ⟨fun a ha => ?_, ?_, h.unseen.once, h.unseen.audited, h.unseen.catalog⟩
    · obtain ⟨i, hi, hconfirmed⟩ := h.unseen.confirmed a ha
      exact ⟨i, hold hi, hconfirmed⟩
    · rw [List.map_append]
      refine List.nodup_append'.mpr ⟨h.unseen.distinct, List.nodup_singleton _, ?_⟩
      intro token hmem hnew
      obtain ⟨i, hi, rfl⟩ := List.mem_map.mp hmem
      obtain ⟨k, hk, hik⟩ := h.minted i hi
      rw [hik] at hnew
      exact hfresh k hk (List.mem_singleton.mp hnew)

theorem tokensOnce_claimed {catalog : List Product} {s : AdminChat}
    (h : TokensOnce uuid4 catalog s) {stored : Stored} {admin : User} (hmem : stored ∈ s.redis)
    (halive : s.now < stored.expiresAt) (hown : stored.pending.adminId = admin.id) :
    TokensOnce uuid4 catalog { s with
      redis := s.redis.filter fun e => e.token ≠ stored.token
      inFlight := s.inFlight ++ [⟨stored.token, stored.pending, admin, s.now⟩] } := by
  constructor
  case minted => exact h.minted
  case stored => exact fun e he => h.stored e (List.mem_of_mem_filter he)
  case claimed =>
    intro c hc
    rcases List.mem_append.mp hc with hc | hc
    · exact h.claimed c hc
    · rw [List.mem_singleton.mp hc]
      obtain ⟨i, hi, htoken, hpending, hexpires, hissued⟩ := h.stored stored hmem
      exact ⟨i, hi, htoken, hpending, hown, hissued, hexpires ▸ halive⟩
  case tokens =>
    have hperm : ((s.redis.filter fun e => e.token ≠ stored.token).map Stored.token ++
        ((s.inFlight ++ [(⟨stored.token, stored.pending, admin, s.now⟩ : Claimed)]).map
          Claimed.token ++ s.applied.map Applied.token)).Perm
        (stored.token :: ((s.redis.filter fun e => e.token ≠ stored.token).map Stored.token ++
          (s.inFlight.map Claimed.token ++ s.applied.map Applied.token))) := by
      have hmiddle : ((s.redis.filter fun e => e.token ≠ stored.token).map Stored.token ++
            s.inFlight.map Claimed.token ++ stored.token :: s.applied.map Applied.token).Perm
          (stored.token :: ((s.redis.filter fun e => e.token ≠ stored.token).map Stored.token ++
            s.inFlight.map Claimed.token ++ s.applied.map Applied.token)) := List.perm_middle
      simpa only [List.map_append, List.map_cons, List.map_nil, List.append_assoc,
        List.cons_append, List.nil_append] using hmiddle
    refine hperm.nodup_iff.mpr (List.nodup_cons.mpr ⟨fun hin => ?_,
      h.tokens.sublist (tokens_without s stored.token)⟩)
    rcases List.mem_append.mp hin with hin | hin
    · obtain ⟨e, he, htoken⟩ := List.mem_map.mp hin
      simp [htoken] at he
    · exact (List.nodup_append'.mp h.tokens).2.2 (List.mem_map_of_mem hmem) hin
  case unseen => exact ⟨h.unseen.1, h.unseen.2, h.unseen.3, h.unseen.4, h.unseen.5⟩

theorem tokensOnce_applied {catalog : List Product} {s : AdminChat}
    (h : TokensOnce uuid4 catalog s) {n : ℕ} {c : Claimed} (hget : s.inFlight[n]? = some c)
    {audit : AdminAuditLog} (hlog : (audit.adminId, audit.targetId, audit.after) =
      (c.admin.id, c.pending.productId, c.pending.instruction.change)) :
    TokensOnce uuid4 catalog { s with
      inFlight := s.inFlight.eraseIdx n
      catalog := Table.modify Product.id c.pending.productId
        (fun p => assign p c.pending.instruction.change) s.catalog
      audits := s.audits ++ [audit]
      applied := s.applied ++ [⟨c.token, c.admin.id, c.pending.productId,
        c.pending.instruction.change, c.confirmedAt⟩] } := by
  have hc : c ∈ s.inFlight := List.mem_of_getElem? hget
  have hperm : s.inFlight.Perm (c :: s.inFlight.eraseIdx n) := by
    obtain ⟨hn, rfl⟩ := List.getElem?_eq_some_iff.mp hget
    exact (List.getElem_cons_eraseIdx_perm hn).symm
  have htokens : (s.redis.map Stored.token ++ ((s.inFlight.eraseIdx n).map Claimed.token ++
      (s.applied.map Applied.token ++ [c.token]))).Nodup := by
    have hmove : (s.inFlight.map Claimed.token ++ s.applied.map Applied.token).Perm
        ((s.inFlight.eraseIdx n).map Claimed.token ++
          (s.applied.map Applied.token ++ [c.token])) := by
      refine ((hperm.map Claimed.token).append_right _).trans ?_
      rw [← List.append_assoc]
      exact (List.perm_append_singleton c.token _).symm
    exact (hmove.append_left _).nodup_iff.mp h.tokens
  constructor
  case minted => exact h.minted
  case stored => exact h.stored
  case claimed => exact fun c' hc' => h.claimed c' (List.mem_of_mem_eraseIdx hc')
  case tokens =>
    rw [AdminChat.tokens, List.map_append]
    exact htokens
  case unseen =>
    refine ⟨fun a ha => ?_, h.unseen.distinct, ?_, ?_, ?_⟩
    · rcases List.mem_append.mp ha with ha | ha
      · exact h.unseen.confirmed a ha
      · rw [List.mem_singleton.mp ha]
        obtain ⟨i, hi, htoken, hpending, hown, hearlier, halive⟩ := h.claimed c hc
        exact ⟨i, hi, htoken, by rw [hpending, hown], by rw [hpending], by rw [hpending], hearlier,
          halive⟩
    · rw [List.map_append]
      exact (List.nodup_append'.mp (List.nodup_append'.mp htokens).2.1).2.1
    · rw [List.map_append, List.map_append, h.unseen.audited]
      exact congrArg (fun entry => _ ++ [entry]) hlog
    · rw [List.foldl_append, ← h.unseen.catalog]
      rfl

theorem tokensOnce_step (hu : Function.Injective uuid4) {catalog : List Product} {s : AdminChat}
    (h : TokensOnce uuid4 catalog s) (step : Step) :
    TokensOnce uuid4 catalog (s.step db uuid4 step) := by
  have heffect : Effect uuid4 s (s.step db uuid4 step) := step_effect s step
  cases heffect with
  | idle redis inFlight now after => exact tokensOnce_idle h redis inFlight now after
  | issued pending after => exact after ▸ tokensOnce_issued hu h pending
  | claimed stored admin mem alive own after => exact after ▸ tokensOnce_claimed h mem alive own
  | applied n c get audit log after => exact after ▸ tokensOnce_applied h get log

end Runs

/-- In every run of requests and confirmations: every change of the catalog has a reply of its
own, issued to the same admin for the same product, column and value and confirmed within its
life, and one audit entry. -/
theorem nothing_unseen (db : Unicode.Database) (uuid4 : ℕ → Text)
    (hu : Function.Injective uuid4) (now : Timestamp) (catalog : List Product)
    (steps : List Step) : NothingUnseen catalog (AdminChat.run db uuid4 now catalog steps) := by
  have hinit : TokensOnce uuid4 catalog { now := now, catalog := catalog } := by
    refine ⟨(fun _ hi => nomatch hi), (fun _ he => nomatch he), (fun _ hc => nomatch hc),
      List.nodup_nil, (fun _ ha => nomatch ha), List.nodup_nil, List.nodup_nil, rfl, rfl⟩
  have hrun : TokensOnce uuid4 catalog (AdminChat.run db uuid4 now catalog steps) := by
    have hexec := exec_some (AdminChat.step db uuid4) { now := now, catalog := catalog } steps
    refine invariant_exec (fun s step t hs ht => ?_) hinit hexec
    cases ht
    exact tokensOnce_step hu hs step
  exact hrun.unseen

/-- Tokens of growing length. -/
def countedToken (n : ℕ) : Text := List.replicate (n + 1) 'a'

theorem countedToken_injective : Function.Injective countedToken := by
  intro m n h
  have hlen := congrArg List.length h
  simpa [countedToken] using hlen

def gasElf : Product :=
  ⟨1, "GAS-ELF-12", "Gas Elf 12kg", "Elf", 12, .gas, "kg", 445000, none, 15, true⟩

def shopAdmin : User := ⟨7, .admin, none, none, none, none⟩

/-- The admin asks for a new price, confirms it twice, and both confirmations race. -/
def confirmTwice : List Step := [
  .handle ⟨"đổi giá Elf 12kg thành 460000", false, none⟩ shopAdmin,
  .handle ⟨"", true, some (countedToken 0)⟩ shopAdmin,
  .handle ⟨"", true, some (countedToken 0)⟩ shopAdmin,
  .finish 0 false, .finish 0 false]

theorem nothing_unseen_confirmTwice :
    (AdminChat.run Unicode.Vietnamese.database countedToken 0 [gasElf] confirmTwice).catalog =
        [{ gasElf with price := 460000 }] ∧
      NothingUnseen [gasElf]
        (AdminChat.run Unicode.Vietnamese.database countedToken 0 [gasElf] confirmTwice) :=
  ⟨by decide +kernel, nothing_unseen Unicode.Vietnamese.database countedToken
    countedToken_injective 0 [gasElf] confirmTwice⟩

end Qiki.Admin
