import Qiki.Text.Decimal
import Qiki.Transition.Threads

/-! `ConversationRepository.create` in concurrent transactions: the day, the advisory lock, the query
for the next counter, the insert and the commit, one statement a step under READ COMMITTED. -/
namespace Qiki.Concurrency.ConversationCodes

open Transition

/-- `strftime("%Y%m%d")` of a date. -/
structure Day where
  text : Text
  length_eq : text.length = 8
  digits : ∀ c ∈ text, c.isDigit = true

def lockKey (day : Day) : Text := "conversations:" ++ day.text

/-- What a code of the day starts with; `SUBSTRING(code FROM 13)` is what follows. -/
def codePrefix (day : Day) : Text := "CT-" ++ (day.text ++ "-")

/-- `code ~ '^CT-<day>-[0-9]+$'` -/
def matchesDay (day : Day) (code : Text) : Bool :=
  (codePrefix day).isPrefixOf code && !(code.drop 12).isEmpty &&
    (code.drop 12).all fun c => c.isDigit

/-- `CAST(SUBSTRING(code FROM 13) AS INTEGER)` -/
def counterOf (code : Text) : ℕ := (Text.toNat Text.asciiDigit (code.drop 12)).getD 0

/-- `COALESCE(MAX(...), 0) + 1` over the codes of the day. -/
def nextCounter (day : Day) (codes : List Text) : ℕ :=
  ((codes.filter (matchesDay day)).map counterOf).foldl max 0 + 1

def conversationCode (day : Day) (counter : ℕ) : Text :=
  codePrefix day ++ Text.padZeros 3 (Text.ofNat counter)

/-- What the transaction of a request has done so far. -/
inductive Phase
  | start
  | dayRead (day : Day)
  | locked (day : Day)
  | coded (code : Text)
  | inserted (code : Text)
  | committed (code : Text)
  | rolledBack

structure Shared (ι : Type) where
  /-- The codes of the committed conversations, in the order of the commits. -/
  committed : List Text := []
  /-- The codes that open transactions have inserted. -/
  inserted : List (ι × Text) := []
  locks : Locks ℤ ι := fun _ => none

inductive Event
  /-- The clock is read. -/
  | today (day : Day)
  | next
  /-- An error, a timeout or the end of the connection. -/
  | rollback

section
variable {ι : Type} [DecidableEq ι] (hashtext : Text → ℤ) (preset : ι → Option Text)

/-- `data.get("code")`, if it counts as true. -/
def givenCode (i : ι) : Option Text := (preset i).filter (!·.isEmpty)

/-- The end of a transaction. -/
def Shared.release (g : Shared ι) (i : ι) : Shared ι :=
  { g with inserted := g.inserted.filter (·.1 ≠ i), locks := g.locks.release i }

/-- `INSERT`: it waits for an open transaction with the code, and fails when the code is taken or
does not fit `varchar(20)`. -/
def insertCode (i : ι) (code : Text) (g : Shared ι) : Option (Shared ι × Phase) :=
  if 20 < code.length ∨ code ∈ g.committed then some (g.release i, .rolledBack)
  else if code ∈ g.inserted.map Prod.snd then none
  else some ({ g with inserted := g.inserted ++ [(i, code)] }, .inserted code)

def step (i : ι) (g : Shared ι) (phase : Phase) : Event → Option (Shared ι × Phase)
  | .today day =>
    match phase, givenCode preset i with
    | .start, none => some (g, .dayRead day)
    | _, _ => none
  | .next =>
    match phase with
    | .start => (givenCode preset i).map fun code => (g, .coded code)
    | .dayRead day => (g.locks.acquire (hashtext (lockKey day)) i).map fun locks =>
      ({ g with locks := locks }, .locked day)
    | .locked day => some (g, .coded (conversationCode day (nextCounter day g.committed)))
    | .coded code => insertCode i code g
    | .inserted code =>
      some ({ g.release i with committed := g.committed ++ [code] }, .committed code)
    | .committed _ | .rolledBack => none
  | .rollback =>
    match phase with
    | .committed _ | .rolledBack => none
    | _ => some (g.release i, .rolledBack)

end

/-! Codes and counters. -/

section
variable {day day' : Day} {counter : ℕ} {codes : List Text}

theorem Day.ext {day day' : Day} (h : day.text = day'.text) : day = day' := by
  cases day
  cases day'
  cases h
  rfl

theorem length_codePrefix (day : Day) : (codePrefix day).length = 12 := by
  rw [codePrefix, List.length_append, List.length_append, day.length_eq]
  rfl

theorem drop_conversationCode (day : Day) (counter : ℕ) :
    (conversationCode day counter).drop 12 = Text.padZeros 3 (Text.ofNat counter) :=
  List.drop_left' (length_codePrefix day)

theorem counterOf_conversationCode (day : Day) (counter : ℕ) :
    counterOf (conversationCode day counter) = counter := by
  rw [counterOf, drop_conversationCode, Text.toNat_padZeros, Option.getD_some]

/-- The counter may outgrow its three digits: the prefix still ends before it. -/
theorem matchesDay_conversationCode :
    matchesDay day (conversationCode day' counter) = true ↔ day' = day := by
  have hdigits : (Text.padZeros 3 (Text.ofNat counter)).all (fun c => c.isDigit) = true :=
    List.all_eq_true.mpr fun _ hc => Text.isDigit_of_mem_padZeros hc
  have hsome : (Text.padZeros 3 (Text.ofNat counter)).isEmpty = false := by
    simpa using Text.padZeros_ne_nil 3 counter
  have hprefix : (codePrefix day).isPrefixOf (conversationCode day' counter) = true ↔
      day' = day := by
    have hlength : (codePrefix day).length = (codePrefix day').length := by
      rw [length_codePrefix, length_codePrefix]
    rw [List.isPrefixOf_iff_prefix]
    constructor
    · intro h
      have hprefixes : codePrefix day <+: codePrefix day' :=
        List.prefix_of_prefix_length_le h (List.prefix_append _ _) hlength.le
      have hequal : codePrefix day = codePrefix day' := hprefixes.eq_of_length hlength
      exact Day.ext (List.append_cancel_right (List.append_cancel_left hequal)).symm
    · rintro rfl
      exact List.prefix_append _ _
  rw [matchesDay, drop_conversationCode, hdigits, hsome, Bool.not_false, Bool.and_true,
    Bool.and_true, hprefix]

/-- The codes of each day are numbered from 001 in order. -/
def Numbered (codes : List Text) : Prop :=
  ∀ day, codes.filter (matchesDay day) =
    (List.range (codes.filter (matchesDay day)).length).map fun k => conversationCode day (k + 1)

theorem foldl_max_range (n : ℕ) : ((List.range n).map (· + 1)).foldl max 0 = n := by
  induction n with
  | zero => rfl
  | succ n ih =>
    rw [List.range_succ, List.map_append, List.foldl_append, ih]
    exact max_eq_right (Nat.le_succ n)

theorem Numbered.nextCounter (h : Numbered codes) (day : Day) :
    nextCounter day codes = (codes.filter (matchesDay day)).length + 1 := by
  have hcounters : (codes.filter (matchesDay day)).map counterOf =
      (List.range (codes.filter (matchesDay day)).length).map (· + 1) := by
    conv_lhs => rw [h day, List.map_map]
    apply List.map_congr_left
    intro k _
    exact counterOf_conversationCode day (k + 1)
  rw [ConversationCodes.nextCounter, hcounters, foldl_max_range]

/-- The next code continues the numbers of its day and leaves the other days alone. -/
theorem Numbered.append (h : Numbered codes) (day : Day) :
    Numbered (codes ++ [conversationCode day (ConversationCodes.nextCounter day codes)]) := by
  intro day'
  by_cases hday : day = day'
  · subst hday
    have hmatch := (@matchesDay_conversationCode day day
      (ConversationCodes.nextCounter day codes)).mpr rfl
    rw [List.filter_append, List.filter_cons_of_pos hmatch, List.filter_nil, List.length_append,
      List.length_singleton, List.range_succ, List.map_append, ← h day, h.nextCounter day]
    rfl
  · have hother : ¬ matchesDay day' (conversationCode day
        (ConversationCodes.nextCounter day codes)) = true :=
      fun hmatch => hday (matchesDay_conversationCode.mp hmatch)
    rw [List.filter_append, List.filter_cons_of_neg hother, List.filter_nil, List.append_nil]
    exact h day'

/-- A code of another day does not change the next counter. -/
theorem nextCounter_append (hday : day' ≠ day) :
    nextCounter day (codes ++ [conversationCode day' counter]) = nextCounter day codes := by
  have hother : ¬ matchesDay day (conversationCode day' counter) = true :=
    fun hmatch => hday (matchesDay_conversationCode.mp hmatch)
  rw [nextCounter, List.filter_append, List.filter_cons_of_neg hother, List.filter_nil,
    List.append_nil]
  rfl

end

section
variable {ι : Type} [DecidableEq ι] {hashtext : Text → ℤ} {preset : ι → Option Text}
  {g g' : Shared ι} {i j : ι} {phase phase' : Phase} {event : Event} {code : Text}

/-- No request brings a code of its own. -/
def NoneGiven (preset : ι → Option Text) : Prop := ∀ i, givenCode preset i = none

/-- The request holds the lock of its day, and its code is the next one of the committed codes. -/
def Generated (hashtext : Text → ℤ) (i : ι) (g : Shared ι) (code : Text) : Prop :=
  ∃ day, g.locks (hashtext (lockKey day)) = some i ∧
    code = conversationCode day (nextCounter day g.committed)

/-- The codes of committed and open transactions are distinct; without given codes the committed
ones are numbered. -/
structure Consistent (preset : ι → Option Text) (g : Shared ι) : Prop where
  distinct : (g.inserted.map Prod.snd ++ g.committed).Nodup
  numbered : NoneGiven preset → Numbered g.committed

/-- What a request knows between its statements. -/
def Knows (hashtext : Text → ℤ) (preset : ι → Option Text) (i : ι) (g : Shared ι) : Phase → Prop
  | .locked day => g.locks (hashtext (lockKey day)) = some i
  | .coded code => NoneGiven preset → Generated hashtext i g code
  | .inserted code => (i, code) ∈ g.inserted ∧ (NoneGiven preset → Generated hashtext i g code)
  | _ => True

/-- The steps of a request. -/
theorem step_cases (h : step hashtext preset i g phase event = some (g', phase')) :
    (g' = g ∧ ∃ day, phase' = .dayRead day) ∨
    (g' = g ∧ phase = .start ∧ ∃ code, givenCode preset i = some code ∧ phase' = .coded code) ∨
    (∃ day locks, g.locks.acquire (hashtext (lockKey day)) i = some locks ∧
      g' = { g with locks := locks } ∧ phase' = .locked day) ∨
    (∃ day, g' = g ∧ phase = .locked day ∧
      phase' = .coded (conversationCode day (nextCounter day g.committed))) ∨
    (∃ code, phase = .coded code ∧ code ∉ g.committed ∧ code ∉ g.inserted.map Prod.snd ∧
      g' = { g with inserted := g.inserted ++ [(i, code)] } ∧ phase' = .inserted code) ∨
    (∃ code, phase = .inserted code ∧
      g' = { g.release i with committed := g.committed ++ [code] } ∧ phase' = .committed code) ∨
    (g' = g.release i ∧ phase' = .rolledBack) := by
  cases event with
  | today day =>
    dsimp only [step] at h
    split at h
    · obtain ⟨rfl, rfl⟩ := Prod.mk.inj (Option.some.inj h)
      exact Or.inl ⟨rfl, day, rfl⟩
    · cases h
  | rollback =>
    cases phase <;> dsimp only [step] at h <;> first
      | cases h; done
      | (obtain ⟨rfl, rfl⟩ := Prod.mk.inj (Option.some.inj h)
         exact Or.inr (Or.inr (Or.inr (Or.inr (Or.inr (Or.inr ⟨rfl, rfl⟩))))))
  | next =>
    cases phase with
    | start =>
      obtain ⟨code, hcode, h⟩ := Option.map_eq_some_iff.mp h
      obtain ⟨rfl, rfl⟩ := Prod.mk.inj h
      exact Or.inr (Or.inl ⟨rfl, rfl, code, hcode, rfl⟩)
    | dayRead day =>
      obtain ⟨locks, hlocks, h⟩ := Option.map_eq_some_iff.mp h
      obtain ⟨rfl, rfl⟩ := Prod.mk.inj h
      exact Or.inr (Or.inr (Or.inl ⟨day, locks, hlocks, rfl, rfl⟩))
    | locked day =>
      obtain ⟨rfl, rfl⟩ := Prod.mk.inj (Option.some.inj h)
      exact Or.inr (Or.inr (Or.inr (Or.inl ⟨day, rfl, rfl, rfl⟩)))
    | coded code =>
      dsimp only [step, insertCode] at h
      split_ifs at h with hfails hwaits
      · obtain ⟨rfl, rfl⟩ := Prod.mk.inj (Option.some.inj h)
        exact Or.inr (Or.inr (Or.inr (Or.inr (Or.inr (Or.inr ⟨rfl, rfl⟩)))))
      · obtain ⟨rfl, rfl⟩ := Prod.mk.inj (Option.some.inj h)
        exact Or.inr (Or.inr (Or.inr (Or.inr (Or.inl
          ⟨code, rfl, fun hmem => hfails (Or.inr hmem), hwaits, rfl, rfl⟩))))
    | inserted code =>
      obtain ⟨rfl, rfl⟩ := Prod.mk.inj (Option.some.inj h)
      exact Or.inr (Or.inr (Or.inr (Or.inr (Or.inr (Or.inl ⟨code, rfl, rfl, rfl⟩)))))
    | committed code => cases h
    | rolledBack => cases h

/-- Giving up one request's rows keeps the codes distinct. -/
theorem Consistent.release (h : Consistent preset g) (i : ι) : Consistent preset (g.release i) where
  distinct := by
    have hsub : ((g.release i).inserted.map Prod.snd).Sublist (g.inserted.map Prod.snd) :=
      List.filter_sublist.map Prod.snd
    exact (hsub.append (List.Sublist.refl _)).nodup h.distinct
  numbered := h.numbered

/-- A commit moves the code of the request to the committed ones. -/
theorem Consistent.commit (h : Consistent preset g) (hmem : (i, code) ∈ g.inserted)
    (hgenerated : NoneGiven preset → Generated hashtext i g code) :
    Consistent preset { g.release i with committed := g.committed ++ [code] } where
  distinct := by
    obtain ⟨hinserted, hcommitted, hdisjoint⟩ := List.nodup_append.mp h.distinct
    have hcode : code ∉ g.committed := fun hin =>
      hdisjoint code (List.mem_map_of_mem hmem) code hin rfl
    have hrest : code ∉ (g.release i).inserted.map Prod.snd := by
      intro hin
      obtain ⟨row, hrow, hsame⟩ := List.mem_map.mp hin
      obtain ⟨hrow, hother⟩ := List.mem_filter.mp hrow
      have hequal : row = (i, code) := List.inj_on_of_nodup_map hinserted hrow hmem hsame
      rw [hequal] at hother
      simp at hother
    have hreleased := (h.release i).distinct
    rw [← List.append_assoc, List.nodup_append]
    refine ⟨hreleased, List.nodup_singleton _, ?_⟩
    rintro x hx y hy rfl
    obtain rfl := List.mem_singleton.mp hy
    rcases List.mem_append.mp hx with hx | hx
    · exact hrest hx
    · exact hcode hx
  numbered hnone := by
    obtain ⟨day, -, rfl⟩ := hgenerated hnone
    exact (h.numbered hnone).append day

omit [DecidableEq ι] in
theorem Consistent.insert (h : Consistent preset g) (hcommitted : code ∉ g.committed)
    (hinserted : code ∉ g.inserted.map Prod.snd) :
    Consistent preset { g with inserted := g.inserted ++ [(i, code)] } where
  distinct := by
    have hperm : List.Perm ((g.inserted ++ [(i, code)]).map Prod.snd ++ g.committed)
        (code :: (g.inserted.map Prod.snd ++ g.committed)) := by
      rw [List.map_append, List.append_assoc]
      exact List.perm_middle
    refine hperm.nodup_iff.mpr (List.nodup_cons.mpr ⟨fun hin => ?_, h.distinct⟩)
    rcases List.mem_append.mp hin with hin | hin
    · exact hinserted hin
    · exact hcommitted hin
  numbered := h.numbered

theorem own {c : Threads ι (Shared ι) Phase}
    (hc : ThreadInv (Consistent preset) (Knows hashtext preset) c)
    (hstep : step hashtext preset i c.shared (c.thread i) event = some (g', phase')) :
    Consistent preset g' ∧ Knows hashtext preset i g' phase' := by
  have hknows := hc.thread i
  rcases step_cases hstep with ⟨rfl, day, rfl⟩ | ⟨rfl, -, code, hgiven, rfl⟩ |
    ⟨day, locks, hlocks, rfl, rfl⟩ | ⟨day, rfl, hphase, rfl⟩ |
    ⟨code, hphase, hcommitted, hinserted, rfl, rfl⟩ | ⟨code, hphase, rfl, rfl⟩ | ⟨rfl, rfl⟩
  · exact ⟨hc.shared, trivial⟩
  · refine ⟨hc.shared, fun hnone => ?_⟩
    rw [hnone i] at hgiven
    cases hgiven
  · exact ⟨⟨hc.shared.distinct, hc.shared.numbered⟩, Locks.acquire_self hlocks⟩
  · rw [hphase] at hknows
    exact ⟨hc.shared, fun _ => ⟨day, hknows, rfl⟩⟩
  · rw [hphase] at hknows
    refine ⟨hc.shared.insert hcommitted hinserted, ?_, hknows⟩
    exact List.mem_append_right _ (List.mem_singleton_self _)
  · rw [hphase] at hknows
    exact ⟨hc.shared.commit hknows.1 hknows.2, trivial⟩
  · exact ⟨hc.shared.release i, trivial⟩

omit [DecidableEq ι] in
/-- What a request knows carries over to a state with its rows and locks, and the same committed
codes of its day. -/
theorem Knows.mono (h : Knows hashtext preset j g phase)
    (hlocks : ∀ k, g.locks k = some j → g'.locks k = some j)
    (hinserted : ∀ code, (j, code) ∈ g.inserted → (j, code) ∈ g'.inserted)
    (hcounter : NoneGiven preset → ∀ day, g.locks (hashtext (lockKey day)) = some j →
      nextCounter day g'.committed = nextCounter day g.committed) :
    Knows hashtext preset j g' phase := by
  have hgenerated {code : Text} (hnone : NoneGiven preset) (h : Generated hashtext j g code) :
      Generated hashtext j g' code := by
    obtain ⟨day, hlock, rfl⟩ := h
    exact ⟨day, hlocks _ hlock, by rw [hcounter hnone day hlock]⟩
  cases phase with
  | locked day => exact hlocks _ h
  | coded code => exact fun hnone => hgenerated hnone (h hnone)
  | inserted code => exact ⟨hinserted _ h.1, fun hnone => hgenerated hnone (h.2 hnone)⟩
  | start => trivial
  | dayRead day => trivial
  | committed code => trivial
  | rolledBack => trivial

theorem other {c : Threads ι (Shared ι) Phase}
    (hc : ThreadInv (Consistent preset) (Knows hashtext preset) c) (hji : j ≠ i)
    (hstep : step hashtext preset i c.shared (c.thread i) event = some (g', phase')) :
    Knows hashtext preset j g' (c.thread j) := by
  have hknows := hc.thread j
  have hreleased (code : Text) (hin : (j, code) ∈ c.shared.inserted) :
      (j, code) ∈ (c.shared.release i).inserted :=
    List.mem_filter.mpr ⟨hin, by simpa using hji⟩
  have hlocks (k : ℤ) (hk : c.shared.locks k = some j) : (c.shared.release i).locks k = some j :=
    (Locks.release_other hji k).mpr hk
  rcases step_cases hstep with ⟨rfl, -⟩ | ⟨rfl, -⟩ | ⟨day, locks, hacquired, rfl, -⟩ | ⟨day, rfl, -⟩ |
    ⟨code, -, -, -, rfl, -⟩ | ⟨code, hphase, rfl, -⟩ | ⟨rfl, -⟩
  · exact hknows
  · exact hknows
  · exact hknows.mono (fun k hk => (Locks.acquire_other hacquired hji k).mpr hk) (fun _ h => h)
      fun _ _ _ => rfl
  · exact hknows
  · exact hknows.mono (fun _ h => h) (fun _ hin => List.mem_append_left _ hin) fun _ _ _ => rfl
  · refine hknows.mono hlocks hreleased fun hnone day hday => ?_
    have hother := hc.thread i
    rw [hphase] at hother
    obtain ⟨day', hday', rfl⟩ := hother.2 hnone
    -- the lock keeps the two requests on different days
    refine nextCounter_append fun hsame => hji ?_
    rw [hsame, hday] at hday'
    exact Option.some.inj hday'
  · exact hknows.mono hlocks hreleased fun _ _ _ => rfl

end

section
variable {ι : Type} [DecidableEq ι]

/-- The requests at the start, on an empty table. -/
def beginning : Threads ι (Shared ι) Phase where
  shared := {}
  thread _ := .start

/-- In every interleaving the committed codes are distinct, and those of each day are numbered from
001 in the order of the commits. -/
theorem conversation_codes (hashtext : Text → ℤ) (preset : ι → Option Text)
    {events : List (ι × Event)} {c : Threads ι (Shared ι) Phase}
    (hrun : exec (interleave (step hashtext preset)) beginning events = some c) :
    c.shared.committed.Nodup ∧ (NoneGiven preset → Numbered c.shared.committed) := by
  have hstart : ThreadInv (Consistent preset) (Knows hashtext preset)
      (beginning : Threads ι (Shared ι) Phase) := by
    refine ⟨⟨List.nodup_nil, fun _ day => rfl⟩, fun i => trivial⟩
  have hinv := threadInv_exec (fun hc hs => own hc hs) (fun hc hj hs => other hc hj hs) hstart hrun
  exact ⟨(List.nodup_append.mp hinv.shared.distinct).2.1, hinv.shared.numbered⟩

end

/-! Two requests on one day. -/

def newYear : Day := ⟨"20260101", rfl, List.all_eq_true.mp (by decide)⟩

/-- The second request takes the lock when the first has committed. -/
def twoRequests : List (Bool × Event) :=
  [(true, .today newYear), (false, .today newYear), (true, .next), (true, .next), (true, .next),
    (true, .next), (false, .next), (false, .next), (false, .next), (false, .next)]

def newYearCodes : List Text := ["CT-20260101-001", "CT-20260101-002"]

theorem conversation_codes_newYear :
    ∃ c, exec (interleave (step (fun _ => 0) fun _ => none)) beginning twoRequests = some c ∧
      c.shared.committed = newYearCodes ∧ Numbered c.shared.committed := by
  have hrun : (exec (interleave (step (fun _ => 0) fun _ => none)) beginning twoRequests).any
      (fun c => c.shared.committed = newYearCodes) = true := by decide
  obtain ⟨c, hrun, hcodes⟩ := (Option.any_eq_true _ _).mp hrun
  exact ⟨c, hrun, of_decide_eq_true hcodes,
    (conversation_codes (fun _ => 0) (fun _ => none) hrun).2 fun _ => rfl⟩

end Qiki.Concurrency.ConversationCodes
