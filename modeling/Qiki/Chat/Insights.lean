import Qiki.Arithmetic.Double
import Qiki.Chat.ProductSearch
import Qiki.Chat.StaffRouting
import Qiki.Collections.GroupCounts

/-! The staff's insights into the conversations: the summary of a period and its trend by day. -/
namespace Qiki.Chat

open GroupCounts

/-- Microseconds since the epoch. -/
abbrev Moment := ℤ

/-- A row of `messages` with the columns that the insights count. -/
structure InsightMessage where
  role : Role
  content : Text
  intentConfidence : Option ℚ
  /-- How many documents the column lists, unless it is NULL. -/
  retrievedDocuments : Option ℕ
  feedbackScore : Option ℤ
  flaggedForReview : Bool
  createdAt : Moment
  deriving DecidableEq, Repr

structure InsightConversation where
  status : ConversationStatus
  createdAt : Moment
  deriving DecidableEq, Repr

def lowConfidenceThreshold : ℚ := 6 / 10

def refusalMarkersVi : List Text := ["chưa có thông tin", "không có thông tin", "không tìm thấy",
  "chưa có đủ thông tin", "xin lỗi, tôi chưa"]

def defaultPeriodDays : ℕ := 30

structure InsightsSummary where
  totalConversations : ℕ
  totalMessages : ℕ
  userMessages : ℕ
  assistantMessages : ℕ
  escalatedConversations : ℕ
  flaggedMessages : ℕ
  lowConfidenceMessages : ℕ
  negativeFeedbackMessages : ℕ
  unansweredMessages : ℕ
  escalationRate : ℚ
  flagRate : ℚ
  deriving DecidableEq, Repr

structure TrendPoint where
  date : Text
  conversations : ℕ
  flagged : ℕ
  escalated : ℕ
  deriving DecidableEq, Repr

/-- The rows of the period, both ends included. -/
def within {ρ : Type} (createdAt : ρ → Moment) (period : Moment × Moment) (rows : List ρ) : List ρ :=
  rows.filter fun row => period.1 ≤ createdAt row && createdAt row ≤ period.2

/-- `_rate`: the double that is nearest to the quotient's double with four places. -/
def rate (numerator denominator : ℕ) : ℚ :=
  if denominator = 0 then 0
  else Rounding.double
    ((Rounding.halfEven (Rounding.double ((numerator : ℚ) / denominator) * 10000) : ℚ) / 10000)

def lowConfidence (m : InsightMessage) : Bool :=
  m.intentConfidence.any fun confidence => confidence < lowConfidenceThreshold

def emptyContext (m : InsightMessage) : Bool := m.retrievedDocuments.all fun count => count = 0

section
variable (lower : Text → Text) (day : Moment → Text)

/-- `_refusal_clause`; `lower` is the lower case of the database. -/
def refusal (m : InsightMessage) : Bool :=
  refusalMarkersVi.any fun marker => like ("%" ++ marker ++ "%") (lower m.content)

def summary (conversations : List InsightConversation) (messages : List InsightMessage)
    (period : Moment × Moment) : InsightsSummary :=
  let messages := within InsightMessage.createdAt period messages
  let conversations := within InsightConversation.createdAt period conversations
  let escalated := conversations.countP fun c => c.status = .escalated
  let flagged := messages.countP (·.flaggedForReview)
  { totalConversations := conversations.length
    totalMessages := messages.length
    userMessages := messages.countP fun m => m.role = .user
    assistantMessages := messages.countP fun m => m.role = .assistant
    escalatedConversations := escalated
    flaggedMessages := flagged
    lowConfidenceMessages := messages.countP lowConfidence
    negativeFeedbackMessages := messages.countP fun m => m.feedbackScore = some (-1)
    unansweredMessages := messages.countP fun m =>
      m.role = .assistant && (emptyContext m || refusal lower m)
    escalationRate := rate escalated conversations.length
    flagRate := rate flagged messages.length }

/-- The conversations by day; `day` is `func.date` in the time zone of the database, as its text. -/
def conversationRows (conversations : List InsightConversation) (period : Moment × Moment) :
    List (Text × ℕ × ℕ) :=
  groupBy (fun c : InsightConversation => day c.createdAt)
    (fun rows => (rows.length, rows.countP fun c => c.status = .escalated))
    (within InsightConversation.createdAt period conversations)

/-- The flagged messages by day. -/
def flagRows (messages : List InsightMessage) (period : Moment × Moment) : List (Text × ℕ) :=
  groupBy (fun m : InsightMessage => day m.createdAt) (fun rows => rows.countP (·.flaggedForReview))
    (within InsightMessage.createdAt period messages)

/-- The points of the trend: the days of the conversations, each with the flags of that day. -/
def trendPoints (conversationRows : List (Text × ℕ × ℕ)) (flagRows : List (Text × ℕ)) :
    List TrendPoint :=
  let flagsByDay := flagRows.foldl (fun d row => Dict.alter row.1 (fun _ => row.2) d) []
  (conversationRows.insertionSort fun a b => a.1 ≤ b.1).map fun row =>
    { date := row.1
      conversations := row.2.1
      flagged := (Dict.get row.1 flagsByDay).getD 0
      escalated := row.2.2 }

def trend (conversations : List InsightConversation) (messages : List InsightMessage)
    (period : Moment × Moment) : List TrendPoint :=
  trendPoints (conversationRows day conversations period) (flagRows day messages period)

structure ConversationInsights where
  periodStart : Moment
  periodEnd : Moment
  summary : InsightsSummary
  trend : List TrendPoint
  deriving DecidableEq, Repr

/-- The period of a request, its ends put in order. -/
def insightsPeriod (periodStart periodEnd : Option Moment) (now : Moment) : Moment × Moment :=
  let stop := periodEnd.getD now
  let start := periodStart.getD (stop - defaultPeriodDays * 86400000000)
  if stop < start then (stop, start) else (start, stop)

def getInsights (conversations : List InsightConversation) (messages : List InsightMessage)
    (periodStart periodEnd : Option Moment) (now : Moment) : ConversationInsights :=
  let period := insightsPeriod periodStart periodEnd now
  { periodStart := period.1
    periodEnd := period.2
    summary := summary lower conversations messages period
    trend := trend day conversations messages period }

/-- The points of the trend sum to the summary, and every day with a flagged message has one. -/
structure TrendAddsUp (messages : List InsightMessage) (insights : ConversationInsights) : Prop where
  flagged : (insights.trend.map (·.flagged)).sum = insights.summary.flaggedMessages
  conversations : (insights.trend.map (·.conversations)).sum = insights.summary.totalConversations
  days : ∀ m ∈ within InsightMessage.createdAt (insights.periodStart, insights.periodEnd) messages,
    m.flaggedForReview = true → day m.createdAt ∈ insights.trend.map (·.date)

/-- On every day with a flagged message of the period a conversation of the period began. -/
def FlaggedDaysBegin (conversations : List InsightConversation) (messages : List InsightMessage)
    (period : Moment × Moment) : Prop :=
  ∀ m ∈ within InsightMessage.createdAt period messages, m.flaggedForReview = true →
    ∃ c ∈ within InsightConversation.createdAt period conversations,
      day c.createdAt = day m.createdAt

end

section
variable {day : Moment → Text} {conversations : List InsightConversation}
  {messages : List InsightMessage} {period : Moment × Moment}

/-- The flags of a day are looked up among the rows. -/
theorem get_flagsByDay {rows : List (Text × ℕ)} (hrows : (rows.map Prod.fst).Nodup) :
    rows.foldl (fun d row => Dict.alter row.1 (fun _ => row.2) d) [] = rows := by
  have hnodup : (([] : List (Text × ℕ)).map Prod.fst ++ rows.map Prod.fst).Nodup := hrows
  rw [Dict.foldl_alter_of_nodup Prod.fst (fun row _ => row.2) rows hnodup]
  exact List.map_id rows

/-- The groups may come in any order: the days are sorted, and the flags looked up. -/
theorem trendPoints_perm {conversationRows conversationRows' : List (Text × ℕ × ℕ)}
    {flagRows flagRows' : List (Text × ℕ)} (hdays : (conversationRows.map Prod.fst).Nodup)
    (hflags : (flagRows.map Prod.fst).Nodup) (hconversations : conversationRows'.Perm conversationRows)
    (hflagRows : flagRows'.Perm flagRows) :
    trendPoints conversationRows' flagRows' = trendPoints conversationRows flagRows := by
  have hflags' : (flagRows'.map Prod.fst).Nodup := (hflagRows.map Prod.fst).nodup_iff.mpr hflags
  have hsort (rows : List (Text × ℕ × ℕ)) : (rows.insertionSort fun a b => a.1 ≤ b.1).Perm rows :=
    List.perm_insertionSort _ rows
  have hsorted : conversationRows'.insertionSort (fun a b => a.1 ≤ b.1) =
      conversationRows.insertionSort fun a b => a.1 ≤ b.1 := by
    refine List.Perm.eq_of_pairwise (fun a b ha hb hab hba => ?_)
      (List.pairwise_insertionSort _ conversationRows')
      (List.pairwise_insertionSort _ conversationRows)
      ((hsort conversationRows').trans (hconversations.trans (hsort conversationRows).symm))
    have ha : a ∈ conversationRows := hconversations.mem_iff.mp ((hsort _).mem_iff.mp ha)
    have hb : b ∈ conversationRows := (hsort _).mem_iff.mp hb
    exact List.inj_on_of_nodup_map hdays ha hb (le_antisymm hab hba)
  have hget (d : Text) : Dict.get d flagRows' = Dict.get d flagRows := by
    refine Option.ext fun n => ?_
    rw [Dict.get_eq_some_iff hflags', Dict.get_eq_some_iff hflags, hflagRows.mem_iff]
  simp only [trendPoints, get_flagsByDay hflags, get_flagsByDay hflags', hsorted, hget]

theorem nodup_flagRows : ((flagRows day messages period).map Prod.fst).Nodup := nodup_groupBy _

theorem mem_flagRows {d : Text} {n : ℕ} : (d, n) ∈ flagRows day messages period ↔
    (∃ m ∈ within InsightMessage.createdAt period messages, day m.createdAt = d) ∧
      n = ((within InsightMessage.createdAt period messages).filter fun m =>
        day m.createdAt = d).countP (·.flaggedForReview) := mem_groupBy

/-- The flags of a day, none for a day without messages. -/
theorem get_flagRows (d : Text) : (Dict.get d (flagRows day messages period)).getD 0 =
    ((within InsightMessage.createdAt period messages).filter fun m => day m.createdAt = d).countP
      (·.flaggedForReview) := by
  cases hget : Dict.get d (flagRows day messages period) with
  | some n =>
    have hmem := (Dict.get_eq_some_iff nodup_flagRows).mp hget
    exact (mem_flagRows.mp hmem).2
  | none =>
    have hempty : (within InsightMessage.createdAt period messages).filter
        (fun m => day m.createdAt = d) = [] := by
      refine List.filter_eq_nil_iff.mpr fun m hm hday => ?_
      have hrow := (Dict.get_eq_some_iff nodup_flagRows).mpr
        (mem_flagRows.mpr ⟨⟨m, hm, of_decide_eq_true hday⟩, rfl⟩)
      rw [hrow] at hget
      cases hget
    rw [hempty]
    rfl

theorem dates_trend (d : Text) : d ∈ (trend day conversations messages period).map (·.date) ↔
    ∃ c ∈ within InsightConversation.createdAt period conversations, day c.createdAt = d := by
  have hdates : ((trend day conversations messages period).map (·.date)).Perm
      ((conversationRows day conversations period).map Prod.fst) := by
    rw [trend, trendPoints, List.map_map]
    exact (List.perm_insertionSort _ _).map _
  rw [hdates.mem_iff, conversationRows, mem_keys_groupBy]

/-- What the points of the trend sum to, group by group. -/
theorem sum_trend (f : TrendPoint → ℕ) : ((trend day conversations messages period).map f).sum =
    ((conversationRows day conversations period).map fun row => f
      { date := row.1
        conversations := row.2.1
        flagged := (Dict.get row.1 (flagRows day messages period)).getD 0
        escalated := row.2.2 }).sum := by
  rw [trend, trendPoints, get_flagsByDay nodup_flagRows, List.map_map]
  exact ((List.perm_insertionSort _ _).map _).sum_eq

theorem sum_conversations :
    ((trend day conversations messages period).map (·.conversations)).sum =
      (within InsightConversation.createdAt period conversations).length := by
  have hcount : (((within InsightConversation.createdAt period conversations).map
      fun c => day c.createdAt).dedup.map fun d => ((within InsightConversation.createdAt period
        conversations).filter fun c => day c.createdAt = d).countP fun _ => true).sum =
      (within InsightConversation.createdAt period conversations).countP fun _ => true :=
    sum_groups _
  simp only [List.countP_true] at hcount
  rw [sum_trend, conversationRows, groupBy, List.map_map]
  exact hcount

theorem sum_flagged : ((trend day conversations messages period).map (·.flagged)).sum =
    (within InsightMessage.createdAt period messages).countP fun m => m.flaggedForReview &&
      decide (day m.createdAt ∈ ((within InsightConversation.createdAt period conversations).map
        fun c => day c.createdAt)) := by
  let days := (within InsightConversation.createdAt period conversations).map fun c => day c.createdAt
  have hdays : (days.dedup.map fun d => ((within InsightMessage.createdAt period messages).filter
      fun m => day m.createdAt = d).countP (·.flaggedForReview)).sum =
      (within InsightMessage.createdAt period messages).countP fun m =>
        m.flaggedForReview && decide (day m.createdAt ∈ days.dedup) := by
    convert sum_countP (fun m : InsightMessage => m.flaggedForReview) (List.nodup_dedup days)
  simp only [List.mem_dedup] at hdays
  rw [sum_trend, conversationRows, groupBy, List.map_map, ← hdays]
  exact congrArg List.sum (List.map_congr_left fun d _ => get_flagRows d)

end

/-- The trend adds up to the summary exactly when no flagged message stands on a day on which no
conversation began. -/
theorem getInsights_trendAddsUp_iff (lower : Text → Text) (day : Moment → Text)
    (conversations : List InsightConversation) (messages : List InsightMessage)
    (periodStart periodEnd : Option Moment) (now : Moment) :
    TrendAddsUp day messages (getInsights lower day conversations messages periodStart periodEnd now) ↔
      FlaggedDaysBegin day conversations messages (insightsPeriod periodStart periodEnd now) := by
  constructor
  · intro h m hm hflagged
    exact (dates_trend _).mp (h.days m hm hflagged)
  · intro h
    refine ⟨?_, sum_conversations, fun m hm hflagged => (dates_trend _).mpr (h m hm hflagged)⟩
    refine sum_flagged.trans ((countP_and_eq_iff _ _).mpr fun m hm hflagged => ?_)
    obtain ⟨c, hc, hday⟩ := h m hm hflagged
    exact decide_eq_true (List.mem_map.mpr ⟨c, hc, hday⟩)

/-- The first two days of the epoch, in UTC. -/
def epochDay (moment : Moment) : Text :=
  if moment < 86400000000 then "1970-01-01" else "1970-01-02"

/-- A flagged answer on the day after the conversation began. -/
theorem flagged_after_midnight : ¬ ∀ (lower : Text → Text) (day : Moment → Text) conversations messages
    periodStart periodEnd now, TrendAddsUp day messages
      (getInsights lower day conversations messages periodStart periodEnd now) := by
  intro h
  have hadds := h id epochDay [⟨.active, 86399000000⟩]
    [⟨.assistant, [], none, none, none, true, 86401000000⟩] (some 0) (some 172799000000) 0
  have hflagged := hadds.flagged
  exact absurd hflagged (by decide +kernel)

end Qiki.Chat
