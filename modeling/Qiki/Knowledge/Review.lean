import Qiki.Knowledge.Documents
import Qiki.Text.Vietnamese
import Qiki.Transition.Run

/-! `ReviewService`: the review of flagged messages and the documents learned from them. -/
namespace Qiki.Knowledge

open Unicode Orders Transition

inductive ReviewAction
  | approved | rejected | addedToKb
  deriving DecidableEq, Repr

/-- The columns of `messages` that a review reads and writes. -/
structure ReviewedMessage where
  id : Uuid
  content : Text
  correctedContent : Option Text := none
  flaggedForReview : Bool
  reviewAction : Option ReviewAction := none
  reviewedBy : Option Uuid := none
  reviewedAt : Option Timestamp := none
  deriving DecidableEq

/-- A document with the message it was learned from. -/
structure LearnedDocument (ε : Type) extends KbDocument ε where
  sourceMessageId : Option Uuid

structure ReviewTables (ε : Type) where
  messages : List ReviewedMessage
  documents : List (LearnedDocument ε)
  nextId : Uuid

/-- What a member of staff does with a message. -/
inductive ReviewStep
  | approve (correctedContent : Option Text)
  | reject
  | addToKnowledgeBase (category title : Text)

structure ReviewRequest where
  settings : Settings
  user : User
  now : Timestamp
  messageId : Uuid
  step : ReviewStep

/-- `_ensure_staff` of the review service. -/
def ensureReviewer (user : User) : Except KbExn Unit :=
  if user.isStaff then .ok () else .error (.forbidden "Only staff can review messages" "forbidden")

def requireMessage (messages : List ReviewedMessage) (messageId : Uuid) :
    Except KbExn ReviewedMessage :=
  match Table.find ReviewedMessage.id messageId messages with
  | none => .error (.notFound s!"Message not found: {messageId}" "not_found")
  | some message => .ok message

section
variable {ε : Type}

/-- `msg_repo.update` with the outcome of a review; a correction is written by approvals only. -/
def markReviewed (t : ReviewTables ε) (r : ReviewRequest) (action : ReviewAction)
    (correctedContent : ReviewedMessage → Option Text) : ReviewTables ε :=
  { t with messages := Table.modify ReviewedMessage.id r.messageId (fun m => { m with
      reviewAction := some action
      reviewedBy := some r.user.id
      reviewedAt := some r.now
      correctedContent := correctedContent m
      flaggedForReview := false }) t.messages }

def approveMessage (r : ReviewRequest) (correctedContent : Option Text) (t : ReviewTables ε) :
    Except KbExn (ReviewTables ε) := do
  ensureReviewer r.user
  let _ ← requireMessage t.messages r.messageId
  if correctedContent.all (FitsColumn none) then
    return markReviewed t r .approved fun _ => correctedContent
  else .error (.integrity "corrected_content")

def rejectMessage (r : ReviewRequest) (t : ReviewTables ε) : Except KbExn (ReviewTables ε) := do
  ensureReviewer r.user
  let _ ← requireMessage t.messages r.messageId
  return markReviewed t r .rejected ReviewedMessage.correctedContent

/-- `message.corrected_content or message.content` -/
def ReviewedMessage.answer (m : ReviewedMessage) : Text :=
  match m.correctedContent with
  | some corrected => if corrected.isEmpty then m.content else corrected
  | none => m.content

def learnedDocument (id : Uuid) (message : ReviewedMessage) (title category : Text)
    (embedding : ε) : LearnedDocument ε where
  id := id
  title := title
  content := message.answer
  category := category
  source := some "user_chat_approved"
  metadata := .obj []
  isActive := true
  embeddings := { gemini := some embedding }
  sourceMessageId := some message.id

variable (db : Database) (embed : Space → Text → ε)

def addToKnowledgeBase (r : ReviewRequest) (category title : Text) (t : ReviewTables ε) :
    Except KbExn (ReviewTables ε) := do
  ensureReviewer r.user
  let message ← requireMessage t.messages r.messageId
  let embedding ← embedText db embed r.settings .gemini (embeddingText title message.answer)
  let title ← checkColumn "title" (some 255) (some title)
  let _ ← checkColumn "content" none (some message.answer)
  let category ← checkCategory (some category)
  let document := learnedDocument t.nextId message title category embedding
  let t := { t with documents := t.documents ++ [document], nextId := t.nextId + 1 }
  return markReviewed t r .addedToKb ReviewedMessage.correctedContent

def reviewed (t : ReviewTables ε) (r : ReviewRequest) : Except KbExn (ReviewTables ε) :=
  match r.step with
  | .approve correctedContent => approveMessage r correctedContent t
  | .reject => rejectMessage r t
  | .addToKnowledgeBase category title => addToKnowledgeBase db embed r category title t

/-- The tables after a request: a failed one is rolled back. -/
def review (t : ReviewTables ε) (r : ReviewRequest) : ReviewTables ε :=
  match reviewed db embed t r with
  | .ok t' => t'
  | .error _ => t

end

section
variable {ε : Type}

/-- The active documents that were learned from a message. -/
def activeDocuments (t : ReviewTables ε) (messageId : Uuid) : List (LearnedDocument ε) :=
  t.documents.filter fun d => d.isActive && d.sourceMessageId = some messageId

/-- Each message has at most one active document, a rejected one has none. -/
def Curated (t : ReviewTables ε) : Prop :=
  ∀ m ∈ t.messages, (activeDocuments t m.id).length ≤ 1 ∧
    (m.reviewAction = some .rejected → (activeDocuments t m.id).length = 0)

instance (t : ReviewTables ε) : Decidable (Curated t) :=
  inferInstanceAs (Decidable (∀ m ∈ t.messages, _))

/-- The request comes from staff, names a message and fits the columns that it writes; a document
that it makes can be embedded. -/
def ReviewRequest.Succeeds (db : Database) (r : ReviewRequest) (t : ReviewTables ε) : Prop :=
  r.user.isStaff = true ∧
    ∃ m, Table.find ReviewedMessage.id r.messageId t.messages = some m ∧
      match r.step with
      | .approve correctedContent => correctedContent.all (FitsColumn none) = true
      | .reject => True
      | .addToKnowledgeBase category title =>
        (isBlankText db (embeddingText title m.answer) ∨ r.settings.availability .gemini = .up) ∧
          FitsColumn (some 255) title ∧ FitsColumn none m.answer ∧ category ∈ knowledgeCategories

/-- A message is rejected, or learned from, only while no active document stands for it. -/
def NotLearnedYet (db : Database) (t : ReviewTables ε) (r : ReviewRequest) : Prop :=
  match r.step with
  | .approve _ => True
  | _ => r.Succeeds db t → (activeDocuments t r.messageId).length = 0

end

/-! One request. -/

section
variable {ε : Type} {db : Database} {embed : Space → Text → ε} {t : ReviewTables ε}
  {r : ReviewRequest}

theorem ensureReviewer_eq_ok {user : User} : ensureReviewer user = .ok () ↔ user.isStaff = true := by
  unfold ensureReviewer
  split_ifs with h <;> simp [h]

theorem requireMessage_eq_ok {messages : List ReviewedMessage} {messageId : Uuid}
    {m : ReviewedMessage} : requireMessage messages messageId = .ok m ↔
      Table.find ReviewedMessage.id messageId messages = some m := by
  unfold requireMessage
  cases Table.find ReviewedMessage.id messageId messages <;> simp

/-- The embedding of a learned document. -/
theorem embedText_gemini_eq_ok {settings : Settings} {text : Text} {e : ε} :
    embedText db embed settings .gemini text = .ok e ↔
      (isBlankText db text ∨ settings.availability .gemini = .up) ∧ e = embed .gemini text := by
  unfold embedText callProvider
  cases hblank : isBlankText db text <;> cases settings.availability .gemini <;> simp [eq_comm]

/-- A request that does not succeed changes nothing. -/
theorem review_of_fails (h : ¬ r.Succeeds db t) : review db embed t r = t := by
  unfold review
  split
  case h_2 => rfl
  case h_1 t' ht' =>
    exfalso
    apply h
    unfold reviewed at ht'
    unfold ReviewRequest.Succeeds
    cases hr : r.step with
    | approve corrected =>
      rw [hr] at ht'
      obtain ⟨_, huser, ht'⟩ := Except.bind_eq_ok ht'
      obtain ⟨m, hm, ht'⟩ := Except.bind_eq_ok ht'
      refine ⟨ensureReviewer_eq_ok.mp huser, m, requireMessage_eq_ok.mp hm, ?_⟩
      by_contra hlong
      rw [if_neg hlong] at ht'
      cases ht'
    | reject =>
      rw [hr] at ht'
      obtain ⟨_, huser, ht'⟩ := Except.bind_eq_ok ht'
      obtain ⟨m, hm, -⟩ := Except.bind_eq_ok ht'
      exact ⟨ensureReviewer_eq_ok.mp huser, m, requireMessage_eq_ok.mp hm, trivial⟩
    | addToKnowledgeBase category title =>
      rw [hr] at ht'
      obtain ⟨_, huser, ht'⟩ := Except.bind_eq_ok ht'
      obtain ⟨m, hm, ht'⟩ := Except.bind_eq_ok ht'
      obtain ⟨e, he, ht'⟩ := Except.bind_eq_ok ht'
      obtain ⟨_, htitle, ht'⟩ := Except.bind_eq_ok ht'
      obtain ⟨_, hcontent, ht'⟩ := Except.bind_eq_ok ht'
      obtain ⟨_, hcategory, -⟩ := Except.bind_eq_ok ht'
      obtain ⟨htitle, hfits⟩ := checkColumn_eq_ok.mp htitle
      obtain ⟨hcontent, hanswer⟩ := checkColumn_eq_ok.mp hcontent
      obtain ⟨hcategory, hmem⟩ := checkCategory_eq_ok.mp hcategory
      cases htitle
      cases hcontent
      cases hcategory
      exact ⟨ensureReviewer_eq_ok.mp huser, m, requireMessage_eq_ok.mp hm,
        (embedText_gemini_eq_ok.mp he).1, hfits, hanswer, hmem⟩

section Succeeds
variable (h : r.Succeeds db t)
include h

/-- The message of a request that succeeds. -/
theorem message_of_succeeds : ∃ m ∈ t.messages, m.id = r.messageId := by
  obtain ⟨-, m, hm, -⟩ := h
  exact ⟨m, Table.mem_of_find hm, Table.key_of_find hm⟩

theorem review_approve {corrected : Option Text} (hr : r.step = .approve corrected) :
    review db embed t r = markReviewed t r .approved fun _ => corrected := by
  obtain ⟨hstaff, m, hm, hstep⟩ := h
  rw [hr] at hstep
  simp only [review, reviewed, hr, approveMessage, ensureReviewer_eq_ok.mpr hstaff,
    requireMessage_eq_ok.mpr hm]
  simp only [hstep, if_true]
  rfl

theorem review_reject (hr : r.step = .reject) :
    review db embed t r = markReviewed t r .rejected ReviewedMessage.correctedContent := by
  obtain ⟨hstaff, m, hm, -⟩ := h
  simp only [review, reviewed, hr, rejectMessage, ensureReviewer_eq_ok.mpr hstaff,
    requireMessage_eq_ok.mpr hm]
  rfl

theorem review_addToKnowledgeBase {category title : Text}
    (hr : r.step = .addToKnowledgeBase category title) :
    ∃ m embedding, m.id = r.messageId ∧ review db embed t r =
      { markReviewed t r .addedToKb ReviewedMessage.correctedContent with
        documents := t.documents ++ [learnedDocument t.nextId m title category embedding]
        nextId := t.nextId + 1 } := by
  obtain ⟨hstaff, m, hm, hstep⟩ := h
  rw [hr] at hstep
  obtain ⟨hembeds, htitle, hcontent, hcategory⟩ := hstep
  refine ⟨m, embed .gemini (embeddingText title m.answer), Table.key_of_find hm, ?_⟩
  have hadded : addToKnowledgeBase db embed r category title t = .ok
      { markReviewed t r .addedToKb ReviewedMessage.correctedContent with
        documents := t.documents ++ [learnedDocument t.nextId m title category
          (embed .gemini (embeddingText title m.answer))]
        nextId := t.nextId + 1 } := by
    refine Except.bind_eq_ok_iff.mpr ⟨(), ensureReviewer_eq_ok.mpr hstaff, ?_⟩
    refine Except.bind_eq_ok_iff.mpr ⟨m, requireMessage_eq_ok.mpr hm, ?_⟩
    refine Except.bind_eq_ok_iff.mpr ⟨_, embedText_gemini_eq_ok.mpr ⟨hembeds, rfl⟩, ?_⟩
    refine Except.bind_eq_ok_iff.mpr ⟨title, checkColumn_eq_ok.mpr ⟨rfl, htitle⟩, ?_⟩
    refine Except.bind_eq_ok_iff.mpr ⟨m.answer, checkColumn_eq_ok.mpr ⟨rfl, hcontent⟩, ?_⟩
    exact Except.bind_eq_ok_iff.mpr ⟨category, checkCategory_eq_ok.mpr ⟨rfl, hcategory⟩, rfl⟩
  simp only [review, reviewed, hr, hadded]

end Succeeds

/-- The workflow state of the messages after a review of one of them. -/
theorem curated_markReviewed {action : ReviewAction} {corrected : ReviewedMessage → Option Text}
    {documents : List (LearnedDocument ε)} {nextId : Uuid} :
    Curated { markReviewed t r action corrected with documents := documents, nextId := nextId } ↔
      ∀ m ∈ t.messages,
        (activeDocuments { t with documents := documents } m.id).length ≤ 1 ∧
          ((if m.id = r.messageId then some action else m.reviewAction) = some .rejected →
            (activeDocuments { t with documents := documents } m.id).length = 0) := by
  unfold Curated
  simp only [markReviewed, Table.modify, List.forall_mem_map]
  refine forall_congr' fun m => imp_congr_right fun _ => ?_
  by_cases hm : m.id = r.messageId
  · rw [if_pos hm, if_pos hm]
    rfl
  · rw [if_neg hm, if_neg hm]
    rfl

theorem activeDocuments_append {m : ReviewedMessage} {id messageId : Uuid}
    {title category : Text} {embedding : ε} :
    (activeDocuments { t with
      documents := t.documents ++ [learnedDocument id m title category embedding] }
        messageId).length =
      (activeDocuments t messageId).length + if m.id = messageId then 1 else 0 := by
  unfold activeDocuments
  rw [List.filter_append, List.length_append, List.filter_singleton]
  by_cases hm : m.id = messageId <;> simp [learnedDocument, hm]

/-- One request keeps the knowledge base curated exactly when it meets the condition. -/
theorem notLearnedYet_iff (ht : Curated t) :
    NotLearnedYet db t r ↔ Curated (review db embed t r) := by
  by_cases h : r.Succeeds db t
  swap
  · rw [review_of_fails h]
    refine iff_of_true ?_ ht
    unfold NotLearnedYet
    split
    · trivial
    · exact fun hsucceeds => absurd hsucceeds h
  obtain ⟨m, hmem, hid⟩ := message_of_succeeds h
  unfold NotLearnedYet
  cases hr : r.step with
  | approve corrected =>
    rw [review_approve h hr]
    refine iff_of_true trivial (curated_markReviewed.mpr fun m' hm' => ?_)
    refine ⟨(ht m' hm').1, fun hrejected => ?_⟩
    split_ifs at hrejected with heq
    · cases hrejected
    · exact (ht m' hm').2 hrejected
  | reject =>
    rw [review_reject h hr]
    constructor
    · intro hnone
      refine curated_markReviewed.mpr fun m' hm' => ⟨(ht m' hm').1, fun hrejected => ?_⟩
      split_ifs at hrejected with heq
      · rw [heq]
        exact hnone h
      · exact (ht m' hm').2 hrejected
    · intro hcurated _
      have hm := (curated_markReviewed.mp hcurated m hmem).2
      rw [if_pos hid, hid] at hm
      exact hm rfl
  | addToKnowledgeBase category title =>
    obtain ⟨source, embedding, hsource, hreview⟩ :=
      @review_addToKnowledgeBase ε db embed t r h category title hr
    rw [hreview, curated_markReviewed]
    simp only [activeDocuments_append, hsource]
    constructor
    · intro hnone m' hm'
      by_cases heq : m'.id = r.messageId
      · rw [if_pos heq, if_pos heq.symm, heq, hnone h]
        exact ⟨le_refl 1, fun hrejected => by cases hrejected⟩
      · rw [if_neg heq, if_neg (Ne.symm heq)]
        exact ht m' hm'
    · intro hcurated _
      have hm := (hcurated m hmem).1
      rw [if_pos hid.symm, hid] at hm
      omega

/-- In a run of reviews the knowledge base stays curated at every point exactly when each request
rejects, or learns from, only messages without an active document. -/
theorem curated_iff (ht : Curated t) (requests : List ReviewRequest) :
    (∀ done, done <+: requests → Curated (done.foldl (review db embed) t)) ↔
      Guarded (fun t r => some (review db embed t r)) (NotLearnedYet db) t requests :=
  guarded_iff_forall_prefix (fun _ h => h) (fun _ _ h => notLearnedYet_iff h)
    (fun _ _ h hguard => (notLearnedYet_iff h).mp hguard) ht requests

end

/-! A flagged answer. -/

def reviewer : User where
  id := 3
  role := .staff
  fullName := none
  phone := none
  address := none
  deliveryNotes := none

/-- An answer that was flagged, and a knowledge base without documents. -/
def flaggedAnswer : ReviewTables Unit where
  messages := [{ id := 1, content := "Dạ bình 12kg giá 400.000đ ạ.", flaggedForReview := true }]
  documents := []
  nextId := 10

def reviewStep (step : ReviewStep) : ReviewRequest where
  settings := ⟨.gemini, fun _ => .up⟩
  user := reviewer
  now := 100
  messageId := 1
  step := step

/-- Approving, learning once and approving again. -/
theorem curated_learnedOnce :
    Curated ([ReviewStep.approve none, .addToKnowledgeBase "pricing" "Giá bình 12kg",
      .approve none].map reviewStep |>.foldl (review Vietnamese.database fun _ _ => ()) flaggedAnswer) := by
  have hcurated : Curated flaggedAnswer := by decide
  refine (curated_iff hcurated _).mpr ?_ _ (List.prefix_refl _)
  refine ⟨trivial, fun t ht => ⟨fun _ => ?_, fun t' ht' => ⟨trivial, fun _ _ => trivial⟩⟩⟩
  obtain rfl := Option.some.inj ht
  decide

/-- A rejection leaves the document that was learned before, and learning twice makes two. -/
theorem rejected_answer_stays :
    ¬ ∀ (t : ReviewTables Unit) (requests : List ReviewRequest), Curated t →
      Curated (requests.foldl (review Vietnamese.database fun _ _ => ()) t) := by
  intro h
  have hrejected := h flaggedAnswer ([ReviewStep.addToKnowledgeBase "pricing" "Giá bình 12kg",
    .reject].map reviewStep) (by decide)
  revert hrejected
  decide

example : ¬ Curated ([ReviewStep.addToKnowledgeBase "pricing" "Giá", .addToKnowledgeBase "pricing"
    "Giá"].map reviewStep |>.foldl (review Vietnamese.database fun _ _ => ()) flaggedAnswer) := by decide

end Qiki.Knowledge
