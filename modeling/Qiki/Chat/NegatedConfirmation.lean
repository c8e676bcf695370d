import Qiki.Chat.NormalForm
import Qiki.Chat.TurnReplies

/-! A confirmation with a negator before it, and the turns that place an order. -/
namespace Qiki.Chat

open Unicode Orders

/-! Negators. -/

/-- Words that turn what follows into a refusal. -/
def negators : List Text := ["không", "ko", "chưa", "đừng", "khoan"]

/-- The negators in normal form. -/
def normalizedNegators : List Text := ["khong", "ko", "chua", "dung", "khoan"]

section
variable {db : Database} (h : Vietnamese.Extends db)
include h

theorem foldAccents_eq {s : Text} (hs : s.all Vietnamese.isKnown)
    (hl : (Text.replace "đ" "d" (lower Vietnamese.database s)).all Vietnamese.isKnown)
    (hd : ((Text.replace "đ" "d" (lower Vietnamese.database s)).flatMap
      Vietnamese.database.decompose).all Vietnamese.isKnown) :
    foldAccents db s = foldAccents Vietnamese.database s := by
  unfold foldAccents
  rw [h.agree.lower_eq (by decide +kernel) hs, h.agree.withoutMarks_eq hl hd]

theorem normalizeMatchText_negator {n : Text} (hn : n ∈ negators) :
    normalizeMatchText db n ∈ normalizedNegators := by
  have hknown : ∀ n ∈ negators, n.all Vietnamese.isKnown ∧
      (Text.replace "đ" "d" (lower Vietnamese.database n)).all Vietnamese.isKnown ∧
      ((Text.replace "đ" "d" (lower Vietnamese.database n)).flatMap
        Vietnamese.database.decompose).all Vietnamese.isKnown := by decide +kernel
  have hnormal : ∀ n ∈ negators,
      normalizeMatchText Vietnamese.database n ∈ normalizedNegators := by decide +kernel
  obtain ⟨hs, hl, hd⟩ := hknown n hn
  unfold normalizeMatchText
  rw [foldAccents_eq h hs hl hd]
  exact hnormal n hn

/-- A negated yes still counts as one exactly when the yes is one of the phrases that are looked
for anywhere in a message. -/
theorem isAffirmation_negated {n a : Text} (hn : n ∈ negators) (ha : isAffirmation db a) :
    isAffirmation db (n ++ ' ' :: a) = (normalizeMatchText db a).containsAny affirmativePhrases := by
  have hnegator := normalizeMatchText_negator h hn
  have hn0 : normalizeMatchText db n ≠ [] := by
    intro hnil
    rw [hnil] at hnegator
    exact absurd hnegator (by decide)
  have ha0 : normalizeMatchText db a ≠ [] := by
    intro hnil
    rw [isAffirmation, hnil] at ha
    exact absurd ha (by decide)
  have hjoin := normalizeMatchText_append h.isBoundary_space hn0 ha0
  generalize normalizeMatchText db n = n' at hnegator hjoin
  rw [isAffirmation] at ha ⊢
  rw [hjoin]
  generalize normalizeMatchText db a = a' at ha
  cases hphrase : a'.containsAny affirmativePhrases with
  | true =>
    have hsuffix : a' <:+ n' ++ ' ' :: a' := ⟨n' ++ [' '], by simp⟩
    simp [Text.containsAny_of_suffix hsuffix hphrase]
  | false =>
    -- the yes is one of the short answers, and no longer one behind a negator
    have hshort : a' ∈ affirmations := by simpa [hphrase] using ha
    have hfinite : ∀ n ∈ normalizedNegators, ∀ a ∈ affirmations,
        a.containsAny affirmativePhrases = false →
          (affirmations.contains (n ++ ' ' :: a) ||
            (n ++ ' ' :: a).containsAny affirmativePhrases) = false := by decide +kernel
    exact hfinite n' hnegator a' hshort hphrase

end

/-! Placing an order. -/

def OrderOutcome.isCreateOrder : OrderOutcome → Bool
  | .createOrder .. => true
  | _ => false

section
variable (rt : Runtime) (turn : ChatTurn)

/-- The turn calls `create_order`. -/
def callsCreateOrder : Bool :=
  selectBranch rt turn = .order && (handleChatOrder rt turn.orderTurn).isCreateOrder

theorem callsCreateOrder_iff : callsCreateOrder rt turn = true ↔ selectBranch rt turn = .order ∧
    ∃ placed checkout key, handleChatOrder rt turn.orderTurn = .createOrder placed checkout key := by
  unfold callsCreateOrder
  rw [Bool.and_eq_true, decide_eq_true_eq]
  refine and_congr_right fun _ => ?_
  cases handleChatOrder rt turn.orderTurn <;> simp [OrderOutcome.isCreateOrder]

end

/-! A summary and its answer. -/

/-- The one product of a small catalog. -/
def elfGas : Product where
  id := 2
  sku := "ELF-12"
  name := "Gas Elf đỏ"
  brand := "Elf Gas"
  sizeKg := 12
  category := .gas
  unit := "kg"
  price := 400000
  salePrice := none
  stockQuantity := 10
  isActive := true

/-- Two cylinders for Lan, paid on delivery. -/
def lanSlots : ChatOrderSlots where
  items := [⟨some "Gas Elf đỏ 12 kg", some 2⟩]
  customerName := some "Lan"
  customerPhone := some "0912345678"
  deliveryAddress := some "phường bình thọ"
  paymentMethod := some "cod"

/-- The customer's answer to the summary of `lanSlots`. -/
def answerToSummary (content : Text) : ChatTurn :=
  let summary : Message := {
    role := .assistant
    content := "Qiki tóm tắt đơn hàng của bạn:"
    retrievedDocuments := some (.arr [orderStateMetadata "awaiting_confirmation" (some lanSlots) []])
    createdAt := 0 }
  { guestTurn .placeOrder content with messages := [summary], catalog := [elfGas] }

end Qiki.Chat
