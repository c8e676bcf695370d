import Qiki.Chat.CartAfter
import Qiki.Chat.PipelineTurns
import Qiki.Chat.ShownOrder
import Qiki.Text.Search

/-! A plain yes to a shown summary, up to the order that it makes ready. -/
namespace Qiki.Chat

open Unicode Regex Orders Catalog AddressLookup

/-! What the message after a summary reads. -/

section
variable {rt : Runtime} {slots : ChatOrderSlots} {status : Text} {extra : List (Text × Json)}

theorem slotsFromOrderState_stored (hname : present slots.customerName = true) :
    slotsFromOrderState rt (some (orderStateMetadata status (some slots) extra)) =
      some (rereadSlots rt.db slots) := by
  have hstored : (slotsToMetadata (some slots)).isEmpty = false := by
    have hlookup := lookup_slotsToMetadata slots "customer_name"
    rw [lookup_itemsField_of_ne (by decide), lookup_textField_self, Option.none_or] at hlookup
    cases hempty : (slotsToMetadata (some slots)).isEmpty with
    | false => rfl
    | true =>
      obtain ⟨name, hvalue, hne⟩ := (Option.any_eq_true _ _).mp hname
      rw [List.isEmpty_iff.mp hempty, hvalue, Option.filter_some, hne] at hlookup
      cases hlookup
  unfold slotsFromOrderState orderStateMetadata
  simp only [Option.bind_some, Json.getOrNull, Json.get, hstored, Bool.false_eq_true, if_false]
  rw [List.lookup_cons, beq_false_of_ne (by decide)]
  simp only
  rw [List.lookup_cons, beq_false_of_ne (by decide)]
  simp only [List.lookup_cons_self, Option.getD_some]
  exact slotsFromMetadata_slotsToMetadata rt slots

end

section
variable {rt : Runtime} {turn : OrderTurn} {o : ReadyOrder} {language : Language}
  {history : List Message} {sent : Timestamp}
  (hhistory : turn.history = history ++ [(summaryReply o language).toMessage sent])
include hhistory

theorem orderState_afterSummary (hfresh : turn.now - sent ≤ orderStateTtl) :
    (readTurn rt turn).orderState =
      some (orderStateMetadata "awaiting_confirmation" (some o.slots) []) := by
  have hstate : hasMetadataType (summaryReply o language).metadata chatOrderStateMetadataType =
      true := by
    refine List.any_eq_true.mpr ⟨_, List.mem_singleton_self _, ?_⟩
    rw [hasType_orderStateMetadata]
    decide
  have horder : hasMetadataType (summaryReply o language).metadata chatOrderMetadataType =
      false := by
    change hasMetadataType [orderStateMetadata "awaiting_confirmation" (some o.slots) []] _ = _
    rw [hasMetadataType, List.any_cons, hasType_orderStateMetadata]
    decide
  change findOrderState rt.db turn.now turn.history turn.content = _
  rw [hhistory, findOrderState_reply history hfresh (Or.inr ⟨horder, hstate⟩), summaryReply,
    state_orderStateMessage (by decide)]

/-- A summary that is no longer fresh is not found, and nothing behind it is. -/
theorem orderState_afterStaleSummary (hstale : ¬ turn.now - sent ≤ orderStateTtl) :
    (readTurn rt turn).orderState = none := by
  have horder : hasMetadataType [orderStateMetadata "awaiting_confirmation" (some o.slots) []]
      chatOrderMetadataType = false := by
    rw [hasMetadataType, List.any_cons, hasType_orderStateMetadata]
    decide
  have hfind : [orderStateMetadata "awaiting_confirmation" (some o.slots) []].find?
      (hasType chatOrderStateMetadataType) =
        some (orderStateMetadata "awaiting_confirmation" (some o.slots) []) := by
    refine List.find?_cons_of_pos ?_
    rw [hasType_orderStateMetadata]
    decide
  have hold : isOrderStateFresh turn.now ((summaryReply o language).toMessage sent) = false :=
    decide_eq_false hstale
  have hdocuments : ((summaryReply o language).toMessage sent).documents =
      some [orderStateMetadata "awaiting_confirmation" (some o.slots) []] := rfl
  have hrole : ((summaryReply o language).toMessage sent).role = .assistant := rfl
  change findOrderState rt.db turn.now turn.history turn.content = _
  unfold findOrderState
  rw [hhistory, List.reverse_append, List.reverse_singleton, List.singleton_append, orderStateFrom]
  simp only [hdocuments, hrole, horder, hfind, hold, ne_eq, not_true_eq_false, if_false,
    Bool.false_eq_true, Bool.not_false, if_true]

end

/-! A message that says yes and nothing else. -/

/-- What is read is nothing, or what is stored. -/
def Repeats (read stored : Option Text) : Prop := present read = true → read = stored

instance (read stored : Option Text) : Decidable (Repeats read stored) :=
  inferInstanceAs (Decidable (_ → _))

theorem Repeats.orElse {read stored : Option Text} (h : Repeats read stored) :
    orElse read stored = stored := by
  cases hread : present read with
  | true => rw [orElse_of_present hread, h hread]
  | false => rw [orElse_of_not_present hread]

/-- Neither the text of the message nor the extraction reads an item or other contact data from
it. -/
structure PlainAnswer (rt : Runtime) (turn : OrderTurn) (slots : ChatOrderSlots) : Prop where
  noItems : (readTurn rt turn).candidates = []
  name : Repeats (readTurn rt turn).contact.customerName slots.customerName
  phone : Repeats (readTurn rt turn).contact.customerPhone slots.customerPhone
  address : Repeats (readTurn rt turn).contact.deliveryAddress slots.deliveryAddress
  notes : Repeats (readTurn rt turn).contact.deliveryNotes slots.deliveryNotes
  payment : Repeats (readTurn rt turn).contact.paymentMethod slots.paymentMethod

/-- The message is one of the answers that count as a yes, without an hour, and says nothing
else. -/
structure PlainYes (rt : Runtime) (turn : OrderTurn) (slots : ChatOrderSlots) : Prop
    extends PlainAnswer rt turn slots where
  short : normalizeMatchText rt.db turn.content ∈ affirmations ++ affirmativePhrases
  noHour : extractAmbiguousDeliveryTimeWindow rt.db turn.content = none

/-- The stored slots once the yes was read: words of the message may come in as a name, and a
time as a note. -/
def yesSlots (rt : Runtime) (turn : OrderTurn) (slots : ChatOrderSlots) : ChatOrderSlots :=
  { slots with
    customerName := orElse (extractNameCandidate rt.db turn.content slots.paymentMethod)
      slots.customerName
    deliveryNotes := orElse slots.deliveryNotes (extractDeliveryTimeCandidate rt.db turn.content)
    confirmed := true }

section
variable {rt : Runtime} {turn : OrderTurn} {slots : ChatOrderSlots}

theorem PlainYes.isAffirmation (h : PlainYes rt turn slots) :
    isAffirmation rt.db turn.content = true := by
  have hlist : ∀ n ∈ affirmations ++ affirmativePhrases,
      (affirmations.contains n || n.containsAny affirmativePhrases) = true := by decide
  exact hlist _ h.short

theorem PlainYes.not_orderChange (h : PlainYes rt turn slots) :
    asksPostOrderChange rt turn = none := by
  have hlist : ∀ n ∈ affirmations ++ affirmativePhrases,
      n.containsAny ["doi", "doi sang", "chuyen sang", "thay doi", "sua", "cap nhat"] = false ∧
      n.containsAny ["doi thong tin", "sua thong tin", "cap nhat thong tin", "doi hinh thuc",
        "sua hinh thuc"] = false := by decide
  have hnot : isPostOrderChangeRequest rt.db turn.content = false := by
    simp only [isPostOrderChangeRequest, hlist _ h.short, Bool.and_false, Bool.or_false]
  refine Option.filter_eq_none_iff.mpr fun _ _ => ?_
  rw [hnot]
  exact Bool.false_ne_true

theorem PlainYes.interrupt (h : PlainYes rt turn slots) :
    interrupt rt turn (readTurn rt turn) = .ok () := by
  have hlist : ∀ n ∈ affirmations ++ affirmativePhrases, isOrderCancelRequest n = false := by decide
  have hnot : isOrderCancelRequest (readTurn rt turn).normalized = false := hlist _ h.short
  unfold Chat.interrupt
  rw [hnot, Bool.and_false, if_neg Bool.false_ne_true, h.noHour]
  cases (readTurn rt turn).orderState <;> rfl

theorem orElse_reread_none (db : Database) (value : Option Text) :
    orElse (reread db value) none = reread db value := by
  cases hvalue : reread db value with
  | none => rfl
  | some t =>
    have hne : t ≠ [] := by
      rintro rfl
      cases value with
      | none => cases hvalue
      | some v =>
        simp only [reread, Option.bind_some, nonEmpty] at hvalue
        split_ifs at hvalue with hempty
        rw [Option.some.inj hvalue] at hempty
        exact hempty rfl
    exact orElse_of_present (by simp [present, hne])

/-- Merged with the contact data of a plain answer, the stored slots stay. -/
theorem PlainAnswer.merged (h : PlainAnswer rt turn (rereadSlots rt.db slots)) :
    mergeOrderSlots rt.db (some (rereadSlots rt.db slots)) (some (readTurn rt turn).contact) =
      { rereadSlots rt.db slots with confirmed := (readTurn rt turn).contact.confirmed } := by
  have hcontact : (readTurn rt turn).contact.items = [] := rfl
  have hitems (items : List ChatOrderItem) :
      mergeOrderItems rt.db (mergeOrderItems rt.db [] items) [] = items := by
    cases items <;> rfl
  simp only [mergeOrderSlots, List.filterMap_cons, List.filterMap_nil, id, List.foldl_cons,
    List.foldl_nil, mergeSource, hcontact, hitems, Bool.false_or]
  simp only [rereadSlots, orElse_reread_none, ChatOrderSlots.mk.injEq, true_and]
  exact ⟨h.name.orElse, h.phone.orElse, h.address.orElse, h.notes.orElse, h.payment.orElse,
    Bool.false_or _⟩

theorem withPhoneCandidate_of_valid {db : Database} {content : Text}
    (hpresent : present slots.customerPhone = true)
    (hvalid : (validatePhone db (slots.customerPhone.getD [])).isSome = true) :
    withPhoneCandidate db slots content = slots := by
  unfold withPhoneCandidate
  cases extractPhoneCandidate db content with
  | none => rfl
  | some candidate => simp only [hpresent, hvalid, Bool.and_self, if_true]

end

section
variable {rt : Runtime} {turn : OrderTurn} {slots : ChatOrderSlots}

/-- Where phone and payment are known, the text of a message adds a name and a time at most. -/
theorem completeSlots_of_filled (r : TurnReading) (confirm : Bool)
    (hphone : present slots.customerPhone = true)
    (hvalid : (validatePhone rt.db (slots.customerPhone.getD [])).isSome = true)
    (hpayment : present slots.paymentMethod = true) :
    completeSlots rt turn r (slots, confirm) = { slots with
      customerName := orElse (extractNameCandidate rt.db turn.content slots.paymentMethod)
        slots.customerName
      deliveryNotes := orElse slots.deliveryNotes (extractDeliveryTimeCandidate rt.db turn.content)
      confirmed := confirms rt turn r confirm } := by
  simp only [completeSlots]
  rw [withPhoneCandidate_of_valid hphone hvalid]
  simp only [withOrderCues, withDeliveryTimeCandidate, orElse_of_present hpayment]

end

/-- A word of a text is a part of it. -/
theorem contains_of_hasWord {db : Database} {text word : Text} (hword : word ≠ [])
    (h : hasWord db text word = true) : text.contains word = true := by
  obtain ⟨x, y, k', hs, hk'⟩ := search_isSome.mp h
  obtain ⟨c, w, rfl⟩ := List.exists_cons_of_ne_nil hword
  have hspells : Spells ⟨db, false⟩ (literal (c :: w)) (· = c :: w) := Spells.literal rfl c w
  obtain ⟨-, hk'⟩ := mem_seq_wordBoundary.mp hk'
  obtain ⟨_, rest, rfl, hrest, -⟩ := hspells.mem_seq.mp hk'
  have hy : y = (c :: w) ++ rest := hrest
  rw [hs, hy]
  exact Text.contains_iff.mpr ⟨x, rest, by simp⟩

/-- No person and no product is asked for in a yes. -/
theorem PlainYes.asks_nothing {rt : Runtime} {turn : OrderTurn} {slots : ChatOrderSlots}
    (h : PlainYes rt turn slots) (catalog : List Product) :
    isExplicitHumanRequest rt.db turn.content = false ∧
      asksAboutProduct rt.db turn.content catalog = false := by
  have hhuman : ∀ n ∈ affirmations ++ affirmativePhrases, n.containsAny
      ["gap nhan vien", "gap nguoi that", "cho gap nhan vien", "cho gap nguoi that",
        "goi nhan vien", "goi nguoi that", "chuyen nhan vien", "chuyen nguoi that",
        "can nhan vien", "keu nhan vien", "keu nguoi", "noi chuyen voi nhan vien", "gap nguoi",
        "can gap nguoi", "muon gap nhan vien"] = false := by decide +kernel
  have hcues : ∀ n ∈ affirmations ++ affirmativePhrases, ∀ cue ∈ ([ "gia", "bao nhieu", "co ban",
      "con hang", "loai nao", "san pham nao"] : List Text), cue ≠ [] ∧ n.contains cue = false := by
    decide +kernel
  refine ⟨hhuman _ h.short, ?_⟩
  have hcue : hasProductQuestionCue rt.db (normalizeMatchText rt.db turn.content) = false :=
    List.any_eq_false.mpr fun cue hmem hword => by
      obtain ⟨hne, hnone⟩ := hcues _ h.short cue hmem
      rw [contains_of_hasWord hne hword] at hnone
      cases hnone
  unfold asksAboutProduct
  simp [hcue]

/-! The order that a plain yes makes ready. -/

section
variable {db : Database}

theorem reread_of_ne {value : Option Text} (h : Text.strip db.space (value.getD []) ≠ []) :
    reread db value = some (Text.strip db.space (value.getD [])) := by
  cases value with
  | none => exact absurd rfl h
  | some t => simp [reread, nonEmpty, show Text.strip db.space t ≠ [] from h]

theorem present_of_ne {t : Text} (h : t ≠ []) : present (some t) = true := by
  simp [present, h]

theorem strip_ne_nil_of_phone {phone normalized : Text}
    (h : validatePhone db phone = some normalized) : Text.strip db.space phone ≠ [] := by
  intro hempty
  rw [← validatePhone_strip, hempty] at h
  obtain ⟨x, tail, -, -, -, hdigits | hdigits⟩ := validatePhone_eq_some.mp h
  · cases hdigits
  · cases hdigits

theorem strip_ne_nil_of_payment (hblanks : BlanksSeparate db) {text : Text} {method : PaymentMethod}
    (h : normalizePaymentMethod db text = some method) : Text.strip db.space text ≠ [] := by
  intro hempty
  have hnil : normalizePaymentMethod db [] = none := rfl
  rw [← normalizePaymentMethod_strip hblanks, hempty, hnil] at h
  cases h

end

/-- The order that is ready after a plain yes to the summary of `o`. -/
def ReadyOrder.onYes (rt : Runtime) (turn : OrderTurn) (o : ReadyOrder) : ReadyOrder :=
  { o with
    slots := withAccount rt turn (yesSlots rt turn (rereadSlots rt.db o.slots))
    items := o.items.map fun i => (rereadItem rt.db i.1, i.2) }

section
variable {rt : Runtime} {products : List Product} {o : ReadyOrder}
  (hblanks : PlainBlanks rt.db) (h : Complete rt products o)
include hblanks h

theorem Complete.reread_items : (rereadSlots rt.db o.slots).items =
    (o.items.map fun i => (rereadItem rt.db i.1, i.2)).map Prod.fst := by
  have hall : ∀ item ∈ o.slots.items.map (rereadItem rt.db), saysSomething item = true := by
    rw [h.items_eq, List.map_map]
    intro item hitem
    obtain ⟨i, hi, rfl⟩ := List.mem_map.mp hitem
    have hpresent : present (rereadItem rt.db i.1).product = true :=
      (matchProduct_reread hblanks.separate (h.product hi)).1
    simp only [Function.comp_apply, saysSomething, hpresent, Bool.true_or]
  change (o.slots.items.map (rereadItem rt.db)).filter saysSomething = _
  rw [List.filter_eq_self.mpr hall, h.items_eq, List.map_map, List.map_map]
  rfl

omit hblanks in
theorem Complete.reread_phone : (rereadSlots rt.db o.slots).customerPhone =
    some (Text.strip rt.db.space (o.slots.customerPhone.getD [])) :=
  reread_of_ne (strip_ne_nil_of_phone h.phone)

theorem Complete.reread_address : (rereadSlots rt.db o.slots).deliveryAddress =
    some (Text.strip rt.db.space (o.slots.deliveryAddress.getD [])) :=
  reread_of_ne (strip_ne_nil_of_zone hblanks h.zone)

theorem Complete.reread_payment : (rereadSlots rt.db o.slots).paymentMethod =
    some (Text.strip rt.db.space (o.slots.paymentMethod.getD [])) :=
  reread_of_ne (strip_ne_nil_of_payment hblanks.separate h.payment)

/-- The stored items are matched with the products that were shown. -/
theorem Complete.reread_matched (turn : OrderTurn) :
    matchOrderItems rt.db (rereadSlots rt.db o.slots).items products =
      (o.onYes rt turn).items.map fun i => (i.1, some i.2) := by
  rw [h.reread_items hblanks]
  unfold matchOrderItems ReadyOrder.onYes
  rw [List.map_map, List.map_map, List.map_map]
  refine List.map_congr_left fun i hi => Prod.ext rfl ?_
  exact (matchProduct_reread hblanks.separate (h.product hi)).2

end

section
variable {rt : Runtime} {turn : OrderTurn} {o : ReadyOrder} (hblanks : PlainBlanks rt.db)
  (h : Complete rt turn.products o)
include hblanks h

/-- A yes that says nothing else leaves the slots as they are stored, up to what its words are
taken for. -/
theorem Complete.merged_yes (hyes : PlainAnswer rt turn (rereadSlots rt.db o.slots))
    (haffirms : Chat.isAffirmation rt.db turn.content = true)
    (hinterrupt : interrupt rt turn (readTurn rt turn) = .ok ())
    (hstate : (readTurn rt turn).orderState =
      some (orderStateMetadata "awaiting_confirmation" (some o.slots) [])) :
    prepareOrder rt turn = checkOrder rt turn (readTurn rt turn)
      (yesSlots rt turn (rereadSlots rt.db o.slots)) := by
  have hstatus : (readTurn rt turn).status = "awaiting_confirmation" := by
    change orderStateStatus rt (readTurn rt turn).orderState = _
    rw [hstate, orderStateStatus_orderStateMetadata]
  have hprevious : (readTurn rt turn).previousSlots = some (rereadSlots rt.db o.slots) := by
    change slotsFromOrderState rt (readTurn rt turn).orderState = _
    rw [hstate, slotsFromOrderState_stored h.name]
  have hother : ∀ other ∈ ([ "awaiting_product_choice", "awaiting_product_change_confirmation",
      "awaiting_add_or_replace"] : List Text), (readTurn rt turn).status ≠ other := by
    rw [hstatus]
    decide
  have hmerged : mergeTurn rt turn (readTurn rt turn) = .ok
      ({ rereadSlots rt.db o.slots with
        confirmed := (readTurn rt turn).contact.confirmed }, false) := by
    rw [mergeTurn_applies (fun hchoice => absurd hchoice (hother _ (by simp)))
      (hother _ (by simp)) (hother _ (by simp)), hprevious, hyes.merged]
    unfold applyItems
    rw [hyes.noItems]
    rfl
  have hprepare : prepareOrder rt turn = checkOrder rt turn (readTurn rt turn)
      (completeSlots rt turn (readTurn rt turn) ({ rereadSlots rt.db o.slots with
        confirmed := (readTurn rt turn).contact.confirmed }, false)) := by
    simp only [prepareOrder, hinterrupt, hmerged]
    rfl
  have hconfirms : confirms rt turn (readTurn rt turn) false = true := by
    rw [confirms_unresolved, decide_eq_true hstatus, haffirms]
    rfl
  have hphone : (validatePhone rt.db
      ((rereadSlots rt.db o.slots).customerPhone.getD [])).isSome = true := by
    rw [h.reread_phone, Option.getD_some, validatePhone_strip, h.phone]
    rfl
  have hpresentPhone : present (rereadSlots rt.db o.slots).customerPhone = true := by
    rw [h.reread_phone]
    exact present_of_ne (strip_ne_nil_of_phone h.phone)
  have hpresentPayment : present (rereadSlots rt.db o.slots).paymentMethod = true := by
    rw [h.reread_payment hblanks]
    exact present_of_ne (strip_ne_nil_of_payment hblanks.separate h.payment)
  rw [hprepare]
  congr 1
  refine (completeSlots_of_filled (readTurn rt turn) false ?_ ?_ ?_).trans ?_
  · exact hpresentPhone
  · exact hphone
  · exact hpresentPayment
  · rw [hconfirms]
    rfl

end

end Qiki.Chat
