import Qiki.Chat.CartAfter
import Qiki.Chat.NegatedConfirmation

/-! When the products of a cart survive a turn. -/
namespace Qiki.Chat

open Unicode Orders AddressLookup

/-! What the message is taken for. -/

section
variable (rt : Runtime) (turn : OrderTurn) (r : TurnReading)

/-- The line of a product choice that is still open. -/
def openItem : Option ChatOrderItem :=
  ((pendingItemFromState rt r.orderState).or
    (r.base.items.find? (isIncompleteAddItem rt.db))).filter (isIncompleteAddItem rt.db)

/-- The message answers the question of a product choice. -/
def answersChoice : Bool :=
  r.status = "awaiting_product_choice" && (openItem rt r).isSome &&
    (isCancelAddRequest r.normalized || isAffirmation rt.db turn.content ||
      queryMentionsProductBrand rt.db r.normalized turn.products &&
        (matchProduct rt.db (some turn.content) turn.products).isSome ||
      (extractGasSizeChoice rt.db r.normalized).isSome)

/-- The message names quantities without a product, where its items are applied to the cart. -/
def overwritesCart : Bool :=
  (extractAmbiguousDeliveryTimeWindow rt.db turn.content).isNone &&
    !answersChoice rt turn r && r.status ≠ "awaiting_product_change_confirmation" &&
    r.status ≠ "awaiting_add_or_replace" &&
    !r.candidates.isEmpty && r.candidates.all fun item => !present item.product

/-- The items before the change that waits for an answer. -/
def itemsBeforeChange : List ChatOrderItem := previousItemsFromState rt r.orderState r.previousSlots

/-- The changed items become the cart: the message says yes, or names an hour that may be in the
morning or in the evening. -/
def acceptsChange : Bool :=
  r.status = "awaiting_product_change_confirmation" &&
    ((extractAmbiguousDeliveryTimeWindow rt.db turn.content).isSome ||
      (extractPaymentCandidate rt.db turn.content).isNone && isAffirmation rt.db turn.content &&
        !(isNegation rt.db turn.content && hasAddCue r.normalized &&
          ((pendingItemFromState rt r.orderState).or (pendingChangeItem rt.db
            (itemsBeforeChange rt r) r.base.items turn.products)).isSome))

/-- The item about which the customer was asked whether it comes on top or instead. -/
def askedItem : Option ChatOrderItem := (pendingItemFromState rt r.orderState).or r.candidates.head?

/-- The message says yes to the question whether an item comes on top or instead. -/
def acceptsReplacement : Bool :=
  r.status = "awaiting_add_or_replace" &&
    (extractAmbiguousDeliveryTimeWindow rt.db turn.content).isNone &&
    (extractPaymentCandidate rt.db turn.content).isNone && (askedItem rt r).isSome &&
    !hasAddCue r.normalized && isAffirmation rt.db turn.content

/-- The products of the first items are among those of the second. -/
def Covered (items items' : List ChatOrderItem) : Prop :=
  cartProducts rt.db turn.products items ⊆ cartProducts rt.db turn.products items'

/-- The message loses no product of the cart. -/
structure CartSafe : Prop where
  /-- It is not taken for a change of an order that was placed before. -/
  noOrderChange : asksPostOrderChange rt turn = none
  namesProduct : overwritesCart rt turn r = false
  change : acceptsChange rt turn r = true → Covered rt turn (itemsBeforeChange rt r) r.base.items
  replacement : acceptsReplacement rt turn r = true → Covered rt turn r.base.items
    (replaceFirstMatchingItem rt.db r.base ((askedItem rt r).getD {}) turn.products).items

end

/-! The states with a question of their own. -/

section
variable {rt : Runtime} {turn : OrderTurn} {r : TurnReading}

/-- A product choice that the message answers keeps the products, and one it does not answer is
left to the rest of the turn. -/
theorem resolveProductChoice_of_answers (hext : Vietnamese.Extends rt.db)
    (h : answersChoice rt turn r = true) :
    (∃ reply, resolveProductChoice rt turn r = .error reply ∧ AsksAbout r.base.items reply) ∨
      ∃ slots confirm, resolveProductChoice rt turn r = .ok (some (slots, confirm)) ∧
        Covered rt turn r.base.items slots.items := by
  unfold answersChoice openItem at h
  simp only [Bool.and_eq_true, decide_eq_true_eq] at h
  obtain ⟨⟨-, hopen⟩, hanswer⟩ := h
  obtain ⟨item, hitem⟩ := Option.isSome_iff_exists.mp hopen
  rw [Option.filter_eq_some_iff] at hitem
  have hdrop : Covered rt turn r.base.items (dropIncompleteAddItems rt.db r.base).items := by
    unfold Covered
    rw [cartProducts_dropIncomplete hext]
    exact List.Subset.refl _
  simp only [resolveProductChoice, hitem.1, hitem.2, Bool.not_true, Bool.false_eq_true, if_false]
  by_cases hcancel : isCancelAddRequest r.normalized = true
  · rw [if_pos hcancel]
    exact Or.inr ⟨_, false, rfl, hdrop⟩
  rw [if_neg hcancel]
  by_cases hyes : isAffirmation rt.db turn.content = true
  · rw [if_pos hyes]
    exact Or.inr ⟨_, true, rfl, hdrop⟩
  rw [if_neg hyes]
  cases hpicked : if queryMentionsProductBrand rt.db r.normalized turn.products then
      matchProduct rt.db (some turn.content) turn.products else none with
  | some product =>
    refine Or.inr ⟨_, false, rfl, List.Subset.trans hdrop ?_⟩
    exact cartProducts_appendOrderItems _ _
  | none =>
    cases hsize : extractGasSizeChoice rt.db r.normalized with
    | some size =>
      exact Or.inl ⟨_, rfl, .intro _ _ _ _ _ (by decide) (lookup_pendingItemField _) rfl⟩
    | none =>
      exfalso
      rw [hsize] at hanswer
      split_ifs at hpicked <;> simp_all

theorem resolveProductChoice_of_no_answer (hstatus : r.status = "awaiting_product_choice")
    (h : answersChoice rt turn r = false) : resolveProductChoice rt turn r = .ok none := by
  unfold answersChoice openItem at h
  simp only [hstatus, decide_true, Bool.true_and] at h
  simp only [resolveProductChoice]
  cases hpending : (pendingItemFromState rt r.orderState).or
      (r.base.items.find? (isIncompleteAddItem rt.db)) with
  | none => rfl
  | some item =>
    cases hitem : isIncompleteAddItem rt.db item with
    | false => simp [hitem]
    | true =>
      simp only [hpending, Option.filter_some, hitem, if_true, Option.isSome_some, Bool.true_and,
        Bool.or_eq_false_iff] at h
      obtain ⟨⟨⟨hcancel, hyes⟩, hpicked⟩, hsize⟩ := h
      have hnone : (if queryMentionsProductBrand rt.db r.normalized turn.products then
          matchProduct rt.db (some turn.content) turn.products else none) = none := by
        split_ifs with hbrand
        · simpa [hbrand] using hpicked
        · rfl
      simp only [hitem, hcancel, hyes, hnone, Option.isNone_iff_eq_none.mp (by simpa using hsize)]
      simp

/-- The answer to a product change keeps the items before the change, unless it accepts it. -/
theorem confirmProductChange_keeps (hblanks : BlanksSeparate rt.db)
    (hlive : cartProducts rt.db turn.products (itemsBeforeChange rt r) ≠ [])
    (hwindow : extractAmbiguousDeliveryTimeWindow rt.db turn.content = none)
    (hstatus : r.status = "awaiting_product_change_confirmation") :
    (∃ reply, confirmProductChange rt turn r = .error reply ∧ acceptsChange rt turn r = false ∧
      cartProducts rt.db turn.products (cartOf rt reply.state) =
        cartProducts rt.db turn.products (itemsBeforeChange rt r)) ∨
      ∃ slots, confirmProductChange rt turn r = .ok slots ∧
        (if acceptsChange rt turn r then slots.items = r.base.items
          else Covered rt turn (itemsBeforeChange rt r) slots.items) := by
  have hrefl : Covered rt turn (itemsBeforeChange rt r) (itemsBeforeChange rt r) :=
    List.Subset.refl _
  simp only [acceptsChange, hstatus, hwindow, decide_true, Bool.true_and, Option.isSome_none,
    Bool.false_or]
  simp only [confirmProductChange]
  rw [← itemsBeforeChange]
  by_cases hpayment : (extractPaymentCandidate rt.db turn.content).isSome = true
  · rw [if_pos hpayment]
    refine Or.inr ⟨_, rfl, ?_⟩
    rw [if_neg (by simp [Option.isSome_iff_ne_none.mp hpayment])]
    exact hrefl
  have hnone : (extractPaymentCandidate rt.db turn.content).isNone = true := by simpa using hpayment
  rw [if_neg hpayment, hnone, Bool.true_and]
  by_cases hmore : (isNegation rt.db turn.content && hasAddCue r.normalized &&
      ((pendingItemFromState rt r.orderState).or (pendingChangeItem rt.db
        (itemsBeforeChange rt r) r.base.items turn.products)).isSome) = true
  · rw [if_pos hmore, hmore]
    refine Or.inr ⟨_, rfl, ?_⟩
    rw [if_neg (by simp), Covered]
    simp only [appendOrderItem, withOrderItems]
    rw [cartProducts_append]
    exact List.subset_append_left _ _
  rw [if_neg hmore, Bool.eq_false_iff.mpr hmore, Bool.not_false, Bool.and_true]
  by_cases hyes : isAffirmation rt.db turn.content = true
  · rw [if_pos hyes]
    exact Or.inr ⟨_, rfl, by rw [if_pos hyes]⟩
  rw [if_neg hyes]
  simp only [if_neg hyes]
  by_cases hkeep : (isNegation rt.db turn.content ||
      isKeepPreviousProductRequest rt.db turn.content) = true
  · rw [if_pos hkeep]
    exact Or.inr ⟨_, rfl, hrefl⟩
  rw [if_neg hkeep]
  have happend (added : List ChatOrderItem) : Covered rt turn (itemsBeforeChange rt r)
      (appendOrderItems rt.db (withOrderItems r.base (itemsBeforeChange rt r)) added
        turn.products).items :=
    cartProducts_appendOrderItems added (withOrderItems r.base (itemsBeforeChange rt r))
  by_cases hadds : (hasAddCue r.normalized && (!r.candidates.isEmpty ||
      ((pendingItemFromState rt r.orderState).or (pendingChangeItem rt.db
        (itemsBeforeChange rt r) r.base.items turn.products)).isSome)) = true
  · rw [if_pos hadds]
    exact Or.inr ⟨_, rfl, happend _⟩
  rw [if_neg hadds]
  split
  · exact Or.inl ⟨_, rfl, Bool.eq_false_iff.mpr hyes, cartProducts_changing hblanks hlive _ _⟩
  · exact Or.inl ⟨_, rfl, Bool.eq_false_iff.mpr hyes, cartProducts_changing hblanks hlive _ _⟩

/-- The answer to the question whether an item comes on top or instead keeps the items, unless it
has it come instead. -/
theorem addOrReplace_keeps (hreplace : hasReplaceCue r.normalized = false)
    (hwindow : extractAmbiguousDeliveryTimeWindow rt.db turn.content = none)
    (hstatus : r.status = "awaiting_add_or_replace") :
    (∃ reply, addOrReplace rt turn r = .error reply ∧ acceptsReplacement rt turn r = false ∧
      AsksAbout r.base.items reply) ∨
      ∃ slots, addOrReplace rt turn r = .ok slots ∧
        (if acceptsReplacement rt turn r then slots.items = (replaceFirstMatchingItem rt.db r.base
            ((askedItem rt r).getD {}) turn.products).items
          else Covered rt turn r.base.items slots.items) := by
  have hrefl : Covered rt turn r.base.items r.base.items := List.Subset.refl _
  simp only [acceptsReplacement, hstatus, hwindow, decide_true, Bool.true_and, Option.isNone_none]
  simp only [addOrReplace, hreplace, Bool.false_or]
  rw [← askedItem]
  by_cases hpayment : (extractPaymentCandidate rt.db turn.content).isSome = true
  · rw [if_pos hpayment]
    refine Or.inr ⟨_, rfl, ?_⟩
    rw [if_neg (by simp [Option.isSome_iff_ne_none.mp hpayment])]
    exact hrefl
  have hnone : (extractPaymentCandidate rt.db turn.content).isNone = true := by simpa using hpayment
  rw [if_neg hpayment, hnone, Bool.true_and]
  by_cases hadds : ((askedItem rt r).isSome && hasAddCue r.normalized) = true
  · rw [if_pos hadds]
    refine Or.inr ⟨_, rfl, ?_⟩
    rw [if_neg (by simp_all)]
    exact cartProducts_appendOrderItems _ _
  rw [if_neg hadds]
  by_cases hyes : ((askedItem rt r).isSome && isAffirmation rt.db turn.content) = true
  · rw [if_pos hyes]
    exact Or.inr ⟨_, rfl, by rw [if_pos (by simp_all)]⟩
  rw [if_neg hyes]
  have hno : ((askedItem rt r).isSome && !hasAddCue r.normalized &&
      isAffirmation rt.db turn.content) = false := by
    rw [Bool.and_right_comm, Bool.eq_false_iff.mpr hyes, Bool.false_and]
  simp only [hno, Bool.false_eq_true, if_false]
  by_cases hnegated : isNegation rt.db turn.content = true
  · rw [if_pos hnegated]
    exact Or.inr ⟨_, rfl, hrefl⟩
  rw [if_neg hnegated]
  split
  · exact Or.inl ⟨_, rfl, trivial, .intro _ _ _ _ _ (by decide) (lookup_pendingItemField _) rfl⟩
  · refine Or.inl ⟨_, rfl, trivial, .intro _ _ _ _ _ (by decide) ?_ rfl⟩
    split_ifs
    · exact lookup_pendingItemField _
    · rfl

/-- Without a cue, items that name a product come on top of a cart or into its lines. -/
theorem detectOrderItemsOperation_of_product (hremove : hasRemoveCue r.normalized = false)
    (hreplace : hasReplaceCue r.normalized = false) (hcart : r.base.items ≠ [])
    (hnormalized : r.normalized = normalizeMatchText rt.db turn.content)
    (hproduct : ∃ item ∈ r.candidates, present item.product = true) :
    detectOrderItemsOperation rt.db turn.content r.previousSlots r.candidates turn.products ∈
      [some .add, some .mergeExisting, some .ambiguous] := by
  obtain ⟨item, hitem, hpresent⟩ := hproduct
  have hmem : item ∈ r.candidates.filter fun item => present item.product :=
    List.mem_filter.mpr ⟨hitem, hpresent⟩
  have hsome : (r.candidates.filter fun item => present item.product).isEmpty = false := by
    cases hfilter : r.candidates.filter fun item => present item.product with
    | nil => rw [hfilter] at hmem; cases hmem
    | cons => rfl
  have hprevious : ((r.previousSlots.map (·.items)).getD []).isEmpty = false := by
    rw [← items_base]
    simpa using hcart
  simp only [detectOrderItemsOperation, ← hnormalized, hremove, hreplace, hprevious, hsome,
    Bool.false_eq_true, if_false]
  split_ifs with hadd hall
  · simp
  · simp
  · split
    case h_1 single hsingle =>
      have hsingle' : present single.product = true :=
        List.of_mem_filter (p := fun item : ChatOrderItem => present item.product)
          (hsingle ▸ List.mem_singleton_self single)
      simp only [detectOrderItemOperation, ← hnormalized, hsingle', hremove, hadd, hreplace,
        hprevious, Bool.not_true, Bool.false_eq_true, if_false]
      split_ifs <;> simp
    case h_2 => simp

/-- Items without a product replace the cart; else its products stay. -/
theorem applyItems_keeps {slots : ChatOrderSlots} (hremove : hasRemoveCue r.normalized = false)
    (hreplace : hasReplaceCue r.normalized = false) (hcart : r.base.items ≠ [])
    (hnormalized : r.normalized = normalizeMatchText rt.db turn.content)
    (hslots : slots.items = r.base.items) :
    if !r.candidates.isEmpty && r.candidates.all fun item => !present item.product then
      ∃ slots', applyItems rt turn r slots = .ok slots' ∧ slots'.items = r.candidates
    else (∃ reply, applyItems rt turn r slots = .error reply ∧ AsksAbout r.base.items reply) ∨
      ∃ slots', applyItems rt turn r slots = .ok slots' ∧
        Covered rt turn r.base.items slots'.items := by
  unfold applyItems Covered
  rw [← hslots]
  cases hcandidates : r.candidates with
  | nil => exact Or.inr ⟨slots, rfl, List.Subset.refl _⟩
  | cons candidate rest =>
    have hdetect := @detectOrderItemsOperation_of_product rt turn r hremove hreplace hcart hnormalized
    rw [hcandidates] at hdetect
    by_cases honly : (!(candidate :: rest).isEmpty &&
        (candidate :: rest).all fun item => !present item.product) = true
    · rw [if_pos honly]
      have hnone : detectOrderItemsOperation rt.db turn.content r.previousSlots (candidate :: rest)
          turn.products = none := by
        have hfilter : ((candidate :: rest).filter fun item => present item.product) = [] :=
          List.filter_eq_nil_iff.mpr fun item hitem => by
            simpa using List.all_eq_true.mp (Bool.and_eq_true_iff.mp honly).2 item hitem
        unfold detectOrderItemsOperation
        rw [hfilter]
        rfl
      simp only [hnone]
      exact ⟨_, rfl, rfl⟩
    · rw [if_neg honly]
      have hproduct : ∃ item ∈ candidate :: rest, present item.product = true := by
        by_contra hnot
        refine honly ?_
        rw [List.isEmpty_cons, Bool.not_false, Bool.true_and, List.all_eq_true]
        intro item hitem
        rw [Bool.not_eq_true']
        exact Bool.eq_false_iff.mpr fun hpresent => hnot ⟨item, hitem, hpresent⟩
      have hoperation := hdetect hproduct
      simp only [List.mem_cons, List.not_mem_nil, or_false] at hoperation
      rcases hoperation with hadd | hmerge | hambiguous
      · simp only [hadd]
        exact Or.inr ⟨_, rfl, cartProducts_appendOrderItems _ _⟩
      · simp only [hmerge]
        exact Or.inr ⟨_, rfl, cartProducts_mergeExistingItems _ _⟩
      · simp only [hambiguous]
        exact Or.inl ⟨_, rfl, .intro _ _ _ _ _ (by decide) (lookup_pendingItemField _) rfl⟩

end

/-! One turn. -/

section
variable {rt : Runtime} {turn : OrderTurn} {r : TurnReading}

theorem mergeTurn_change (hstatus : r.status = "awaiting_product_change_confirmation") :
    mergeTurn rt turn r = (confirmProductChange rt turn r).map fun slots =>
      (mergeOrderSlots rt.db (some slots) (some r.contact), false) := by
  have hchoice : r.status ≠ "awaiting_product_choice" := by
    rw [hstatus]
    decide
  simp only [mergeTurn, if_neg hchoice, if_pos hstatus]
  cases confirmProductChange rt turn r <;> rfl

theorem mergeTurn_addOrReplace (hstatus : r.status = "awaiting_add_or_replace") :
    mergeTurn rt turn r = (addOrReplace rt turn r).map fun slots =>
      (mergeOrderSlots rt.db (some slots) (some r.contact), false) := by
  have hchoice : r.status ≠ "awaiting_product_choice" := by
    rw [hstatus]
    decide
  have hchange : r.status ≠ "awaiting_product_change_confirmation" := by
    rw [hstatus]
    decide
  simp only [mergeTurn, if_neg hchoice, if_neg hchange, if_pos hstatus]
  cases addOrReplace rt turn r <;> rfl

theorem mergeTurn_choice (hstatus : r.status = "awaiting_product_choice")
    {slots : ChatOrderSlots} {confirm : Bool}
    (h : resolveProductChoice rt turn r = .ok (some (slots, confirm))) :
    mergeTurn rt turn r =
      .ok (mergeOrderSlots rt.db (some slots) (some r.contact), confirm) := by
  simp only [mergeTurn, if_pos hstatus, h]
  rfl

theorem mergeTurn_choice_error (hstatus : r.status = "awaiting_product_choice") {reply : Reply}
    (h : resolveProductChoice rt turn r = .error reply) :
    mergeTurn rt turn r = .error reply := by
  simp only [mergeTurn, if_pos hstatus, h]
  rfl

theorem cartOf_changing (hstatus : (readTurn rt turn).status =
    "awaiting_product_change_confirmation") :
    cartOf rt (readTurn rt turn).orderState = itemsBeforeChange rt (readTurn rt turn) :=
  if_pos hstatus

theorem cartOf_settled (hstatus : (readTurn rt turn).status ≠
    "awaiting_product_change_confirmation") :
    cartOf rt (readTurn rt turn).orderState = (readTurn rt turn).base.items :=
  (if_neg hstatus).trans (items_base (readTurn rt turn)).symm

section
variable (hpost : asksPostOrderChange rt turn = none)
  (hinterrupt : interrupt rt turn (readTurn rt turn) = .ok ())
include hpost hinterrupt

theorem keepsProducts_of_mergeError {reply : Reply}
    (h : mergeTurn rt turn (readTurn rt turn) = .error reply) : KeepsProducts rt turn ↔
      cartProducts rt.db turn.products (cartOf rt (readTurn rt turn).orderState) ⊆
        cartProducts rt.db turn.products (cartOf rt reply.state) := by
  refine keepsProducts_of_reply hpost ?_
  simp only [prepareOrder, hinterrupt, h]
  rfl

/-- Where nothing is confirmed, the turn keeps what the merged slots keep. -/
theorem keepsProducts_iff_of_merged (hblanks : BlanksSeparate rt.db) {slots : ChatOrderSlots}
    (hstatus : (readTurn rt turn).status ≠ "awaiting_confirmation")
    (h : mergeTurn rt turn (readTurn rt turn) = .ok (slots, false)) : KeepsProducts rt turn ↔
      cartProducts rt.db turn.products (cartOf rt (readTurn rt turn).orderState) ⊆
        cartProducts rt.db turn.products slots.items := by
  unfold KeepsProducts
  rcases cartAfter_of_merged hblanks hpost hinterrupt h with hafter | ⟨-, o, hpassed, hconfirmed⟩
  · rw [hafter]
  · rw [hpassed.slots_eq, withAccount_confirmed, completeSlots_confirmed, confirms_unresolved,
      decide_eq_false hstatus, Bool.false_and] at hconfirmed
    cases hconfirmed

/-- Items without a product are no cart. -/
theorem not_keepsProducts_of_no_product (hblanks : BlanksSeparate rt.db) {slots : ChatOrderSlots}
    (hlive : cartProducts rt.db turn.products (cartOf rt (readTurn rt turn).orderState) ≠ [])
    (hne : slots.items ≠ []) (hitems : ∀ item ∈ slots.items, present item.product = false)
    (h : mergeTurn rt turn (readTurn rt turn) = .ok (slots, false)) : ¬ KeepsProducts rt turn := by
  intro hkeeps
  unfold KeepsProducts at hkeeps
  rcases cartAfter_of_merged hblanks hpost hinterrupt h with hafter | ⟨-, o, hpassed, -⟩
  · rw [hafter, cartProducts_of_not_present hitems] at hkeeps
    exact hlive (List.subset_nil.mp hkeeps)
  · obtain ⟨item, hitem⟩ := List.exists_mem_of_ne_nil _ hne
    have hmatched := (missingOrderSlots_eq_nil.mp hpassed.complete).1.2
    rw [items_completeSlots] at hmatched
    have hnone : matchProduct rt.db item.product turn.products = none := by
      rw [matchProduct, if_neg (by rw [hitems item hitem]; exact Bool.false_ne_true)]
    exact hmatched (item, matchProduct rt.db item.product turn.products)
      (List.mem_map_of_mem hitem) hnone

end

/-! What is left of the condition in each state. -/

theorem acceptsChange_of_ne (h : r.status ≠ "awaiting_product_change_confirmation") :
    acceptsChange rt turn r = false := by
  rw [acceptsChange, decide_eq_false h, Bool.false_and]

theorem acceptsReplacement_of_ne (h : r.status ≠ "awaiting_add_or_replace") :
    acceptsReplacement rt turn r = false := by
  simp only [acceptsReplacement, decide_eq_false h, Bool.false_and]

theorem overwritesCart_of_question (h : r.status = "awaiting_product_change_confirmation" ∨
    r.status = "awaiting_add_or_replace") : overwritesCart rt turn r = false := by
  rcases h with h | h
  · simp only [overwritesCart, decide_eq_false (not_not_intro h), Bool.and_false, Bool.false_and]
  · simp only [overwritesCart, decide_eq_false (not_not_intro h), Bool.and_false, Bool.false_and]

/-- Where the items of the message are applied. -/
theorem overwritesCart_of_applies
    (hwindow : extractAmbiguousDeliveryTimeWindow rt.db turn.content = none)
    (hanswer : answersChoice rt turn r = false)
    (hchange : r.status ≠ "awaiting_product_change_confirmation")
    (hadd : r.status ≠ "awaiting_add_or_replace") : overwritesCart rt turn r =
      (!r.candidates.isEmpty && r.candidates.all fun item => !present item.product) := by
  simp only [overwritesCart, hwindow, hanswer, decide_eq_true hchange, decide_eq_true hadd,
    Option.isNone_none, Bool.not_false, Bool.true_and]

section
variable (hpost : asksPostOrderChange rt turn = none)
include hpost

theorem cartSafe_iff_of_change (hstatus : r.status = "awaiting_product_change_confirmation") :
    CartSafe rt turn r ↔
      (acceptsChange rt turn r = true → Covered rt turn (itemsBeforeChange rt r) r.base.items) := by
  have hadd : acceptsReplacement rt turn r = false := acceptsReplacement_of_ne (by
    rw [hstatus]
    decide)
  refine ⟨CartSafe.change, fun h => ⟨hpost, overwritesCart_of_question (Or.inl hstatus), h, ?_⟩⟩
  rw [hadd]
  exact fun h => (Bool.false_ne_true h).elim

theorem cartSafe_iff_of_addOrReplace (hstatus : r.status = "awaiting_add_or_replace") :
    CartSafe rt turn r ↔ (acceptsReplacement rt turn r = true → Covered rt turn r.base.items
      (replaceFirstMatchingItem rt.db r.base ((askedItem rt r).getD {}) turn.products).items) := by
  have hchange : acceptsChange rt turn r = false := acceptsChange_of_ne (by
    rw [hstatus]
    decide)
  refine ⟨CartSafe.replacement, fun h =>
    ⟨hpost, overwritesCart_of_question (Or.inr hstatus), ?_, h⟩⟩
  rw [hchange]
  exact fun h => (Bool.false_ne_true h).elim

theorem cartSafe_iff_of_other (hchange : r.status ≠ "awaiting_product_change_confirmation")
    (hadd : acceptsReplacement rt turn r = false) :
    CartSafe rt turn r ↔ overwritesCart rt turn r = false := by
  refine ⟨CartSafe.namesProduct, fun h => ⟨hpost, h, ?_, ?_⟩⟩
  · rw [acceptsChange_of_ne hchange]
    exact fun h => (Bool.false_ne_true h).elim
  · rw [hadd]
    exact fun h => (Bool.false_ne_true h).elim

end

theorem items_contact : (readTurn rt turn).contact.items = [] := rfl

theorem items_withContact (slots : ChatOrderSlots) :
    (mergeOrderSlots rt.db (some slots) (some (readTurn rt turn).contact)).items = slots.items :=
  items_mergeOrderSlots_left fun _ h => Option.some.inj h ▸ items_contact

theorem items_merged : (mergeOrderSlots rt.db (readTurn rt turn).previousSlots
    (some (readTurn rt turn).contact)).items = (readTurn rt turn).base.items := by
  rw [items_base]
  cases (readTurn rt turn).previousSlots with
  | none => exact items_mergeOrderSlots_right fun _ h => by cases h
  | some slots => exact items_withContact slots

/-! A turn with a live cart. -/

section
variable (hblanks : BlanksSeparate rt.db)
  (hlive : cartProducts rt.db turn.products (cartOf rt (readTurn rt turn).orderState) ≠ [])
include hlive

/-- A change of an order that was placed before ends the cart. -/
theorem not_keepsProducts_of_orderChange {existingOrder : Json}
    (h : asksPostOrderChange rt turn = some existingOrder) : ¬ KeepsProducts rt turn := by
  have hfound : findExistingChatOrder turn.history = some existingOrder :=
    (Option.filter_eq_some_iff.mp h).1
  have hrecord := List.find?_some hfound
  have htype : hasType chatOrderMetadataType existingOrder = true :=
    (Bool.and_eq_true_iff.mp hrecord).1
  have hstate : (postOrderChangeReply rt turn.content existingOrder).state = none :=
    if_pos (hasOrder_postOrderChangeReply rt htype)
  have hafter : cartAfter rt turn = [] := by
    simp only [cartAfter, handleChatOrder, h]
    rw [hstate]
    rfl
  intro hkeeps
  rw [KeepsProducts, hafter] at hkeeps
  exact hlive (List.subset_nil.mp hkeeps)

theorem orderState_of_live : (readTurn rt turn).orderState.isSome = true := by
  cases hstate : (readTurn rt turn).orderState with
  | none =>
    rw [hstate] at hlive
    exact absurd rfl hlive
  | some state => rfl

section
variable (hcancel : isOrderCancelRequest (normalizeMatchText rt.db turn.content) = false)
include hcancel

omit hlive in
theorem interrupt_of_no_window
    (hwindow : extractAmbiguousDeliveryTimeWindow rt.db turn.content = none) :
    interrupt rt turn (readTurn rt turn) = .ok () := by
  have hnot : isOrderCancelRequest (readTurn rt turn).normalized = false := hcancel
  unfold interrupt
  rw [hnot, Bool.and_false, if_neg Bool.false_ne_true, hwindow]
  cases (readTurn rt turn).orderState <;> rfl

/-- The question about an hour keeps what the state stores as its items. -/
theorem interrupt_of_window {window : Text}
    (hwindow : extractAmbiguousDeliveryTimeWindow rt.db turn.content = some window) :
    ∃ reply, interrupt rt turn (readTurn rt turn) = .error reply ∧
      AsksAbout (readTurn rt turn).base.items reply := by
  have hnot : isOrderCancelRequest (readTurn rt turn).normalized = false := hcancel
  obtain ⟨state, hstate⟩ := Option.isSome_iff_exists.mp (orderState_of_live hlive)
  unfold interrupt
  rw [hnot, Bool.and_false, if_neg Bool.false_ne_true, hwindow, hstate]
  exact ⟨_, rfl, .intro _ _ _ _ _ (by decide) rfl rfl⟩

include hblanks

theorem keepsProducts_iff_of_window (hpost : asksPostOrderChange rt turn = none) {window : Text}
    (hwindow : extractAmbiguousDeliveryTimeWindow rt.db turn.content = some window) :
    KeepsProducts rt turn ↔ CartSafe rt turn (readTurn rt turn) := by
  obtain ⟨reply, hinterrupt, hreply⟩ := interrupt_of_window hlive hcancel hwindow
  have hprepare : prepareOrder rt turn = .error reply := by
    simp only [prepareOrder, hinterrupt]
    rfl
  rw [keepsProducts_of_reply hpost hprepare, cartProducts_collecting hblanks _ hreply]
  by_cases hchange : (readTurn rt turn).status = "awaiting_product_change_confirmation"
  · have haccepts : acceptsChange rt turn (readTurn rt turn) = true := by
      simp only [acceptsChange, hwindow, decide_eq_true hchange, Option.isSome_some, Bool.true_or,
        Bool.true_and]
    rw [cartSafe_iff_of_change hpost hchange, cartOf_changing hchange]
    exact ⟨fun h _ => h, fun h => h haccepts⟩
  · have hadd : acceptsReplacement rt turn (readTurn rt turn) = false := by
      simp only [acceptsReplacement, hwindow, Option.isNone_some, Bool.and_false, Bool.false_and]
    have hnames : overwritesCart rt turn (readTurn rt turn) = false := by
      simp only [overwritesCart, hwindow, Option.isNone_some, Bool.false_and]
    rw [cartSafe_iff_of_other hpost hchange hadd, cartOf_settled hchange]
    exact iff_of_true (List.Subset.refl _) hnames

end

/-! A turn that goes on to its items. -/

section
variable (hpost : asksPostOrderChange rt turn = none)
  (hinterrupt : interrupt rt turn (readTurn rt turn) = .ok ())
  (hwindow : extractAmbiguousDeliveryTimeWindow rt.db turn.content = none)
include hblanks hpost hinterrupt

omit hlive in
theorem keepsProducts_of_answersChoice (hext : Vietnamese.Extends rt.db)
    (h : answersChoice rt turn (readTurn rt turn) = true) : KeepsProducts rt turn := by
  have hstatus : (readTurn rt turn).status = "awaiting_product_choice" := by
    simp only [answersChoice, Bool.and_eq_true, decide_eq_true_eq] at h
    exact h.1.1
  have hchange : (readTurn rt turn).status ≠ "awaiting_product_change_confirmation" := by
    rw [hstatus]
    decide
  rcases resolveProductChoice_of_answers hext h with ⟨reply, hreply, habout⟩ |
    ⟨slots, confirm, hslots, hcovered⟩
  · rw [keepsProducts_of_mergeError hpost hinterrupt (mergeTurn_choice_error hstatus hreply),
      cartProducts_collecting hblanks _ habout, cartOf_settled hchange]
    exact List.Subset.refl _
  · refine keepsProducts_of_merged hblanks hpost hinterrupt (mergeTurn_choice hstatus hslots) ?_
    rw [cartOf_settled hchange, items_withContact]
    exact hcovered

include hwindow

theorem keepsProducts_iff_of_change
    (hstatus : (readTurn rt turn).status = "awaiting_product_change_confirmation") :
    KeepsProducts rt turn ↔ CartSafe rt turn (readTurn rt turn) := by
  have hunconfirmed : (readTurn rt turn).status ≠ "awaiting_confirmation" := by
    rw [hstatus]
    decide
  rw [cartSafe_iff_of_change hpost hstatus]
  have hbefore := cartOf_changing hstatus
  rw [hbefore] at hlive
  rcases confirmProductChange_keeps hblanks hlive hwindow hstatus with
    ⟨reply, hreply, haccepts, hkept⟩ | ⟨slots, hslots, hitems⟩
  · have hmerged : mergeTurn rt turn (readTurn rt turn) = .error reply := by
      rw [mergeTurn_change hstatus, hreply]
      rfl
    rw [keepsProducts_of_mergeError hpost hinterrupt hmerged, hbefore, hkept, haccepts]
    exact iff_of_true (List.Subset.refl _) fun h => (Bool.false_ne_true h).elim
  · have hmerged : mergeTurn rt turn (readTurn rt turn) = _ := mergeTurn_change hstatus
    rw [hslots] at hmerged
    rw [keepsProducts_iff_of_merged hpost hinterrupt hblanks hunconfirmed hmerged, hbefore,
      items_withContact]
    cases haccepts : acceptsChange rt turn (readTurn rt turn) with
    | true =>
      rw [haccepts, if_pos rfl] at hitems
      rw [hitems]
      exact ⟨fun h _ => h, fun h => h rfl⟩
    | false =>
      rw [haccepts, if_neg Bool.false_ne_true] at hitems
      exact iff_of_true hitems fun h => (Bool.false_ne_true h).elim

omit hlive in
theorem keepsProducts_iff_of_addOrReplace
    (hreplace : hasReplaceCue (normalizeMatchText rt.db turn.content) = false)
    (hstatus : (readTurn rt turn).status = "awaiting_add_or_replace") :
    KeepsProducts rt turn ↔ CartSafe rt turn (readTurn rt turn) := by
  have hunconfirmed : (readTurn rt turn).status ≠ "awaiting_confirmation" := by
    rw [hstatus]
    decide
  have hchange : (readTurn rt turn).status ≠ "awaiting_product_change_confirmation" := by
    rw [hstatus]
    decide
  rw [cartSafe_iff_of_addOrReplace hpost hstatus]
  have hbefore := cartOf_settled hchange
  rcases addOrReplace_keeps hreplace hwindow hstatus with
    ⟨reply, hreply, haccepts, habout⟩ | ⟨slots, hslots, hitems⟩
  · have hmerged : mergeTurn rt turn (readTurn rt turn) = .error reply := by
      rw [mergeTurn_addOrReplace hstatus, hreply]
      rfl
    rw [keepsProducts_of_mergeError hpost hinterrupt hmerged, hbefore,
      cartProducts_collecting hblanks _ habout, haccepts]
    exact iff_of_true (List.Subset.refl _) fun h => (Bool.false_ne_true h).elim
  · have hmerged : mergeTurn rt turn (readTurn rt turn) = _ := mergeTurn_addOrReplace hstatus
    rw [hslots] at hmerged
    rw [keepsProducts_iff_of_merged hpost hinterrupt hblanks hunconfirmed hmerged, hbefore,
      items_withContact]
    cases haccepts : acceptsReplacement rt turn (readTurn rt turn) with
    | true =>
      rw [haccepts, if_pos rfl] at hitems
      rw [hitems]
      exact ⟨fun h _ => h, fun h => h rfl⟩
    | false =>
      rw [haccepts, if_neg Bool.false_ne_true] at hitems
      exact iff_of_true hitems fun h => (Bool.false_ne_true h).elim

/-- Where the items of the message are applied, only a cart without a product loses any. -/
theorem keepsProducts_iff_of_applies
    (hremove : hasRemoveCue (normalizeMatchText rt.db turn.content) = false)
    (hreplace : hasReplaceCue (normalizeMatchText rt.db turn.content) = false)
    (hanswer : answersChoice rt turn (readTurn rt turn) = false)
    (hchange : (readTurn rt turn).status ≠ "awaiting_product_change_confirmation")
    (hadd : (readTurn rt turn).status ≠ "awaiting_add_or_replace") :
    KeepsProducts rt turn ↔ CartSafe rt turn (readTurn rt turn) := by
  have hbefore := cartOf_settled hchange
  have hcart : (readTurn rt turn).base.items ≠ [] := by
    intro hempty
    rw [hbefore, hempty] at hlive
    exact hlive rfl
  have happlies : mergeTurn rt turn (readTurn rt turn) = _ := mergeTurn_applies
    (fun hstatus => resolveProductChoice_of_no_answer hstatus hanswer) hchange hadd
  have hitems := @applyItems_keeps rt turn (readTurn rt turn) _ hremove hreplace hcart rfl
    items_merged
  rw [cartSafe_iff_of_other hpost hchange (acceptsReplacement_of_ne hadd),
    overwritesCart_of_applies hwindow hanswer hchange hadd]
  by_cases honly : (!(readTurn rt turn).candidates.isEmpty &&
      (readTurn rt turn).candidates.all fun item => !present item.product) = true
  · rw [if_pos honly] at hitems
    obtain ⟨slots, hslots, hcandidates⟩ := hitems
    rw [hslots] at happlies
    obtain ⟨hsome, hnames⟩ := Bool.and_eq_true_iff.mp honly
    refine iff_of_false (not_keepsProducts_of_no_product hpost hinterrupt hblanks hlive ?_ ?_
      happlies) fun hno => Bool.false_ne_true (hno.symm.trans honly)
    · rw [hcandidates]
      rintro hempty
      rw [hempty] at hsome
      exact Bool.false_ne_true hsome
    · rw [hcandidates]
      exact fun item hitem => Bool.not_eq_true' _ |>.mp (List.all_eq_true.mp hnames item hitem)
  · rw [if_neg honly] at hitems
    refine iff_of_true ?_ (Bool.eq_false_iff.mpr honly)
    rcases hitems with ⟨reply, hreply, habout⟩ | ⟨slots, hslots, hcovered⟩
    · rw [hreply] at happlies
      rw [keepsProducts_of_mergeError hpost hinterrupt happlies,
        cartProducts_collecting hblanks _ habout, hbefore]
      exact List.Subset.refl _
    · rw [hslots] at happlies
      refine keepsProducts_of_merged hblanks hpost hinterrupt happlies ?_
      rw [hbefore]
      exact hcovered

end

end

/-- While no cue asks for it, a turn keeps the products of a live cart exactly when the message is
no change of an earlier order, does not name quantities only, and says yes to no question that
would drop one of them. -/
theorem keepsProducts_iff (hext : Vietnamese.Extends rt.db) (hblanks : BlanksSeparate rt.db)
    (hlive : cartProducts rt.db turn.products (cartOf rt (readTurn rt turn).orderState) ≠ [])
    (hremove : hasRemoveCue (normalizeMatchText rt.db turn.content) = false)
    (hreplace : hasReplaceCue (normalizeMatchText rt.db turn.content) = false)
    (hcancel : isOrderCancelRequest (normalizeMatchText rt.db turn.content) = false) :
    KeepsProducts rt turn ↔ CartSafe rt turn (readTurn rt turn) := by
  cases hpost : asksPostOrderChange rt turn with
  | some existingOrder =>
    refine iff_of_false (not_keepsProducts_of_orderChange hlive hpost) fun h => ?_
    cases hpost.symm.trans h.noOrderChange
  | none =>
    cases hwindow : extractAmbiguousDeliveryTimeWindow rt.db turn.content with
    | some window => exact keepsProducts_iff_of_window hblanks hlive hcancel hpost hwindow
    | none =>
      have hinterrupt := interrupt_of_no_window hcancel hwindow
      by_cases hchange : (readTurn rt turn).status = "awaiting_product_change_confirmation"
      · exact keepsProducts_iff_of_change hblanks hlive hpost hinterrupt hwindow hchange
      by_cases hadd : (readTurn rt turn).status = "awaiting_add_or_replace"
      · exact keepsProducts_iff_of_addOrReplace hblanks hpost hinterrupt hwindow hreplace hadd
      cases hanswer : answersChoice rt turn (readTurn rt turn) with
      | true =>
        have hnames : overwritesCart rt turn (readTurn rt turn) = false := by
          simp only [overwritesCart, hanswer, Bool.not_true, Bool.and_false, Bool.false_and]
        rw [cartSafe_iff_of_other hpost hchange (acceptsReplacement_of_ne hadd)]
        exact iff_of_true (keepsProducts_of_answersChoice hblanks hpost hinterrupt hext hanswer)
          hnames
      | false =>
        exact keepsProducts_iff_of_applies hblanks hlive hpost hinterrupt hwindow hremove hreplace
          hanswer hchange hadd

end

/-- The name alone keeps the cylinders in the cart. -/
theorem keepsProducts_name : KeepsProducts plainRuntime (answerToSummary "tên Hoa").orderTurn :=
  (keepsProducts_iff Vietnamese.extends_database blanksSeparate_database (by decide +kernel)
    (by decide +kernel) (by decide +kernel) (by decide +kernel)).mpr
      ⟨by decide +kernel, by decide +kernel,
        fun h => absurd h (by decide +kernel), fun h => absurd h (by decide +kernel)⟩

/-- "2 bình" (two cylinders) takes the product out of the cart. -/
theorem quantity_empties_cart :
    ¬ ∀ (rt : Runtime) (turn : OrderTurn), Vietnamese.Extends rt.db → BlanksSeparate rt.db →
      cartProducts rt.db turn.products (cartOf rt (readTurn rt turn).orderState) ≠ [] →
      hasRemoveCue (normalizeMatchText rt.db turn.content) = false →
      hasReplaceCue (normalizeMatchText rt.db turn.content) = false →
      isOrderCancelRequest (normalizeMatchText rt.db turn.content) = false →
      KeepsProducts rt turn := by
  intro h
  have hkeeps := h plainRuntime (answerToSummary "2 bình").orderTurn Vietnamese.extends_database
    blanksSeparate_database (by decide +kernel) (by decide +kernel) (by decide +kernel)
    (by decide +kernel)
  have hlost : ¬ KeepsProducts plainRuntime (answerToSummary "2 bình").orderTurn := by
    unfold KeepsProducts
    decide +kernel
  exact hlost hkeeps

end Qiki.Chat
