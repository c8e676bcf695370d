import Qiki.Chat.ConfirmedOrder
import Qiki.Text.Search

/-! A confirming message, by its words, the extraction and the stored order. -/
namespace Qiki.Chat

open Unicode Regex Orders AddressLookup Transition

/-! What a text does not say. -/

section
variable (db : Database) (content : Text)

/-- The words of a yes that are never taken for a name. -/
def yesWords : List Text := ["ok", "okay", "dong", "dung", "roi", "phai", "thanh", "toan"]

/-- The other words of the text. -/
def otherWords : List Text :=
  (findall ⟨db, false⟩ wordRe content).filter fun word =>
    !yesWords.contains (normalizeMatchText db word)

/-- The word that announces a name. -/
def nameLabelRe : Regex := seqOf [wordBoundary, altOf ([literal "tên", literal "ten",
  literal "mình tên", literal "minh ten", literal "tôi tên", literal "toi ten",
  literal "người nhận", literal "nguoi nhan"]), plus space]

/-- The word that announces an address. -/
def addressLabelRe : Regex :=
  seqOf [wordBoundary, altOf [literal "địa chỉ", literal "dia chi"], plus space]

/-- No number, no label and no payment method stands in the text. -/
structure BareText : Prop where
  digits : ∀ c ∈ content, db.digit c = none
  name : search ⟨db, true⟩ nameLabelRe content = none
  address : search ⟨db, true⟩ addressLabelRe content = none
  codes : search ⟨db, true⟩ (anyWord ["cod", "cash", "ck"]) content = none
  payment : search ⟨db, false⟩
    (anyWord ["tiền mặt", "tien mat", "chuyển khoản", "chuyen khoan"]) content = none

/-- No part of the text has a quantity, or is only a kind of goods. -/
def NamesNoGoods : Prop := ∀ segment ∈ content :: splitOrderItemSegments db content,
  extractQuantityCandidate db segment = none ∧
    extractLeadingQuantityCandidate db segment = none ∧
      categoryOrderItemFromSegment db segment = none

end

/-- The extraction gives what was shown, or nothing; an item whose product the message does not
mention is no item. -/
structure ExtractsShown (rt : Runtime) (content : Text) (products : List Product)
    (extracted : ChatOrderSlots) (o : ReadyOrder) : Prop where
  items : ∀ item ∈ extracted.items, present item.product = true ∧
    (matchProduct rt.db item.product products).any (isProductMentionedInContent rt.db content) =
      false ∧ isMentioned rt.db content item.text = false
  name : present extracted.customerName = true →
    extracted.customerName = some o.summary.customerName
  phone : present extracted.customerPhone = true →
    ∃ phone, validatePhone rt.db (extracted.customerPhone.getD []) = some phone ∧
      Text.strip rt.db.space phone = o.phone
  address : present extracted.deliveryAddress = true →
    extracted.deliveryAddress = some o.summary.address ∧
      addressHasNonAddressNoise rt.db o.summary.address = false
  payment : present extracted.paymentMethod = true →
    normalizePaymentMethod rt.db (extracted.paymentMethod.getD []) = some o.paymentMethod

section
variable {m : Mode} {a b c : Regex} {s : Text} {k : Cursor}

/-- What does not begin does not occur. -/
theorem search_longer (h : search m (seq a (seq b c)) s = none) (d : Regex) :
    search m (seq a (seq b (seq c d))) s = none := by
  rw [search_eq_none] at h ⊢
  intro x y hs
  have hassoc : results m (seq a (seq b (seq c d))) (.between x y) =
      (results m (seq a (seq b c)) (.between x y)).flatMap (results m d) := by
    simp only [results, List.flatMap_assoc]
  rw [hassoc, h x y hs, List.flatMap_nil]

theorem not_mem_digit (h : ∀ c ∈ k.rest, m.db.digit c = none) (b : Regex) {k' : Cursor} :
    k' ∉ results m (seq digit b) k := by
  intro hk'
  obtain ⟨t, rest, ⟨c, hc, rfl⟩, hrest, -⟩ := (Spells.oneOf [.digit]).mem_seq.mp hk'
  have hnone := h c (by simp [hrest])
  simp [Mode.matchesClass, hnone] at hc

theorem not_mem_digits (h : ∀ c ∈ k.rest, m.db.digit c = none) (b : Regex) {k' : Cursor} :
    k' ∉ results m (seq (plus digit) b) k := by
  have hassoc : results m (seq (plus digit) b) k =
      results m (seq digit (seq (star true digit) b)) k := by
    simp only [plus, results, List.flatMap_assoc]
  rw [hassoc]
  exact not_mem_digit h _

end

section
variable {db : Database} {content : Text} (h : BareText db content)
include h

theorem BareText.digit_none {x y t rest : Text} (hs : content = x ++ y) (hrest : y = t ++ rest) :
    ∀ c ∈ rest, db.digit c = none := by
  intro c hc
  refine h.digits c ?_
  rw [hs, hrest]
  exact List.mem_append_right _ (List.mem_append_right _ hc)

theorem BareText.search_phoneRe : search ⟨db, false⟩ phoneRe content = none := by
  rw [search_eq_none]
  intro x y hs
  rw [List.eq_nil_iff_forall_not_mem]
  intro k' hk'
  obtain ⟨t, rest, -, hrest, hk'⟩ := (Spells.optional (Spells.oneOf [.char '+'])).mem_seq.mp hk'
  exact not_mem_digit (h.digit_none hs hrest) _ hk'

theorem BareText.search_addressRe : search ⟨db, true⟩ addressRe content = none := by
  rw [search_eq_none]
  intro x y hs
  rw [addressRe, results, List.map_eq_nil_iff, List.eq_nil_iff_forall_not_mem]
  intro k' hk'
  exact not_mem_digits (h.digit_none hs (List.nil_append y).symm) _ (mem_seq_wordBoundary.mp hk').2

theorem BareText.extractDeliveryAddressCandidate :
    extractDeliveryAddressCandidate db content = none := by
  have hmarker : search ⟨db, true⟩ addressMarkerRe content = none := search_longer h.address _
  unfold Chat.extractDeliveryAddressCandidate
  dsimp only
  rw [h.search_addressRe, hmarker]
  rfl

theorem BareText.extractExplicitNameCandidate :
    extractExplicitNameCandidate db content = none := by
  unfold Chat.extractExplicitNameCandidate
  dsimp only
  rw [Option.bind_eq_none_iff]
  intro candidate hcandidate
  obtain ⟨found, hfound, -⟩ := Option.bind_eq_some_iff.mp hcandidate
  have hnone : none = some found := (search_longer h.name _).symm.trans hfound
  cases hnone

/-- The words of a bare text are a name when they are one to three besides those of a yes. -/
theorem BareText.extractNameCandidate {payment : Option Text} (hpayment : payment ≠ none) :
    extractNameCandidate db content payment =
      if otherWords db content = [] ∨ 3 < (otherWords db content).length then none
      else some (title db (Text.join [' '] ((otherWords db content).map (Text.strip db.space)))) := by
  have hleading : extractLeadingNameBeforeAddress db content = none := by
    unfold extractLeadingNameBeforeAddress
    rw [h.extractDeliveryAddressCandidate]
    rfl
  have hwords : nameWords db yesWords content =
      if otherWords db content = [] ∨ 3 < (otherWords db content).length then none
      else some (Text.join [' '] ((otherWords db content).map (Text.strip db.space))) := by
    unfold nameWords
    dsimp only
    rw [List.isEmpty_map, List.length_map]
    change (if (otherWords db content).isEmpty || 3 < (otherWords db content).length then _ else _) = _
    simp only [Bool.or_eq_true, List.isEmpty_iff, decide_eq_true_eq]
    rfl
  unfold Chat.extractNameCandidate
  rw [h.extractExplicitNameCandidate, hleading]
  dsimp only
  rw [Option.isNone_eq_false_iff.mpr (Option.isSome_iff_ne_none.mpr hpayment),
    if_neg Bool.false_ne_true, sub_eq_self h.search_phoneRe, sub_eq_self h.codes,
    sub_eq_self h.payment]
  change (nameWords db yesWords content).map (title db) = _
  rw [hwords]
  split_ifs <;> rfl

end

theorem present_of_getD_ne {value : Option Text} (h : value.getD [] ≠ []) : present value = true := by
  cases value with
  | none => exact absurd rfl h
  | some t => exact present_of_ne h

theorem Complete.summary_name_ne {rt : Runtime} {catalog : List Product} {o : ReadyOrder}
    (h : Complete rt catalog o) : o.summary.customerName ≠ [] := by
  intro hempty
  have hvalue : o.slots.customerName.getD [] = [] := hempty
  have hname := h.name
  cases hslot : o.slots.customerName with
  | none =>
    rw [hslot] at hname
    cases hname
  | some name =>
    rw [hslot] at hname hvalue
    obtain rfl : name = [] := hvalue
    cases hname

/-! The message of a yes. -/

/-- The words besides those of a yes are none, too many for a name, or the shown name. -/
def NamesShown (db : Database) (content : Text) (o : ReadyOrder) : Prop :=
  otherWords db content = [] ∨ 3 < (otherWords db content).length ∨
    title db (Text.join [' '] ((otherWords db content).map (Text.strip db.space))) =
      o.summary.customerName

/-- The message, the extraction and the stored order give what was shown and nothing else. -/
structure ConfirmsShown (rt : Runtime) (turn : OrderTurn) (stored : ChatOrderSlots)
    (o : ReadyOrder) : Prop where
  text : BareText rt.db turn.content
  goods : NamesNoGoods rt.db turn.content
  name : NamesShown rt.db turn.content o
  extraction : ExtractsShown rt turn.content turn.products (extractOrderSlots rt turn.response) o
  stored : ShowsSame rt turn (dropIncompleteAddItems rt.db stored) o

section
variable {db : Database} {content : Text} {products : List Product}

theorem itemFromText_eq_none {text : Text} (hquantity : extractQuantityCandidate db text = none)
    (hleading : extractLeadingQuantityCandidate db text = none) :
    itemFromText db text products = none := by
  unfold itemFromText
  dsimp only
  rw [hquantity, hleading, ite_self]

theorem inferOrderSlots_items (h : NamesNoGoods db content) :
    (inferOrderSlots db content products).items = [] := by
  have hsegments : ∀ segments : List Text, (∀ segment ∈ segments,
      extractQuantityCandidate db segment = none ∧
        extractLeadingQuantityCandidate db segment = none ∧
          categoryOrderItemFromSegment db segment = none) →
      segments.foldl (inferSegment db products) [] = [] := by
    intro segments hall
    induction segments with
    | nil => rfl
    | cons segment segments ih =>
      obtain ⟨hquantity, hleading, hcategory⟩ := hall segment List.mem_cons_self
      have hsegment : inferSegment db products [] segment = [] := by
        unfold inferSegment
        rw [hcategory, itemFromText_eq_none hquantity hleading]
        exact ite_self _
      rw [List.foldl_cons, hsegment]
      exact ih fun s hs => hall s (List.mem_cons_of_mem segment hs)
  have hitems := hsegments _ fun segment hsegment => h segment (List.mem_cons_of_mem _ hsegment)
  obtain ⟨hquantity, hleading, -⟩ := h content List.mem_cons_self
  unfold inferOrderSlots
  dsimp only
  rw [hitems, itemFromText_eq_none hquantity hleading]
  split_ifs <;> rfl

end

section
variable {rt : Runtime} {turn : OrderTurn} {stored : ChatOrderSlots} {o : ReadyOrder}
  (h : ConfirmsShown rt turn stored o)
include h

/-- No item is read from the message. -/
theorem ConfirmsShown.candidates : (readTurn rt turn).candidates = [] := by
  have hitems : ∀ items : List ChatOrderItem,
      (∀ item ∈ items, item ∈ (extractOrderSlots rt turn.response).items) →
        items.foldl (combineItem rt.db turn.content turn.products) [] = [] := by
    intro items hmem
    induction items with
    | nil => rfl
    | cons item items ih =>
      obtain ⟨hpresent, hproduct, htext⟩ := h.extraction.items item (hmem item List.mem_cons_self)
      have hitem : combineItem rt.db turn.content turn.products [] item = [] := by
        unfold combineItem
        simp only [hpresent, hproduct, htext, if_true, Bool.or_self, Bool.not_false]
      rw [List.foldl_cons, hitem]
      exact ih fun i hi => hmem i (List.mem_cons_of_mem item hi)
  change ((extractOrderSlots rt turn.response).items.foldl _
    (inferOrderSlots rt.db turn.content turn.products).items) = []
  rw [inferOrderSlots_items h.goods]
  exact hitems _ fun _ hitem => hitem

/-- No address is read from the text. -/
theorem ConfirmsShown.contact_address :
    (readTurn rt turn).contact.deliveryAddress =
      (extractOrderSlots rt turn.response).deliveryAddress := by
  change sanitizeDeliveryAddress rt.db (selectDeliveryAddress rt.db
    (extractOrderSlots rt turn.response).deliveryAddress
    (extractDeliveryAddressCandidate rt.db turn.content)) turn.content = _
  have hselect : selectDeliveryAddress rt.db (extractOrderSlots rt turn.response).deliveryAddress
      none = (extractOrderSlots rt turn.response).deliveryAddress := rfl
  rw [h.text.extractDeliveryAddressCandidate, hselect]
  unfold sanitizeDeliveryAddress
  cases haddress : present (extractOrderSlots rt turn.response).deliveryAddress with
  | false => rfl
  | true =>
    obtain ⟨hshown, hplain⟩ := h.extraction.address haddress
    rw [hshown, Option.getD_some, hplain]
    rfl

/-- No name but the shown one is read from the text. -/
theorem ConfirmsShown.nameRead {payment : Option Text} (hpayment : payment ≠ none) :
    extractNameCandidate rt.db turn.content payment = none ∨
      extractNameCandidate rt.db turn.content payment = some o.summary.customerName := by
  rw [h.text.extractNameCandidate hpayment]
  split_ifs with hwords
  · exact Or.inl rfl
  · obtain ⟨hsome, hfew⟩ := not_or.mp hwords
    exact Or.inr (congrArg some ((h.name.resolve_left hsome).resolve_left hfew))

/-- A field that the extraction gives takes the place of the stored one. -/
theorem ConfirmsShown.contact_get (field : ContactField) :
    field.get (readTurn rt turn).contact = field.get (extractOrderSlots rt turn.response) := by
  cases field with
  | address => exact h.contact_address
  | name => rfl
  | phone => rfl
  | payment => rfl

/-- Merged with the message, the stored fields are the shown ones. -/
theorem ConfirmsShown.merged : ShowsSame rt turn
    (mergeOrderSlots rt.db (some (dropIncompleteAddItems rt.db stored)) (some (readTurn rt turn).contact))
    o := by
  have hfield (field : ContactField) :
      (present (field.get (extractOrderSlots rt turn.response)) = true ∧
        (field.get (mergeOrderSlots rt.db (some (dropIncompleteAddItems rt.db stored))
          (some (readTurn rt turn).contact))).getD [] =
            (field.get (extractOrderSlots rt turn.response)).getD []) ∨
      (field.get (mergeOrderSlots rt.db (some (dropIncompleteAddItems rt.db stored))
        (some (readTurn rt turn).contact))).getD [] =
          (field.get (dropIncompleteAddItems rt.db stored)).getD [] := by
    rw [mergeOrderSlots_get, h.contact_get, getD_orElse]
    split_ifs with hread
    · exact Or.inl ⟨hread, rfl⟩
    · exact Or.inr rfl
  have hitems : (mergeOrderSlots rt.db (some (dropIncompleteAddItems rt.db stored))
      (some (readTurn rt turn).contact)).items = (dropIncompleteAddItems rt.db stored).items :=
    items_mergeOrderSlots_left fun s hs => Option.some.inj hs ▸ rfl
  have hname := hfield .name
  have hphone := hfield .phone
  have haddress := hfield .address
  have hpayment := hfield .payment
  generalize mergeOrderSlots rt.db (some (dropIncompleteAddItems rt.db stored))
    (some (readTurn rt turn).contact) = merged at *
  dsimp only [ContactField.get] at hname hphone haddress hpayment
  refine ⟨hitems ▸ h.stored.items, ?_, ?_, ?_, ?_⟩
  · rcases hname with ⟨hread, heq⟩ | heq
    · rw [heq, h.extraction.name hread, Option.getD_some]
    · exact heq.trans h.stored.name
  · rcases hphone with ⟨hread, heq⟩ | heq
    · exact heq ▸ h.extraction.phone hread
    · exact heq ▸ h.stored.phone
  · rcases haddress with ⟨hread, heq⟩ | heq
    · rw [heq, (h.extraction.address hread).1, Option.getD_some]
    · exact heq.trans h.stored.address
  · rcases hpayment with ⟨hread, heq⟩ | heq
    · exact heq ▸ h.extraction.payment hread
    · exact heq ▸ h.stored.payment

variable {catalog : List Product} (hblanks : PlainBlanks rt.db) (hcomplete : Complete rt catalog o)
include hblanks hcomplete

/-- The text and the account add nothing to slots that are the shown ones. -/
theorem ConfirmsShown.completed {slots : ChatOrderSlots} (hslots : ShowsSame rt turn slots o) :
    ShowsSame rt turn (withAccount rt turn (withOrderCues rt.db
      (withPhoneCandidate rt.db slots turn.content) turn.content)) o := by
  obtain ⟨phone, hvalid, -⟩ := hslots.phone
  have hphone : present slots.customerPhone = true := by
    refine present_of_getD_ne fun hempty => strip_ne_nil_of_phone hvalid ?_
    rw [hempty]
    rfl
  have hpayment : present slots.paymentMethod = true := by
    refine present_of_getD_ne fun hempty => strip_ne_nil_of_payment hblanks.separate hslots.payment ?_
    rw [hempty]
    rfl
  have haddress : present slots.deliveryAddress = true := by
    refine present_of_getD_ne fun hempty => strip_ne_nil_of_zone hblanks hcomplete.zone ?_
    have hshown : o.slots.deliveryAddress.getD [] = [] := hslots.address.symm.trans hempty
    rw [hshown]
    rfl
  have hpaymentSome : slots.paymentMethod ≠ none := by
    intro hnone
    rw [hnone] at hpayment
    cases hpayment
  have hcues : withOrderCues rt.db (withPhoneCandidate rt.db slots turn.content) turn.content =
      { slots with
        customerName := orElse (extractNameCandidate rt.db turn.content slots.paymentMethod)
          slots.customerName } := by
    rw [withPhoneCandidate_of_valid hphone (Option.isSome_of_eq_some hvalid)]
    unfold withOrderCues
    dsimp only
    rw [orElse_of_present hpayment]
  have hread : (orElse (extractNameCandidate rt.db turn.content slots.paymentMethod)
      slots.customerName).getD [] = o.summary.customerName := by
    rcases h.nameRead hpaymentSome with hnone | hshown
    · rw [hnone, orElse_of_not_present rfl, hslots.name]
    · rw [hshown, orElse_of_present (present_of_ne hcomplete.summary_name_ne), Option.getD_some]
  have hname : present (orElse (extractNameCandidate rt.db turn.content slots.paymentMethod)
      slots.customerName) = true :=
    present_of_getD_ne (hread ▸ hcomplete.summary_name_ne)
  rw [hcues]
  refine (showsSame_congr withAccount_items (fun field => ?_) o).mpr
    ⟨hslots.items, hread, hslots.phone, hslots.address, hslots.payment⟩
  rw [withAccount_get]
  cases field with
  | name => exact congrArg (Option.getD · []) (orElse_of_present hname)
  | phone => exact congrArg (Option.getD · []) (orElse_of_present hphone)
  | address => exact congrArg (Option.getD · []) (orElse_of_present haddress)
  | payment => exact congrArg (Option.getD · []) (orElse_of_present hpayment)

/-- A yes to the summary that gives nothing else repeats it. -/
theorem ConfirmsShown.repeats (hstored : stored = rereadSlots rt.db o.slots) :
    RepeatsShown rt turn o := by
  have hname : (reread rt.db o.slots.customerName).getD [] = o.summary.customerName := by
    have hname := h.stored.name
    rw [hstored] at hname
    exact hname
  have haddress : (reread rt.db o.slots.deliveryAddress).getD [] = o.summary.address := by
    have haddress := h.stored.address
    rw [hstored] at haddress
    exact haddress
  have hphone : ∃ phone, validatePhone rt.db (o.slots.customerPhone.getD []) = some phone ∧
      Text.strip rt.db.space phone = o.phone := by
    have hphone := h.stored.phone
    rw [hstored] at hphone
    change ∃ phone, validatePhone rt.db ((rereadSlots rt.db o.slots).customerPhone.getD []) = _ ∧ _
      at hphone
    rwa [hcomplete.reread_phone, Option.getD_some, validatePhone_strip] at hphone
  have hpayment : o.slots.paymentMethod ≠ none := by
    intro hnone
    refine strip_ne_nil_of_payment hblanks.separate hcomplete.payment ?_
    rw [hnone]
    rfl
  have hshown := present_of_ne hcomplete.summary_name_ne
  have hpresent := present_of_getD_ne (hname ▸ hcomplete.summary_name_ne)
  have hcontact : (readTurn rt turn).contact.customerName =
      (extractOrderSlots rt turn.response).customerName := h.contact_get .name
  refine ⟨fun hitems => absurd h.candidates hitems, ?_, ?_, ?_, h.extraction.payment⟩
  · unfold readName
    rw [hcontact, orElse_assoc]
    rcases h.nameRead hpayment with hnone | hread
    · rw [hnone, orElse_of_not_present rfl]
      cases hgiven : present (extractOrderSlots rt turn.response).customerName with
      | true => rw [orElse_of_present hgiven, h.extraction.name hgiven, Option.getD_some]
      | false => rw [orElse_of_not_present hgiven, orElse_of_present hpresent, hname]
    · rw [hread, orElse_of_present hshown, Option.getD_some]
  · have hcontact : (readTurn rt turn).contact.customerPhone =
        (extractOrderSlots rt turn.response).customerPhone := h.contact_get .phone
    rw [hcontact]
    cases hgiven : present (extractOrderSlots rt turn.response).customerPhone with
    | true =>
      obtain ⟨phone, hvalid, hshown⟩ := h.extraction.phone hgiven
      rw [← hcontact] at hgiven hvalid
      refine ⟨phone, ?_, hshown⟩
      rw [if_pos rfl, readPhone,
        withPhoneCandidate_of_valid hgiven (Option.isSome_of_eq_some hvalid)]
      exact hvalid
    | false =>
      rw [if_neg Bool.false_ne_true]
      exact hphone
  · rw [h.contact_address]
    cases hgiven : present (extractOrderSlots rt turn.response).deliveryAddress with
    | true => rw [orElse_of_present hgiven, (h.extraction.address hgiven).1, Option.getD_some]
    | false => rw [orElse_of_not_present hgiven, haddress]

end

/-! Over a conversation. -/

section
variable {rt : Runtime} {wares : List Product}

/-- What was shown was complete. -/
theorem shown_complete {id : Uuid} {events : List ConversationEvent} {c : Conversation}
    (hrun : exec (converse rt wares) { id := id } events = some c) :
    ∀ o ∈ c.shown, ∃ catalog, Complete rt catalog o := by
  have hstep (c c' : Conversation) (event : ConversationEvent)
      (h : ∀ o ∈ c.shown, ∃ catalog, Complete rt catalog o)
      (hnext : converse rt wares c event = some c') :
      ∀ o ∈ c'.shown, ∃ catalog, Complete rt catalog o := by
    cases event with
    | message m =>
      dsimp only [converse] at hnext
      split_ifs at hnext
      obtain rfl := Option.some.inj hnext
      exact h
    | turn turn service streamed =>
      dsimp only [converse] at hnext
      split_ifs at hnext
      cases hreply : storedReply rt (c.turn turn) service streamed with
      | none =>
        rw [hreply] at hnext
        obtain rfl := Option.some.inj hnext
        exact h
      | some r =>
        rw [hreply] at hnext
        obtain rfl := Option.some.inj hnext
        intro o ho
        rcases Option.or_eq_some_iff.mp ho with hshown | ⟨-, hkept⟩
        · exact ⟨_, complete_of_showSummary (shownBy_eq_some hshown).2⟩
        · exact h o hkept
  exact invariant_exec (fun c event c' => hstep c c' event) (fun o ho => by cases ho) hrun

/-- The slots that are stored with the newest order state. -/
def storedSlots (rt : Runtime) (c : Conversation) : ChatOrderSlots :=
  (slotsFromOrderState rt (latestState c.messages.reverse)).getD {}

/-- In every conversation, a turn that calls `create_order` orders what the last summary showed when
its message, the extraction and the stored order give that and nothing else. -/
theorem confirmed_asShown (hblanks : PlainBlanks rt.db) {id : Uuid}
    {events : List ConversationEvent} {c : Conversation}
    (hrun : exec (converse rt wares) { id := id } events = some c) (turn : ChatTurn)
    (hgoods : goods turn.catalog = wares) {placed : ReadyOrder} {checkout : CheckoutRequest} {key : Uuid}
    (hplaced : handleChatOrder rt (c.turn turn).orderTurn = .createOrder placed checkout key)
    (hconfirms : ∃ o ∈ c.shown, ConfirmsShown rt (c.turn turn).orderTurn (storedSlots rt c) o) :
    ∃ o ∈ c.shown, AsShown o checkout := by
  obtain ⟨o, ho, hconfirms⟩ := hconfirms
  obtain ⟨catalog, hcomplete⟩ := shown_complete hrun o ho
  -- a turn that knows its state found the newest one
  have hfound (hstatus : (readTurn rt (c.turn turn).orderTurn).status ≠ []) :
      latestState c.messages.reverse = (readTurn rt (c.turn turn).orderTurn).orderState := by
    cases hstate : (readTurn rt (c.turn turn).orderTurn).orderState with
    | none => exact absurd (congrArg (orderStateStatus rt) hstate) hstatus
    | some state => exact latestState_getRecent (orderStateFrom_eq hstate)
  refine (asShown_iff_readsShown hblanks hrun turn hgoods hplaced).mpr ⟨fun hstatus => ?_, fun hstatus => ?_⟩
  · intro o' ho'
    obtain rfl := Option.some.inj (ho.symm.trans ho')
    have hlatest := hfound (by rw [hstatus]; decide)
    refine hconfirms.repeats hblanks hcomplete ?_
    cases hstate : latestState c.messages.reverse with
    | none =>
      rw [hstate] at hlatest
      have hempty : (readTurn rt (c.turn turn).orderTurn).status = [] :=
        congrArg (orderStateStatus rt) hlatest.symm
      rw [hempty] at hstatus
      cases hstatus
    | some state =>
      have hsummary : orderStateStatus rt (some state) = "awaiting_confirmation" := by
        rw [← hstate, hlatest]
        exact hstatus
      obtain ⟨o', catalog', hshown, rfl, -, hcomplete'⟩ := keepsShown_of_exec hrun state hstate hsummary
      obtain rfl := Option.some.inj (ho.symm.trans hshown)
      unfold storedSlots
      rw [hstate, slotsFromOrderState_stored hcomplete'.name]
      rfl
  · have hbase : (readTurn rt (c.turn turn).orderTurn).base = storedSlots rt c := by
      unfold storedSlots
      rw [hfound (by rw [hstatus]; decide)]
      rfl
    refine ⟨o, ho, ?_⟩
    unfold choiceSlots
    dsimp only
    rw [hbase]
    exact hconfirms.completed hblanks hcomplete hconfirms.merged

end

/-! Two answers to Lan's summary, over the whole conversation. -/

/-- A message of a guest, in a shop that sells the cylinders. -/
def elfTurn (content : Text) : ChatTurn :=
  { guestTurn .placeOrder content with catalog := [elfGas] }

/-- The cylinders, then the contact data. -/
def lanMessages : List Text :=
  ["2 bình gas elf đỏ", "tên Lan, 0912345678, cod, phường bình thọ"]

def lanEvents : List ConversationEvent :=
  lanMessages.map fun content => .turn (elfTurn content) (fun _ _ => some (1, "GB-1")) false

/-- The question for the contact data. -/
def askedContact : Reply :=
  let slots : ChatOrderSlots := { items := lanSlots.items }
  orderStateMessage (formatMissingSlotQuestion (missingOrderSlots slots [(⟨none, some 2⟩, some elfGas)]))
    "awaiting_missing_slots" (some slots) [] []

deriving instance DecidableEq for Conversation

/-- The conversation after these messages. -/
def lanConversation : Conversation where
  id := 7
  messages := (lanMessages.zip [askedContact, summaryReply lanOrder .vi]).flatMap fun (content, r) =>
    [(elfTurn content).userMessage, r.toMessage 0]
  shown := some lanOrder

/-- What the next message of the conversation leads to. -/
def answerLan (content : Text) : OrderOutcome :=
  handleChatOrder plainRuntime (lanConversation.turn (elfTurn content)).orderTurn

def OrderOutcome.checkout : OrderOutcome → Option CheckoutRequest
  | .createOrder _ checkout _ => some checkout
  | _ => none

theorem lanConversation_run :
    exec (converse plainRuntime (goods [elfGas])) { id := 7 } lanEvents = some lanConversation := by
  decide +kernel

theorem answerLan_eq {content : Text} {checkout : CheckoutRequest}
    (h : (answerLan content).checkout = some checkout) :
    ∃ placed key, answerLan content = .createOrder placed checkout key := by
  cases houtcome : answerLan content with
  | createOrder placed checkout' key =>
    rw [houtcome] at h
    obtain rfl := Option.some.inj h
    exact ⟨placed, key, rfl⟩
  | reply r =>
    rw [houtcome] at h
    cases h
  | showSummary o =>
    rw [houtcome] at h
    cases h
  | invalidCheckout =>
    rw [houtcome] at h
    cases h

theorem digit_eq_none {db : Database} {content : Text}
    (h : content.all (fun c => (db.digit c).isNone) = true) : ∀ c ∈ content, db.digit c = none :=
  fun c hc => Option.isNone_iff_eq_none.mp (List.all_eq_true.mp h c hc)

theorem bareText_ok : BareText Vietnamese.database "ok" :=
  ⟨digit_eq_none (by decide +kernel), by decide +kernel, by decide +kernel, by decide +kernel,
    by decide +kernel⟩

theorem namesNoGoods_ok : NamesNoGoods Vietnamese.database "ok" := by
  unfold NamesNoGoods
  decide +kernel

/-- The extraction of `{}` gives nothing. -/
theorem extractOrderSlots_nothing : extractOrderSlots plainRuntime "{}" = {} := by decide +kernel

theorem extractsShown_nothing : ExtractsShown plainRuntime "ok" [elfGas]
    (extractOrderSlots plainRuntime "{}") lanOrder := by
  rw [extractOrderSlots_nothing]
  refine ⟨fun item hitem => (by cases hitem), ?_, ?_, ?_, ?_⟩
  all_goals
    intro hpresent
    cases hpresent

theorem lanStored : ShowsSame plainRuntime (lanConversation.turn (elfTurn "ok")).orderTurn
    (dropIncompleteAddItems Vietnamese.database (storedSlots plainRuntime lanConversation))
    lanOrder := by
  refine ⟨by decide +kernel, by decide +kernel, ⟨"+84912345678", by decide +kernel, by decide +kernel⟩,
    by decide +kernel, by decide +kernel⟩

/-- "ok" orders what was shown. -/
theorem ok_orders_shown : ∃ placed checkout key,
    answerLan "ok" = .createOrder placed checkout key ∧ ∃ o ∈ lanConversation.shown, AsShown o checkout := by
  have hsome : (answerLan "ok").checkout.isSome = true := by decide +kernel
  obtain ⟨checkout, hcheckout⟩ := Option.isSome_iff_exists.mp hsome
  obtain ⟨placed, key, hplaced⟩ := answerLan_eq hcheckout
  exact ⟨placed, checkout, key, hplaced, confirmed_asShown plainBlanks_database lanConversation_run
    (elfTurn "ok") rfl hplaced ⟨lanOrder, rfl, bareText_ok, namesNoGoods_ok,
      Or.inl (by decide +kernel), extractsShown_nothing, lanStored⟩⟩

/-- "xác nhận" (I confirm) becomes the customer's name. -/
theorem confirmation_is_taken_for_name :
    ¬ ∀ (rt : Runtime) (wares : List Product) (id : Uuid) (events : List ConversationEvent)
      (c : Conversation) (turn : ChatTurn) (placed : ReadyOrder) (checkout : CheckoutRequest)
      (key : Uuid), PlainBlanks rt.db → exec (converse rt wares) { id := id } events = some c →
      goods turn.catalog = wares →
      handleChatOrder rt (c.turn turn).orderTurn = .createOrder placed checkout key →
      ∃ o ∈ c.shown, AsShown o checkout := by
  intro h
  have hname : (answerLan "xác nhận").checkout.map (·.customerName) = some "Xác Nhận" := by
    decide +kernel
  obtain ⟨checkout, hcheckout, hordered⟩ := Option.map_eq_some_iff.mp hname
  obtain ⟨placed, key, hplaced⟩ := answerLan_eq hcheckout
  obtain ⟨o, ho, hshown⟩ := h plainRuntime _ 7 lanEvents lanConversation (elfTurn "xác nhận") placed
    checkout key plainBlanks_database lanConversation_run rfl hplaced
  obtain rfl : lanOrder = o := Option.some.inj ho
  have hlan : checkout.customerName = "Lan" := hshown.name.trans (by decide)
  rw [hordered] at hlan
  exact absurd hlan (by decide)

end Qiki.Chat
