import Qiki.Chat.Plan

/-! The turns that the decision tree leaves to the answer pipeline, and those that it takes for an
order, by the message, the history, the result of the classifier and the catalog. -/
namespace Qiki.Chat

open Unicode Orders Catalog

/-! What a message asks for. -/

section
variable (db : Database) (content : Text) (catalog : List Product)

/-- The customer declines a call, or names a time for a call, or for a delivery that is no order. -/
def asksFollowup (placesOrder : Bool) : Bool :=
  let normalized := normalizeMatchText db content
  isCallbackDecline normalized ||
    ((mentionsCallback normalized || (!placesOrder && (tokens normalized).contains "giao")) &&
      present (extractFollowupWindow db content).1)

/-- A product of the catalog beside the word of a question. -/
def asksAboutProduct : Bool :=
  let normalized := normalizeMatchText db content
  !isBareCategoryQuery db (some normalized) && (matchProduct db (some content) catalog).isSome &&
    hasProductQuestionCue db normalized

/-- A product of the catalog with a quantity or a word of an order, or on its own. -/
def ordersProduct : Bool :=
  let normalized := normalizeMatchText db content
  !isBareCategoryQuery db (some normalized) && !hasProductQuestionCue db normalized &&
    (matchProduct db (some content) catalog).any fun product =>
      ((extractQuantityCandidate db content).or
          (extractLeadingQuantityCandidate db content)).any (0 < ·) ||
        hasOrderActionCue normalized || isShortCatalogProductPhrase db normalized product

/-- The cheapest or the dearest, or a price range with its amount. -/
def asksPrice : Bool := (parseProductQuery db content []).priceKind.isSome

/-- Gas of a size that is not sold, or of no size and no brand, where several are sold. -/
def asksGasSize : Bool :=
  let sizes := availableGasSizes catalog
  let normalizedQuery := normalizeMatchText db content
  2 ≤ sizes.length && categoryFilterFromQuery normalizedQuery = some .gas &&
    match extractGasSizeQuery db normalizedQuery with
    | some size => !sizes.contains size
    | none => !queryMentionsProductBrand db normalizedQuery catalog

/-- The list of the gas of a size, or of the water that is sold. -/
def asksList : Bool :=
  let normalizedQuery := normalizeWeightUnits db (normalizeMatchText db content)
  isCatalogListQuery normalizedQuery && !queryMentionsProductBrand db normalizedQuery catalog &&
    match extractGasSizeQuery db normalizedQuery with
    | some size => (availableGasSizes catalog).contains size
    | none => categoryFilterFromQuery normalizedQuery = some .nuocUong &&
        catalog.any fun product => product.category = .nuocUong

/-- A question that is answered from the catalog. -/
def asksCatalog : Bool :=
  asksPrice db content || asksGasSize db content catalog || asksList db content catalog

theorem detectFollowupRequest_isNone (placesOrder : Bool) :
    (detectFollowupRequest db content placesOrder).isNone =
      !asksFollowup db content placesOrder := by
  unfold detectFollowupRequest asksFollowup
  dsimp only
  cases hdecline : isCallbackDecline (normalizeMatchText db content) <;>
    cases hcall : mentionsCallback (normalizeMatchText db content) <;>
    cases hwindow : present (extractFollowupWindow db content).1 <;>
    cases hdelivery : (tokens (normalizeMatchText db content)).contains "giao" <;>
    cases placesOrder <;> rfl

theorem catalogProductIntentOverride_eq :
    catalogProductIntentOverride db content catalog =
      if asksAboutProduct db content catalog then some .productInquiry
      else if ordersProduct db content catalog then some .placeOrder else none := by
  unfold catalogProductIntentOverride asksAboutProduct ordersProduct
  dsimp only
  by_cases hbare : isBareCategoryQuery db (some (normalizeMatchText db content)) = true
  · simp [hbare]
  · cases hmatch : matchProduct db (some content) catalog with
    | none => simp [hbare]
    | some product =>
      by_cases hcue : hasProductQuestionCue db (normalizeMatchText db content) = true
      · simp [hbare, hcue]
      · simp [hbare, hcue]

theorem parseProductQuery_priceKind (brands : List Text) :
    (parseProductQuery db content brands).priceKind =
      (parseProductQuery db content []).priceKind := rfl

theorem priceInquiryMessage_isNone (search : ProductSearchParams → List Product)
    (language : Language) : (priceInquiryMessage db search content catalog language).isNone =
      !asksPrice db content := by
  unfold priceInquiryMessage asksPrice
  dsimp only
  rw [parseProductQuery_priceKind]
  cases (parseProductQuery db content []).priceKind with
  | none => rfl
  | some kind =>
    dsimp only
    split
    · cases kind <;> rfl
    · rfl

theorem gasSizeInquiryMessage_isNone :
    (gasSizeInquiryMessage db content catalog).isNone = !asksGasSize db content catalog := by
  unfold gasSizeInquiryMessage asksGasSize
  dsimp only
  generalize availableGasSizes catalog = sizes
  generalize normalizeMatchText db content = query
  by_cases hfew : sizes.length < 2
  · rw [if_pos hfew, decide_eq_false (not_le.mpr hfew)]
    rfl
  · rw [if_neg hfew, decide_eq_true (not_lt.mp hfew)]
    by_cases hgas : categoryFilterFromQuery query = some .gas
    · rw [if_neg (not_not.mpr hgas), decide_eq_true hgas]
      cases extractGasSizeQuery db query with
      | none => cases queryMentionsProductBrand db query catalog <;> rfl
      | some size =>
        rw [Option.any_some]
        dsimp only
        cases sizes.contains size <;> rfl
    · rw [if_pos hgas, decide_eq_false hgas]
      rfl

/-- A size that is sold has its products. -/
theorem gasProductsForSize_ne_nil {size : Decimal}
    (h : (availableGasSizes catalog).contains size = true) :
    (gasProductsForSize catalog size).isEmpty = false := by
  unfold availableGasSizes at h
  rw [List.contains_iff_mem, List.mem_insertionSort, List.mem_dedup] at h
  obtain ⟨product, hproduct, rfl⟩ := List.mem_map.mp h
  obtain ⟨hmem, hgas⟩ := List.mem_filter.mp hproduct
  rw [List.isEmpty_eq_false_iff]
  exact List.ne_nil_of_mem (List.mem_filter.mpr ⟨hmem, by simpa using hgas⟩)

theorem catalogList_isNone (header : Text) (items : List Product) :
    (catalogList db header items).isNone = items.isEmpty := by
  unfold catalogList
  cases items with
  | nil => rfl
  | cons item items => rfl

theorem isEmpty_filter (p : Product → Bool) (items : List Product) :
    (items.filter p).isEmpty = !items.any p := by
  rw [Bool.eq_iff_iff, List.isEmpty_iff, List.filter_eq_nil_iff]
  simp

theorem catalogListMessage_isNone :
    (catalogListMessage db content catalog).isNone = !asksList db content catalog := by
  unfold catalogListMessage asksList
  dsimp only
  generalize normalizeWeightUnits db (normalizeMatchText db content) = query
  cases isCatalogListQuery query with
  | false => rfl
  | true =>
    cases queryMentionsProductBrand db query catalog with
    | true => rfl
    | false =>
      rw [Bool.not_true, Bool.false_or, if_neg Bool.false_ne_true]
      cases extractGasSizeQuery db query with
      | some size =>
        dsimp only
        cases hsold : (availableGasSizes catalog).contains size with
        | false => rfl
        | true => rw [if_pos rfl, catalogList_isNone, gasProductsForSize_ne_nil catalog hsold]; rfl
      | none =>
        dsimp only
        by_cases hwater : categoryFilterFromQuery query = some .nuocUong
        · rw [if_pos hwater, catalogList_isNone, decide_eq_true hwater, isEmpty_filter]
          rfl
        · rw [if_neg hwater, decide_eq_false hwater]
          rfl

theorem catalogProductIntentOverride_nil : catalogProductIntentOverride db content [] = none := by
  have hmatch : matchProduct db (some content) [] = none := by
    unfold matchProduct
    split_ifs <;> rfl
  rw [catalogProductIntentOverride_eq]
  simp [asksAboutProduct, ordersProduct, hmatch]

end

/-! The intent of a turn. -/

section
variable (rt : Runtime) (turn : ChatTurn)

/-- The customer asks for no human, and no order takes the message. -/
def keepsClassified : Bool :=
  !isExplicitHumanRequest rt.db turn.content && !isOrderInProgress turn.now turn.history &&
    !((findExistingChatOrder turn.history).isSome && isPostOrderChangeRequest rt.db turn.content)

/-- The turn is left to the pipeline: the classifier sees an emergency, or the message neither asks
for a product, a person or a call nor belongs to an order, and no question of it is answered from
the catalog. -/
def leftToPipeline : Bool :=
  let classified := turn.classified
  let asksAbout := asksAboutProduct rt.db turn.content turn.catalog
  classified.category = .safetyEmergency ||
    ((asksAbout || (!ordersProduct rt.db turn.content turn.catalog && keepsClassified rt turn &&
        !([ .complaint, .placeOrder] : List IntentCategory).contains classified.category &&
        6 / 10 ≤ classified.confidence)) &&
      (isOrderInProgress turn.now turn.history || (findExistingChatOrder turn.history).isSome ||
        !asksFollowup rt.db turn.content false) &&
      !((asksAbout || classified.category = .productInquiry) &&
        asksCatalog rt.db turn.content turn.catalog))

/-- The turn is taken for an order: the message names goods to order, or it belongs to an order and
asks for no person, or the classifier says so; no question about a product and no call is asked for
with it. -/
def takenByOrder : Bool :=
  let inProgress := isOrderInProgress turn.now turn.history
  let existing := (findExistingChatOrder turn.history).isSome
  turn.classified.category ≠ .safetyEmergency &&
    !asksAboutProduct rt.db turn.content turn.catalog &&
    (ordersProduct rt.db turn.content turn.catalog ||
      (existing && isPostOrderChangeRequest rt.db turn.content) ||
      (!isExplicitHumanRequest rt.db turn.content &&
        (inProgress || turn.classified.category = .placeOrder))) &&
    (inProgress || existing || !asksFollowup rt.db turn.content true)

theorem intentBeforeCatalog_of_emergency (h : turn.classified.category = .safetyEmergency) :
    intentBeforeCatalog rt turn = turn.classified := by
  have hcontext : applyOrderContextIntent turn.now turn.classified turn.history =
      turn.classified := by
    unfold applyOrderContextIntent
    rw [if_pos h]
  unfold intentBeforeCatalog
  simp [hcontext, h]

/-- What the classifier says stands. -/
theorem intentBeforeCatalog_of_keeps (h : keepsClassified rt turn = true) :
    intentBeforeCatalog rt turn = turn.classified := by
  simp only [keepsClassified, Bool.and_eq_true, Bool.not_eq_true'] at h
  obtain ⟨⟨hhuman, hprogress⟩, hchange⟩ := h
  have hcontext : applyOrderContextIntent turn.now turn.classified turn.history =
      turn.classified := by
    unfold applyOrderContextIntent
    rw [hprogress]
    split_ifs
    · rfl
    · contradiction
    · rfl
  unfold intentBeforeCatalog
  simp [hcontext, hhuman, hprogress, Bool.and_assoc, hchange]

/-- A change of an order comes first, then a person, then an order in progress. -/
theorem intentBeforeCatalog_category (hcalm : turn.classified.category ≠ .safetyEmergency) :
    (intentBeforeCatalog rt turn).category =
      if (findExistingChatOrder turn.history).isSome && isPostOrderChangeRequest rt.db turn.content
      then .placeOrder
      else if isExplicitHumanRequest rt.db turn.content then .complaint
      else if isOrderInProgress turn.now turn.history then .placeOrder
      else turn.classified.category := by
  unfold intentBeforeCatalog
  extract_lets context delivery human
  have hcontext : context.category =
      if isOrderInProgress turn.now turn.history then .placeOrder else turn.classified.category := by
    simp only [context, applyOrderContextIntent, if_neg hcalm]
    split_ifs <;> rfl
  have hdelivery : delivery.category = context.category := by
    simp only [delivery]
    split_ifs with h
    · simp only [Bool.and_eq_true] at h
      rw [hcontext, if_pos h.2]
      rfl
    · rfl
  have hcontextCalm : context.category ≠ .safetyEmergency := by
    rw [hcontext]
    split_ifs
    · decide
    · exact hcalm
  have hhuman : human.category =
      if isExplicitHumanRequest rt.db turn.content then .complaint else context.category := by
    simp only [human]
    rw [decide_eq_true (hdelivery ▸ hcontextCalm), Bool.true_and]
    split_ifs
    · rfl
    · exact hdelivery
  have hhumanCalm : human.category ≠ .safetyEmergency := by
    rw [hhuman]
    split_ifs
    · decide
    · exact hcontextCalm
  rw [decide_eq_true hhumanCalm, Bool.true_and]
  split_ifs with hchange
  · rfl
  all_goals
    rw [hhuman, hcontext]
    simp [*]

/-- Where an order or a person takes the turn, the classifier does not decide. -/
theorem intentBeforeCatalog_of_not_keeps (hcalm : turn.classified.category ≠ .safetyEmergency)
    (h : keepsClassified rt turn = false) :
    (intentBeforeCatalog rt turn).category = .placeOrder ∨
      (intentBeforeCatalog rt turn).category = .complaint := by
  rw [intentBeforeCatalog_category rt turn hcalm]
  split_ifs with hchange hhuman hprogress
  · exact Or.inl rfl
  · exact Or.inr rfl
  · exact Or.inl rfl
  · rw [Bool.not_eq_true] at hchange hhuman hprogress
    rw [keepsClassified, hchange, hhuman, hprogress] at h
    cases h

theorem intentBeforeCatalog_calm (hcalm : turn.classified.category ≠ .safetyEmergency) :
    (intentBeforeCatalog rt turn).category ≠ .safetyEmergency := by
  rw [intentBeforeCatalog_category rt turn hcalm]
  split_ifs
  · decide
  · decide
  · decide
  · exact hcalm

/-- The catalog decides about a message that names a product. -/
theorem finalIntent_of_calm (hcalm : turn.classified.category ≠ .safetyEmergency) :
    finalIntent rt turn =
      if asksAboutProduct rt.db turn.content turn.catalog then
        { category := .productInquiry
          confidence := max (intentBeforeCatalog rt turn).confidence (9 / 10)
          reasoning := "catalog_product_inquiry override: " ++ (intentBeforeCatalog rt turn).reasoning
          classifier := (intentBeforeCatalog rt turn).classifier ++ "+catalog_product_inquiry" }
      else if ordersProduct rt.db turn.content turn.catalog then
        orderContextIntent (intentBeforeCatalog rt turn) "catalog_product_order"
      else intentBeforeCatalog rt turn := by
  have hbefore := intentBeforeCatalog_calm rt turn hcalm
  have hnone : turn.catalog = [] → asksAboutProduct rt.db turn.content turn.catalog = false ∧
      ordersProduct rt.db turn.content turn.catalog = false := by
    intro hempty
    have hoverride := catalogProductIntentOverride_nil rt.db turn.content
    rw [← hempty, catalogProductIntentOverride_eq] at hoverride
    split_ifs at hoverride with hask horder
    exact ⟨Bool.not_eq_true _ ▸ hask, Bool.not_eq_true _ ▸ horder⟩
  unfold finalIntent
  dsimp only
  rw [catalogProductIntentOverride_eq]
  cases hempty : turn.catalog with
  | nil =>
    obtain ⟨hask, horder⟩ := hnone hempty
    rw [hempty] at hask horder
    simp [hask, horder]
  | cons product products =>
    rw [← hempty]
    split_ifs with h <;> simp_all

theorem finalIntent_emergency_iff :
    (finalIntent rt turn).category = .safetyEmergency ↔
      turn.classified.category = .safetyEmergency := by
  constructor
  · intro hfinal
    by_contra hcalm
    have hbefore := intentBeforeCatalog_calm rt turn hcalm
    rw [finalIntent_of_calm rt turn hcalm] at hfinal
    split_ifs at hfinal
    · cases hfinal
    · exact hbefore hfinal
  · intro h
    unfold finalIntent
    simp [intentBeforeCatalog_of_emergency rt turn h, h]

/-! The branch of a turn. -/

theorem routing_requiresHuman (hcalm : (finalIntent rt turn).category ≠ .safetyEmergency) :
    (routing rt turn).requiresHuman = decide ((finalIntent rt turn).category = .complaint) := by
  unfold routing routeIntent
  rw [if_neg hcalm]
  cases hcategory : (finalIntent rt turn).category <;>
    first
    | rfl
    | exact absurd hcategory hcalm

theorem followupNote_isNone (hcalm : (finalIntent rt turn).category ≠ .safetyEmergency) :
    (followupNote rt turn).isNone = (isOrderInProgress turn.now turn.history ||
      (findExistingChatOrder turn.history).isSome ||
        !asksFollowup rt.db turn.content ((finalIntent rt turn).category = .placeOrder)) := by
  unfold followupNote
  dsimp only
  rw [decide_eq_true hcalm, ← detectFollowupRequest_isNone]
  cases isOrderInProgress turn.now turn.history <;>
    cases findExistingChatOrder turn.history <;> rfl

theorem productInquiryMessage_isNone
    (hclear : shouldAskIntentClarification (finalIntent rt turn) = false) :
    (productInquiryMessage rt turn).isNone =
      !(decide ((finalIntent rt turn).category = .productInquiry) &&
        asksCatalog rt.db turn.content turn.catalog) := by
  unfold productInquiryMessage asksCatalog
  dsimp only
  rw [hclear]
  by_cases hasks : (finalIntent rt turn).category = .productInquiry
  · rw [decide_eq_true hasks, Bool.not_false, Bool.and_true, if_pos rfl, Option.isNone_or,
      Option.isNone_or, priceInquiryMessage_isNone, gasSizeInquiryMessage_isNone,
      catalogListMessage_isNone, ← Bool.not_or, ← Bool.not_or, Bool.true_and]
  · rw [decide_eq_false hasks]
    rfl

/-- With an intent that is no emergency nothing else may answer. -/
theorem branch_pipeline_of_calm (hcalm : (finalIntent rt turn).category ≠ .safetyEmergency) :
    selectBranch rt turn = .safety ∨ selectBranch rt turn = .rag ↔
      (followupNote rt turn).isNone = true ∧ (routing rt turn).requiresHuman = false ∧
        shouldAskIntentClarification (finalIntent rt turn) = false ∧
        (productInquiryMessage rt turn).isNone = true ∧
        (finalIntent rt turn).category ≠ .placeOrder := by
  unfold selectBranch
  dsimp only
  rw [if_neg hcalm]
  cases followupNote rt turn with
  | some note => simp
  | none =>
    cases (routing rt turn).requiresHuman with
    | true => simp
    | false =>
      cases shouldAskIntentClarification (finalIntent rt turn) with
      | true => simp
      | false =>
        cases productInquiryMessage rt turn with
        | some message => simp
        | none =>
          by_cases horder : (finalIntent rt turn).category = .placeOrder
          · simp [horder]
          · simp [horder]

/-- A turn whose intent asks for an order or a person is not left to the pipeline. -/
theorem branch_not_pipeline (h : (finalIntent rt turn).category = .placeOrder ∨
    (finalIntent rt turn).category = .complaint) :
    ¬(selectBranch rt turn = .safety ∨ selectBranch rt turn = .rag) := by
  have hcalm : (finalIntent rt turn).category ≠ .safetyEmergency := by
    rcases h with h | h <;> rw [h] <;> decide
  rw [branch_pipeline_of_calm rt turn hcalm, routing_requiresHuman rt turn hcalm]
  rintro ⟨-, hhuman, -, -, horder⟩
  rcases h with h | h
  · exact horder h
  · exact of_decide_eq_false hhuman h

/-- Any other turn is, when its intent is clear and no other answer is at hand. -/
theorem branch_pipeline_of_open (hcalm : (finalIntent rt turn).category ≠ .safetyEmergency)
    (horder : (finalIntent rt turn).category ≠ .placeOrder)
    (hcomplaint : (finalIntent rt turn).category ≠ .complaint) :
    selectBranch rt turn = .safety ∨ selectBranch rt turn = .rag ↔
      6 / 10 ≤ (finalIntent rt turn).confidence ∧
        (isOrderInProgress turn.now turn.history || (findExistingChatOrder turn.history).isSome ||
          !asksFollowup rt.db turn.content false) = true ∧
        (!(decide ((finalIntent rt turn).category = .productInquiry) &&
          asksCatalog rt.db turn.content turn.catalog)) = true := by
  have hclear : shouldAskIntentClarification (finalIntent rt turn) = false ↔
      6 / 10 ≤ (finalIntent rt turn).confidence := by
    unfold shouldAskIntentClarification
    simp [hcalm, horder, hcomplaint]
  rw [branch_pipeline_of_calm rt turn hcalm, routing_requiresHuman rt turn hcalm,
    followupNote_isNone rt turn hcalm, decide_eq_false horder, decide_eq_false hcomplaint, ← hclear]
  constructor
  · rintro ⟨hnote, -, hsure, hmessage, -⟩
    rw [productInquiryMessage_isNone rt turn hsure] at hmessage
    exact ⟨hsure, hnote, hmessage⟩
  · rintro ⟨hsure, hnote, hmessage⟩
    rw [← productInquiryMessage_isNone rt turn hsure] at hmessage
    exact ⟨hnote, rfl, hsure, hmessage, horder⟩

/-- The two branches that end in the pipeline are taken on exactly these turns. -/
theorem branch_pipeline_iff :
    selectBranch rt turn = .safety ∨ selectBranch rt turn = .rag ↔
      leftToPipeline rt turn = true := by
  by_cases hcalm : turn.classified.category = .safetyEmergency
  · have hsafety : selectBranch rt turn = .safety := by
      unfold selectBranch
      exact if_pos ((finalIntent_emergency_iff rt turn).mpr hcalm)
    simp [hsafety, leftToPipeline, hcalm]
  · have hfinal := finalIntent_of_calm rt turn hcalm
    unfold leftToPipeline
    dsimp only
    rw [decide_eq_false hcalm, Bool.false_or]
    cases hask : asksAboutProduct rt.db turn.content turn.catalog with
    | true =>
      rw [hask, if_pos rfl] at hfinal
      have hinquiry : (finalIntent rt turn).category = .productInquiry :=
        congrArg IntentResult.category hfinal
      have hsure : 6 / 10 ≤ (finalIntent rt turn).confidence := by
        rw [congrArg IntentResult.confidence hfinal]
        exact le_max_of_le_right (by norm_num)
      rw [branch_pipeline_of_open rt turn (by rw [hinquiry]; decide) (by rw [hinquiry]; decide)
        (by rw [hinquiry]; decide)]
      simp [hinquiry, hsure]
    | false =>
      rw [hask, if_neg Bool.false_ne_true] at hfinal
      cases horders : ordersProduct rt.db turn.content turn.catalog with
      | true =>
        rw [horders, if_pos rfl] at hfinal
        have hnot := branch_not_pipeline rt turn (Or.inl (by rw [hfinal]; rfl))
        simp [hnot]
      | false =>
        rw [horders, if_neg Bool.false_ne_true] at hfinal
        cases hkeeps : keepsClassified rt turn with
        | false =>
          have hnot := branch_not_pipeline rt turn (by
            rw [hfinal]
            exact intentBeforeCatalog_of_not_keeps rt turn hcalm hkeeps)
          simp [hnot]
        | true =>
          rw [intentBeforeCatalog_of_keeps rt turn hkeeps] at hfinal
          by_cases htaken : turn.classified.category = .placeOrder ∨
              turn.classified.category = .complaint
          · have hnot := branch_not_pipeline rt turn (hfinal.symm ▸ htaken)
            rcases htaken with h | h <;> simp [hnot, h]
          · obtain ⟨horder, hcomplaint⟩ := not_or.mp htaken
            rw [branch_pipeline_of_open rt turn (hfinal.symm ▸ hcalm) (hfinal.symm ▸ horder)
              (hfinal.symm ▸ hcomplaint), hfinal]
            simp [horder, hcomplaint, and_assoc]

/-- With the intent of an order only a follow-up note comes before the order. -/
theorem branch_order_of_intent (hcalm : turn.classified.category ≠ .safetyEmergency) :
    selectBranch rt turn = .order ↔ (finalIntent rt turn).category = .placeOrder ∧
      (isOrderInProgress turn.now turn.history || (findExistingChatOrder turn.history).isSome ||
        !asksFollowup rt.db turn.content true) = true := by
  have hcalm : (finalIntent rt turn).category ≠ .safetyEmergency :=
    fun h => hcalm ((finalIntent_emergency_iff rt turn).mp h)
  have hnote := followupNote_isNone rt turn hcalm
  unfold selectBranch
  dsimp only
  rw [if_neg hcalm]
  by_cases horder : (finalIntent rt turn).category = .placeOrder
  · have hhuman : (routing rt turn).requiresHuman = false := by
      rw [routing_requiresHuman rt turn hcalm, horder]
      rfl
    have hclear : shouldAskIntentClarification (finalIntent rt turn) = false := by
      simp [shouldAskIntentClarification, horder]
    have hmessage : productInquiryMessage rt turn = none := by
      simp [productInquiryMessage, horder]
    rw [decide_eq_true horder] at hnote
    rw [← hnote, hhuman, hclear, hmessage, and_iff_right horder]
    cases followupNote rt turn with
    | some note => simp
    | none => simp [horder]
  · refine iff_of_false (fun h => ?_) fun h => horder h.1
    split at h
    · cases h
    · split_ifs at h
      · split at h <;> cases h

/-- The order branch is taken on exactly these turns. -/
theorem branch_order_iff : selectBranch rt turn = .order ↔ takenByOrder rt turn = true := by
  unfold takenByOrder
  dsimp only
  by_cases hcalm : turn.classified.category = .safetyEmergency
  · have hsafety : selectBranch rt turn = .safety := by
      unfold selectBranch
      exact if_pos ((finalIntent_emergency_iff rt turn).mpr hcalm)
    simp [hsafety, hcalm]
  · rw [branch_order_of_intent rt turn hcalm, finalIntent_of_calm rt turn hcalm,
      decide_eq_true hcalm, Bool.true_and, Bool.and_eq_true]
    refine and_congr_left fun _ => ?_
    cases asksAboutProduct rt.db turn.content turn.catalog with
    | true => simp
    | false =>
      cases ordersProduct rt.db turn.content turn.catalog with
      | true => exact iff_of_true rfl rfl
      | false =>
        rw [if_neg Bool.false_ne_true, if_neg Bool.false_ne_true,
          intentBeforeCatalog_category rt turn hcalm, Bool.not_false, Bool.true_and, Bool.false_or]
        cases (findExistingChatOrder turn.history).isSome &&
            isPostOrderChangeRequest rt.db turn.content with
        | true => simp
        | false =>
          cases isExplicitHumanRequest rt.db turn.content with
          | true => simp
          | false => cases isOrderInProgress turn.now turn.history <;> simp

end

end Qiki.Chat
