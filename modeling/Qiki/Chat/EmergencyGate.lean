import Qiki.Chat.PipelineTurns

/-! When a chat turn answers an emergency with the fixed text. -/
namespace Qiki.Chat

open Unicode Orders Safety

/-- The reply is one of the fixed emergency texts and no language model was called for it. -/
structure FixedEmergencyReply (result : TurnResult) : Prop where
  text : ∃ language, result.reply.map (·.content) = some (getEmergencyResponse language)
  noCall : result.llmCalls = []

/-- Both endpoints give the fixed reply. -/
def AnsweredAsEmergency (rt : Runtime) (turn : ChatTurn) (service : OrderService) : Prop :=
  FixedEmergencyReply (sendMessage rt turn service) ∧
    FixedEmergencyReply (streamMessage rt turn service)

/-! No other reply of a turn begins like an emergency text. -/

/-- The text begins with something else than the warning sign. -/
def startsPlain (text : Text) : Bool := text.head?.any (· ≠ warningSign)

theorem startsPlain_append {s : Text} (h : startsPlain s) (t : Text) : startsPlain (s ++ t) := by
  cases s with
  | nil => simp [startsPlain] at h
  | cons c s => exact h

theorem startsPlain_join {first : Text} (h : startsPlain first) (sep : Text) (rest : List Text) :
    startsPlain (Text.join sep (first :: rest)) := by
  cases hc : first.head? with
  | none => simp [startsPlain, hc] at h
  | some c =>
    have hhead : (Text.join sep (first :: rest)).head? = some c := head_join hc
    rw [startsPlain, hc] at h
    rwa [startsPlain, hhead]

theorem ne_emergency {text : Text} (h : startsPlain text) (language : Language) :
    text ≠ getEmergencyResponse language := by
  rintro rfl
  simp [startsPlain, head_getEmergencyResponse] at h

theorem not_fixed_of_startsPlain {result : TurnResult} {reply : Reply}
    (hr : result.reply = some reply) (h : startsPlain reply.content) :
    ¬ FixedEmergencyReply result := by
  rintro ⟨⟨language, htext⟩, -⟩
  rw [hr] at htext
  exact ne_emergency h language (Option.some.inj htext)

theorem startsPlain_handoffText (language : Language) : startsPlain (handoffText language) := by
  cases language <;> decide

theorem startsPlain_clarificationText (language : Language) :
    startsPlain (clarificationText language) := by
  cases language <;> decide

theorem startsPlain_formatFollowupReply (note : FollowupNote) (language : Language) :
    startsPlain (formatFollowupReply note language) := by
  cases language with
  | vi =>
    simp only [formatFollowupReply, List.append_assoc]
    split_ifs <;> first | exact startsPlain_append (by decide) _ | decide
  | en =>
    simp only [formatFollowupReply, List.append_assoc]
    split_ifs <;> first | exact startsPlain_append (by decide) _ | decide

section
variable (db : Database)

theorem startsPlain_gasSizeInquiryMessage {query message : Text} {products : List Product}
    (h : gasSizeInquiryMessage db query products = some message) : startsPlain message := by
  simp only [gasSizeInquiryMessage] at h
  split_ifs at h
  · obtain rfl := Option.some.inj h
    exact startsPlain_append (startsPlain_append (by decide) _) _
  · obtain rfl := Option.some.inj h
    exact startsPlain_append (startsPlain_append (by decide) _) _

theorem startsPlain_superlativePriceMessage (query : Catalog.ProductQuery) (product : Product)
    (label : Text) (language : Language) :
    startsPlain (superlativePriceMessage db query product label language) := by
  unfold superlativePriceMessage
  cases language with
  | vi =>
    simp only [List.append_assoc]
    exact startsPlain_append (by decide) _
  | en =>
    simp only [List.append_assoc]
    exact startsPlain_append (by decide) _

theorem startsPlain_priceRangeMessage (query : Catalog.ProductQuery) (matched : List Product)
    (language : Language) : startsPlain (priceRangeMessage db query matched language) := by
  unfold priceRangeMessage
  cases language with
  | vi =>
    simp only [List.append_assoc]
    exact startsPlain_append (by decide) _
  | en =>
    simp only [List.append_assoc]
    exact startsPlain_append (by decide) _

theorem startsPlain_priceInquiryMessage {search : ProductSearchParams → List Product}
    {content message : Text} {products : List Product} {language : Language}
    (h : priceInquiryMessage db search content products language = some message) :
    startsPlain message := by
  simp only [priceInquiryMessage] at h
  split at h
  · cases h
  · split at h
    · split at h <;> obtain rfl := Option.some.inj h
      · exact startsPlain_superlativePriceMessage db _ _ _ _
      · exact startsPlain_superlativePriceMessage db _ _ _ _
      · exact startsPlain_priceRangeMessage db _ _ _
    · obtain rfl := Option.some.inj h
      cases language <;> decide

theorem startsPlain_catalogList {header message : Text} {items : List Product}
    (hh : startsPlain header) (h : catalogList db header items = some message) :
    startsPlain message := by
  simp only [catalogList] at h
  split_ifs at h
  obtain rfl := Option.some.inj h
  exact startsPlain_join hh _ _

theorem startsPlain_catalogListMessage {query message : Text} {products : List Product}
    (h : catalogListMessage db query products = some message) : startsPlain message := by
  simp only [catalogListMessage] at h
  split at h
  · cases h
  · split at h
    · split at h
      · refine startsPlain_catalogList db ?_ h
        exact startsPlain_append (startsPlain_append (by decide) _) _
      · cases h
    · split at h
      · exact startsPlain_catalogList db (by decide) h
      · cases h

end

section
variable (rt : Runtime) (turn : ChatTurn) (service : OrderService)

theorem startsPlain_productInquiryMessage {message : Text}
    (h : productInquiryMessage rt turn = some message) : startsPlain message := by
  simp only [productInquiryMessage] at h
  split_ifs at h
  rcases Option.or_eq_some_iff.mp h with h | ⟨-, h⟩
  · rcases Option.or_eq_some_iff.mp h with h | ⟨-, h⟩
    · exact startsPlain_priceInquiryMessage rt.db h
    · exact startsPlain_gasSizeInquiryMessage rt.db h
  · exact startsPlain_catalogListMessage rt.db h

theorem startsPlain_postOrderChangeReply (content : Text) (existingOrder : Json) :
    startsPlain (postOrderChangeReply rt content existingOrder).content := by
  change startsPlain (("Đơn **".toList ++ _) ++ _ ++ _ ++ _)
  simp only [List.append_assoc]
  exact startsPlain_append (by decide) _

/-- The order branch calls a language model, or acknowledges a change of an order. -/
theorem not_fixed_orderAnswer : ¬ FixedEmergencyReply (orderAnswer rt turn service) := by
  cases hchange : asksPostOrderChange rt turn.orderTurn with
  | none =>
    rintro ⟨-, hcalls⟩
    simp [orderAnswer, hchange] at hcalls
  | some existingOrder =>
    have hreply : (orderAnswer rt turn service).reply =
        some (postOrderChangeReply rt turn.orderTurn.content existingOrder) := by
      unfold orderAnswer handleChatOrder
      rw [hchange]
      rfl
    exact not_fixed_of_startsPlain hreply (startsPlain_postOrderChangeReply rt _ _)

/-! The pipeline. -/

/-- The pipeline answers with the fixed text exactly when the checker flags the message. -/
theorem fixed_createRagAnswer :
    FixedEmergencyReply (createRagAnswer rt turn) ↔
      (checkQuery rt.db turn.content).isEmergency = true := by
  constructor
  · rintro ⟨-, hcalls⟩
    by_contra hflag
    simp [createRagAnswer, ragQuery, hflag] at hcalls
  · intro hflag
    refine ⟨⟨answerLanguage rt turn, ?_⟩, ?_⟩ <;> simp [createRagAnswer, ragQuery, hflag]

theorem fixed_streamRagAnswer :
    FixedEmergencyReply (streamRagAnswer rt turn) ↔
      (checkQuery rt.db turn.content).isEmergency = true := by
  constructor
  · rintro ⟨-, hcalls⟩
    by_contra hflag
    simp [streamRagAnswer, ragQueryStream, hflag] at hcalls
  · intro hflag
    have hne : (getEmergencyResponse (answerLanguage rt turn)).isEmpty = false := by
      have hhead := head_getEmergencyResponse (answerLanguage rt turn)
      cases hresponse : getEmergencyResponse (answerLanguage rt turn) with
      | nil => simp [hresponse] at hhead
      | cons c s => rfl
    refine ⟨⟨answerLanguage rt turn, ?_⟩, ?_⟩ <;>
      simp [streamRagAnswer, ragQueryStream, hflag, hne]

/-! The branches. -/

theorem productInquiryMessage_of_branch {message : Text}
    (h : selectBranch rt turn = .inquiry message) : productInquiryMessage rt turn = some message := by
  by_cases hsafety : (finalIntent rt turn).category = .safetyEmergency
  · simp [selectBranch, hsafety] at h
  · cases hnote : followupNote rt turn with
    | some note => simp [selectBranch, hsafety, hnote] at h
    | none =>
      cases hmessage : productInquiryMessage rt turn with
      | none =>
        simp only [selectBranch, hsafety, hnote, hmessage, if_false] at h
        split_ifs at h
      | some found =>
        simp only [selectBranch, hsafety, hnote, hmessage, if_false] at h
        split_ifs at h
        exact congrArg some (Branch.inquiry.inj h)

/-- A turn that is not left to the pipeline is not answered as an emergency. -/
theorem not_answered_of_other_branch (h : leftToPipeline rt turn = false) :
    ¬ AnsweredAsEmergency rt turn service := by
  rintro ⟨hsend, -⟩
  have hbranch : selectBranch rt turn ≠ .safety ∧ selectBranch rt turn ≠ .rag := by
    rw [← not_or, branch_pipeline_iff, h]
    exact Bool.false_ne_true
  unfold sendMessage planResponse at hsend
  cases hb : selectBranch rt turn with
  | safety => exact hbranch.1 hb
  | rag => exact hbranch.2 hb
  | followup note =>
    rw [hb] at hsend
    exact not_fixed_of_startsPlain rfl (startsPlain_formatFollowupReply _ _) hsend
  | handoff =>
    rw [hb] at hsend
    exact not_fixed_of_startsPlain rfl (startsPlain_handoffText _) hsend
  | clarification =>
    rw [hb] at hsend
    exact not_fixed_of_startsPlain rfl (startsPlain_clarificationText _) hsend
  | inquiry message =>
    rw [hb] at hsend
    have hmessage := productInquiryMessage_of_branch rt turn hb
    exact not_fixed_of_startsPlain rfl (startsPlain_productInquiryMessage rt turn hmessage) hsend
  | order =>
    rw [hb] at hsend
    exact not_fixed_orderAnswer rt turn service hsend

/-- A turn that is left to the pipeline is answered as the checker says. -/
theorem answered_iff_of_leftToPipeline (h : leftToPipeline rt turn = true) :
    AnsweredAsEmergency rt turn service ↔
      (checkQuery rt.db turn.content).isEmergency = true := by
  rcases (branch_pipeline_iff rt turn).mpr h with hb | hb
  · have hplan : planResponse rt turn service = some (createRagAnswer rt turn) := by
      unfold planResponse
      rw [hb]
    simp [AnsweredAsEmergency, sendMessage, streamMessage, hplan, fixed_createRagAnswer]
  · have hplan : planResponse rt turn service = none := by
      unfold planResponse
      rw [hb]
    simp [AnsweredAsEmergency, sendMessage, streamMessage, hplan, fixed_createRagAnswer,
      fixed_streamRagAnswer]

/-- A message that the checker flags is answered as an emergency exactly when the classifier sees
one too, or when no product, person, call or order takes the message and the catalog has no answer
to it. -/
theorem gate_covers_iff :
    ((checkQuery rt.db turn.content).isEmergency = true → AnsweredAsEmergency rt turn service) ↔
      ((checkQuery rt.db turn.content).isEmergency = true → leftToPipeline rt turn = true) := by
  constructor
  · intro hanswered hflag
    by_contra hreach
    exact not_answered_of_other_branch rt turn service (Bool.not_eq_true _ ▸ hreach)
      (hanswered hflag)
  · intro hreach hflag
    exact (answered_iff_of_leftToPipeline rt turn service (hreach hflag)).mpr hflag

/-- "mui gas, cho gap nhan vien": a smell of gas, and the wish to talk to the staff. The turn is
handed over with no word about safety. -/
theorem gas_smell_handed_off :
    ¬ ∀ (rt : Runtime) (turn : ChatTurn) (service : OrderService),
      (checkQuery rt.db turn.content).isEmergency = true → AnsweredAsEmergency rt turn service := by
  intro h
  let turn := guestTurn .generalInfo "mui gas, cho gap nhan vien"
  have hflag : (checkQuery plainRuntime.db turn.content).isEmergency = true := by decide +kernel
  have hreach : leftToPipeline plainRuntime turn = false := by decide +kernel
  exact not_answered_of_other_branch plainRuntime turn (fun _ _ => none) hreach
    (h plainRuntime turn (fun _ _ => none) hflag)

/-- A turn whose intent is an emergency is answered as one exactly when the checker flags the
message too. -/
theorem safety_branch_fixed_iff :
    ((finalIntent rt turn).category = .safetyEmergency → AnsweredAsEmergency rt turn service) ↔
      ((finalIntent rt turn).category = .safetyEmergency →
        (checkQuery rt.db turn.content).isEmergency = true) := by
  refine imp_congr_right fun hsafety => answered_iff_of_leftToPipeline rt turn service ?_
  rw [← branch_pipeline_iff]
  exact Or.inl (if_pos hsafety)

/-- "nghe tieng xi" (there is a hissing sound), an emergency for the embedding classifier. -/
def hissingTurn : ChatTurn :=
  let embedded : IntentResult := ⟨.safetyEmergency, 9 / 10, [], "embedding"⟩
  let llm : IntentResult := ⟨.technicalIssue, 8 / 10, [], "llm"⟩
  { guestTurn .generalInfo "nghe tieng xi" with
    classified := hybridClassify plainRuntime.db (7 / 10) "nghe tieng xi" (some embedded) llm }

/-- The intent is an emergency, the checker finds nothing, and the language model answers. -/
theorem hissing_cylinder_generates :
    ¬ ∀ (rt : Runtime) (turn : ChatTurn) (service : OrderService),
      (finalIntent rt turn).category = .safetyEmergency → AnsweredAsEmergency rt turn service := by
  intro h
  have hsafety : (finalIntent plainRuntime hissingTurn).category = .safetyEmergency := by
    decide +kernel
  have hflag : (checkQuery plainRuntime.db hissingTurn.content).isEmergency = false := by
    change (checkQuery Vietnamese.database "nghe tieng xi").isEmergency = false
    rw [checkQuery_isEmergency, checkKeywords_eq_none (by decide +kernel)]
    decide +kernel
  have hanswered := h plainRuntime hissingTurn (fun _ _ => none) hsafety
  have hleft : leftToPipeline plainRuntime hissingTurn = true := by decide +kernel
  rw [answered_iff_of_leftToPipeline _ _ _ hleft, hflag] at hanswered
  exact Bool.false_ne_true hanswered

end

end Qiki.Chat
