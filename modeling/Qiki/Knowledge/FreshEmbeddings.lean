import Qiki.Data.Stages
import Qiki.Knowledge.Documents
import Qiki.Text.Vietnamese
import Qiki.Transition.Run

/-! When the embedding columns follow the texts of their documents. -/
namespace Qiki.Knowledge

open Unicode Orders

inductive KbOperation
  | create (data : Payload)
  | update (kbId : Uuid) (data : Payload)
  | bulkImport (records : List Payload) (category : Option Text)
  deriving DecidableEq

/-- An operation with the settings it runs under and the user who asked for it. -/
structure KbRequest where
  settings : Settings
  user : User
  operation : KbOperation

section
variable {ε : Type} (db : Database) (embed : Space → Text → ε)

def perform (kb : KnowledgeBase ε) (request : KbRequest) : Except KbExn (KnowledgeBase ε) :=
  match request.operation with
  | .create data => createDocument db embed request.settings request.user data kb
  | .update kbId data => updateDocument db embed request.settings request.user kbId data kb
  | .bulkImport records category =>
    bulkImport db embed request.settings request.user records category kb

/-- A request that fails is rolled back. -/
def handle (kb : KnowledgeBase ε) (request : KbRequest) : KnowledgeBase ε :=
  match perform db embed kb request with
  | .ok kb' => kb'
  | .error _ => kb

/-- Every vector that is there embeds the text. -/
def EmbedsText (e : Embeddings ε) (text : Text) : Prop :=
  ∀ space, ∀ v ∈ e.get space, v = embed space text

def Fresh (d : KbDocument ε) : Prop := EmbedsText embed d.embeddings (embeddingText d.title d.content)

def AllFresh (kb : KnowledgeBase ε) : Prop := ∀ d ∈ kb.documents, Fresh embed d

/-- Primary keys are distinct and already given out, and no vector is stale. -/
structure Sound (kb : KnowledgeBase ε) : Prop where
  nodup : (kb.documents.map KbDocument.id).Nodup
  below : ∀ d ∈ kb.documents, d.id < kb.nextId
  fresh : AllFresh embed kb

end

/-- What the services answer for a text: `embed_text` takes no request for a blank one. -/
def Settings.forText (settings : Settings) (db : Database) (text : Text) : Settings :=
  if isBlankText db text then { settings with availability := fun _ => .up } else settings

/-- The services that a document needs under the settings give no error that ends the operation. -/
def Settings.embeds (settings : Settings) : Bool :=
  match settings.provider with
  | .ollama => settings.availability .ollama = .up
  | .bge => settings.availability .bge = .up
  | .gemini => settings.availability .gemini ≠ .failing && settings.availability .jina = .up

/-- The columns that a document gets under the settings. -/
def Settings.writes (settings : Settings) (space : Space) : Bool :=
  match settings.provider, space with
  | .ollama, .ollama => true
  | .bge, .bge => true
  | .gemini, .jina => true
  | .gemini, .gemini => settings.availability .gemini = .up
  | _, _ => false

section Embed
variable {db : Database} {ε : Type} {embed : Space → Text → ε} {settings : Settings}

@[simp] theorem Settings.forText_provider (settings : Settings) (db : Database) (text : Text) :
    (settings.forText db text).provider = settings.provider := by
  unfold Settings.forText
  split_ifs <;> rfl

theorem callProvider_eq_ok {space : Space} {text : Text} {v : ε} :
    callProvider embed settings space text = .ok v ↔
      settings.availability space = .up ∧ v = embed space text := by
  unfold callProvider
  cases settings.availability space with
  | up => simp [eq_comm]
  | exhausted => simp
  | failing => simp

theorem embedText_eq (space : Space) (text : Text) :
    embedText db embed settings space text =
      callProvider embed (settings.forText db text) space text := by
  unfold embedText Settings.forText
  split_ifs
  · rfl
  · rfl

theorem embedText_eq_ok {space : Space} {text : Text} {v : ε} :
    embedText db embed settings space text = .ok v ↔
      (settings.forText db text).availability space = .up ∧ v = embed space text := by
  rw [embedText_eq, callProvider_eq_ok]

/-- What `_embed_document` returns: a vector in each column that the settings write. -/
theorem embedDocument_spec {title content : Text} {e : Embeddings ε}
    (h : embedDocument db embed settings title content = .ok e) :
    (settings.forText db (embeddingText title content)).embeds ∧ ∀ space, e.get space =
      if (settings.forText db (embeddingText title content)).writes space then
        some (embed space (embeddingText title content)) else none := by
  unfold embedDocument at h
  simp only [embedText_eq] at h
  rw [← settings.forText_provider db (embeddingText title content)] at h
  generalize settings.forText db (embeddingText title content) = settings at h ⊢
  split at h
  case h_1 hprovider =>
    obtain ⟨v, hv, he⟩ := Except.bind_eq_ok h
    obtain ⟨hup, rfl⟩ := callProvider_eq_ok.mp hv
    cases he
    refine ⟨by simp [Settings.embeds, hprovider, hup], fun space => ?_⟩
    cases space <;> simp [Settings.writes, hprovider, Embeddings.get]
  case h_2 hprovider =>
    obtain ⟨v, hv, he⟩ := Except.bind_eq_ok h
    obtain ⟨hup, rfl⟩ := callProvider_eq_ok.mp hv
    cases he
    refine ⟨by simp [Settings.embeds, hprovider, hup], fun space => ?_⟩
    cases space <;> simp [Settings.writes, hprovider, Embeddings.get]
  case h_3 hprovider =>
    cases havail : settings.availability .gemini with
    | up =>
      rw [callProvider_eq_ok.mpr ⟨havail, rfl⟩] at h
      obtain ⟨_, hpure, h⟩ := Except.bind_eq_ok h
      cases hpure
      obtain ⟨v, hv, he⟩ := Except.bind_eq_ok h
      obtain ⟨hup, rfl⟩ := callProvider_eq_ok.mp hv
      cases he
      refine ⟨by simp [Settings.embeds, hprovider, havail, hup], fun space => ?_⟩
      cases space <;> simp [Settings.writes, hprovider, havail, Embeddings.get]
    | exhausted =>
      have hgemini : callProvider embed settings .gemini (embeddingText title content) =
          .error (.exhausted .gemini) := by simp only [callProvider, havail]
      rw [hgemini] at h
      obtain ⟨_, hpure, h⟩ := Except.bind_eq_ok h
      cases hpure
      obtain ⟨v, hv, he⟩ := Except.bind_eq_ok h
      obtain ⟨hup, rfl⟩ := callProvider_eq_ok.mp hv
      cases he
      refine ⟨by simp [Settings.embeds, hprovider, havail, hup], fun space => ?_⟩
      cases space <;> simp [Settings.writes, hprovider, havail, Embeddings.get]
    | failing =>
      have hgemini : callProvider embed settings .gemini (embeddingText title content) =
          .error (.embedding .gemini) := by simp only [callProvider, havail]
      rw [hgemini] at h
      cases h

theorem embedDocument_isOk {title content : Text}
    (h : (settings.forText db (embeddingText title content)).embeds) :
    ∃ e, embedDocument db embed settings title content = .ok e := by
  unfold embedDocument
  simp only [embedText_eq]
  rw [← settings.forText_provider db (embeddingText title content)]
  generalize settings.forText db (embeddingText title content) = settings at h ⊢
  unfold Settings.embeds at h
  cases hprovider : settings.provider with
  | ollama =>
    have hup : settings.availability .ollama = .up := by simpa [hprovider] using h
    simp only [callProvider_eq_ok.mpr ⟨hup, rfl⟩]
    exact ⟨_, rfl⟩
  | bge =>
    have hup : settings.availability .bge = .up := by simpa [hprovider] using h
    simp only [callProvider_eq_ok.mpr ⟨hup, rfl⟩]
    exact ⟨_, rfl⟩
  | gemini =>
    rw [hprovider] at h
    simp only [Bool.and_eq_true, decide_eq_true_eq] at h
    obtain ⟨hgemini, hjina⟩ := h
    simp only [callProvider_eq_ok.mpr ⟨hjina, rfl⟩]
    unfold callProvider
    cases havail : settings.availability .gemini with
    | up => exact ⟨_, rfl⟩
    | exhausted => exact ⟨_, rfl⟩
    | failing => exact absurd havail hgemini

/-- The vectors of one import, each for its own text. -/
theorem embedImport_spec {texts : List Text} {es : List (Embeddings ε)}
    (h : embedImport db embed settings texts = .ok es) :
    List.Forall₂ (fun e text => EmbedsText embed e text) es texts := by
  have hbatch : ∀ {space vs}, embedBatch db embed settings space texts = .ok vs →
      vs = texts.map (embed space) := by
    intro space vs h
    cases space with
    | gemini => exact Except.mapM_eq_ok (fun _ _ hv => (callProvider_eq_ok.mp hv).2) h
    | jina => exact Except.mapM_eq_ok (fun _ _ hv => (callProvider_eq_ok.mp hv).2) h
    | ollama => exact Except.mapM_eq_ok (fun _ _ hv => (embedText_eq_ok.mp hv).2) h
    | bge => exact Except.mapM_eq_ok (fun _ _ hv => (embedText_eq_ok.mp hv).2) h
  have hone : ∀ f : Text → Embeddings ε, (∀ text, EmbedsText embed (f text) text) →
      List.Forall₂ (fun e text => EmbedsText embed e text) (texts.map f) texts := fun f hf => by
    rw [List.forall₂_map_left_iff, List.forall₂_same]
    exact fun text _ => hf text
  unfold embedImport at h
  split at h
  · obtain ⟨vs, hvs, h⟩ := Except.bind_eq_ok h
    rw [← Except.ok.inj h, hbatch hvs, List.map_map]
    refine hone _ fun text space v hv => ?_
    cases space <;> simp_all [Embeddings.get]
  · obtain ⟨vs, hvs, h⟩ := Except.bind_eq_ok h
    rw [← Except.ok.inj h, hbatch hvs, List.map_map]
    refine hone _ fun text space v hv => ?_
    cases space <;> simp_all [Embeddings.get]
  · obtain ⟨vs, hvs, h⟩ := Except.bind_eq_ok h
    obtain ⟨js, hjs, h⟩ := Except.bind_eq_ok h
    rw [← Except.ok.inj h, hbatch hvs, hbatch hjs, List.zipWith_map, List.zipWith_self]
    refine hone _ fun text space v hv => ?_
    cases space <;> simp_all [Embeddings.get]

end Embed

section Rows
variable {ε : Type}

/-- The texts of a row that fits its columns are those of the payload, else the old ones. -/
theorem applyPayload_spec {d row : KbDocument ε} {data : Payload}
    (h : applyPayload d data = .ok row) :
    row.id = d.id ∧ row.embeddings = d.embeddings ∧
      data.title.getD (some d.title) = some row.title ∧
      data.content.getD (some d.content) = some row.content := by
  unfold applyPayload at h
  obtain ⟨title, htitle, h⟩ := Except.bind_eq_ok h
  obtain ⟨content, hcontent, h⟩ := Except.bind_eq_ok h
  obtain ⟨category, -, h⟩ := Except.bind_eq_ok h
  simp only at h
  split_ifs at h
  split at h
  · cases h
  · cases h
    exact ⟨rfl, rfl, (checkColumn_eq_ok.mp htitle).1, (checkColumn_eq_ok.mp hcontent).1⟩

theorem Embeddings.get_update (old new : Embeddings ε) (space : Space) :
    (old.update new).get space = (new.get space).or (old.get space) := by
  cases space <;> rfl

theorem get_empty (space : Space) : (({} : Embeddings ε)).get space = none := by
  cases space <;> rfl

variable {db : Database} {embed : Space → Text → ε}

/-- The row that a create or an import adds embeds its own text. -/
theorem insertDocument_sound {kb kb' : KnowledgeBase ε} {data : Payload} {e : Embeddings ε}
    (h : insertDocument kb data e = .ok kb')
    (he : EmbedsText embed e
      (embeddingText (strOf (data.title.getD none)) (strOf (data.content.getD none))))
    (hs : Sound embed kb) : Sound embed kb' := by
  unfold insertDocument at h
  obtain ⟨row, hrow, h⟩ := Except.bind_eq_ok h
  cases h
  obtain ⟨hid, hembeddings, htitle, hcontent⟩ := applyPayload_spec hrow
  have htext : embeddingText (strOf (data.title.getD none)) (strOf (data.content.getD none)) =
      embeddingText row.title row.content := by
    rw [show data.title.getD none = some row.title from htitle,
      show data.content.getD none = some row.content from hcontent]
    rfl
  constructor
  · rw [List.map_append, List.nodup_append]
    refine ⟨hs.nodup, List.nodup_singleton _, fun a ha b hb => ?_⟩
    obtain ⟨d, hd, rfl⟩ := List.mem_map.mp ha
    have hb : b = kb.nextId := (List.mem_singleton.mp hb).trans hid
    exact hb ▸ (hs.below d hd).ne
  · intro d hd
    rcases List.mem_append.mp hd with hd | hd
    · exact Nat.lt_succ_of_lt (hs.below d hd)
    · rw [List.mem_singleton.mp hd, show row.id = kb.nextId from hid]
      exact Nat.lt_succ_self _
  · intro d hd
    rcases List.mem_append.mp hd with hd | hd
    · exact hs.fresh d hd
    · rw [List.mem_singleton.mp hd]
      unfold Fresh
      rw [hembeddings, ← htext]
      exact he

theorem insertDocuments_sound {kb kb' : KnowledgeBase ε} {rows : List (Payload × Embeddings ε)}
    (h : insertDocuments kb rows = .ok kb')
    (he : ∀ row ∈ rows, EmbedsText embed row.2
      (embeddingText (strOf (row.1.title.getD none)) (strOf (row.1.content.getD none))))
    (hs : Sound embed kb) : Sound embed kb' := by
  induction rows generalizing kb with
  | nil =>
    cases h
    exact hs
  | cons row rows ih =>
    obtain ⟨kb₁, h₁, h⟩ := Except.bind_eq_ok h
    have hs₁ : Sound embed kb₁ := insertDocument_sound h₁ (he row (List.mem_cons_self ..)) hs
    exact ih h (fun r hr => he r (List.mem_cons_of_mem _ hr)) hs₁

theorem createDocument_sound {settings : Settings} {user : User} {data : Payload}
    {kb kb' : KnowledgeBase ε} (h : createDocument db embed settings user data kb = .ok kb')
    (hs : Sound embed kb) : Sound embed kb' := by
  unfold createDocument at h
  obtain ⟨_, -, h⟩ := Except.bind_eq_ok h
  obtain ⟨e, he, h⟩ := Except.bind_eq_ok h
  refine insertDocument_sound h (fun space v hv => ?_) hs
  rw [(embedDocument_spec he).2 space] at hv
  split_ifs at hv
  · exact (Option.some.inj hv).symm
  · cases hv

theorem bulkImport_sound {settings : Settings} {user : User} {records : List Payload}
    {category : Option Text} {kb kb' : KnowledgeBase ε}
    (h : bulkImport db embed settings user records category kb = .ok kb') (hs : Sound embed kb) :
    Sound embed kb' := by
  unfold bulkImport at h
  obtain ⟨_, -, h⟩ := Except.bind_eq_ok h
  simp only at h
  split_ifs at h
  obtain ⟨es, hes, h⟩ := Except.bind_eq_ok h
  refine insertDocuments_sound h (fun row hrow => ?_) hs
  have htexts := embedImport_spec hes
  rw [List.forall₂_map_right_iff] at htexts
  exact List.forall₂_iff_zip.mp htexts.flip |>.2 (by simpa using hrow)

/-- The texts of a row after an update. -/
theorem updatedText_eq {existing row : KbDocument ε} {data : Payload}
    (h : applyPayload existing data = .ok row) :
    updatedText existing data = embeddingText row.title row.content := by
  obtain ⟨-, -, htitle, hcontent⟩ := applyPayload_spec h
  unfold updatedText
  rw [htitle, hcontent]
  rfl

end Rows

section Updates
variable {ε : Type} (db : Database) (embed : Space → Text → ε)

def Payload.changesText (data : Payload) : Bool := data.content.isSome || data.title.isSome

/-- The new values fit the columns of the row. -/
def Storable (existing : KbDocument ε) (data : Payload) : Bool := (applyPayload existing data).isOk

/-- The columns that the settings leave alone hold no vector that the new text would change. -/
def CoversColumns (settings : Settings) (existing : KbDocument ε) (data : Payload) : Prop :=
  ∀ space, (settings.forText db (updatedText existing data)).writes space = false →
    (existing.embeddings.get space).isSome →
    embed space (updatedText existing data) =
      embed space (embeddingText existing.title existing.content)

/-- An update that goes through and touches a text covers every column of its document. -/
def LeavesNoStale (kb : KnowledgeBase ε) (request : KbRequest) : Prop :=
  match request.operation with
  | .update kbId data => ∀ existing, Table.find KbDocument.id kbId kb.documents = some existing →
      request.user.isStaff → (normalizePayload db data).changesText →
      (request.settings.forText db (updatedText existing (normalizePayload db data))).embeds →
      Storable existing (normalizePayload db data) →
      CoversColumns db embed request.settings existing (normalizePayload db data)
  | _ => True

variable {db embed} {settings : Settings} {user : User} {kbId : Uuid} {data : Payload}
  {kb kb' : KnowledgeBase ε}

/-- What an update does: it replaces one row. -/
theorem updateDocument_eq_ok (h : updateDocument db embed settings user kbId data kb = .ok kb') :
    user.isStaff ∧ ∃ existing row e, Table.find KbDocument.id kbId kb.documents = some existing ∧
      applyPayload existing (normalizePayload db data) = .ok row ∧
      (if (normalizePayload db data).changesText then
          let text := updatedText existing (normalizePayload db data)
          (settings.forText db text).embeds ∧ ∀ space, e.get space =
            if (settings.forText db text).writes space then some (embed space text) else none
        else e = {}) ∧
      kb' = ⟨Table.modify KbDocument.id kbId
        (fun _ => { row with embeddings := existing.embeddings.update e }) kb.documents, kb.nextId⟩ := by
  unfold updateDocument at h
  obtain ⟨_, hstaff, h⟩ := Except.bind_eq_ok h
  have hstaff : user.isStaff = true := by
    unfold ensureStaff at hstaff
    split_ifs at hstaff with hs
    exact hs
  split at h
  case h_1 => cases h
  case h_2 existing hfind =>
    obtain ⟨e, he, h⟩ := Except.bind_eq_ok h
    obtain ⟨row, hrow, h⟩ := Except.bind_eq_ok h
    cases h
    refine ⟨hstaff, existing, row, e, hfind, hrow, ?_, by rw [(applyPayload_spec hrow).2.1]⟩
    unfold Payload.changesText
    split_ifs at he ⊢ with hchanges
    · exact embedDocument_spec he
    · exact (Except.ok.inj he).symm

/-- The row that an update writes is fresh when its columns are covered. -/
theorem fresh_updated {existing row : KbDocument ε} {e : Embeddings ε}
    (hexisting : Fresh embed existing)
    (hrow : applyPayload existing (normalizePayload db data) = .ok row)
    (he : let text := updatedText existing (normalizePayload db data)
      ∀ space, e.get space =
        if (settings.forText db text).writes space then some (embed space text) else none) :
    Fresh embed { row with embeddings := existing.embeddings.update e } ↔
      CoversColumns db embed settings existing (normalizePayload db data) := by
  have htext := updatedText_eq hrow
  constructor
  · intro hfresh space hw hold
    obtain ⟨v, hv⟩ := Option.isSome_iff_exists.mp hold
    have hkept : (existing.embeddings.update e).get space = some v := by
      rw [Embeddings.get_update, he, hw, hv]
      rfl
    rw [htext, ← hfresh space v hkept]
    exact hexisting space v hv
  · intro hcovers space v hv
    simp only [Embeddings.get_update, he] at hv
    cases hw : (settings.forText db
      (updatedText existing (normalizePayload db data))).writes space with
    | true =>
      rw [hw] at hv
      rw [htext] at hv
      exact (Option.some.inj hv).symm
    | false =>
      have hv : existing.embeddings.get space = some v := by simpa [hw] using hv
      change v = embed space (embeddingText row.title row.content)
      rw [← htext, hcovers space hw (by rw [hv]; rfl)]
      exact hexisting space v hv

/-- Without a new text nothing happens to the vectors. -/
theorem fresh_kept {existing row : KbDocument ε} (hexisting : Fresh embed existing)
    (hrow : applyPayload existing (normalizePayload db data) = .ok row)
    (hchanges : (normalizePayload db data).changesText = false) :
    Fresh embed { row with embeddings := existing.embeddings.update {} } := by
  simp only [Payload.changesText, Bool.or_eq_false_iff, Option.isSome_eq_false_iff,
    Option.isNone_iff_eq_none] at hchanges
  have htext := updatedText_eq hrow
  simp only [updatedText, hchanges.1, hchanges.2, Option.getD_none, strOf, Option.getD_some] at htext
  intro space v hv
  rw [Embeddings.get_update, get_empty, Option.none_or] at hv
  change v = embed space (embeddingText row.title row.content)
  rw [← htext]
  exact hexisting space v hv

/-- An update that goes through leaves the table sound exactly when it covers the columns. -/
theorem updateDocument_fresh (h : updateDocument db embed settings user kbId data kb = .ok kb')
    (hs : Sound embed kb) :
    LeavesNoStale db embed kb ⟨settings, user, .update kbId data⟩ ↔ AllFresh embed kb' := by
  obtain ⟨hstaff, existing, row, e, hfind, hrow, he, rfl⟩ := updateDocument_eq_ok h
  have hexisting : Fresh embed existing := hs.fresh existing (Table.mem_of_find hfind)
  have hstorable : Storable existing (normalizePayload db data) = true := by
    rw [Storable, hrow]
    rfl
  have hrows : AllFresh embed (⟨Table.modify KbDocument.id kbId
      (fun _ => { row with embeddings := existing.embeddings.update e }) kb.documents, kb.nextId⟩ :
        KnowledgeBase ε) ↔ Fresh embed { row with embeddings := existing.embeddings.update e } := by
    constructor
    · refine fun hall => hall _ (Table.mem_modify.mpr ⟨existing, Table.mem_of_find hfind, ?_⟩)
      rw [if_pos (Table.key_of_find hfind)]
    · intro hfresh d hd
      obtain ⟨r, hr, rfl⟩ := Table.mem_modify.mp hd
      split_ifs
      · exact hfresh
      · exact hs.fresh r hr
  rw [hrows]
  cases hchanges : (normalizePayload db data).changesText with
  | true =>
    rw [hchanges, if_pos rfl] at he
    rw [fresh_updated hexisting hrow he.2]
    constructor
    · exact fun hguard => hguard existing hfind hstaff hchanges he.1 hstorable
    · intro hcovers other hother
      rw [hfind] at hother
      cases hother
      exact fun _ _ _ _ => hcovers
  | false =>
    rw [hchanges, if_neg Bool.false_ne_true] at he
    subst he
    refine iff_of_true (fun other _ _ hchanges' => ?_) (fresh_kept hexisting hrow hchanges)
    rw [hchanges] at hchanges'
    cases hchanges'

/-- An update that fails changes nothing, and nothing is asked of it. -/
theorem leavesNoStale_of_failed {exn : KbExn}
    (h : updateDocument db embed settings user kbId data kb = .error exn) :
    LeavesNoStale db embed kb ⟨settings, user, .update kbId data⟩ := by
  intro existing hfind hstaff hchanges hembeds hstorable
  exfalso
  obtain ⟨row, hrow⟩ : ∃ row, applyPayload existing (normalizePayload db data) = .ok row := by
    unfold Storable at hstorable
    cases hrow : applyPayload existing (normalizePayload db data) with
    | error _ => simp [hrow, Except.isOk, Except.toBool] at hstorable
    | ok row => exact ⟨row, rfl⟩
  unfold updateDocument ensureStaff at h
  unfold Payload.changesText at hchanges
  obtain ⟨e, he⟩ := @embedDocument_isOk db _ embed settings _ _ hembeds
  rw [if_pos hstaff, hfind] at h
  simp only [hchanges, if_true] at h
  rcases Except.bind_eq_error h with h | ⟨_, -, h⟩
  · cases h
  rcases Except.bind_eq_error h with h | ⟨_, -, h⟩
  · rw [he] at h
    cases h
  rcases Except.bind_eq_error h with h | ⟨_, -, h⟩
  · rw [hrow] at h
    cases h
  · cases h

theorem updateDocument_keys (h : updateDocument db embed settings user kbId data kb = .ok kb')
    (hs : Sound embed kb) (hfresh : AllFresh embed kb') : Sound embed kb' := by
  obtain ⟨-, existing, row, e, hfind, hrow, -, rfl⟩ := updateDocument_eq_ok h
  have hid : row.id = kbId := (applyPayload_spec hrow).1.trans (Table.key_of_find hfind)
  refine ⟨?_, fun d hd => ?_, hfresh⟩
  · have hids : (Table.modify KbDocument.id kbId (fun _ =>
        { row with embeddings := existing.embeddings.update e }) kb.documents).map KbDocument.id =
          kb.documents.map KbDocument.id := Table.map_modify fun r hr => hid.trans hr.symm
    exact hids ▸ hs.nodup
  · obtain ⟨r, hr, rfl⟩ := Table.mem_modify.mp hd
    split_ifs
    · exact (hid.trans (Table.key_of_find hfind).symm) ▸ hs.below existing (Table.mem_of_find hfind)
    · exact hs.below r hr

variable {request : KbRequest}

/-- The guard says exactly whether a request leaves a stale vector. -/
theorem leavesNoStale_iff (hs : Sound embed kb) :
    LeavesNoStale db embed kb request ↔ AllFresh embed (handle db embed kb request) := by
  obtain ⟨settings, user, operation⟩ := request
  cases hrun : perform db embed kb ⟨settings, user, operation⟩ with
  | error exn =>
    have hkeeps : handle db embed kb ⟨settings, user, operation⟩ = kb := by simp only [handle, hrun]
    rw [hkeeps]
    refine iff_of_true ?_ hs.fresh
    cases operation with
    | create data => trivial
    | update kbId data => exact leavesNoStale_of_failed hrun
    | bulkImport records category => trivial
  | ok kb' =>
    have hdone : handle db embed kb ⟨settings, user, operation⟩ = kb' := by simp only [handle, hrun]
    rw [hdone]
    cases operation with
    | create data => exact iff_of_true trivial (createDocument_sound hrun hs).fresh
    | update kbId data => exact updateDocument_fresh hrun hs
    | bulkImport records category => exact iff_of_true trivial (bulkImport_sound hrun hs).fresh

theorem handle_sound (hs : Sound embed kb) (hg : LeavesNoStale db embed kb request) :
    Sound embed (handle db embed kb request) := by
  have hfresh := (leavesNoStale_iff hs).mp hg
  obtain ⟨settings, user, operation⟩ := request
  unfold handle at hfresh ⊢
  cases hrun : perform db embed kb ⟨settings, user, operation⟩ with
  | error exn => exact hs
  | ok kb' =>
    rw [hrun] at hfresh
    cases operation with
    | create data => exact createDocument_sound hrun hs
    | update kbId data => exact updateDocument_keys hrun hs hfresh
    | bulkImport records category => exact bulkImport_sound hrun hs

end Updates

/-- No vector is stale after any of the requests exactly when each update covers the columns of
its document. -/
theorem embeddings_fresh_iff {ε : Type} (db : Database) (embed : Space → Text → ε)
    (requests : List KbRequest) :
    (∀ done, done <+: requests → AllFresh embed (done.foldl (handle db embed) {})) ↔
      Transition.Guarded (fun kb request => some (handle db embed kb request))
        (LeavesNoStale db embed) {} requests := by
  have hempty : Sound embed {} := {
    nodup := List.nodup_nil
    below := fun d hd => by cases hd
    fresh := fun d hd => by cases hd }
  refine Transition.guarded_iff_forall_prefix (f := handle db embed)
    (fun _ hs => hs.fresh) ?_ ?_ hempty requests
  · exact fun kb request hs => leavesNoStale_iff hs
  · exact fun kb request hs hg => handle_sound hs hg

def available : Settings := ⟨.gemini, fun _ => .up⟩

def librarian : User := ⟨1, .staff, none, none, none, none⟩

/-- A document written under one provider and edited under another. -/
def editedElsewhere : List KbRequest :=
  [⟨available, librarian, .create
      { title := some (some "Gas"), content := some (some "12 kg"), category := some (some "faq") }⟩,
    ⟨{ available with provider := .ollama }, librarian,
      .update 1 { content := some (some "45 kg") }⟩]

/-- The vector of the first provider still embeds the old text. -/
theorem stale_after_provider_change : ¬ ∀ (ε : Type) (db : Database) (embed : Space → Text → ε)
    (requests : List KbRequest), AllFresh embed (requests.foldl (handle db embed) {}) := by
  intro h
  have hfresh := h Text Vietnamese.database (fun _ text => text) editedElsewhere
  have hrows : ∃ d ∈ (editedElsewhere.foldl (handle Vietnamese.database fun _ text => text) {}).documents,
      d.embeddings.gemini = some "Gas\n\n12 kg" ∧
        embeddingText d.title d.content = "Gas\n\n45 kg" := by decide
  obtain ⟨d, hd, hvector, htext⟩ := hrows
  have hstale := hfresh d hd .gemini _ hvector
  rw [htext] at hstale
  exact absurd hstale (by decide)

end Qiki.Knowledge
