import Qiki.Collections.Table
import Qiki.Data.Json
import Qiki.Data.Stages
import Qiki.Orders.Model
import Qiki.Text.Unicode

/-! `KnowledgeBaseService`: documents with one embedding column for each vector space. What an
embedding service returns for a text is a parameter. -/
namespace Qiki.Knowledge

open Unicode Orders

/-- The vector spaces that have a column. -/
inductive Space
  | gemini | jina | ollama | bge
  deriving DecidableEq, Repr

/-- `EMBEDDING_PROVIDER` -/
inductive EmbeddingProvider
  | gemini | ollama | bge
  deriving DecidableEq, Repr

/-- The spaces of a provider's services. -/
def EmbeddingProvider.spaces : EmbeddingProvider → List Space
  | .gemini => [.gemini, .jina]
  | .ollama => [.ollama]
  | .bge => [.bge]

/-- How a service answers during one operation: with an embedding, with a quota or rate limit error,
or with another error. -/
inductive Availability
  | up | exhausted | failing
  deriving DecidableEq, Repr

/-- What may change from one operation to the next. -/
structure Settings where
  provider : EmbeddingProvider
  availability : Space → Availability

inductive KbExn
  | forbidden (detail errorCode : String)
  | notFound (detail errorCode : String)
  | validation (detail errorCode : String)
  /-- `LLMQuotaExceededError` or `LLMRateLimitError` -/
  | exhausted (space : Space)
  | embedding (space : Space)
  /-- A column that cannot hold the value. -/
  | integrity (column : String)
  deriving DecidableEq, Repr

/-- One optional vector for each column. -/
structure Embeddings (ε : Type) where
  gemini : Option ε := none
  jina : Option ε := none
  ollama : Option ε := none
  bge : Option ε := none

def Embeddings.get {ε : Type} (e : Embeddings ε) : Space → Option ε
  | .gemini => e.gemini
  | .jina => e.jina
  | .ollama => e.ollama
  | .bge => e.bge

structure KbDocument (ε : Type) where
  id : Uuid
  title : Text
  content : Text
  category : Text
  source : Option Text
  metadata : Json
  isActive : Bool
  embeddings : Embeddings ε

/-- The table, with the next primary key. -/
structure KnowledgeBase (ε : Type) where
  documents : List (KbDocument ε) := []
  nextId : Uuid := 1

section
variable (db : Database)

/-- `VietnameseTextProcessor.normalize` -/
def normalize (text : Text) : Text :=
  let normalized := Text.replace "–" "-" (Text.replace "’" "'" (Text.replace "‘" "'"
    (Text.replace "”" "\"" (Text.replace "“" "\"" (nfc db text)))))
  Text.join " " (Text.words db.space (Text.replace "—" "-" normalized))

/-- `_normalize_text` of the embedding services leaves nothing. -/
def isBlankText (text : Text) : Bool := (Text.words db.space (nfc db text)).isEmpty

end

def embeddingText (title content : Text) : Text := title ++ "\n\n" ++ content

section Embed
variable (db : Database) {ε : Type} (embed : Space → Text → ε)

/-- A request to the provider behind a service. -/
def callProvider (settings : Settings) (space : Space) (text : Text) : Except KbExn ε :=
  match settings.availability space with
  | .up => .ok (embed space text)
  | .exhausted => .error (.exhausted space)
  | .failing => .error (.embedding space)

/-- `embed_text` of a service: zeros for a blank text, without a request. -/
def embedText (settings : Settings) (space : Space) (text : Text) : Except KbExn ε :=
  if isBlankText db text then .ok (embed space text) else callProvider embed settings space text

/-- `embed_batch` of a service: one request for up to 32 texts to Gemini and Jina, blank ones
among them, and text by text to the local models. -/
def embedBatch (settings : Settings) (space : Space) (texts : List Text) : Except KbExn (List ε) :=
  match space with
  | .gemini | .jina => texts.mapM (callProvider embed settings space)
  | .ollama | .bge => texts.mapM (embedText db embed settings space)

/-- `_embed_document` -/
def embedDocument (settings : Settings) (title content : Text) : Except KbExn (Embeddings ε) :=
  let text := embeddingText title content
  match settings.provider with
  | .ollama => do return { ollama := some (← embedText db embed settings .ollama text) }
  | .bge => do return { bge := some (← embedText db embed settings .bge text) }
  | .gemini => do
    -- quota and rate limit errors of Gemini leave its column alone
    let embedding ← match embedText db embed settings .gemini text with
      | .ok e => pure (some e)
      | .error (.exhausted _) => pure none
      | .error e => .error e
    return { gemini := embedding, jina := some (← embedText db embed settings .jina text) }

/-- The embeddings of an import, document by document. -/
def embedImport (settings : Settings) (texts : List Text) : Except KbExn (List (Embeddings ε)) :=
  match settings.provider with
  | .ollama => do
    let embeddings ← embedBatch db embed settings .ollama texts
    return embeddings.map fun e => { ollama := some e }
  | .bge => do
    let embeddings ← embedBatch db embed settings .bge texts
    return embeddings.map fun e => { bge := some e }
  | .gemini => do
    let embeddings ← embedBatch db embed settings .gemini texts
    let embeddingsJina ← embedBatch db embed settings .jina texts
    return embeddings.zipWith (fun e j => { gemini := some e, jina := some j }) embeddingsJina

end Embed

/-- A value in a payload: `none` when the key is missing, `some none` for `null`. -/
abbrev Field (α : Type) := Option (Option α)

/-- The fields of a payload; a payload that creates a document has all of them. -/
structure Payload where
  title : Field Text := none
  content : Field Text := none
  category : Field Text := none
  source : Field Text := none
  metadata : Field Json := none
  isActive : Field Bool := none
  deriving DecidableEq

/-- `str(value)` -/
def strOf (value : Option Text) : Text := value.getD "None"

def normalizePayload (db : Database) (data : Payload) : Payload :=
  { data with
    title := data.title.map (Option.map (normalize db))
    content := data.content.map (Option.map (normalize db))
    metadata := data.metadata.map fun m => some (m.getD (.obj [])) }

/-- A text for a column of this length; PostgreSQL stores no NUL character. -/
def FitsColumn (limit : Option ℕ) (text : Text) : Bool :=
  limit.all (text.length ≤ ·) && '\x00' ∉ text

/-- The checks of a `NOT NULL` column. -/
def checkColumn (column : String) (limit : Option ℕ) (value : Option Text) : Except KbExn Text :=
  match value with
  | none => .error (.integrity column)
  | some text => if FitsColumn limit text then .ok text else .error (.integrity column)

/-- `ck_knowledge_base_category` -/
def knowledgeCategories : List Text :=
  ["safety", "product_info", "delivery", "pricing", "company", "faq", "technical"]

def checkCategory (value : Option Text) : Except KbExn Text := do
  let category ← checkColumn "category" (some 50) value
  if category ∈ knowledgeCategories then return category else .error (.integrity "category")

theorem checkColumn_eq_ok {column : String} {limit : Option ℕ} {value : Option Text} {text : Text} :
    checkColumn column limit value = .ok text ↔ value = some text ∧ FitsColumn limit text := by
  unfold checkColumn
  constructor
  · intro h
    split at h
    · cases h
    · split_ifs at h with hfits
      cases h
      exact ⟨rfl, hfits⟩
  · rintro ⟨rfl, hfits⟩
    exact if_pos hfits

theorem checkCategory_eq_ok {value : Option Text} {category : Text} :
    checkCategory value = .ok category ↔
      value = some category ∧ category ∈ knowledgeCategories := by
  constructor
  · intro h
    obtain ⟨checked, hchecked, h⟩ := Except.bind_eq_ok h
    split_ifs at h with hmem
    cases h
    exact ⟨(checkColumn_eq_ok.mp hchecked).1, hmem⟩
  · rintro ⟨rfl, hmem⟩
    have hfits : ∀ c ∈ knowledgeCategories, FitsColumn (some 50) c = true := by decide
    have hchecked : checkColumn "category" (some 50) (some category) = .ok category :=
      checkColumn_eq_ok.mpr ⟨rfl, hfits category hmem⟩
    simp only [checkCategory, hchecked]
    exact if_pos hmem

/-- The row of a document once the fields of a payload are set. -/
def applyPayload {ε : Type} (d : KbDocument ε) (data : Payload) : Except KbExn (KbDocument ε) := do
  let title ← checkColumn "title" (some 255) (data.title.getD (some d.title))
  let content ← checkColumn "content" none (data.content.getD (some d.content))
  let category ← checkCategory (data.category.getD (some d.category))
  let source := data.source.getD d.source
  let metadata := (data.metadata.getD none).getD d.metadata
  if !source.all (FitsColumn (some 255)) then .error (.integrity "source")
  else if !metadata.storable then .error (.integrity "metadata")
  else match data.isActive.getD (some d.isActive) with
    | none => .error (.integrity "is_active")
    | some isActive => return { d with
        title := title
        content := content
        category := category
        source := source
        metadata := metadata
        isActive := isActive }

def ensureStaff (user : User) : Except KbExn Unit :=
  if user.isStaff then .ok () else .error (.forbidden "Staff role required" "staff_required")

def documentNotFound : KbExn := .notFound "Knowledge base document not found" "kb_not_found"

/-- `_normalize_import_record` -/
def normalizeImportRecord (db : Database) (categoryOverride : Option Text) (record : Payload) :
    Payload :=
  normalizePayload db {
    title := some (record.title.getD (some "Untitled"))
    content := some (record.content.getD (some ""))
    category := some (if categoryOverride.any (!·.isEmpty) then categoryOverride
      else record.category.getD (some "faq"))
    source := some (record.source.getD (some "upload"))
    metadata := some (record.metadata.getD none) }

section
variable {ε : Type}

/-- A row before its fields are set. -/
def blankDocument (id : Uuid) (embeddings : Embeddings ε) : KbDocument ε :=
  ⟨id, [], [], [], none, .obj [], true, embeddings⟩

/-- `repository.create`. Without a value a `NOT NULL` column that has no default is `null`. -/
def insertDocument (kb : KnowledgeBase ε) (data : Payload) (embeddings : Embeddings ε) :
    Except KbExn (KnowledgeBase ε) := do
  let d ← applyPayload (blankDocument kb.nextId embeddings) { data with
    title := some (data.title.getD none)
    content := some (data.content.getD none)
    category := some (data.category.getD none) }
  return ⟨kb.documents ++ [d], kb.nextId + 1⟩

/-- `repository.create_batch` -/
def insertDocuments (kb : KnowledgeBase ε) : List (Payload × Embeddings ε) →
    Except KbExn (KnowledgeBase ε)
  | [] => .ok kb
  | (data, embeddings) :: rest => do
    let kb ← insertDocument kb data embeddings
    insertDocuments kb rest

variable (db : Database) (embed : Space → Text → ε)

def createDocument (settings : Settings) (user : User) (data : Payload) (kb : KnowledgeBase ε) :
    Except KbExn (KnowledgeBase ε) := do
  ensureStaff user
  let normalized := normalizePayload db data
  let embeddings ← embedDocument db embed settings (strOf (normalized.title.getD none))
    (strOf (normalized.content.getD none))
  insertDocument kb normalized embeddings

/-- The columns that `repository.update` leaves alone keep their vectors. -/
def Embeddings.update (old new : Embeddings ε) : Embeddings ε where
  gemini := new.gemini.or old.gemini
  jina := new.jina.or old.jina
  ollama := new.ollama.or old.ollama
  bge := new.bge.or old.bge

/-- The text that an update embeds. -/
def updatedText (existing : KbDocument ε) (normalized : Payload) : Text :=
  embeddingText (strOf (normalized.title.getD (some existing.title)))
    (strOf (normalized.content.getD (some existing.content)))

def updateDocument (settings : Settings) (user : User) (kbId : Uuid) (data : Payload)
    (kb : KnowledgeBase ε) : Except KbExn (KnowledgeBase ε) := do
  ensureStaff user
  match Table.find KbDocument.id kbId kb.documents with
  | none => .error documentNotFound
  | some existing =>
    let normalized := normalizePayload db data
    let embeddings ←
      (if normalized.content.isSome || normalized.title.isSome then
        embedDocument db embed settings (strOf (normalized.title.getD (some existing.title)))
          (strOf (normalized.content.getD (some existing.content)))
      else pure {})
    let updated ← applyPayload existing normalized
    let row := { updated with embeddings := updated.embeddings.update embeddings }
    return { kb with documents := Table.modify KbDocument.id kbId (fun _ => row) kb.documents }

/-- `bulk_import_from_file`, with the records that `_parse_import` finds in the file. -/
def bulkImport (settings : Settings) (user : User) (records : List Payload)
    (category : Option Text) (kb : KnowledgeBase ε) : Except KbExn (KnowledgeBase ε) := do
  ensureStaff user
  let documents := records.map (normalizeImportRecord db category)
  if documents.isEmpty then
    .error (.validation "No documents found in import file" "kb_empty_import")
  else do
    let texts := documents.map fun d =>
      embeddingText (strOf (d.title.getD none)) (strOf (d.content.getD none))
    let embeddings ← embedImport db embed settings texts
    insertDocuments kb (documents.zip embeddings)

end

end Qiki.Knowledge
