import Qiki.Knowledge.FreshEmbeddings
import Qiki.Text.Lines

/-! Markdown files with front matter, and the documents that are imported from them. -/
namespace Qiki.Knowledge

open Unicode Orders

/-- One line of the front matter: `metadata[key] = value` where it has a colon. -/
def addField (space : Char → Bool) (metadata : List (Text × Text)) (line : Text) :
    List (Text × Text) :=
  match Text.cut ":" line with
  | none => metadata
  | some (key, value) =>
    Dict.alter (Text.strip space key) (fun _ => Text.strip space value) metadata

def readFields (space : Char → Bool) (block : Text) : List (Text × Text) :=
  (Text.splitLines (Text.strip space block)).foldl (addField space) []

/-- `parse_front_matter` -/
def parseFrontMatter (space : Char → Bool) (content : Text) : List (Text × Text) × Text :=
  if ("---" : Text).isPrefixOf content then
    match Text.cut "---" (content.drop 3) with
    | none => ([], Text.strip space content)
    | some (block, body) => (readFields space block, Text.strip space body)
  else ([], Text.strip space content)

/-- `filename.rsplit(".", 1)[0]` -/
def fileStem (filename : Text) : Text :=
  match Text.cut "." filename.reverse with
  | none => filename
  | some (_, stem) => stem.reverse

/-- The record that `_parse_import` reads from a text or Markdown file. -/
def parseTextFile (space : Char → Bool) (raw filename : Text) : Payload :=
  let (metadata, body) := parseFrontMatter space raw
  { title := some (some ((Dict.get ("title" : Text) metadata).getD (fileStem filename)))
    content := some (some body)
    category := (Dict.get ("category" : Text) metadata).map some
    source := (Dict.get ("source" : Text) metadata).map some
    metadata := some (some (.obj (metadata.map fun field => (field.1, .str field.2)))) }

/-! Files as they are written. -/

def fieldLine (field : Text × Text) : Text := field.1 ++ ':' :: ' ' :: field.2

/-- A file with these fields. -/
def renderFrontMatter (fields : List (Text × Text)) (body : Text) : Text :=
  ("---\n" : Text) ++ (fields.flatMap (fun field => fieldLine field ++ ['\n']) ++ ("---\n" ++ body))

/-- The fields have different keys, one line each, and nothing that ends the front matter. -/
structure InFormat (space : Char → Bool) (fields : List (Text × Text)) : Prop where
  keys : (fields.map Prod.fst).Nodup
  key : ∀ field ∈ fields, Text.strip space field.1 = field.1 ∧ ':' ∉ field.1
  value : ∀ field ∈ fields, Text.strip space field.2 = field.2
  oneLine : ∀ field ∈ fields, ∀ c ∈ fieldLine field, Text.isLineBreak c = false
  noDashes : ∀ field ∈ fields, ¬ ("---" : Text) <:+: fieldLine field

/-- What `str.isspace` says of the characters that a file is written with. -/
structure Spaces (space : Char → Bool) : Prop where
  newline : space '\n' = true
  blank : space ' ' = true
  colon : space ':' = false

section
variable {space : Char → Bool} {fields : List (Text × Text)}

/-- A line of which `strip` has taken the blank before an empty value. -/
def strippedLine (field : Text × Text) : Text :=
  field.1 ++ ':' :: (if field.2 = [] then [] else ' ' :: field.2)

theorem addField_fieldLine (hs : Spaces space) {field : Text × Text}
    (hkey : Text.strip space field.1 = field.1 ∧ ':' ∉ field.1)
    (hvalue : Text.strip space field.2 = field.2) (metadata : List (Text × Text)) :
    addField space metadata (fieldLine field) = Dict.alter field.1 (fun _ => field.2) metadata := by
  have hcut : Text.cut ":" (fieldLine field) = some (field.1, ' ' :: field.2) :=
    Text.cut_char hkey.2 (' ' :: field.2)
  rw [addField, hcut]
  dsimp only
  rw [hkey.1, Text.strip_cons_of_space hs.blank, hvalue]

theorem addField_strippedLine (hs : Spaces space) {field : Text × Text}
    (hkey : Text.strip space field.1 = field.1 ∧ ':' ∉ field.1)
    (hvalue : Text.strip space field.2 = field.2) (metadata : List (Text × Text)) :
    addField space metadata (strippedLine field) =
      Dict.alter field.1 (fun _ => field.2) metadata := by
  have hcut : Text.cut ":" (strippedLine field) =
      some (field.1, if field.2 = [] then [] else ' ' :: field.2) := Text.cut_char hkey.2 _
  have hread : Text.strip space (if field.2 = [] then [] else ' ' :: field.2) = field.2 := by
    split_ifs with hempty
    · rw [hempty]
      rfl
    · rw [Text.strip_cons_of_space hs.blank, hvalue]
  rw [addField, hcut]
  dsimp only
  rw [hkey.1, hread]

/-- A line begins with its key, or with the colon. -/
theorem dropWhile_fieldLine (hs : Spaces space) {field : Text × Text}
    (hkey : Text.strip space field.1 = field.1) (rest : Text) :
    (fieldLine field ++ rest).dropWhile space = fieldLine field ++ rest := by
  rw [fieldLine, List.append_assoc]
  by_cases hempty : field.1 = []
  · rw [hempty]
    exact List.dropWhile_cons_of_neg (by rw [hs.colon]; exact Bool.false_ne_true)
  · exact Text.dropWhile_append_of_self (Text.ends_of_strip hkey).1 hempty _

/-- Behind its value a line has nothing that `strip` takes, unless the value is empty. -/
theorem dropWhile_reverse_fieldLine (hs : Spaces space) {field : Text × Text}
    (hvalue : Text.strip space field.2 = field.2) (rest : Text) :
    ((fieldLine field).reverse ++ rest).dropWhile space =
      (strippedLine field).reverse ++ rest := by
  by_cases hempty : field.2 = []
  · have hline : (fieldLine field).reverse = ' ' :: ':' :: field.1.reverse := by
      rw [fieldLine, hempty, List.reverse_append]
      rfl
    have hstripped : (strippedLine field).reverse = ':' :: field.1.reverse := by
      rw [strippedLine, if_pos hempty, List.reverse_append]
      rfl
    rw [hline, hstripped, List.cons_append, List.dropWhile_cons_of_pos hs.blank, List.cons_append,
      List.dropWhile_cons_of_neg (by rw [hs.colon]; exact Bool.false_ne_true)]
  · have hline : (fieldLine field).reverse = field.2.reverse ++ (field.1 ++ [':', ' ']).reverse := by
      rw [fieldLine, ← List.reverse_append, List.append_assoc]
      rfl
    have hstripped : strippedLine field = fieldLine field := by
      rw [strippedLine, if_neg hempty]
      rfl
    rw [hstripped, hline, List.append_assoc]
    exact Text.dropWhile_append_of_self (Text.ends_of_strip hvalue).2
      (List.reverse_ne_nil_iff.mpr hempty) _

/-- Of the lines of the fields `strip` takes the first line break, and what ends the last line. -/
theorem strip_fieldLines (hs : Spaces space) {last : Text × Text}
    (hkeys : ∀ field ∈ fields ++ [last], Text.strip space field.1 = field.1)
    (hvalue : Text.strip space last.2 = last.2) :
    Text.strip space
        ('\n' :: (fields ++ [last]).flatMap (fun field => fieldLine field ++ ['\n'])) =
      fields.flatMap (fun field => fieldLine field ++ ['\n']) ++ strippedLine last := by
  have hleft : ((fields ++ [last]).flatMap fun field => fieldLine field ++ ['\n']).dropWhile space =
      (fields ++ [last]).flatMap fun field => fieldLine field ++ ['\n'] := by
    cases hfields : fields ++ [last] with
    | nil => rfl
    | cons first rest =>
      rw [List.flatMap_cons, List.append_assoc]
      exact dropWhile_fieldLine hs (hkeys first (hfields ▸ List.mem_cons_self)) _
  rw [Text.strip_cons_of_space hs.newline, Text.strip, hleft, List.flatMap_append,
    List.flatMap_singleton, List.reverse_append, List.reverse_append, List.reverse_singleton,
    List.append_assoc, List.singleton_append, List.dropWhile_cons_of_pos hs.newline,
    dropWhile_reverse_fieldLine hs hvalue, ← List.reverse_append, List.reverse_reverse]

/-- The lines of the front matter give back the fields. -/
theorem readFields_fieldLines (hs : Spaces space) (h : InFormat space fields) :
    readFields space ('\n' :: fields.flatMap (fun field => fieldLine field ++ ['\n'])) = fields := by
  have hbuilt : fields.foldl (fun metadata field => Dict.alter field.1 (fun _ => field.2) metadata) [] =
      fields := by
    rw [Dict.foldl_alter_of_nodup Prod.fst (fun field _ => field.2) fields (d := [])
      (by simpa using h.keys)]
    simp
  rcases List.eq_nil_or_concat fields with rfl | ⟨init, last, rfl⟩
  · rw [List.flatMap_nil, readFields, Text.strip_cons_of_space hs.newline]
    rfl
  · rw [List.concat_eq_append] at *
    have hlast : last ∈ init ++ [last] := List.mem_append_right init (List.mem_singleton_self last)
    have hlines : Text.splitLines (init.flatMap (fun field => fieldLine field ++ ['\n']) ++
        strippedLine last) = init.map fieldLine ++ [strippedLine last] := by
      have hflat : init.flatMap (fun field => fieldLine field ++ ['\n']) =
          (init.map fieldLine).flatMap fun line => line ++ ['\n'] := by
        rw [List.flatMap_map]
      rw [hflat]
      refine Text.splitLines_flatMap (fun line hline => ?_) (fun c hc => ?_) ?_
      · obtain ⟨field, hfield, rfl⟩ := List.mem_map.mp hline
        exact h.oneLine field (List.mem_append_left [last] hfield)
      · refine h.oneLine last hlast c ?_
        rw [strippedLine] at hc
        rw [fieldLine]
        split_ifs at hc with hempty
        · rcases List.mem_append.mp hc with hkey | hcolon
          · exact List.mem_append_left _ hkey
          · exact List.mem_append_right _ (List.mem_cons.mpr (Or.inl (List.mem_singleton.mp hcolon)))
        · exact hc
      · simp [strippedLine]
    rw [readFields, strip_fieldLines hs (fun field hfield => (h.key field hfield).1)
      (h.value last hlast), hlines, List.foldl_append, List.foldl_cons, List.foldl_nil,
      addField_strippedLine hs (h.key last hlast) (h.value last hlast), List.foldl_map]
    have hadd : init.foldl (fun metadata field => addField space metadata (fieldLine field)) [] =
        init.foldl (fun metadata field => Dict.alter field.1 (fun _ => field.2) metadata) [] := by
      refine List.foldl_ext _ _ _ fun metadata field hfield => ?_
      have hmem : field ∈ init ++ [last] := List.mem_append_left [last] hfield
      exact addField_fieldLine hs (h.key field hmem) (h.value field hmem) metadata
    rw [hadd]
    rw [List.foldl_append] at hbuilt
    exact hbuilt

/-- What is written with the front matter is read back: the fields, and the body without the blanks
around it. -/
theorem parseFrontMatter_render (hs : Spaces space) (h : InFormat space fields) (body : Text) :
    parseFrontMatter space (renderFrontMatter fields body) = (fields, Text.strip space body) := by
  have hnone : ¬ ("---" : Text) <:+:
      fields.flatMap (fun field => fieldLine field ++ ['\n']) := by
    have hflat : fields.flatMap (fun field => fieldLine field ++ ['\n']) =
        (fields.map fieldLine).flatMap fun line => line ++ ['\n'] := by
      rw [List.flatMap_map]
    rw [hflat]
    refine Text.not_infix_flatMap (by decide) (by decide) fun line hline => ?_
    obtain ⟨field, hfield, rfl⟩ := List.mem_map.mp hline
    exact h.noDashes field hfield
  obtain ⟨x, hx⟩ : ∃ x, '\n' :: fields.flatMap (fun field => fieldLine field ++ ['\n']) =
      x ++ ['\n'] := by
    rcases List.eq_nil_or_concat fields with rfl | ⟨init, last, rfl⟩
    · exact ⟨[], rfl⟩
    · refine ⟨'\n' :: (init.flatMap (fun field => fieldLine field ++ ['\n']) ++ fieldLine last), ?_⟩
      rw [List.concat_eq_append, List.flatMap_append, List.flatMap_singleton, List.cons_append,
        List.append_assoc]
  have hblock : ¬ ("---" : Text) <:+: x := by
    intro hin
    have hbehind : ("---" : Text) <:+: '\n' :: fields.flatMap (fun field => fieldLine field ++ ['\n']) :=
      hx ▸ hin.trans (List.prefix_append x ['\n']).isInfix
    rcases Text.infix_append_cons (x := []) (by decide) (by decide) hbehind with hnil | hlines
    · exact absurd (List.infix_nil.mp hnil) (by decide)
    · exact hnone hlines
  have hcut : Text.cut "---" ((renderFrontMatter fields body).drop 3) =
      some ('\n' :: fields.flatMap (fun field => fieldLine field ++ ['\n']), '\n' :: body) := by
    have hdrop : (renderFrontMatter fields body).drop 3 =
        ('\n' :: fields.flatMap (fun field => fieldLine field ++ ['\n'])) ++
          (("---" : Text) ++ '\n' :: body) := rfl
    rw [hdrop, hx, List.append_assoc]
    exact Text.cut_behind (by decide) (by decide) hblock ('\n' :: body)
  have hstart : ("---" : Text).isPrefixOf (renderFrontMatter fields body) = true := rfl
  rw [parseFrontMatter, if_pos hstart, hcut]
  dsimp only
  rw [readFields_fieldLines hs h, Text.strip_cons_of_space hs.newline]

end

/-- The columns of `knowledge_base` take these values. -/
structure FitsColumns (title content category source : Text) (metadata : Json) : Prop where
  title : FitsColumn (some 255) title
  content : FitsColumn none content
  category : category ∈ knowledgeCategories
  source : FitsColumn (some 255) source
  metadata : metadata.storable

/-- A payload that has all its fields is stored exactly when they fit their columns. -/
theorem insertDocument_given {ε : Type} {kb kb' : KnowledgeBase ε} {e : Embeddings ε}
    {title content category source : Text} {metadata : Json} :
    insertDocument kb { title := some (some title), content := some (some content)
                        category := some (some category), source := some (some source)
                        metadata := some (some metadata) } e = .ok kb' ↔
      FitsColumns title content category source metadata ∧
        kb' = ⟨kb.documents ++ [⟨kb.nextId, title, content, category, some source, metadata, true, e⟩],
          kb.nextId + 1⟩ := by
  constructor
  · intro h
    obtain ⟨row, hrow, h⟩ := Except.bind_eq_ok h
    cases h
    unfold applyPayload at hrow
    obtain ⟨title', htitle, hrow⟩ := Except.bind_eq_ok hrow
    obtain ⟨content', hcontent, hrow⟩ := Except.bind_eq_ok hrow
    obtain ⟨category', hcategory, hrow⟩ := Except.bind_eq_ok hrow
    obtain ⟨htitle, htitleFits⟩ := checkColumn_eq_ok.mp htitle
    obtain ⟨hcontent, hcontentFits⟩ := checkColumn_eq_ok.mp hcontent
    obtain ⟨hcategory, hlisted⟩ := checkCategory_eq_ok.mp hcategory
    obtain rfl : title = title' := Option.some.inj htitle
    obtain rfl : content = content' := Option.some.inj hcontent
    obtain rfl : category = category' := Option.some.inj hcategory
    simp only [Option.getD_some, Option.all_some, Bool.not_eq_true'] at hrow
    split_ifs at hrow with hsource hmetadata
    cases hrow
    exact ⟨⟨htitleFits, hcontentFits, hlisted, Bool.not_eq_false _ ▸ hsource,
      Bool.not_eq_false _ ▸ hmetadata⟩, rfl⟩
  · rintro ⟨hfits, rfl⟩
    refine Except.bind_eq_ok_iff.mpr ⟨_, ?_, rfl⟩
    refine Except.bind_eq_ok_iff.mpr ⟨title, checkColumn_eq_ok.mpr ⟨rfl, hfits.title⟩, ?_⟩
    refine Except.bind_eq_ok_iff.mpr ⟨content, checkColumn_eq_ok.mpr ⟨rfl, hfits.content⟩, ?_⟩
    refine Except.bind_eq_ok_iff.mpr ⟨category, checkCategory_eq_ok.mpr ⟨rfl, hfits.category⟩, ?_⟩
    simp only [Option.getD_some, Option.all_some, hfits.source, hfits.metadata, Bool.not_true,
      Bool.false_eq_true, if_false, blankDocument, Option.getD_none]
    rfl

/-- While the provider's services answer, every text of an import gets its vectors. -/
theorem embedImport_isOk {ε : Type} {db : Database} {embed : Space → Text → ε}
    {settings : Settings} (hup : ∀ space ∈ settings.provider.spaces, settings.availability space = .up)
    (texts : List Text) : ∃ es, embedImport db embed settings texts = .ok es := by
  have hall : ∀ {f : Text → Except KbExn ε} {g : Text → ε}, (∀ text, f text = .ok (g text)) →
      texts.mapM f = .ok (texts.map g) := fun {f g} hf => by
    rw [show f = fun text => pure (g text) from funext hf, List.mapM_pure]
    rfl
  have hbatch : ∀ space ∈ settings.provider.spaces,
      embedBatch db embed settings space texts = .ok (texts.map (embed space)) := by
    intro space hspace
    have hcall : ∀ text, callProvider embed settings space text = .ok (embed space text) :=
      fun text => callProvider_eq_ok.mpr ⟨hup space hspace, rfl⟩
    have htext : ∀ text, embedText db embed settings space text = .ok (embed space text) := by
      intro text
      rw [embedText, hcall, ite_self]
    cases space with
    | gemini => exact hall hcall
    | jina => exact hall hcall
    | ollama => exact hall htext
    | bge => exact hall htext
  unfold embedImport
  cases hprovider : settings.provider with
  | ollama =>
    rw [hprovider] at hbatch
    exact ⟨_, Except.bind_eq_ok_iff.mpr ⟨_, hbatch .ollama (by decide), rfl⟩⟩
  | bge =>
    rw [hprovider] at hbatch
    exact ⟨_, Except.bind_eq_ok_iff.mpr ⟨_, hbatch .bge (by decide), rfl⟩⟩
  | gemini =>
    rw [hprovider] at hbatch
    exact ⟨_, Except.bind_eq_ok_iff.mpr ⟨_, hbatch .gemini (by decide),
      Except.bind_eq_ok_iff.mpr ⟨_, hbatch .jina (by decide), rfl⟩⟩⟩

/-- An import of one record by staff inserts one row. -/
theorem bulkImport_singleton {ε : Type} {db : Database} {embed : Space → Text → ε}
    {settings : Settings} {user : User} (huser : user.isStaff = true)
    (hup : ∀ space ∈ settings.provider.spaces, settings.availability space = .up)
    (record : Payload) (category : Option Text) (kb : KnowledgeBase ε) :
    ∃ e, bulkImport db embed settings user [record] category kb =
      insertDocument kb (normalizeImportRecord db category record) e := by
  let data := normalizeImportRecord db category record
  obtain ⟨es, hes⟩ := @embedImport_isOk ε db embed settings hup
    [embeddingText (strOf (data.title.getD none)) (strOf (data.content.getD none))]
  obtain ⟨e, rfl⟩ := List.length_eq_one_iff.mp (embedImport_spec hes).length_eq
  refine ⟨e, ?_⟩
  have hstaff : ensureStaff user = .ok () := if_pos huser
  have hrun : bulkImport db embed settings user [record] category kb =
      insertDocuments kb [(data, e)] := by
    unfold bulkImport
    rw [hstaff]
    show (do
      let embeddings ← embedImport db embed settings
        [embeddingText (strOf (data.title.getD none)) (strOf (data.content.getD none))]
      insertDocuments kb ([data].zip embeddings)) = _
    rw [hes]
    rfl
  rw [hrun]
  cases hinsert : insertDocument kb data e with
  | error exn => simp only [insertDocuments, hinsert]; rfl
  | ok kb' => simp only [insertDocuments, hinsert]; rfl

/-- What staff import from a file in the format, while the embedding services answer: one document
exactly when its values fit the columns. Its title, category, source and metadata are those of the
front matter, with the file's name, `faq` and `upload` where it has none; a category chosen at the
upload comes first. -/
theorem front_matter_import {ε : Type} (db : Database) (embed : Space → Text → ε)
    (settings : Settings) (user : User) (kb : KnowledgeBase ε) (filename body : Text)
    (category : Option Text) (fields : List (Text × Text)) (hs : Spaces db.space)
    (h : InFormat db.space fields) (huser : user.isStaff = true)
    (hup : ∀ space ∈ settings.provider.spaces, settings.availability space = .up) :
    let title := normalize db ((Dict.get ("title" : Text) fields).getD (fileStem filename))
    let content := normalize db (Text.strip db.space body)
    let chosen := (category.filter (!·.isEmpty)).getD
      ((Dict.get ("category" : Text) fields).getD "faq")
    let source := (Dict.get ("source" : Text) fields).getD "upload"
    let metadata : Json := .obj (fields.map fun field => (field.1, .str field.2))
    ∃ e, ∀ kb', bulkImport db embed settings user
        [parseTextFile db.space (renderFrontMatter fields body) filename] category kb = .ok kb' ↔
      FitsColumns title content chosen source metadata ∧
        kb' = ⟨kb.documents ++ [⟨kb.nextId, title, content, chosen, some source, metadata, true, e⟩],
          kb.nextId + 1⟩ := by
  obtain ⟨e, himport⟩ := @bulkImport_singleton ε db embed settings user huser hup
    (parseTextFile db.space (renderFrontMatter fields body) filename) category kb
  refine ⟨e, fun kb' => ?_⟩
  rw [himport, parseTextFile, parseFrontMatter_render hs h]
  have hcategory : (if category.any (!·.isEmpty) then category else
      ((Dict.get ("category" : Text) fields).map some).getD (some "faq")) =
        some ((category.filter (!·.isEmpty)).getD
          ((Dict.get ("category" : Text) fields).getD "faq")) := by
    cases category with
    | none => cases Dict.get ("category" : Text) fields <;> rfl
    | some chosen =>
      cases chosen with
      | nil => cases Dict.get ("category" : Text) fields <;> rfl
      | cons c chosen => rfl
  have hsource : ((Dict.get ("source" : Text) fields).map some).getD (some "upload") =
      some ((Dict.get ("source" : Text) fields).getD "upload") := by
    cases Dict.get ("source" : Text) fields <;> rfl
  rw [normalizeImportRecord, hcategory, hsource]
  exact insertDocument_given

def openingHours : List (Text × Text) :=
  [("title", "Opening hours"), ("category", "company"), ("note", "")]

theorem openingHours_inFormat : InFormat Vietnamese.database.space openingHours where
  keys := by decide
  key := by decide
  value := by decide
  oneLine := by
    have hall : ∀ field ∈ openingHours,
        (fieldLine field).all (fun c => !Text.isLineBreak c) = true := by decide +kernel
    intro field hfield c hc
    simpa using List.all_eq_true.mp (hall field hfield) c hc
  noDashes := by
    have hcontains : ∀ field ∈ openingHours, Text.contains (fieldLine field) "---" = false := by
      decide +kernel
    intro field hfield
    rw [← Text.contains_iff, hcontains field hfield]
    exact Bool.false_ne_true

def clerk : User := ⟨1, .staff, none, none, none, none⟩

def geminiUp : Settings := ⟨.gemini, fun _ => .up⟩

/-- The file of the opening hours is stored. -/
theorem front_matter_import_openingHours : ∃ kb',
    bulkImport Vietnamese.database (fun _ text => text.length) geminiUp clerk
      [parseTextFile Vietnamese.database.space
        (renderFrontMatter openingHours "Every day from 7:00.\n") "hours.md"] none {} = .ok kb' ∧
    ∃ d, kb'.documents = [d] ∧ d.title = "Opening hours" ∧ d.content = "Every day from 7:00." ∧
      d.category = "company" ∧ d.source = some "upload" ∧ d.isActive = true := by
  have hspaces : Spaces Vietnamese.database.space := ⟨by decide, by decide, by decide⟩
  obtain ⟨e, himport⟩ := front_matter_import Vietnamese.database (fun _ text => text.length) geminiUp
    clerk {} "hours.md" "Every day from 7:00.\n" none openingHours hspaces openingHours_inFormat
    (by decide) fun _ _ => rfl
  have htitle : normalize Vietnamese.database
      ((Dict.get ("title" : Text) openingHours).getD (fileStem "hours.md")) = "Opening hours" := by
    decide +kernel
  have hcontent : normalize Vietnamese.database
      (Text.strip Vietnamese.database.space "Every day from 7:00.\n") = "Every day from 7:00." := by
    decide +kernel
  refine ⟨_, (himport _).mpr ⟨⟨?_, ?_, ?_, ?_, ?_⟩, rfl⟩, _, rfl, htitle, hcontent, rfl, rfl, rfl⟩
  · rw [htitle]
    decide
  · rw [hcontent]
    decide
  all_goals decide

/-- A category that the table does not know is refused. -/
example : (bulkImport Vietnamese.database (fun _ text => text.length) geminiUp clerk
    [parseTextFile Vietnamese.database.space
      (renderFrontMatter [("category", "gas tips")] "Text") "tips.md"] none {}).isOk = false := by
  decide +kernel

end Qiki.Knowledge
