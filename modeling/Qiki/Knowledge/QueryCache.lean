import Qiki.Collections.Expiring
import Qiki.Data.Stages
import Qiki.Knowledge.Documents
import Qiki.Text.Decimal
import Qiki.Text.Vietnamese

/-! `_embed_query`: the read-through cache of query embeddings that service instances share. What
a provider returns for a text at a dimension setting, the JSON of a cache entry and the hash of a
query are parameters. -/
namespace Qiki.Knowledge

open Unicode

/-- What a service instance reads from its settings. -/
structure QueryService where
  provider : EmbeddingProvider
  /-- `EMBEDDING_DIMENSIONS`, the dimension of the Gemini, Jina and Ollama services. -/
  dimensions : ℤ
  /-- `BGE_EMBEDDING_DIMENSIONS` -/
  bgeDimensions : ℤ
  /-- `EMBEDDING_QUERY_CACHE_TTL` -/
  cacheTtl : ℤ
  hasRedis : Bool
  deriving DecidableEq

def QueryService.dimension (service : QueryService) : Space → ℤ
  | .bge => service.bgeDimensions
  | _ => service.dimensions

/-- `MATCH_DOCUMENTS` and its variants. -/
def matchDocuments : Space → Text
  | .gemini => "match_documents"
  | .jina => "match_documents_jina"
  | .ollama => "match_documents_ollama"
  | .bge => "match_documents_bge"

def EmbeddingProvider.name : EmbeddingProvider → Text
  | .gemini => "gemini"
  | .ollama => "ollama"
  | .bge => "bge"

/-- The entry of a vector with its match function, as `json.dumps` writes it and `json.loads` with
the field conversions reads it; `none` is an exception that counts as a miss. -/
structure EntryCodec (ε ρ : Type) where
  dumps : ε × Text → ρ
  loads : ρ → Option (ε × Text)
  loads_dumps : ∀ p, loads (dumps p) = some p

/-- What the read of a key comes back with. -/
inductive CacheRead {ε ρ : Type} (codec : EntryCodec ε ρ)
  | stored
  | unavailable
  | corrupt (raw : ρ) (fails : codec.loads raw = none)

section
variable {ε ρ : Type} (codec : EntryCodec ε ρ) (digest : Text → Text) (db : Database)
  (embed : Space → ℤ → Text → ε)

/-- One `_embed_query`, with how the providers and Redis answer during it. -/
structure QueryCall where
  service : QueryService
  query : Text
  now : ℤ
  availability : Space → Availability
  read : CacheRead codec
  writeFails : Bool

abbrev QueryCache (ρ : Type) := Expiring.Store Text ρ ℤ

def queryCacheKey (service : QueryService) (query : Text) : Text :=
  "kbq:" ++ (service.provider.name ++ ':' :: 'd' :: (Text.ofInt service.dimensions ++
    ':' :: digest query))

variable {codec}

def cacheGetQuery (c : QueryCall codec) (cache : QueryCache ρ) : Option (ε × Text) :=
  if !c.service.hasRedis || c.service.cacheTtl ≤ 0 then none
  else match c.read with
    | .unavailable => none
    | .corrupt raw _ => codec.loads raw
    | .stored => (Expiring.get cache (queryCacheKey digest c.service c.query) c.now).bind codec.loads

def cacheSetQuery (c : QueryCall codec) (pair : ε × Text) (cache : QueryCache ρ) : QueryCache ρ :=
  if !c.service.hasRedis || c.service.cacheTtl ≤ 0 || c.writeFails then cache
  else Expiring.setex cache (queryCacheKey digest c.service c.query) c.service.cacheTtl
    (codec.dumps pair) c.now

/-- `embed_text` of the service of a space. -/
def embedQueryIn (c : QueryCall codec) (space : Space) : Except KbExn ε :=
  embedText db (fun space => embed space (c.service.dimension space))
    ⟨c.service.provider, c.availability⟩ space c.query

def computeQueryEmbedding (c : QueryCall codec) : Except KbExn (ε × Text) :=
  match c.service.provider with
  | .ollama => do return (← embedQueryIn db embed c .ollama, matchDocuments .ollama)
  | .bge => do return (← embedQueryIn db embed c .bge, matchDocuments .bge)
  | .gemini =>
    match embedQueryIn db embed c .gemini with
    | .ok e => .ok (e, matchDocuments .gemini)
    | .error (.exhausted _) => do return (← embedQueryIn db embed c .jina, matchDocuments .jina)
    | .error e => .error e

/-- `_embed_query`: what it returns, and the cache afterwards. -/
def embedQuery (c : QueryCall codec) (cache : QueryCache ρ) :
    Except KbExn (ε × Text) × QueryCache ρ :=
  match cacheGetQuery digest c cache with
  | some cached => (.ok cached, cache)
  | none =>
    match computeQueryEmbedding db embed c with
    | .ok pair => (.ok pair, cacheSetQuery digest c pair cache)
    | .error e => (.error e, cache)

/-- Something that happens to the shared cache: a query, or the loss of a key. -/
inductive CacheEvent (codec : EntryCodec ε ρ)
  | call (c : QueryCall codec)
  | evicted (key : Text)

def CacheEvent.apply (cache : QueryCache ρ) : CacheEvent codec → QueryCache ρ
  | .call c => (embedQuery digest db embed c cache).2
  | .evicted key => Expiring.delete cache key

/-- The pair is the vector that a provider of this instance gives for the query in the space of
the match function. -/
def Given (c : QueryCall codec) (pair : ε × Text) : Prop :=
  ∃ space ∈ c.service.provider.spaces,
    pair = (embed space (c.service.dimension space) c.query, matchDocuments space)

end

theorem EmbeddingProvider.name_injective : Function.Injective EmbeddingProvider.name := by
  intro s t h
  cases s <;> cases t <;> first | rfl | (revert h; decide)

theorem EmbeddingProvider.colon_not_mem_name (provider : EmbeddingProvider) :
    ':' ∉ provider.name := by
  cases provider <;> decide

section
variable {ε ρ : Type} {codec : EntryCodec ε ρ} {digest : Text → Text} {db : Database}
  {embed : Space → ℤ → Text → ε}

/-- Equal keys stand for the same provider, `EMBEDDING_DIMENSIONS` and query. -/
theorem queryCacheKey_injective (hdigest : Function.Injective digest) {a b : QueryService}
    {q r : Text} (h : queryCacheKey digest a q = queryCacheKey digest b r) :
    a.provider = b.provider ∧ a.dimensions = b.dimensions ∧ q = r := by
  obtain ⟨hname, htail⟩ := Text.append_separator_inj a.provider.colon_not_mem_name
    b.provider.colon_not_mem_name (List.append_cancel_left h)
  obtain ⟨hdimensions, hquery⟩ := Text.append_separator_inj (Text.colon_not_mem_ofInt _)
    (Text.colon_not_mem_ofInt _) (List.cons.inj htail).2
  exact ⟨EmbeddingProvider.name_injective hname, Text.ofInt_injective hdimensions, hdigest hquery⟩

theorem embedQueryIn_eq_ok {c : QueryCall codec} {space : Space} {e : ε}
    (h : embedQueryIn db embed c space = .ok e) :
    e = embed space (c.service.dimension space) c.query := by
  unfold embedQueryIn embedText callProvider at h
  split_ifs at h
  · exact (Except.ok.inj h).symm
  · split at h
    · exact (Except.ok.inj h).symm
    · cases h
    · cases h

/-- A computed pair is in the space of its match function. -/
theorem given_of_compute {c : QueryCall codec} {pair : ε × Text}
    (h : computeQueryEmbedding db embed c = .ok pair) : Given embed c pair := by
  have hgiven {space : Space} (hspace : space ∈ c.service.provider.spaces)
      (h : (do return (← embedQueryIn db embed c space, matchDocuments space)) = .ok pair) :
      Given embed c pair := by
    obtain ⟨e, he, h⟩ := Except.bind_eq_ok h
    refine ⟨space, hspace, ?_⟩
    rw [← embedQueryIn_eq_ok he]
    exact (Except.ok.inj h).symm
  unfold computeQueryEmbedding at h
  cases hprovider : c.service.provider with
  | ollama =>
    rw [hprovider] at h
    exact hgiven (by rw [hprovider]; exact List.mem_singleton_self _) h
  | bge =>
    rw [hprovider] at h
    exact hgiven (by rw [hprovider]; exact List.mem_singleton_self _) h
  | gemini =>
    rw [hprovider] at h
    dsimp only at h
    split at h
    case h_1 e he =>
      refine ⟨.gemini, by rw [hprovider]; decide, ?_⟩
      rw [← embedQueryIn_eq_ok he]
      exact (Except.ok.inj h).symm
    case h_2 => exact hgiven (by rw [hprovider]; decide) h
    case h_3 => cases h

/-- The entries of the cache come from earlier calls with their keys. -/
def WrittenBy (digest : Text → Text) (embed : Space → ℤ → Text → ε)
    (calls : QueryCall codec → Prop) (cache : QueryCache ρ) : Prop :=
  ∀ key entry, cache key = some entry → ∃ c, calls c ∧
    queryCacheKey digest c.service c.query = key ∧
      ∃ pair, entry.value = codec.dumps pair ∧ Given embed c pair

/-- Instances that embed with bge under one `EMBEDDING_DIMENSIONS` agree on
`BGE_EMBEDDING_DIMENSIONS`. -/
def AgreeOnBge (a b : QueryService) : Prop :=
  a.provider = .bge → b.provider = .bge → a.dimensions = b.dimensions →
    a.bgeDimensions = b.bgeDimensions

/-- With the same key and agreeing settings, what one call was given fits the other. -/
theorem Given.of_sameKey (hdigest : Function.Injective digest) {a b : QueryCall codec}
    {pair : ε × Text} (h : Given embed a pair) (hagree : AgreeOnBge a.service b.service)
    (hkey : queryCacheKey digest a.service a.query = queryCacheKey digest b.service b.query) :
    Given embed b pair := by
  obtain ⟨hprovider, hdimensions, hquery⟩ := queryCacheKey_injective hdigest hkey
  obtain ⟨space, hspace, rfl⟩ := h
  refine ⟨space, hprovider ▸ hspace, ?_⟩
  have hdimension : a.service.dimension space = b.service.dimension space := by
    cases space with
    | bge =>
      -- only the bge provider embeds in the space of bge
      have hbge : a.service.provider = .bge := by
        cases hp : a.service.provider with
        | bge => rfl
        | gemini => rw [hp] at hspace; revert hspace; decide
        | ollama => rw [hp] at hspace; revert hspace; decide
      exact hagree hbge (hprovider ▸ hbge) hdimensions
    | gemini => exact hdimensions
    | jina => exact hdimensions
    | ollama => exact hdimensions
  rw [hdimension, hquery]

section Run
variable (hdigest : Function.Injective digest) {calls : QueryCall codec → Prop}
  {cache : QueryCache ρ} {c : QueryCall codec}

include hdigest in
theorem given_of_embedQuery (hwritten : WrittenBy digest embed calls cache)
    (hagree : ∀ a, calls a → AgreeOnBge a.service c.service) {pair : ε × Text}
    (h : (embedQuery digest db embed c cache).1 = .ok pair) : Given embed c pair := by
  unfold embedQuery at h
  split at h
  case h_2 =>
    split at h
    case h_1 computed hcompute =>
      obtain rfl := Except.ok.inj h
      exact given_of_compute hcompute
    case h_2 => cases h
  case h_1 cached hcached =>
    obtain rfl := Except.ok.inj h
    unfold cacheGetQuery at hcached
    split_ifs at hcached
    split at hcached
    · cases hcached
    case h_2 raw fails _ =>
      rw [fails] at hcached
      cases hcached
    case h_3 =>
      obtain ⟨raw, hraw, hloads⟩ := Option.bind_eq_some_iff.mp hcached
      obtain ⟨entry, hentry, -, rfl⟩ := Expiring.get_eq_some.mp hraw
      obtain ⟨a, ha, hkey, written, hvalue, hgiven⟩ := hwritten _ _ hentry
      rw [hvalue, codec.loads_dumps] at hloads
      obtain rfl := Option.some.inj hloads
      exact hgiven.of_sameKey hdigest (hagree a ha) hkey

/-- A call writes its own pair under its own key. -/
theorem writtenBy_embedQuery (hwritten : WrittenBy digest embed calls cache) (hc : calls c) :
    WrittenBy digest embed calls (embedQuery digest db embed c cache).2 := by
  unfold embedQuery
  split
  · exact hwritten
  split
  case h_2 => exact hwritten
  case h_1 pair hpair =>
    unfold cacheSetQuery
    split_ifs
    · exact hwritten
    · intro key entry hentry
      dsimp only [Expiring.setex] at hentry
      by_cases hkey : key = queryCacheKey digest c.service c.query
      · subst hkey
        rw [Function.update_self] at hentry
        obtain rfl := Option.some.inj hentry
        exact ⟨c, hc, rfl, pair, rfl, given_of_compute hpair⟩
      · rw [Function.update_of_ne hkey] at hentry
        exact hwritten key entry hentry

theorem writtenBy_delete (hwritten : WrittenBy digest embed calls cache) (lost : Text) :
    WrittenBy digest embed calls (Expiring.delete cache lost) := by
  intro key entry hentry
  unfold Expiring.delete at hentry
  by_cases hkey : key = lost
  · rw [hkey, Function.update_self] at hentry
    cases hentry
  · rw [Function.update_of_ne hkey] at hentry
    exact hwritten key entry hentry

theorem writtenBy_run {events : List (CacheEvent codec)} (hwritten : WrittenBy digest embed calls cache)
    (hcalls : ∀ c, CacheEvent.call c ∈ events → calls c) :
    WrittenBy digest embed calls (events.foldl (CacheEvent.apply digest db embed) cache) := by
  induction events generalizing cache with
  | nil => exact hwritten
  | cons event events ih =>
    refine ih ?_ fun c hc => hcalls c (List.mem_cons_of_mem _ hc)
    cases event with
    | call c => exact writtenBy_embedQuery hwritten (hcalls c (List.mem_cons_self ..))
    | evicted key => exact writtenBy_delete hwritten key

end Run

/-- Over one cache, every pair that `_embed_query` returns is the vector of its match function's
provider for this query, when the instances that use bge agree on its dimension. -/
theorem query_cache_consistent (hdigest : Function.Injective digest)
    {events : List (CacheEvent codec)}
    (hagree : ∀ a b, CacheEvent.call a ∈ events → CacheEvent.call b ∈ events →
      AgreeOnBge a.service b.service)
    {done rest : List (CacheEvent codec)} {c : QueryCall codec}
    (hevents : events = done ++ .call c :: rest) {pair : ε × Text}
    (h : (embedQuery digest db embed c (done.foldl (CacheEvent.apply digest db embed)
      fun _ => none)).1 = .ok pair) : Given embed c pair := by
  subst hevents
  have hempty : WrittenBy digest embed (fun a => CacheEvent.call a ∈ done)
      (fun _ => none : QueryCache ρ) := fun _ _ hentry => (nomatch hentry)
  refine given_of_embedQuery hdigest (writtenBy_run hempty fun _ ha => ha) (fun a ha => ?_) h
  exact hagree a c (List.mem_append_left _ ha) (List.mem_append_right _ (List.mem_cons_self ..))

end

/-! Two instances with bge. -/

/-- Entries kept as they are. -/
def plainCodec : EntryCodec (List ℚ) (Option (List ℚ × Text)) where
  dumps := some
  loads := id
  loads_dumps _ := rfl

/-- A provider that gives ones for every text. -/
def ones (_ : Space) (dimension : ℤ) (_ : Text) : List ℚ := List.replicate dimension.toNat 1

/-- A query to an instance with bge at this `BGE_EMBEDDING_DIMENSIONS`. -/
def gasQuery (bgeDimensions : ℤ) (now : ℤ) : QueryCall plainCodec where
  service := ⟨.bge, 768, bgeDimensions, 3600, true⟩
  query := "giá gas"
  now := now
  availability _ := .up
  read := .stored
  writeFails := false

/-- The second of two instances with the same settings reads the first one's vector. -/
theorem query_cache_consistent_hit :
    Given ones (gasQuery 2 1) ([1, 1], "match_documents_bge") := by
  have hevents : [CacheEvent.call (gasQuery 2 0), .call (gasQuery 2 1)] =
      [.call (gasQuery 2 0)] ++ .call (gasQuery 2 1) :: [] := rfl
  apply @query_cache_consistent _ _ _ _ Vietnamese.database _ Function.injective_id _ ?_ _ _ _
    hevents _ (by decide)
  intro a b ha hb
  simp only [List.mem_cons, List.not_mem_nil, or_false, CacheEvent.call.injEq] at ha hb
  rcases ha with rfl | rfl <;> rcases hb with rfl | rfl <;> exact fun _ _ _ => rfl

/-- The key has `EMBEDDING_DIMENSIONS` in it, also for bge: a cached vector of two components comes
back where bge gives three. -/
theorem cached_dimension_differs :
    ¬ ∀ (events done rest : List (CacheEvent plainCodec)) (c : QueryCall plainCodec)
      (pair : List ℚ × Text), events = done ++ .call c :: rest →
      (embedQuery id Vietnamese.database ones c
        (done.foldl (CacheEvent.apply id Vietnamese.database ones) fun _ => none)).1 = .ok pair →
      ∃ space, pair = (ones space (c.service.dimension space) c.query, matchDocuments space) := by
  intro h
  obtain ⟨space, hpair⟩ := h [.call (gasQuery 2 0), .call (gasQuery 3 1)]
    [.call (gasQuery 2 0)] [] (gasQuery 3 1) ([1, 1], "match_documents_bge") rfl (by decide)
  cases space <;> revert hpair <;> decide

end Qiki.Knowledge
