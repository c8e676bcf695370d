import Mathlib.Data.List.Basic

/-! `FallbackLLMProvider`: providers that are tried in order. -/
namespace Qiki.Llm

/-- The classes of `llm/exceptions.py`, and every other exception. -/
inductive ErrorClass
  | provider | connection | timeout | rateLimit | invalidRequest | quotaExceeded | parsing | other
  deriving DecidableEq, Repr

structure Error where
  cls : ErrorClass
  message : String
  deriving DecidableEq, Repr

/-- `isinstance`: the classes of the module derive from `LLMProviderError`. -/
def Error.isInstance (e : Error) (cls : ErrorClass) : Bool :=
  e.cls = cls || (cls = .provider && e.cls ≠ .other)

/-- `LLMStreamChunk` -/
structure Chunk where
  delta : String
  finishReason : Option String := none
  accumulatedText : String
  provider : Option String := none
  model : Option String := none
  totalTokens : Option ℕ := none
  deriving DecidableEq, Repr

/-- What an asynchronous iterator gives: some items, then its end or an error. -/
inductive Play (ε χ : Type)
  | finished
  | failed (e : ε)
  | item (c : χ) (rest : Play ε χ)
  deriving DecidableEq, Repr

def Play.map {ε χ χ' : Type} (f : χ → χ') : Play ε χ → Play ε χ'
  | finished => finished
  | failed e => failed e
  | item c rest => item (f c) (rest.map f)

/-- A provider, with what its two methods do for the request at hand. -/
structure Provider (ρ : Type) where
  name : String
  model : String
  generate : Except Error ρ
  stream : Play Error Chunk

/-- `value or default` of an optional text. -/
def orText (value : Option String) (default : String) : String :=
  match value with
  | some text => if text = "" then default else text
  | none => default

/-- A chunk, attributed to the provider that served it. -/
def Provider.attribute {ρ : Type} (provider : Provider ρ) (chunk : Chunk) : Chunk :=
  { chunk with
    provider := some (orText chunk.provider provider.name)
    model := some (orText chunk.model provider.model) }

/-- `FALLBACK_ERRORS` -/
def fallbackErrors : List ErrorClass := [.quotaExceeded, .rateLimit]

/-- The constructor refuses an empty list. -/
structure FallbackLLMProvider (ρ : Type) where
  providers : List (Provider ρ)
  nonempty : providers ≠ []
  extraFallbackErrors : List ErrorClass := []

section
variable {ρ : Type}

/-- `except self._fallback_errors` -/
def FallbackLLMProvider.fallsBack (f : FallbackLLMProvider ρ) (e : Error) : Bool :=
  (fallbackErrors ++ f.extraFallbackErrors).any e.isInstance

def noError (method : String) : Error :=
  ⟨.other, "Fallback provider" ++ method ++ " failed without an error"⟩

variable (fallsBack : Error → Bool)

/-- The loop of `generate` over the providers that are left. -/
def generateFrom : Option Error → List (Provider ρ) → Except Error ρ
  | lastError, [] => .error (lastError.getD (noError ""))
  | _, provider :: providers =>
    match provider.generate with
    | .ok response => .ok response
    | .error e => if fallsBack e then generateFrom (some e) providers else .error e

/-- The inner loop of `stream`: the chunks of one provider, until it ends or fails. -/
def relay (provider : Provider ρ) (next : Error → Play Error Chunk) :
    Bool → Play Error Chunk → Play Error Chunk
  | _, .finished => .finished
  | yielded, .failed e => if fallsBack e then (if yielded then .failed e else next e) else .failed e
  | _, .item chunk rest => .item (provider.attribute chunk) (relay provider next true rest)

/-- The loop of `stream` over the providers that are left. -/
def streamFrom : Option Error → List (Provider ρ) → Play Error Chunk
  | lastError, [] => .failed (lastError.getD (noError " stream"))
  | _, provider :: providers =>
    relay fallsBack provider (fun e => streamFrom (some e) providers) false provider.stream

end

section
variable {ρ : Type}

def FallbackLLMProvider.generate (f : FallbackLLMProvider ρ) : Except Error ρ :=
  generateFrom f.fallsBack none f.providers

def FallbackLLMProvider.stream (f : FallbackLLMProvider ρ) : Play Error Chunk :=
  streamFrom f.fallsBack none f.providers

variable {fallsBack : Error → Bool} {provider : Provider ρ} {lastError : Option Error}

/-- The provider fails with a fallback error before its first chunk. -/
def FailsFirst (fallsBack : Error → Bool) (provider : Provider ρ) (e : Error) : Prop :=
  provider.stream = .failed e ∧ fallsBack e = true

/-- `generate` fails with a fallback error exactly when, and as, the stream does before its first
chunk. -/
def FailsAlike (fallsBack : Error → Bool) (provider : Provider ρ) : Prop :=
  ∀ e, fallsBack e = true → (provider.generate = .error e ↔ provider.stream = .failed e)

/-- From the first chunk on the stream of the provider is passed on to its end. -/
theorem relay_yielded (next : Error → Play Error Chunk) (play : Play Error Chunk) :
    relay fallsBack provider next true play = play.map provider.attribute := by
  induction play with
  | finished => rfl
  | failed e =>
    rw [relay, Play.map, if_pos rfl]
    split_ifs <;> rfl
  | item chunk rest ih => rw [relay, Play.map, ih]

theorem streamFrom_fails {e : Error} (h : FailsFirst fallsBack provider e)
    (providers : List (Provider ρ)) : streamFrom fallsBack lastError (provider :: providers) =
      streamFrom fallsBack (some e) providers := by
  rw [streamFrom, h.1, relay, if_pos h.2]
  rfl

theorem streamFrom_serves (h : ¬ ∃ e, FailsFirst fallsBack provider e)
    (providers : List (Provider ρ)) : streamFrom fallsBack lastError (provider :: providers) =
      provider.stream.map provider.attribute := by
  rw [streamFrom]
  cases hstream : provider.stream with
  | finished => rfl
  | failed e =>
    have hother : ¬ fallsBack e = true := fun hfalls => h ⟨e, hstream, hfalls⟩
    rw [relay, if_neg hother, Play.map]
  | item chunk rest => rw [relay, relay_yielded, Play.map]

theorem generateFrom_fails {e : Error} (halike : FailsAlike fallsBack provider)
    (h : FailsFirst fallsBack provider e) (providers : List (Provider ρ)) :
    generateFrom fallsBack lastError (provider :: providers) =
      generateFrom fallsBack (some e) providers := by
  rw [generateFrom, (halike e h.2).mpr h.1]
  exact if_pos h.2

theorem generateFrom_serves (halike : FailsAlike fallsBack provider)
    (h : ¬ ∃ e, FailsFirst fallsBack provider e) (providers : List (Provider ρ)) :
    generateFrom fallsBack lastError (provider :: providers) = provider.generate := by
  rw [generateFrom]
  cases hgenerate : provider.generate with
  | ok response => rfl
  | error e =>
    have hother : ¬ fallsBack e = true := fun hfalls =>
      h ⟨e, (halike e hfalls).mp hgenerate, hfalls⟩
    exact if_neg hother

/-- The provider that serves is the first one that does not fail first, and what it does is what the
caller sees. -/
def Served (fallsBack : Error → Bool) (providers : List (Provider ρ)) (stream : Play Error Chunk)
    (generate : Except Error ρ) : Prop :=
  ∃ before provider after, providers = before ++ provider :: after ∧
    (∀ p ∈ before, ∃ e, FailsFirst fallsBack p e) ∧ (¬ ∃ e, FailsFirst fallsBack provider e) ∧
    stream = provider.stream.map provider.attribute ∧
    ((∀ p ∈ providers, FailsAlike fallsBack p) → generate = provider.generate)

/-- All providers fail first, and the caller sees the error of the last one. -/
def Exhausted (fallsBack : Error → Bool) (providers : List (Provider ρ)) (stream : Play Error Chunk)
    (generate : Except Error ρ) : Prop :=
  ∃ front last e, providers = front ++ [last] ∧
    (∀ p ∈ providers, ∃ e, FailsFirst fallsBack p e) ∧ FailsFirst fallsBack last e ∧
    stream = .failed e ∧ ((∀ p ∈ providers, FailsAlike fallsBack p) → generate = .error e)

/-- A provider that fails first is passed over. -/
theorem served_cons {e : Error} (h : FailsFirst fallsBack provider e) {providers : List (Provider ρ)}
    (hrest : Served fallsBack providers (streamFrom fallsBack (some e) providers)
      (generateFrom fallsBack (some e) providers)) :
    Served fallsBack (provider :: providers)
      (streamFrom fallsBack lastError (provider :: providers))
      (generateFrom fallsBack lastError (provider :: providers)) := by
  obtain ⟨before, p, after, hsplit, hbefore, hserves, hstream, hgenerate⟩ := hrest
  refine ⟨provider :: before, p, after, by rw [hsplit, List.cons_append], ?_, hserves, ?_, ?_⟩
  · exact List.forall_mem_cons.mpr ⟨⟨e, h⟩, hbefore⟩
  · rw [streamFrom_fails h, hstream]
  · intro halike
    obtain ⟨hfirst, hothers⟩ := List.forall_mem_cons.mp halike
    rw [generateFrom_fails hfirst h, hgenerate hothers]

theorem exhausted_cons {e : Error} (h : FailsFirst fallsBack provider e)
    {providers : List (Provider ρ)}
    (hrest : Exhausted fallsBack providers (streamFrom fallsBack (some e) providers)
      (generateFrom fallsBack (some e) providers)) :
    Exhausted fallsBack (provider :: providers)
      (streamFrom fallsBack lastError (provider :: providers))
      (generateFrom fallsBack lastError (provider :: providers)) := by
  obtain ⟨front, last, e', hsplit, hfail, hlast, hstream, hgenerate⟩ := hrest
  refine ⟨provider :: front, last, e', by rw [hsplit, List.cons_append], ?_, hlast, ?_, ?_⟩
  · exact List.forall_mem_cons.mpr ⟨⟨e, h⟩, hfail⟩
  · rw [streamFrom_fails h, hstream]
  · intro halike
    obtain ⟨hfirst, hothers⟩ := List.forall_mem_cons.mp halike
    rw [generateFrom_fails hfirst h, hgenerate hothers]

theorem served_or_exhausted (lastError : Option Error) (provider : Provider ρ)
    (providers : List (Provider ρ)) :
    Served fallsBack (provider :: providers) (streamFrom fallsBack lastError (provider :: providers))
        (generateFrom fallsBack lastError (provider :: providers)) ∨
      Exhausted fallsBack (provider :: providers)
        (streamFrom fallsBack lastError (provider :: providers))
        (generateFrom fallsBack lastError (provider :: providers)) := by
  induction providers generalizing provider lastError with
  | nil =>
    by_cases h : ∃ e, FailsFirst fallsBack provider e
    · obtain ⟨e, he⟩ := h
      right
      refine ⟨[], provider, e, rfl, List.forall_mem_singleton.mpr ⟨e, he⟩, he, ?_, ?_⟩
      · rw [streamFrom_fails he]
        rfl
      · intro halike
        rw [generateFrom_fails (halike provider List.mem_cons_self) he]
        rfl
    · left
      exact ⟨[], provider, [], rfl, List.forall_mem_nil _, h, streamFrom_serves h [],
        fun halike => generateFrom_serves (halike provider List.mem_cons_self) h []⟩
  | cons next providers ih =>
    by_cases h : ∃ e, FailsFirst fallsBack provider e
    · obtain ⟨e, he⟩ := h
      rcases ih (some e) next with hserved | hexhausted
      · exact Or.inl (served_cons he hserved)
      · exact Or.inr (exhausted_cons he hexhausted)
    · left
      exact ⟨[], provider, next :: providers, rfl, List.forall_mem_nil _, h, streamFrom_serves h _,
        fun halike => generateFrom_serves (halike provider List.mem_cons_self) h _⟩

/-- The stream is, chunk by chunk and to its end or error, that of the first provider that does not
fail with a fallback error before its first chunk; when they all do, the last error is raised.
`generate` comes from the same provider, or raises the same error, where it fails alike. -/
theorem fallback_serves_one (f : FallbackLLMProvider ρ) :
    Served f.fallsBack f.providers f.stream f.generate ∨
      Exhausted f.fallsBack f.providers f.stream f.generate := by
  obtain ⟨provider, providers, hproviders⟩ := List.exists_cons_of_ne_nil f.nonempty
  have h := @served_or_exhausted ρ f.fallsBack none provider providers
  rw [← hproviders] at h
  exact h

/-- A provider over its quota and one that answers, then loses the connection. -/
example : (@FallbackLLMProvider.stream String {
    providers := [
      ⟨"gemini", "flash", .error ⟨.quotaExceeded, ""⟩, .failed ⟨.quotaExceeded, ""⟩⟩,
      ⟨"groq", "llama", .ok "a", .item { delta := "a", accumulatedText := "a" }
        (.failed ⟨.rateLimit, ""⟩)⟩,
      ⟨"ollama", "qwen", .ok "b", .finished⟩]
    nonempty := List.cons_ne_nil _ _ }) =
    .item { delta := "a", accumulatedText := "a", provider := some "groq", model := some "llama" }
      (.failed ⟨.rateLimit, ""⟩) := by decide

end

end Qiki.Llm
