import AgentSystem.ProviderFailover

/-!
# What a failover returns

An error that a provider returns is handed to the fallback, an exception with the same message is lost
in a name that is no longer bound. A stream changes over to the fallback before its first event only.
-/
namespace AgentSystem.Providers

namespace Environment

variable {π ξ : Type} (env : Environment π ξ) (self : Provider π ξ) (prompt : π) (config : Config ξ)

/-- The fallback for a message is asked, and it returns this response. -/
def FallbackReturns (message : String) (response : ProviderResponse) : Prop :=
  ∃ provider fallbackConfig,
    env.fallback config self.label message = .ok (some (provider, fallbackConfig)) ∧
      provider.complete prompt fallbackConfig = .returned response ∧ provider.aclose = none

/-- The message is transient, and some account can be the fallback. -/
def FailsOver (message : String) : Prop :=
  env.transientFailure message = true ∧ env.fallbackAccount.isSome = true

/-- What a failure with this message and this error result leads to. -/
def Recovers (message : String) (result : ProviderResponse) : Prop :=
  (env.FailsOver message → ∃ response, env.FallbackReturns self prompt config message response ∧
      env.generateContent self prompt config = .returned response) ∧
    (¬ env.FailsOver message → env.generateContent self prompt config = .returned result)

/-- Errors and exceptions are handled in one way; a cancellation is excepted. -/
def Uniform : Prop :=
  match self.complete prompt config with
  | .returned response =>
      if response.responseType ≠ "error" then
        env.generateContent self prompt config = .returned response
      else env.Recovers self prompt config response.data.str response
  | .raised exception =>
      env.Recovers self prompt config exception.message (.error exception.message)
  | .cancelled => True

/-- The provider raises nothing, and a fallback that is asked returns a response. -/
def Returns : Prop :=
  match self.complete prompt config with
  | .returned response =>
      response.responseType = "error" → env.FailsOver response.data.str →
        ∃ fallback, env.FallbackReturns self prompt config response.data.str fallback
  | .raised _ => False
  | .cancelled => True

variable {env self prompt config}

/-- Without an account there is no fallback. -/
lemma fallback_none {label message : String} (h : env.fallbackAccount.isSome ≠ true) :
    env.fallback config label message = .ok none := by
  rw [fallback, Option.not_isSome_iff_eq_none.mp h]

lemma recover_not_failsOver {message : String} {result : ProviderResponse}
    (h : ¬ env.FailsOver message) :
    env.recover self prompt config result (some message) = .returned result := by
  rw [recover]
  split_ifs with htransient
  · rfl
  · rw [fallback_none fun hsome => h ⟨by simpa using htransient, hsome⟩]

lemma recover_fallback {message : String} {result response : ProviderResponse}
    (h : env.FailsOver message) (hfallback : env.FallbackReturns self prompt config message response) :
    env.recover self prompt config result (some message) = .returned response := by
  obtain ⟨provider, fallbackConfig, hprovider, hcomplete, hclose⟩ := hfallback
  rw [recover, if_neg (by simp [h.1]), hprovider]
  simp [hcomplete, hclose, closed]

/-- A completion is uniform exactly where nothing is raised. -/
lemma uniform_iff : env.Uniform self prompt config ↔ env.Returns self prompt config := by
  rw [Uniform, Returns]
  cases hcomplete : self.complete prompt config with
  | cancelled => exact Iff.rfl
  | raised exception =>
      have hraised : ∀ response, env.generateContent self prompt config ≠ .returned response := by
        intro response
        rw [generateContent, hcomplete]
        simp [recover]
      refine iff_of_false (fun h => ?_) id
      by_cases hover : env.FailsOver exception.message
      · obtain ⟨response, -, hreturned⟩ := h.1 hover
        exact hraised response hreturned
      · exact hraised _ (h.2 hover)
  | returned response =>
      by_cases herror : response.responseType = "error"
      · have hgenerate : env.generateContent self prompt config =
            env.recover self prompt config response (some response.data.str) := by
          rw [generateContent, hcomplete]
          exact if_neg (not_not.mpr herror)
        dsimp only
        rw [if_neg (not_not.mpr herror), Recovers, hgenerate]
        constructor
        · intro h _ hover
          obtain ⟨fallback, hfallback, -⟩ := h.1 hover
          exact ⟨fallback, hfallback⟩
        · intro h
          refine ⟨fun hover => ?_, recover_not_failsOver⟩
          obtain ⟨fallback, hfallback⟩ := h herror hover
          exact ⟨fallback, hfallback, recover_fallback hover hfallback⟩
      · dsimp only
        rw [if_pos herror, generateContent, hcomplete]
        exact iff_of_true (if_pos herror) fun h => absurd h herror

/-! ## Streams -/

/-- An exception that is caught before anything was emitted was not preceded by an event. -/
lemma relay_caught {ending : Outcome Unit} {emitted : Bool} {seen : Option Usage}
    {events yields : List ProviderResponse} {exception : PyException}
    (h : env.relay ending emitted seen events = (yields, .caught exception false)) :
    emitted = false ∧ yields = [] := by
  induction events generalizing emitted seen yields with
  | nil =>
      cases ending with
      | returned => cases h
      | cancelled => cases h
      | raised e =>
          cases h
          exact ⟨rfl, rfl⟩
  | cons event events ih =>
      rw [relay] at h
      split_ifs at h
      · cases h
      · cases h
        exact ⟨rfl, rfl⟩
      · obtain ⟨-, hexit⟩ := Prod.mk.inj h
        have hrest := ih (Prod.ext rfl hexit)
        cases hrest.1

/-- No event of the fallback comes after an event of the primary. -/
def Unmixed (run : StreamRun) : Prop :=
  ∀ before after, run.yields = before ++ after → (∃ event ∈ before, event.1 = .primary) →
    ∀ event ∈ after, event.1 ≠ .fallback

lemma unmixed_of_primary {run : StreamRun} (h : ∀ event ∈ run.yields, event.1 = .primary) :
    Unmixed run := by
  rintro before after hyields - event hevent heq
  have hprimary := h event (hyields ▸ List.mem_append_right _ hevent)
  rw [hprimary] at heq
  cases heq

lemma unmixed_of_fallback {run : StreamRun} (h : ∀ event ∈ run.yields, event.1 = .fallback) :
    Unmixed run := by
  rintro before after hyields ⟨event, hevent, hprimary⟩
  rw [h event (hyields ▸ List.mem_append_left _ hevent)] at hprimary
  cases hprimary

lemma fallbackRun_yields (stream : ProviderStream) (aclose : Option PyException) :
    ∀ event ∈ (fallbackRun stream aclose).yields, event.1 = .fallback := by
  intro event hevent
  have hevents : ∀ event ∈ stream.events.map fun event => (Source.fallback, event),
      event.1 = .fallback := by
    simp
  simp only [fallbackRun] at hevent
  split at hevent
  · exact hevents event hevent
  · exact hevents event hevent
  · rcases List.mem_append.mp hevent with hmem | hmem
    · exact hevents event hmem
    · rw [List.mem_singleton.mp hmem]

lemma generateContentStream_unmixed (env : Environment π ξ) (self : Provider π ξ) (prompt : π)
    (config : Config ξ) (cut : Option ℕ) :
    Unmixed (env.generateContentStream self prompt config cut) := by
  simp only [generateContentStream]
  generalize hrelay : env.relay _ false none _ = relayed
  obtain ⟨yields, exit⟩ := relayed
  have hyields : ∀ event ∈ yields.map fun event => (Source.primary, event),
      event.1 = .primary := by
    simp
  have herror : ∀ (message : String), ∀ event ∈ (yields.map fun event => (Source.primary, event)) ++
      [(Source.primary, ProviderResponse.error message)], event.1 = .primary := by
    intro message event hevent
    rcases List.mem_append.mp hevent with hmem | hmem
    · exact hyields event hmem
    · rw [List.mem_singleton.mp hmem]
  cases exit with
  | returned => exact unmixed_of_primary hyields
  | cancelled => exact unmixed_of_primary hyields
  | caught exception emitted =>
      cases emitted with
      | true => exact unmixed_of_primary (herror exception.message)
      | false =>
          obtain ⟨-, rfl⟩ := relay_caught hrelay
          dsimp only
          split_ifs
          · exact unmixed_of_primary (herror exception.message)
          · split
            · exact unmixed_of_primary hyields
            · exact unmixed_of_primary (herror exception.message)
            · rename_i provider fallbackConfig _
              exact unmixed_of_fallback
                (fallbackRun_yields (provider.stream prompt fallbackConfig) provider.aclose)

/-- When failures of a completion are handled uniformly, and that streams are not mixed. -/
theorem failover_uniform_iff (env : Environment π ξ) (self : Provider π ξ) (prompt : π)
    (config : Config ξ) :
    (env.Uniform self prompt config ↔ env.Returns self prompt config) ∧
      ∀ cut, Unmixed (env.generateContentStream self prompt config cut) :=
  ⟨uniform_iff, generateContentStream_unmixed env self prompt config⟩

/-! ## A reset connection -/

/-- A provider with one answer to everything. -/
def answering (label : String) (outcome : Outcome ProviderResponse) : Provider Unit Unit where
  label
  complete _ _ := outcome
  stream _ _ := ⟨[], .returned (), none⟩

/-- Two accounts, the second one with a provider that answers. -/
def sampleEnvironment : Environment Unit Unit where
  lower := id
  activeAccount := some { id := "first", provider := "openai", model := "m" }
  accounts := [{ id := "first", provider := "openai", model := "m" },
    { id := "second", provider := "ollama", model := "n" }]
  sessionTenant _ := none
  resolveApiKey _ := ""
  recordEvent _ := .ok ()
  getProvider _ _ _ := .ok (answering "OllamaProvider" (.returned ⟨"text", .text "Hello", some {}⟩))

/-- The provider raises where an error result with the same message is recovered. -/
theorem exception_not_recovered :
    sampleEnvironment.generateContent
        (answering "OpenAIProvider" (.returned (.error "connection reset"))) () { others := () } =
          .returned ⟨"text", .text "Hello", some {}⟩ ∧
      ¬ sampleEnvironment.Uniform
        (answering "OpenAIProvider" (.raised ⟨"ConnectionError", "connection reset", false⟩)) ()
          { others := () } :=
  ⟨by decide +kernel, uniform_iff.not.mpr id⟩

end Environment

end AgentSystem.Providers
