import Mathlib.Data.List.Infix
import Mathlib.Data.Int.Basic
import Mathlib.Data.Rat.Defs

/-!
# The failover of a model provider

`generate_content` and `generate_content_stream` for any provider, any accounts and any fallback
provider, with the tenant below its rate limit.
-/
namespace AgentSystem.Providers

/-- An exception other than a cancellation, with `str` of it. -/
structure PyException where
  name : String
  message : String
  isTimeoutError : Bool := false
  deriving DecidableEq

/-- What comes of a call. -/
inductive Outcome (α : Type)
  | returned (value : α)
  | raised (exception : PyException)
  | cancelled
  deriving DecidableEq

inductive ResponseData
  | text (content : String)
  | other (printed : String)
  deriving DecidableEq

def ResponseData.str : ResponseData → String
  | text content => content
  | other printed => printed

structure Usage where
  promptTokens : ℕ := 0
  completionTokens : ℕ := 0
  totalTokens : ℕ := 0
  deriving DecidableEq

/-- A `ProviderResponse`; a plain tuple has no usage. -/
structure ProviderResponse where
  responseType : String
  data : ResponseData
  usage : Option Usage := some {}
  deriving DecidableEq

def ProviderResponse.error (message : String) : ProviderResponse := ⟨"error", .text message, some {}⟩

/-- What an iteration over a stream yields, and how it and the close of the stream end. -/
structure ProviderStream where
  events : List ProviderResponse
  ending : Outcome Unit
  closing : Option PyException := none
  deriving DecidableEq

/-- The entries of a configuration that the failover reads or writes, and the others. -/
structure Config (ξ : Type) where
  sessionId : Option String := none
  model : Option String := none
  baseUrl : Option String := none
  others : ξ

/-- A provider asked with a prompt in `π`, the messages and the tools included. -/
structure Provider (π ξ : Type) where
  label : String
  complete : π → Config ξ → Outcome ProviderResponse
  stream : π → Config ξ → ProviderStream
  aclose : Option PyException := none

structure Account where
  id : String
  provider : String
  model : String
  baseUrl : Option String := none
  tokenBudget : ℤ := -1
  tokensUsed : ℤ := 0
  deriving DecidableEq

/-- The `sla_failover` event of the audit ledger. -/
structure FailoverEvent where
  tenantId : String
  originalAccountId : String
  originalProvider : String
  fallbackAccountId : String
  fallbackProvider : String
  fallbackModel : String
  markupMultiplier : ℚ := 9 / 5
  error : String
  deriving DecidableEq

/-- The account manager, the audit ledger and the provider factory, and `str.lower`. -/
structure Environment (π ξ : Type) where
  lower : String → String
  activeAccount : Option Account
  accounts : List Account
  sessionTenant : String → Option String
  resolveApiKey : Account → String
  recordEvent : FailoverEvent → Except PyException Unit
  getProvider : String → String → Option String → Except PyException (Provider π ξ)

namespace Environment

variable {π ξ : Type} (env : Environment π ξ)

/-- The markers of failures that stay. -/
def permanentMarkers : List String :=
  ["unauthorized", "forbidden", "authentication", "invalid api key", "subscription", "billing",
    "quota", "offline", "cancelled", "canceled"]

def transientMarkers : List String :=
  ["timeout", "timed out", "connection", "connection reset", "temporarily unavailable", "http 500",
    "http 502", "http 503", "http 504", "rate limit", "http 429"]

/-- `_transient_failure` of a value that prints so. -/
def transientFailure (printed : String) : Bool :=
  let text := (env.lower printed).toList
  if permanentMarkers.any fun marker => decide (marker.toList <:+: text) then false
  else transientMarkers.any fun marker => decide (marker.toList <:+: text)

/-- The first account that is not the active one and has tokens left. -/
def fallbackAccount : Option Account :=
  env.accounts.find? fun account =>
    env.activeAccount.all (fun active => account.id ≠ active.id) &&
      (account.tokenBudget = -1 || decide (account.tokensUsed < account.tokenBudget))

/-- `get` of a text that counts only where it is not empty. -/
def nonempty (text : Option String) : Option String := text.filter fun s => s ≠ ""

/-- `_fallback`; the registration of the failover, which nothing here reads, is left out. -/
def fallback (config : Config ξ) (label error : String) :
    Except PyException (Option (Provider π ξ × Config ξ)) :=
  match env.fallbackAccount with
  | none => .ok none
  | some account => do
      let tenant := nonempty (env.sessionTenant (config.sessionId.getD "default-session"))
      env.recordEvent
        { tenantId := tenant.getD "default_tenant"
          originalAccountId := (env.activeAccount.map Account.id).getD "unknown"
          originalProvider := label
          fallbackAccountId := account.id
          fallbackProvider := account.provider
          fallbackModel := account.model
          error }
      let provider ← env.getProvider account.provider (env.resolveApiKey account) account.baseUrl
      return some (provider, { config with
        model := some account.model
        baseUrl := (nonempty account.baseUrl).or config.baseUrl })

/-! ## A completion -/

/-- A local name that is read without a value. -/
def unboundLocalError (name : String) : PyException :=
  ⟨"UnboundLocalError", "local variable '" ++ name ++ "' referenced before assignment", false⟩

/-- The outcome of a call whose `finally` clause has closed the provider. -/
def closed {α : Type} (outcome : Outcome α) : Option PyException → Outcome α
  | none => outcome
  | some exception => .raised exception

/-- What follows a failed completion, with the value of the local `error` where it has one. -/
def recover (self : Provider π ξ) (prompt : π) (config : Config ξ) (result : ProviderResponse)
    (error : Option String) : Outcome ProviderResponse :=
  match error with
  | none => .raised (unboundLocalError "error")
  | some message =>
      if env.transientFailure message = false then .returned result
      else
        match env.fallback config self.label message with
        | .error exception => .raised exception
        | .ok none => .returned result
        | .ok (some (provider, fallbackConfig)) =>
            closed (provider.complete prompt fallbackConfig) provider.aclose

/-- `generate_content`. -/
def generateContent (self : Provider π ξ) (prompt : π) (config : Config ξ) :
    Outcome ProviderResponse :=
  match self.complete prompt config with
  | .returned response =>
      if response.responseType ≠ "error" then .returned response
      else env.recover self prompt config response (some response.data.str)
  | .cancelled => .cancelled
  -- the clause `except Exception as error` unbinds the name at its end
  | .raised exception => env.recover self prompt config (.error exception.message) none

/-! ## A stream -/

/-- `_iter_with_timeout`, where the timeout may strike after so many events. -/
def iterWithTimeout (stream : ProviderStream) (cut : Option ℕ) : ProviderStream :=
  let timeout : PyException := ⟨"ProviderStreamTimeoutError", "provider stream timeout", true⟩
  match cut.filter fun n => n ≤ stream.events.length with
  | some n => { stream with events := stream.events.take n, ending := .raised timeout }
  | none =>
      match stream.ending with
      | .raised exception =>
          if exception.isTimeoutError then { stream with ending := .raised timeout } else stream
      | _ => stream

/-- How the loop over the primary stream is left. -/
inductive Exit
  | returned
  | cancelled
  | caught (exception : PyException) (emitted : Bool)
  deriving DecidableEq

/-- An event without its usage where that was the last one seen, and the usage seen then. -/
def withoutSeenUsage (seen : Option Usage) (event : ProviderResponse) :
    ProviderResponse × Option Usage :=
  match event.usage with
  | none => (event, seen)
  | some usage =>
      if some usage = seen then (⟨event.responseType, event.data, some {}⟩, seen)
      else (event, some usage)

/-- The loop over the primary stream, with `emitted` and `seen_usage`. -/
def relay (ending : Outcome Unit) :
    Bool → Option Usage → List ProviderResponse → List ProviderResponse × Exit
  | emitted, _, [] =>
      match ending with
      | .returned () => ([], .returned)
      | .cancelled => ([], .cancelled)
      | .raised exception => ([], .caught exception emitted)
  | emitted, seen, event :: events =>
      if event.responseType = "error" then
        if emitted || !env.transientFailure event.data.str then ([event], .returned)
        else ([], .caught ⟨"ProviderTransientError", event.data.str, false⟩ emitted)
      else
        let (event, seen) := withoutSeenUsage seen event
        let (yields, exit) := relay ending true seen events
        (event :: yields, exit)

/-- Whose event is yielded. -/
inductive Source
  | primary
  | fallback
  deriving DecidableEq

/-- The events that a consumer gets, and how the iteration ends. -/
structure StreamRun where
  yields : List (Source × ProviderResponse)
  ending : Outcome Unit
  deriving DecidableEq

/-- The stream of the fallback, an exception being yielded as an error. -/
def fallbackRun (stream : ProviderStream) (aclose : Option PyException) : StreamRun :=
  let events := stream.events.map fun event => (Source.fallback, event)
  let run : StreamRun :=
    match stream.ending with
    | .returned () => ⟨events, .returned ()⟩
    | .cancelled => ⟨events, .cancelled⟩
    | .raised exception =>
        ⟨events ++ [(.fallback, .error exception.message)], .returned ()⟩
  { run with ending := closed (closed run.ending aclose) stream.closing }

/-- `generate_content_stream`. -/
def generateContentStream (self : Provider π ξ) (prompt : π) (config : Config ξ) (cut : Option ℕ) :
    StreamRun :=
  let stream := self.stream prompt config
  let source := iterWithTimeout stream cut
  let (yields, exit) := env.relay source.ending false none source.events
  let yielded := yields.map fun event => (Source.primary, event)
  let run : StreamRun :=
    match exit with
    | .returned => ⟨yielded, .returned ()⟩
    | .cancelled => ⟨yielded, .cancelled⟩
    | .caught exception emitted =>
        if emitted || !env.transientFailure exception.message then
          ⟨yielded ++ [(.primary, .error exception.message)], .returned ()⟩
        else
          match env.fallback config self.label exception.message with
          | .error exception => ⟨yielded, .raised exception⟩
          | .ok none => ⟨yielded ++ [(.primary, .error exception.message)], .returned ()⟩
          | .ok (some (provider, fallbackConfig)) =>
              let after := fallbackRun (provider.stream prompt fallbackConfig) provider.aclose
              ⟨yielded ++ after.yields, after.ending⟩
  { run with ending := closed run.ending stream.closing }

end Environment

end AgentSystem.Providers
