import AgentSystem.ConsensusRegistry
import AgentSystem.JsonCompact

/-!
# The policy gate

`UnifiedPolicyGate`: the scope check of a request, the hash of its payload, the certificate that the
gate consults for an action that needs consensus, and the decision that goes to the audit ledger.
-/
namespace AgentSystem.PolicyGate

open Json Sha256 Audit Consensus

inductive PolicyAction
  | ultraMode
  | browserUse
  | computerUse
  | safetyScan
  | externalApi
  | fileMutation
  | toolExecution
  deriving DecidableEq

def PolicyAction.value : PolicyAction → String
  | ultraMode => "ultra_mode"
  | browserUse => "browser_use"
  | computerUse => "computer_use"
  | safetyScan => "safety_scan"
  | externalApi => "external_api"
  | fileMutation => "file_mutation"
  | toolExecution => "tool_execution"

inductive PolicyScope
  | workspace
  | session
  | tenant
  deriving DecidableEq

def PolicyScope.value : PolicyScope → String
  | workspace => "workspace"
  | session => "session"
  | tenant => "tenant"

def consensusRequiredActions : List PolicyAction :=
  [.ultraMode, .browserUse, .computerUse, .externalApi]

/-- What a role must not do. -/
structure RoleRule where
  readOnly : Bool := false
  forbiddenPrefixes : List String := []
  description : String

def roleScopeRestrictions : List (String × RoleRule) :=
  [("UI_UX_AGENT",
    { forbiddenPrefixes := ["agent_workspace/", "spec/", "migrations/"]
      description := "UI_UX_AGENT is strictly prohibited from modifying backend or spec files" }),
   ("BACKEND_INFRA_AGENT",
    { forbiddenPrefixes := ["viewer/"]
      description :=
        "BACKEND_INFRA_AGENT is strictly prohibited from modifying presentation UI files" }),
   ("DOMAIN_LOGIC_AGENT",
    { forbiddenPrefixes := ["viewer/"]
      description :=
        "DOMAIN_LOGIC_AGENT must remain framework-agnostic and cannot touch presentation UI" }),
   ("SECURITY_AUDIT_AGENT",
    { readOnly := true
      description := "SECURITY_AUDIT_AGENT is a read-only review authority" }),
   ("ARCHITECT_PLANNER_AGENT",
    { readOnly := true
      description :=
        "ARCHITECT_PLANNER_AGENT is an advisory specialist and cannot mutate code directly" }),
   ("QA_TEST_AGENT",
    { readOnly := true
      description :=
        "QA_TEST_AGENT is a verification authority and cannot mutate production code" }),
   ("PERFORMANCE_LATENCY_AGENT",
    { readOnly := true
      description :=
        "PERFORMANCE_LATENCY_AGENT is a benchmarking authority and cannot mutate code" }),
   ("APPLICATION_FLOW_AGENT",
    { forbiddenPrefixes := ["viewer/", "migrations/"]
      description := "APPLICATION_FLOW_AGENT manages workflows and cannot mutate presentation UI " ++
        "or migrations" }),
   ("INTEGRATION_MERGE_AGENT",
    { description := "INTEGRATION_MERGE_AGENT handles PR and branch integration" }),
   ("KNOWLEDGE_TOPOLOGY_AGENT",
    { forbiddenPrefixes := ["agent_workspace/core/", "viewer/"]
      description := "KNOWLEDGE_TOPOLOGY_AGENT maintains documentation and topology notes" })]

/-- `^[0-9a-f]{64}$`. -/
def isPayloadHash (s : String) : Bool :=
  s.toList.length = 64 && s.toList.all fun c => c.isDigit || ('a' ≤ c && c ≤ 'f')

structure PolicyGateRequest (D : Type) where
  action : PolicyAction
  scope : PolicyScope
  sessionId : String
  tenantId : String := "default_tenant"
  actor : String := "system"
  resource : Option String := none
  payloadHash : Option String := none
  consensusCertificate : Option (List (String × PyValue D)) := none
  metadata : List (String × PyValue D) := []
  sessionId_nonempty : sessionId ≠ ""
  payloadHash_pattern : ∀ hash ∈ payloadHash, isPayloadHash hash = true
  metadata_nodup : (metadata.map Prod.fst).Nodup

structure PolicyGateDecision where
  allowed : Bool
  action : PolicyAction
  scope : PolicyScope
  reason : PyStr
  requiredGuard : String
  payloadHash : String
  auditEventId : ℤ

/-- What `urlparse` returns. -/
structure ParseResult where
  scheme : String
  netloc : String
  username : Option String := none
  password : Option String := none

/-- The libraries below the gate: the search for a regular expression in any case, `urlparse`, the
resolved path of a resource relative to the workspace, and the JSON mode of `model_dump` for the
metadata. The outer `none` is an exception; a path outside the workspace is `some none`. -/
structure Platform (D : Type) where
  search : String → PyStr → Bool
  urlparse : String → Option ParseResult
  relative : String → Option (Option String)
  jsonMode : PyValue D → Option (PyValue D)

/-! ## The scope check -/

def destructiveCommandPatterns : List String :=
  ["\\bgit\\s+push\\s+.*(-f\\b|--force\\b)",
   "\\bgit\\s+reset\\s+.*--hard\\b",
   "\\bgit\\s+clean\\s+.*(-[a-z]*f|--force\\b)",
   "\\bgit\\s+branch\\s+.*(-[dD]\\b|--delete\\s+--force\\b)",
   "\\bgit\\s+checkout\\s+.*(-f\\b|--force\\b)",
   "\\brm\\s+-[rf]\x7b1,2\x7d\\s+(/|[a-z]:\\\\|~)",
   "\\brmdir\\s+/s\\s+/q\\s+([a-z]:\\\\|/)",
   "\\bformat\\s+[a-z]:",
   "\\bRemove-Item\\s+.*(-r|-recurse)\\b.*(-f|-force)\\b",
   "\\bRemove-Item\\s+.*(-f|-force)\\b.*(-r|-recurse)\\b",
   "\\bdel\\s+.*(/[sfq]|/q|/f)\\b.*([a-z]:\\\\|/)",
   "\\b(curl|wget|iwr)\\s+.*\\|\\s*(ba|z)?sh\\b",
   "\\bInvoke-Expression\\s+.*(Invoke-WebRequest|iwr|curl|wget)"]

def contains (text : PyStr) (part : String) : Bool := decide (toPyStr part <:+: text)

/-- `SkillsPrechecker.check_seven_anti_corruption`. -/
def checkSevenAntiCorruption (codeText : PyStr) : List String :=
  (if contains codeText "except:" then
    ["Anti-Corruption #4: Bare 'except:' detected. Typed failures only; catch specific exception " ++
      "classes."] else []) ++
  (if contains codeText "catch (e) \x7b\x7d" || contains codeText "catch (error) \x7b\x7d" then
    ["Anti-Corruption #4: Empty catch block detected. Silently swallowing exceptions is " ++
      "prohibited."] else []) ++
  (if contains codeText "except Exception:\n            pass" ||
      contains codeText "except Exception:\n        pass" then
    ["Anti-Corruption #4: Swallowed Exception with 'pass' detected. Map to typed ErrorCode."]
    else [])

variable {D : Type}

/-- `bool(value)`. -/
def truthy [Doubles D] : PyValue D → Bool
  | .none => false
  | .bool b => b
  | .int n => n != 0
  | .float (.finite x) =>
      (Doubles.literal x).text != ['0', '.', '0'] && (Doubles.literal x).text != ['-', '0', '.', '0']
  | .float _ => true
  | .str s => !s.isEmpty
  | .list items => !items.isEmpty
  | .dict items => !items.isEmpty

/-- `value or other`. -/
def orElse [Doubles D] (value other : PyValue D) : PyValue D := if truthy value then value else other

def optionValue : Option String → PyValue D
  | none => .none
  | some s => strValue s

namespace PolicyGateRequest

variable (request : PolicyGateRequest D)

/-- `request.metadata.get(key)`. -/
def get (key : String) : PyValue D := (PySequence.getItem request.metadata key).getD .none

section Scope

variable [Interpreter D] [Coercion D] (platform : Platform D)

def commandError : Option PyStr :=
  match orElse (request.get "command") (request.get "cmd") with
  | .str command =>
      if command ≠ [] ∧ destructiveCommandPatterns.any (platform.search · command) then
        some (toPyStr "Destructive shell command rejected by PolicyGate: '" ++ command ++
          toPyStr "'")
      else none
  | _ => none

/-- The error of a file with code, `none` when the text of its name cannot be built. -/
def contentError : Option (Option PyStr) :=
  match request.get "content" with
  | .str content =>
      let targetFile := orElse (orElse (optionValue request.resource) (request.get "target_file"))
        (request.get "file_path")
      if content ≠ [] ∧ truthy targetFile then
        (formatValue targetFile).map fun name =>
          if [".py", ".ts", ".js"].any fun suffix => decide (toPyStr suffix <:+ name) then
            (checkSevenAntiCorruption content).head?.map fun violation =>
              toPyStr ("Anti-Corruption violation rejected by PolicyGate: " ++ violation)
          else none
      else some none
  | _ => some none

/-- The error of a role at a path, `none` when its name cannot be a key. -/
def roleError (rel : String) : Option (Option PyStr) :=
  let actor := if decide ("AGENT".toList <:+: request.actor.toList) then strValue request.actor
    else .none
  let relStr := rel.map fun c => if c = '\\' then '/' else c
  match orElse (request.get "role") actor with
  | .list _ => none
  | .dict _ => none
  | .str name =>
      match roleScopeRestrictions.find? fun rule => name = toPyStr rule.1 with
      | none => some none
      | some (role, rule) =>
          if rule.readOnly && truthy (request.get "is_write") then
            some (some (toPyStr ("Role " ++ role ++ " is read-only: " ++ rule.description)))
          else
            some <| (rule.forbiddenPrefixes.find? fun forbidden =>
                forbidden.toList.isPrefixOf relStr.toList).map fun _ =>
              toPyStr ("Boundary violation: " ++ rule.description ++ " (attempted: " ++ relStr ++ ")")
  | _ => some none

def resourceError : Option (Option PyStr) :=
  match request.resource with
  | none => some none
  | some resource =>
      if resource = "" then some none
      else
        match platform.urlparse resource with
        | none => none
        | some parsed =>
            if (parsed.scheme = "http" ∨ parsed.scheme = "https") ∧ parsed.netloc ≠ "" then
              if request.action ≠ .externalApi then
                some (some (toPyStr "URL resources are only allowed for external API actions"))
              else if parsed.scheme ≠ "https" then
                some (some (toPyStr "external API resources require https"))
              else if parsed.username.getD "" ≠ "" ∨ parsed.password.getD "" ≠ "" then
                some (some (toPyStr "external API resources must not embed credentials"))
              else some none
            else
              match platform.relative resource with
              | none => none
              | some none => some (some (toPyStr "resource outside workspace scope"))
              | some (some rel) => request.roleError rel

/-- `_validate_scope`, `none` when it raises. -/
def validateScope : Option (Option PyStr) :=
  if request.scope = .tenant ∧ request.tenantId = "" then
    some (some (toPyStr "tenant scope requires tenant_id"))
  else if request.scope = .session ∧ request.sessionId = "" then
    some (some (toPyStr "session scope requires session_id"))
  else
    match request.commandError platform, request.contentError with
    | some error, _ => some (some error)
    | none, none => none
    | none, some (some error) => some (some error)
    | none, some none => request.resourceError platform

end Scope

/-! ## The payload -/

/-- What `model_dump` leaves of the request. -/
def payload (platform : Platform D) : Option (PyValue D) :=
  (platform.jsonMode (dictValue request.metadata)).map fun metadata =>
    dictValue
      [("action", strValue request.action.value),
       ("scope", strValue request.scope.value),
       ("session_id", strValue request.sessionId),
       ("tenant_id", strValue request.tenantId),
       ("actor", strValue request.actor),
       ("resource", optionValue request.resource),
       ("metadata", metadata)]

variable [Interpreter D]

/-- `serialized` of `payload_hash_for`. -/
def serialized (platform : Platform D) : Option String :=
  ((request.payload platform).bind compact).map String.ofList

/-- `payload_hash_for`, `none` when it raises. -/
def payloadHashFor (platform : Platform D) : Option String :=
  (request.serialized platform).map hexdigest

/-- The hash that the gate decides about. -/
def effectiveHash (platform : Platform D) : Option String :=
  request.payloadHash <|> request.payloadHashFor platform

end PolicyGateRequest

/-! ## The gate -/

variable [Interpreter D] [Coercion D]

/-- `_has_valid_consensus`. -/
def hasValidConsensus (secrets : Secrets) (w : Swarm D) (request : PolicyGateRequest D)
    (payloadHash : String) : Swarm D × Bool :=
  match request.consensusCertificate with
  | some certificate =>
      if isText (PySequence.getItem certificate "payload_hash") payloadHash then
        let (session, valid) :=
          verifyConsensusCertificate secrets w.session (dictValue certificate)
        ({ w with session := session }, valid)
      else (w, false)
  | none => w.isConsensusApproved secrets (toPyStr payloadHash)

/-- The state of the swarm with its registry, and the audit ledger of the workspace. -/
structure Gate (D : Type) where
  swarm : Swarm D := {}
  audit : Ledger := .empty

namespace Gate

/-- `_record_decision` and the decision about it, `none` when the ledger raises. -/
def recordDecision (g : Gate D) (request : PolicyGateRequest D) (allowed : Bool) (reason : PyStr)
    (requiredGuard payloadHash timestamp : String) : Gate D × Option PolicyGateDecision :=
  let event : PyValue D := dictValue
    [("action", strValue request.action.value),
     ("scope", strValue request.scope.value),
     ("session_id", strValue request.sessionId),
     ("actor", strValue request.actor),
     ("resource", optionValue request.resource),
     ("allowed", .bool allowed),
     ("reason", .str reason),
     ("required_guard", strValue requiredGuard),
     ("payload_hash", strValue payloadHash),
     ("metadata_keys",
      .list (((request.metadata.map Prod.fst).insertionSort (· ≤ ·)).map strValue))]
  match g.audit.recordEvent "policy_gate_decision" event request.tenantId timestamp with
  | .error _ => (g, none)
  | .ok (audit, eventId) =>
      ({ g with audit := audit },
        some
          { allowed := allowed
            action := request.action
            scope := request.scope
            reason := reason
            requiredGuard := requiredGuard
            payloadHash := payloadHash
            auditEventId := eventId })

/-- `evaluate` at a time of the clock, `none` when it raises. -/
def evaluate (platform : Platform D) (secrets : Secrets) (g : Gate D)
    (request : PolicyGateRequest D) (timestamp : String) : Gate D × Option PolicyGateDecision :=
  match request.effectiveHash platform with
  | none => (g, none)
  | some payloadHash =>
      match request.validateScope platform with
      | none => (g, none)
      | some (some scopeError) =>
          g.recordDecision request false scopeError "scope_guard" payloadHash timestamp
      | some none =>
          if request.action ∈ consensusRequiredActions then
            let (swarm, valid) := hasValidConsensus secrets g.swarm request payloadHash
            { g with swarm := swarm }.recordDecision request valid
              (toPyStr (if valid then "proof of consensus accepted"
                else "proof of consensus required"))
              "proof_of_consensus" payloadHash timestamp
          else
            g.recordDecision request true (toPyStr "audit-only policy accepted") "audit_only"
              payloadHash timestamp

end Gate

end AgentSystem.PolicyGate
