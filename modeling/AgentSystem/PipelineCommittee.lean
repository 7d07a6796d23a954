import AgentSystem.PipelineModels
import AgentSystem.Programs

/-!
# The committee and its debate

`CommitteeCoordinator` seats the members for a request, and `PipelineDebateProtocol` lets each of
them speak once a round, scores what they say and synthesizes a plan. A mesh may answer for a
member, remember precedents and replicate the turns; none of its exceptions goes further.
-/
namespace AgentSystem.Pipeline

open Programs

variable (text : TextTables)

/-! ## The members -/

def securityTriggers : List String :=
  ["auth", "security", "token", "secret", "credential", "crypto", "password", "sandbox",
   "policy_gate", "mtls", "cert", "audit_ledger", "vulnerability", "sanitize", "permission", "rbac",
   "signature"]

def architectTriggers : List String :=
  ["core", "models", "contracts", "interface", "protocol", "pipeline", "api.py", "database", "mesh",
   "p2p", "federation", "workflow"]

def frontendExtensions : List String := [".tsx", ".jsx", ".css", ".html"]

def frontendPaths : List String := ["viewer/", "frontend/", "ui/", "components/"]

/-- `\b` between two characters of a text. -/
def wordBoundary (before after : Option Char) : Bool :=
  before.any text.isWord != after.any text.isWord

/-- The word stands somewhere after this character, with a boundary on both sides. -/
def findWord (word : List Char) (before : Option Char) : List Char → Bool
  | [] => false
  | c :: rest =>
      (word.isPrefixOf (c :: rest) && wordBoundary text before (some c) &&
          wordBoundary text word.getLast? ((c :: rest).drop word.length).head?) ||
        findWord word (some c) rest

/-- `re.search(r"\b" + re.escape(word) + r"\b", prompt)`. -/
def searchWord (word prompt : String) : Bool := findWord text word.toList none prompt.toList

/-- `path.replace("\\", "/").lower()`. -/
def loweredPath (path : String) : String := text.lower (forwardSlashes path)

/-- `_is_security_critical`. -/
def isSecurityCritical (request : CodingTaskRequest) : Bool :=
  (securityTriggers.any fun word => searchWord text word (text.lower request.requirementPrompt)) ||
    (request.targetFiles ++ request.inspectedFiles).any fun path =>
      securityTriggers.any fun word => hasPart (loweredPath text path) word

/-- `_is_architecture_critical`. -/
def isArchitectureCritical (request : CodingTaskRequest) : Bool :=
  decide (3 ≤ request.targetFiles.length) ||
    (architectTriggers.any fun word =>
      searchWord text word (text.lower request.requirementPrompt)) ||
    request.targetFiles.any fun path =>
      architectTriggers.any fun word => hasPart (loweredPath text path) word

/-- `_is_frontend_critical`. -/
def isFrontendCritical (request : CodingTaskRequest) : Bool :=
  (request.targetFiles.any fun path =>
    (frontendExtensions.any fun extension => endsWith (loweredPath text path) extension) ||
      frontendPaths.any fun part => hasPart (loweredPath text path) part) ||
  ["react", "ui", "viewer", "tailwind", "component", "button", "modal"].any fun word =>
    hasPart (text.lower request.requirementPrompt) word

structure CommitteeMemberSelection where
  role : String
  displayName : String
  mandatory : Bool
  selectionReason : String
  modelTier : String := "STANDARD_CODING"
  thinkingBudget : ℤ := 0

def roleDisplayNames : List (String × String) :=
  [("architect", "Principal System Architect"),
   ("securityauditor", "Zero-Trust Security Auditor"),
   ("qaengineer", "Strict QA & Test Engineer"),
   ("backenddev", "Backend Infrastructure Engineer"),
   ("frontenddev", "Frontend UI/UX Engineer"),
   ("devopsengineer", "DevOps & CI/CD Engineer"),
   ("refactoringspecialist", "Refactoring & SLOC Specialist")]

structure CommitteeFormation where
  taskId : String
  members : List CommitteeMemberSelection
  riskLevel : String
  enforcedSecurityAudit : Bool
  enforcedArchitectReview : Bool
  maxTokensPerMember : ℕ

/-- `request.thinking_budget or standard`. -/
def thinkingBudget (request : CodingTaskRequest) (standard : ℤ) : ℤ :=
  match request.thinkingBudget with
  | some budget => if budget = 0 then standard else budget
  | none => standard

def displayName (role : String) (other : String) : String :=
  (roleDisplayNames.lookup role).getD other

/-- The loop that adds the requested roles which have no member yet. -/
def mergeExplicitRoles (members : List CommitteeMemberSelection) :
    List String → List CommitteeMemberSelection
  | [] => members
  | role :: roles =>
      if role ∈ members.map CommitteeMemberSelection.role then mergeExplicitRoles members roles
      else
        mergeExplicitRoles
          (members ++
            [{ role := role
               displayName := displayName role (text.capitalize role)
               mandatory := false
               selectionReason := "Explicitly requested by task specification." }])
          roles

/-- The members that the task itself calls for. -/
def triggeredMembers (request : CodingTaskRequest) : List CommitteeMemberSelection :=
  (if isSecurityCritical text request then
    [{ role := "securityauditor"
       displayName := displayName "securityauditor" "Security Auditor"
       mandatory := true
       selectionReason :=
         "Target files or prompt touch security, auth, crypto, or sandbox boundaries."
       modelTier := "REASONING"
       thinkingBudget := thinkingBudget request 4096 }] else []) ++
  (if isArchitectureCritical text request then
    [{ role := "architect"
       displayName := displayName "architect" "Principal System Architect"
       mandatory := true
       selectionReason :=
         "Cross-cutting architectural modifications, core models, or new subsystems detected."
       modelTier := "REASONING"
       thinkingBudget := thinkingBudget request 8192 }] else []) ++
  (if isFrontendCritical text request then
    [{ role := "frontenddev"
       displayName := displayName "frontenddev" "Frontend UI/UX Engineer"
       mandatory := false
       selectionReason := "UI components, TSX views, or styling assets in target scope." }]
    else []) ++
  [{ role := "qaengineer"
     displayName := displayName "qaengineer" "Strict QA Engineer"
     mandatory := true
     selectionReason := "Mandatory verification ladder design and edge case coverage analysis." }]

/-- `evaluate_committee`. -/
def evaluateCommittee (request : CodingTaskRequest) : CommitteeFormation :=
  let explicitRoles := (request.committeeRoles.filter (· ≠ "")).map text.lower
  let security := isSecurityCritical text request
  let architect := isArchitectureCritical text request
  { taskId := request.taskId
    members := mergeExplicitRoles text (triggeredMembers text request) explicitRoles
    riskLevel :=
      if security && architect then "CRITICAL"
      else if security || architect then "HIGH" else "NORMAL"
    enforcedSecurityAudit := security
    enforcedArchitectReview := architect
    maxTokensPerMember := if security || architect then 2000 else 1200 }

/-! ## What a member says -/

/-- What the vector memory finds about another task. -/
structure Precedent where
  taskId : String
  category : String
  content : String

/-- A peer of the mesh, with its latency in milliseconds as a text with one decimal. -/
structure Peer where
  nodeId : String
  host : String
  port : ℤ
  latencyMs : String

def securityRedFlags : List String :=
  ["bypass auth", "disable sandbox", "eval(", "plaintext key", "ignore cert"]

/-- `has_security_red_flag`. -/
def hasSecurityRedFlag (request : CodingTaskRequest) : Bool :=
  securityRedFlags.any fun flag => hasPart (text.lower request.requirementPrompt) flag

/-- The turn that a peer takes for a member. -/
def meshTurn (peer : Peer) (role : String) (roundIndex turnIndex : ℕ) : DebateSpeechTurn where
  speakerRole := role
  roundIndex := roundIndex
  turnIndex := turnIndex
  content :=
    s!"[Federated Mesh Review from Peer '{peer.nodeId}' ({peer.host}:{peer.port}) for {role}]: " ++
      s!"Target scope verified with {peer.latencyMs}ms latency. Decentralized consensus confirmed."
  critiquePoints :=
    ["Decentralized peer consensus verified across mesh cluster",
     "Preserve host zero-pollution and isolated worktree execution"]
  reasoningContent :=
    some s!"Offloaded reasoning inference executed on remote peer node {peer.nodeId}."
  reasoningTokens := 512

def auditorTurn (request : CodingTaskRequest) (role : String) (roundIndex turnIndex : ℕ) :
    DebateSpeechTurn :=
  if hasSecurityRedFlag text request then
    { speakerRole := role
      roundIndex := roundIndex
      turnIndex := turnIndex
      content :=
        "CRITICAL SECURITY ALERT: The requirement or target modifications attempt to bypass " ++
        "security boundaries, disable sandbox protections, or expose sensitive secrets. As " ++
        "Zero-Trust Security Auditor, I register a formal objection and demand AST isolation, " ++
        "strict token hashing, and permission verification."
      critiquePoints :=
        ["Reject attempts to bypass authentication or sandboxing",
         "Enforce constant-time secret comparison and token masking"]
      scoreImpact := -45 / 100
      reasoningContent :=
        some ("Auditing zero-trust boundary, sandbox escape vectors, secret redaction, and " ++
          "credential exposure paths.")
      reasoningTokens := 48 }
  else
    { speakerRole := role
      roundIndex := roundIndex
      turnIndex := turnIndex
      content :=
        "Security Audit Review: Inspected target paths against zero-trust boundary contracts. " ++
        "No unauthorized credential exposure or unsanitized external calls detected. " ++
        "Recommendation: Ensure all dynamic inputs are strictly typed and audited in " ++
        "RuntimeEventsLedger."
      critiquePoints :=
        ["Validate input parameters with strict Pydantic schemas",
         "Ensure audit logging on security-sensitive state transitions"]
      reasoningContent :=
        some ("Verifying role boundaries, token authentication middleware, and input " ++
          "sanitization.")
      reasoningTokens := 36 }

def architectTurn (request : CodingTaskRequest) (precedents : List Precedent) (role : String)
    (roundIndex turnIndex : ℕ) : DebateSpeechTurn :=
  if 5 < request.targetFiles.length then
    { speakerRole := role
      roundIndex := roundIndex
      turnIndex := turnIndex
      content :=
        s!"Architectural Boundary Concern: Proposed task mutates {request.targetFiles.length} " ++
        "files across multiple modules. This violates Extreme Single Responsibility (Principle " ++
        "2). Recommend decomposing this task into vertical slices or scoping down to primary " ++
        "domain files."
      critiquePoints :=
        ["Scope down mutation target files to maintain bounded blast radius",
         "Decouple domain models from presentation and transport layers"]
      scoreImpact := -25 / 100
      reasoningContent :=
        some ("Analyzing modular cohesion, blast radius expansion, cross-package coupling, and " ++
          "boundary contracts.")
      reasoningTokens := 62 }
  else
    let note := match precedents with
      | [] => ""
      | precedent :: _ =>
          s!"\n[Federated Knowledge Topology Precedent ({precedent.category}) from Task " ++
            s!"{precedent.taskId}]: {firstChars 140 precedent.content}"
    let files := ", ".intercalate request.targetFiles
    let targets := if files = "" then "bounded scope" else files
    { speakerRole := role
      roundIndex := roundIndex
      turnIndex := turnIndex
      content :=
        s!"Architectural Assessment: Target scope ({targets}) is cleanly decoupled. Anti-Summary " ++
        "Invariant satisfied. Domain contracts remain framework-agnostic. Approved for " ++
        s!"Stop-and-Wait Architecture Gate submission.{note}"
      critiquePoints :=
        ["Maintain zero dead code policy", "Align interfaces with Protocol v3.8.0 invariants"] ++
        match precedents with
        | [] => []
        | precedent :: _ => [s!"Referenced historical precedent from task {precedent.taskId}"]
      reasoningContent :=
        some ("Evaluating component modularity, single responsibility, and domain abstraction " ++
          "purity.")
      reasoningTokens := 52 }

/-- The turn of a member that no peer speaks for. -/
def memberTurn (request : CodingTaskRequest) (precedents : List Precedent) (role : String)
    (roundIndex turnIndex : ℕ) : DebateSpeechTurn :=
  if text.lower role = "securityauditor" then auditorTurn text request role roundIndex turnIndex
  else if text.lower role = "architect" then
    architectTurn request precedents role roundIndex turnIndex
  else if text.lower role = "qaengineer" then
    { speakerRole := role
      roundIndex := roundIndex
      turnIndex := turnIndex
      content :=
        "QA Verification Strategy: Proposed implementation requires automated test coverage. " ++
        "The test ladder must verify: 1) Happy-path integration, 2) Fault injection and invalid " ++
        "inputs, 3) Regression matrix compatibility with exit code 0. Enforcing strict evidence " ++
        "before completion."
      critiquePoints :=
        ["Run pytest with exit code 0 enforcement",
         "Add regression tests covering edge cases and boundary inputs"]
      reasoningContent :=
        some "Synthesizing test ladder steps, edge-case failure matrix, and fail-fast assertions."
      reasoningTokens := 38 }
  else if text.lower role = "frontenddev" then
    { speakerRole := role
      roundIndex := roundIndex
      turnIndex := turnIndex
      content :=
        "Frontend UI/UX Assessment: Interface changes must adhere to Tailwind token standards, " ++
        "Radix headless accessibility, and responsive cockpit layouts without visual slop."
      critiquePoints := ["Preserve accessibility standards and responsive UI grids"] }
  else
    { speakerRole := role
      roundIndex := roundIndex
      turnIndex := turnIndex
      content :=
        s!"Deliberation statement by {role}: Reviewed task scope and confirmed alignment with " ++
        "project milestones." }

end AgentSystem.Pipeline
