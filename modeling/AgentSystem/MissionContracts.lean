import Mathlib

/-!
# Contracts of the Mission aggregate

Immutable values of the product: identifiers, execution plans, approval subjects and gates,
evidence and verification gates. A contract that the code refuses to construct cannot be built
here either: the constraints of its fields and its validator are fields of the structure.
-/
namespace AgentSystem.Missions

/-- A character that an identifier may have after its first one. -/
def isIdentifierChar (c : Char) : Bool :=
  c.isAlphanum || c == '.' || c == '_' || c == ':' || c == '/' || c == '-'

/-- `_IDENTIFIER`: 1 to 128 characters, a letter or digit first and only letters, digits and
`.`, `_`, `:`, `/`, `-` after it. -/
def isIdentifier (text : String) : Bool :=
  match text.toList with
  | [] => false
  | c :: cs => c.isAlphanum && cs.all isIdentifierChar && decide (cs.length + 1 ≤ 128)

structure Identifier where
  text : String
  wellFormed : isIdentifier text = true
  deriving DecidableEq

/-- The identifier with this text, `none` for a `ValidationError`. -/
def Identifier.ofText (text : String) : Option Identifier :=
  if h : isIdentifier text = true then some ⟨text, h⟩ else none

abbrev MissionId := Identifier
abbrev PlanId := Identifier
abbrev TaskId := Identifier
abbrev ActorId := Identifier
abbrev ApprovalId := Identifier
abbrev ScopeRequestId := Identifier
abbrev EvidenceId := Identifier
abbrev GateId := Identifier
abbrev IdempotencyKey := Identifier

/-- An aware `datetime`, in microseconds of UTC. -/
abbrev Datetime := ℤ

inductive ApprovalType
  | plan
  | scopeExpansion
  | draftPr
  deriving DecidableEq

inductive ApprovalStatus
  | pending
  | approved
  | rejected
  deriving DecidableEq

inductive EvidenceType
  | command
  | test
  | ci
  | review
  | scope
  | architecture
  | security
  | quality
  | cost
  | artifact
  | providerCall
  deriving DecidableEq

inductive VerificationGateName
  | requirement
  | scope
  | architecture
  | tests
  | security
  | quality
  | ci
  | cost
  deriving DecidableEq

/-- `DEFAULT_REQUIRED_VERIFICATION`. -/
def defaultRequiredVerification : List VerificationGateName :=
  [.requirement, .scope, .architecture, .tests, .security, .quality, .ci, .cost]

inductive GateStatus
  | pending
  | passed
  | failed
  | blocked
  | notApplicable
  deriving DecidableEq

inductive RiskLevel
  | low
  | medium
  | high
  deriving DecidableEq

/-- One path of `_validate_relative_paths`: not empty, not absolute, without a drive letter and
without a component `..`. -/
def isRelativePath (path : String) : Bool :=
  let normalized := path.toList.map fun c => if c = '\\' then '/' else c
  normalized ≠ [] && normalized.head? ≠ some '/' && normalized[1]? ≠ some ':' &&
    decide (['.', '.'] ∉ normalized.splitOn '/')

structure AgentAssignment where
  assignmentId : TaskId
  role : String
  agentId : Option ActorId := none
  provider : Option String := none
  model : Option String := none
  role_length : 1 ≤ role.length ∧ role.length ≤ 128 := by decide
  provider_length : ∀ text ∈ provider, text.length ≤ 128 := by decide
  model_length : ∀ text ∈ model, text.length ≤ 256 := by decide
  deriving DecidableEq

structure PlanTask where
  taskId : TaskId
  title : String
  description : String := ""
  order : ℕ+
  dependencies : List TaskId := []
  assignment : Option AgentAssignment := none
  assignedRole : Option String := none
  expectedPaths : List String := []
  verificationRequirements : List String := []
  estimatedRisk : RiskLevel := .medium
  estimatedProviderCallsMin : ℕ := 0
  estimatedProviderCallsMax : ℕ := 0
  approvalStatus : ApprovalStatus := .pending
  title_length : 1 ≤ title.length ∧ title.length ≤ 256 := by decide
  description_length : description.length ≤ 4000 := by decide
  assignedRole_length : ∀ text ∈ assignedRole, text.length ≤ 128 := by decide
  expectedPaths_relative : ∀ path ∈ expectedPaths, isRelativePath path = true := by decide
  providerCalls_range : estimatedProviderCallsMin ≤ estimatedProviderCallsMax := by decide
  deriving DecidableEq

/-- `graph[task_id]`. -/
def dependenciesOf (tasks : List PlanTask) (taskId : TaskId) : List TaskId :=
  ((tasks.find? fun task => task.taskId = taskId).map PlanTask.dependencies).getD []

/-- The nested `visit` of `validate_plan_graph` on its sets `visiting` and `visited`, `none` for
a cycle. The first argument bounds the depth of the recursion; every level marks one more task
as being visited, so one more than the number of tasks is enough. -/
def visit (tasks : List PlanTask) :
    ℕ → List TaskId × List TaskId → TaskId → Option (List TaskId × List TaskId)
  | 0, _, _ => none
  | depth + 1, (visiting, visited), taskId =>
    if taskId ∈ visiting then none
    else if taskId ∈ visited then some (visiting, visited)
    else
      ((dependenciesOf tasks taskId).foldlM (visit tasks depth) (taskId :: visiting, visited)).map
        fun sets => (sets.1.erase taskId, taskId :: sets.2)

/-- The errors of the loop over the tasks, before the search for a cycle. -/
def dependencyError (knownIds : List TaskId) (task : PlanTask) : Option String :=
  if task.taskId ∈ task.dependencies then
    some "execution plan tasks cannot depend on themselves"
  else if ∃ dependency ∈ task.dependencies, dependency ∉ knownIds then
    some "execution plan dependencies must reference existing tasks"
  else none

/-- `ExecutionPlan.validate_plan_graph`, `none` when it accepts. -/
def planError (tasks : List PlanTask) (revision : ℕ+) (approvalStatus : ApprovalStatus)
    (approvedRevision : Option ℕ+) (requiredVerification : List VerificationGateName) :
    Option String :=
  let taskIds := tasks.map PlanTask.taskId
  if ¬ taskIds.Nodup then some "execution plan task IDs must be unique"
  else if ¬ (tasks.map PlanTask.order).Nodup then
    some "execution plan task order values must be unique"
  else if let some error := tasks.findSome? (dependencyError taskIds) then some error
  else if taskIds.foldlM (visit tasks (tasks.length + 1)) ([], []) = none then
    some "execution plan dependencies must be acyclic"
  else if ¬ requiredVerification.Nodup then some "required verification gates must be unique"
  else if approvalStatus = .approved then
    if approvedRevision ≠ some revision then
      some "approved plans must bind their approved revision"
    else none
  else if approvedRevision ≠ none then
    some "only approved plans may record an approved revision"
  else none

structure ExecutionPlan where
  schemaVersion : String := "1.0"
  planId : PlanId
  missionId : MissionId
  revision : ℕ+ := 1
  tasks : List PlanTask
  approvalStatus : ApprovalStatus := .pending
  approvedRevision : Option ℕ+ := none
  requiredVerification : List VerificationGateName := defaultRequiredVerification
  estimatedRisk : RiskLevel := .medium
  tasks_nonempty : tasks ≠ [] := by decide
  valid : planError tasks revision approvalStatus approvedRevision requiredVerification = none
  deriving DecidableEq

/-- 64 lowercase hexadecimal digits. -/
def isSha256Hex (text : String) : Bool :=
  decide (text.length = 64) &&
    text.toList.all fun c => c.isDigit || ('a' ≤ c && c ≤ 'f')

structure Sha256Hex where
  text : String
  wellFormed : isSha256Hex text = true
  deriving DecidableEq

/-- The hash function behind `ExecutionPlan.canonical_digest`, the SHA-256 of the canonical JSON
of a plan. Nothing is assumed of it. -/
class CanonicalDigest where
  canonicalDigest : ExecutionPlan → Sha256Hex

export CanonicalDigest (canonicalDigest)

structure PlanApprovalSubject where
  planId : PlanId
  planRevision : ℕ+
  planDigest : Sha256Hex
  deriving DecidableEq

structure ScopeApprovalSubject where
  scopeRequestId : ScopeRequestId
  deriving DecidableEq

structure DraftPRApprovalSubject where
  reviewId : ApprovalId
  planId : PlanId
  planRevision : ℕ+
  branch : String
  headSha : String
  branch_length : 1 ≤ branch.length ∧ branch.length ≤ 256 := by decide
  headSha_length : 1 ≤ headSha.length ∧ headSha.length ≤ 128 := by decide
  deriving DecidableEq

inductive ApprovalSubject
  | plan (subject : PlanApprovalSubject)
  | scopeExpansion (subject : ScopeApprovalSubject)
  | draftPr (subject : DraftPRApprovalSubject)
  deriving DecidableEq

/-- The discriminator `kind`, whose values are those of `ApprovalType`. -/
def ApprovalSubject.kind : ApprovalSubject → ApprovalType
  | .plan _ => .plan
  | .scopeExpansion _ => .scopeExpansion
  | .draftPr _ => .draftPr

/-- The subject that an approval of this plan has to name. -/
def ExecutionPlan.approvalSubject [CanonicalDigest] (plan : ExecutionPlan) : ApprovalSubject :=
  .plan ⟨plan.planId, plan.revision, canonicalDigest plan⟩

structure ApprovalGate where
  gateId : GateId
  gateType : ApprovalType
  subject : ApprovalSubject
  status : ApprovalStatus := .pending
  actorId : Option ActorId := none
  decidedAt : Option Datetime := none
  evidenceRefs : List EvidenceId := []
  idempotencyKey : IdempotencyKey
  subject_kind : subject.kind = gateType := by decide
  pending_undecided : status = .pending → actorId = none ∧ decidedAt = none := by decide
  decided_metadata : status ≠ .pending → actorId.isSome ∧ decidedAt.isSome := by decide
  deriving DecidableEq

structure ScopeExpansionRequest where
  requestId : ScopeRequestId
  deriving DecidableEq

structure EvidenceRecord where
  evidenceId : EvidenceId
  evidenceType : EvidenceType
  taskLinks : List TaskId := []
  planRevision : Option ℕ+ := none
  verificationStatus : GateStatus := .pending
  deriving DecidableEq

structure VerificationGate where
  gate : VerificationGateName
  status : GateStatus := .pending
  evidenceRefs : List EvidenceId := []
  passed_refs : status = .passed → evidenceRefs ≠ [] := by decide
  deriving DecidableEq

/-- `EVIDENCE_TYPE_COMPATIBILITY`. -/
def evidenceTypeCompatibility : VerificationGateName → List EvidenceType
  | .requirement => [.command, .review, .test]
  | .scope => [.scope, .command, .review]
  | .architecture => [.architecture, .command, .review]
  | .tests => [.test, .command]
  | .security => [.security, .command]
  | .quality => [.quality, .test, .command]
  | .ci => [.ci]
  | .cost => [.cost, .providerCall]

/-- The part of `ScopePolicy` that the Mission's transitions read. -/
structure ScopePolicy where
  draftPrPermission : Bool := false
  deriving DecidableEq

structure MissionPolicy where
  scope : ScopePolicy := {}
  deriving DecidableEq

end AgentSystem.Missions
