import AgentSystem.MissionContracts

/-!
# The Mission aggregate

States, events and audits of a Mission, its validator and the four methods that return a changed
Mission. Unlike the other contracts a Mission is a plain record: the transitions of its state
machine copy it without validation, so a value need not satisfy its own validator.
-/
namespace AgentSystem.Missions

inductive MissionState
  | draft
  | planning
  | awaitingApproval
  | running
  | needsDecision
  | verifying
  | reviewReady
  | draftPrCreated
  | closed
  | paused
  | cancelled
  | failed
  | budgetExhausted
  | scopeBlocked
  | ciFailed
  deriving DecidableEq

inductive MissionEvent
  | startPlanning
  | submitPlan
  | approvePlan
  | rejectPlan
  | beginVerification
  | completeVerification
  | failCi
  | retryVerification
  | createDraftPr
  | requestScopeExpansion
  | blockScope
  | approveScope
  | rejectScope
  | pause
  | resume
  | cancel
  | fail
  | exhaustBudget
  | close
  deriving DecidableEq

inductive TransitionErrorCode
  | invalidTransition
  | terminalState
  | planApprovalRequired
  | verificationRequired
  | draftPrPermissionRequired
  | draftPrApprovalRequired
  | scopeDecisionRequired
  | approvalSubjectRequired
  | approvalSubjectMismatch
  | resumeStateMissing
  | idempotencyConflict
  deriving DecidableEq

structure TransitionRequest where
  event : MissionEvent
  actorId : ActorId
  idempotencyKey : IdempotencyKey
  approvalSubject : Option ApprovalSubject := none
  deriving DecidableEq

structure MissionTransitionAudit where
  auditId : ApprovalId
  event : MissionEvent
  fromState : MissionState
  toState : MissionState
  fromRevision : ℕ
  toRevision : ℕ+
  actorId : ActorId
  idempotencyKey : IdempotencyKey
  approvalSubject : Option ApprovalSubject
  occurredAt : Datetime
  deriving DecidableEq

structure Mission where
  missionId : MissionId
  currentState : MissionState := .draft
  revision : ℕ := 0
  executionPolicy : MissionPolicy := {}
  executionPlan : Option ExecutionPlan := none
  planReference : Option PlanId := none
  planRevision : Option ℕ+ := none
  approvalGates : List ApprovalGate := []
  scopeExpansionRequests : List ScopeExpansionRequest := []
  evidenceRecords : List EvidenceRecord := []
  requiredVerification : List VerificationGateName := defaultRequiredVerification
  verificationGates : List VerificationGate := []
  createdAt : Datetime
  updatedAt : Datetime
  actorId : ActorId
  ownerActorId : Option ActorId := none
  draftPrReviewSubject : Option DraftPRApprovalSubject := none
  resumeState : Option MissionState := none
  transitionAudit : List MissionTransitionAudit := []
  deriving DecidableEq

/-- The exceptions of the aggregate: what `model_validate` raises, for fields that are too long
or in a validator, and `MissionAggregateError`. -/
inductive MissionError
  | tooLong (fields : List String)
  | value (message : String)
  | aggregate (code detail : String)
  deriving DecidableEq

namespace Mission

def ownerId (m : Mission) : ActorId := m.ownerActorId.getD m.actorId

/-- `evidence_by_id.get(ref)`: the comprehension keeps the last record of an id. -/
def evidenceById (m : Mission) (ref : EvidenceId) : Option EvidenceRecord :=
  m.evidenceRecords.reverse.find? fun record => record.evidenceId = ref

/-- `gates_by_name.get(name)`: the comprehension keeps the last gate of a name. -/
def gatesByName (m : Mission) (name : VerificationGateName) : Option VerificationGate :=
  m.verificationGates.reverse.find? fun gate => gate.gate = name

/-- A linked record that lets a passed gate count: itself passed, and of a type that fits. -/
def supports (record : EvidenceRecord) (name : VerificationGateName) : Bool :=
  decide (record.verificationStatus = .passed) &&
    decide (record.evidenceType ∈ evidenceTypeCompatibility name)

/-- The body of the loop of `verification_complete` for one required gate. -/
def gateComplete (m : Mission) (name : VerificationGateName) : Bool :=
  match m.gatesByName name with
  | none => false
  | some gate =>
    match gate.status with
    | .notApplicable => true
    | .passed =>
        decide (gate.evidenceRefs ≠ []) &&
          gate.evidenceRefs.all fun ref =>
            match m.evidenceById ref with
            | none => false
            | some record => supports record gate.gate
    | .pending | .failed | .blocked => false

def verificationComplete (m : Mission) : Bool := m.requiredVerification.all m.gateComplete

/-- The check of the plan references. -/
def planReferenceError (m : Mission) : Option String :=
  match m.executionPlan with
  | none =>
      if m.planReference ≠ none ∨ m.planRevision ≠ none then
        some "plan references require an execution plan"
      else none
  | some plan =>
      if m.planReference ≠ some plan.planId ∨ m.planRevision ≠ some plan.revision then
        some "mission plan references must match the execution plan"
      else none

/-- The checks that ids and names are unique. -/
def uniquenessError (m : Mission) : Option String :=
  if ¬ (m.approvalGates.map ApprovalGate.gateId).Nodup then
    some "approval gate IDs must be unique"
  else if ¬ (m.scopeExpansionRequests.map ScopeExpansionRequest.requestId).Nodup then
    some "scope request IDs must be unique"
  else if ¬ (m.evidenceRecords.map EvidenceRecord.evidenceId).Nodup then
    some "evidence IDs must be unique"
  else if ¬ (m.verificationGates.map VerificationGate.gate).Nodup then
    some "verification gate names must be unique"
  else if ¬ m.requiredVerification.Nodup then
    some "required verification gate names must be unique"
  else if ¬ (m.transitionAudit.map MissionTransitionAudit.idempotencyKey).Nodup then
    some "transition idempotency keys must be unique"
  else none

/-- The check of one evidence record against the current plan. -/
def taskLinkError (plan : ExecutionPlan) (record : EvidenceRecord) : Option String :=
  if record.taskLinks ≠ [] ∧ record.planRevision ≠ some plan.revision then
    some "evidence task links must bind the current plan revision"
  else if ∃ taskId ∈ record.taskLinks, taskId ∉ plan.tasks.map PlanTask.taskId then
    some "evidence task links must reference current plan tasks"
  else none

def taskLinksError (m : Mission) : Option String :=
  match m.executionPlan with
  | none => none
  | some plan => m.evidenceRecords.findSome? (taskLinkError plan)

/-- The loop over the approval gates; `finalDecisions` are the subjects decided so far. -/
def decisionError (m : Mission) : List ApprovalGate → List ApprovalSubject → Option String
  | [], _ => none
  | gate :: gates, finalDecisions =>
    if ∃ ref ∈ gate.evidenceRefs, m.evidenceById ref = none then
      some "approval evidence references must exist in the Mission"
    else if gate.status ≠ .pending then
      if gate.subject ∈ finalDecisions then
        some "an approval subject can have only one final decision"
      else decisionError m gates (gate.subject :: finalDecisions)
    else decisionError m gates finalDecisions

/-- The check of one verification gate against the evidence. -/
def verificationGateError (m : Mission) (gate : VerificationGate) : Option String :=
  let records := gate.evidenceRefs.map m.evidenceById
  if none ∈ records then some "verification evidence references must exist in the Mission"
  else if gate.status = .passed then
    if ∃ record ∈ records.reduceOption, record.verificationStatus ≠ .passed then
      some "passed verification gates require passed evidence"
    else if ∃ record ∈ records.reduceOption,
        record.evidenceType ∉ evidenceTypeCompatibility gate.gate then
      some "verification evidence type is incompatible with the gate"
    else none
  else none

/-- `validate_aggregate_references`, `none` when it accepts. -/
def validateAggregateReferences (m : Mission) : Option String :=
  m.planReferenceError <|> m.uniquenessError <|> m.taskLinksError <|>
    m.decisionError m.approvalGates [] <|> m.verificationGates.findSome? m.verificationGateError

/-- The fields that are longer than their `max_length`. -/
def longFields (m : Mission) : List String :=
  (if 256 < m.approvalGates.length then ["approval_gates"] else []) ++
  (if 1000 < m.evidenceRecords.length then ["evidence_records"] else []) ++
  (if 32 < m.verificationGates.length then ["verification_gates"] else []) ++
  (if 1000 < m.transitionAudit.length then ["transition_audit"] else [])

/-- `Mission.model_validate` on the fields of a Mission. The contracts inside it are valid
already. -/
def modelValidate (m : Mission) : Except MissionError Mission :=
  if m.longFields ≠ [] then .error (.tooLong m.longFields)
  else
    match m.validateAggregateReferences with
    | some message => .error (.value message)
    | none => .ok m

/-- The states in which `attach_plan` does not replace a plan. -/
def planLockedStates : List MissionState :=
  [.running, .verifying, .reviewReady, .draftPrCreated, .closed]

/-- The Mission that `attach_plan` builds, before validation. -/
def withPlan (m : Mission) (plan : ExecutionPlan) : Mission :=
  { m with
    executionPlan := some plan
    planReference := some plan.planId
    planRevision := some plan.revision
    requiredVerification := plan.requiredVerification }

def attachPlan [CanonicalDigest] (m : Mission) (plan : ExecutionPlan) : Except MissionError Mission :=
  if plan.missionId ≠ m.missionId then
    .error (.aggregate "plan_mission_mismatch" "Plan Mission ID does not match")
  else
    match m.executionPlan with
    | none => (m.withPlan plan).modelValidate
    | some current =>
      if plan.planId = current.planId ∧ plan.revision = current.revision then
        if canonicalDigest plan = canonicalDigest current then .ok m
        else
          .error (.aggregate "immutable_plan_conflict"
            "Plan content cannot change under the same ID and revision")
      else if plan.planId ≠ current.planId ∨ plan.revision ≤ current.revision then
        .error (.aggregate "plan_revision_conflict" "Plan revisions must increase monotonically")
      else if m.currentState ∈ planLockedStates then
        .error (.aggregate "approved_plan_locked"
          "The current Mission state cannot replace its plan")
      else (m.withPlan plan).modelValidate

/-- An actor whose id starts with `agent` or `bot` in any case. -/
def isAutonomous (actorId : ActorId) : Bool :=
  let lowered := actorId.text.toList.map Char.toLower
  "agent".toList.isPrefixOf lowered || "bot".toList.isPrefixOf lowered

/-- The actor of an approval that is refused, `none` for a gate that may be recorded. -/
def prohibitedApprover (gate : ApprovalGate) : Option ActorId :=
  if gate.status = .approved then gate.actorId.filter isAutonomous else none

/-- The error of a plan approval whose subject is not exactly the attached plan. -/
def planSubjectError [CanonicalDigest] (m : Mission) (gate : ApprovalGate) : Option MissionError :=
  if gate.gateType = .plan then
    match m.executionPlan with
    | none => some (.aggregate "plan_required" "Plan approval requires an attached plan")
    | some plan =>
      match gate.subject with
      | .plan subject =>
          if subject.planId ≠ plan.planId ∨ subject.planRevision ≠ plan.revision ∨
              subject.planDigest ≠ canonicalDigest plan then
            some (.aggregate "approval_subject_mismatch" "Plan approval subject is stale")
          else none
      | _ => some (.aggregate "approval_subject_mismatch" "Plan approval subject is invalid")
  else none

def withApprovalGate (m : Mission) (gate : ApprovalGate) : Mission :=
  { m with approvalGates := m.approvalGates ++ [gate] }

def addApprovalGate [CanonicalDigest] (m : Mission) (gate : ApprovalGate) :
    Except MissionError Mission :=
  if gate.gateId ∈ m.approvalGates.map ApprovalGate.gateId then
    .error (.aggregate "duplicate_approval_gate" "Approval gate ID already exists")
  else
    match prohibitedApprover gate with
    | some actorId =>
        .error (.aggregate "self_approval_prohibited"
          ("Autonomous agent '" ++ actorId.text ++ "' is prohibited from approving gates. " ++
            "Only human operators may approve."))
    | none =>
      match m.planSubjectError gate with
      | some error => .error error
      | none =>
        match m.approvalGates.find? fun item => item.subject = gate.subject with
        | some existing =>
            if existing.status = gate.status ∧ existing.idempotencyKey = gate.idempotencyKey ∧
                existing.evidenceRefs = gate.evidenceRefs then
              .ok m
            else
              .error (.aggregate "immutable_decision_conflict"
                "Approval subject already has a final decision")
        | none => (m.withApprovalGate gate).modelValidate

def withEvidenceRecord (m : Mission) (evidence : EvidenceRecord) : Mission :=
  { m with evidenceRecords := m.evidenceRecords ++ [evidence] }

def addEvidenceRecord (m : Mission) (evidence : EvidenceRecord) : Except MissionError Mission :=
  if evidence.evidenceId ∈ m.evidenceRecords.map EvidenceRecord.evidenceId then
    .error (.aggregate "duplicate_evidence" "Evidence ID already exists")
  else (m.withEvidenceRecord evidence).modelValidate

def withVerificationGate (m : Mission) (gate : VerificationGate) : Mission :=
  { m with
    verificationGates :=
      (m.verificationGates.filter fun item => item.gate ≠ gate.gate) ++ [gate] }

def recordVerificationGate (m : Mission) (gate : VerificationGate) : Except MissionError Mission :=
  (m.withVerificationGate gate).modelValidate

end Mission

end AgentSystem.Missions
