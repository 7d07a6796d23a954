import AgentSystem.MissionModel

/-!
# The Mission state machine

The table of legal transitions, the guards of the events that need an approval or a finished
verification, and the transition of a Mission on a request.
-/
namespace AgentSystem.Missions

structure MissionTransitionError where
  code : TransitionErrorCode
  currentState : MissionState
  event : MissionEvent
  detail : String
  deriving DecidableEq

/-- The exceptions of `MissionStateMachine.transition`: a refusal, or the `ValidationError` of an
audit whose id `transition:<key>` is no identifier. -/
inductive TransitionFailure
  | refused (error : MissionTransitionError)
  | invalidAudit
  deriving DecidableEq

structure TransitionResult where
  mission : Mission
  audit : MissionTransitionAudit
  replayed : Bool
  deriving DecidableEq

/-- `_LEGAL_TRANSITIONS`. -/
def legalTransitions : List ((MissionState × MissionEvent) × MissionState) :=
  [((.draft, .startPlanning), .planning),
   ((.draft, .cancel), .cancelled),
   ((.planning, .submitPlan), .awaitingApproval),
   ((.planning, .pause), .paused),
   ((.planning, .cancel), .cancelled),
   ((.planning, .fail), .failed),
   ((.planning, .exhaustBudget), .budgetExhausted),
   ((.awaitingApproval, .approvePlan), .running),
   ((.awaitingApproval, .rejectPlan), .planning),
   ((.awaitingApproval, .pause), .paused),
   ((.awaitingApproval, .cancel), .cancelled),
   ((.awaitingApproval, .fail), .failed),
   ((.running, .beginVerification), .verifying),
   ((.running, .requestScopeExpansion), .needsDecision),
   ((.running, .blockScope), .scopeBlocked),
   ((.running, .pause), .paused),
   ((.running, .cancel), .cancelled),
   ((.running, .fail), .failed),
   ((.running, .exhaustBudget), .budgetExhausted),
   ((.needsDecision, .blockScope), .scopeBlocked),
   ((.needsDecision, .approveScope), .running),
   ((.needsDecision, .rejectScope), .planning),
   ((.needsDecision, .pause), .paused),
   ((.needsDecision, .cancel), .cancelled),
   ((.needsDecision, .fail), .failed),
   ((.scopeBlocked, .approveScope), .running),
   ((.scopeBlocked, .rejectScope), .planning),
   ((.scopeBlocked, .pause), .paused),
   ((.scopeBlocked, .cancel), .cancelled),
   ((.scopeBlocked, .fail), .failed),
   ((.verifying, .completeVerification), .reviewReady),
   ((.verifying, .failCi), .ciFailed),
   ((.verifying, .pause), .paused),
   ((.verifying, .cancel), .cancelled),
   ((.verifying, .fail), .failed),
   ((.verifying, .exhaustBudget), .budgetExhausted),
   ((.ciFailed, .retryVerification), .verifying),
   ((.ciFailed, .pause), .paused),
   ((.ciFailed, .cancel), .cancelled),
   ((.ciFailed, .fail), .failed),
   ((.reviewReady, .createDraftPr), .draftPrCreated),
   ((.reviewReady, .close), .closed),
   ((.reviewReady, .pause), .paused),
   ((.reviewReady, .cancel), .cancelled),
   ((.reviewReady, .fail), .failed),
   ((.draftPrCreated, .close), .closed),
   ((.paused, .cancel), .cancelled),
   ((.paused, .fail), .failed)]

/-- `_LEGAL_TRANSITIONS.get((state, event))`. -/
def legalTransition (state : MissionState) (event : MissionEvent) : Option MissionState :=
  (legalTransitions.find? fun edge => edge.1 = (state, event)).map Prod.snd

/-- `_TERMINAL_STATES`. -/
def terminalStates : List MissionState := [.closed, .cancelled, .failed, .budgetExhausted]

namespace Mission

def refuse (m : Mission) (request : TransitionRequest) (code : TransitionErrorCode)
    (detail : String) : MissionTransitionError :=
  ⟨code, m.currentState, request.event, detail⟩

/-- Some gate of this type approves the subject. -/
def hasApproval (m : Mission) (gateType : ApprovalType) (subject : ApprovalSubject) : Bool :=
  m.approvalGates.any fun gate =>
    decide (gate.gateType = gateType ∧ gate.status = .approved ∧ gate.subject = subject)

def subjectOrError (m : Mission) (request : TransitionRequest) (expected : ApprovalType) :
    Except MissionTransitionError ApprovalSubject :=
  match request.approvalSubject with
  | none =>
      .error (m.refuse request .approvalSubjectRequired "the exact approval subject is required")
  | some subject =>
      if subject.kind ≠ expected then
        .error (m.refuse request .approvalSubjectMismatch
          "approval subject does not match the event")
      else .ok subject

def requirePlanApproval [CanonicalDigest] (m : Mission) (request : TransitionRequest) :
    Except MissionTransitionError Unit :=
  match m.subjectOrError request .plan with
  | .error error => .error error
  | .ok (.plan subject) =>
      match m.executionPlan with
      | none =>
          .error (m.refuse request .approvalSubjectMismatch
            "plan approval subject is stale or unrelated")
      | some plan =>
          if subject.planId ≠ plan.planId ∨ subject.planRevision ≠ plan.revision ∨
              subject.planDigest ≠ canonicalDigest plan then
            .error (m.refuse request .approvalSubjectMismatch
              "plan approval subject is stale or unrelated")
          else if m.hasApproval .plan (.plan subject) then .ok ()
          else
            .error (m.refuse request .planApprovalRequired
              "matching plan approval is required before running")
  | .ok _ =>
      .error (m.refuse request .approvalSubjectMismatch "plan approval requires a plan subject")

def requireVerification (m : Mission) (request : TransitionRequest) :
    Except MissionTransitionError Unit :=
  if m.verificationComplete then .ok ()
  else
    .error (m.refuse request .verificationRequired
      "every required verification gate must be passed or not applicable")

def requireScopeDecision (m : Mission) (request : TransitionRequest) :
    Except MissionTransitionError Unit :=
  match m.subjectOrError request .scopeExpansion with
  | .error error => .error error
  | .ok (.scopeExpansion subject) =>
      if (∃ item ∈ m.scopeExpansionRequests, item.requestId = subject.scopeRequestId) ∧
          m.hasApproval .scopeExpansion (.scopeExpansion subject) = true then
        .ok ()
      else
        .error (m.refuse request .scopeDecisionRequired
          "matching scope approval is required before continuing")
  | .ok _ =>
      .error (m.refuse request .approvalSubjectMismatch "scope approval requires a scope subject")

def requireDraftPr (m : Mission) (request : TransitionRequest) :
    Except MissionTransitionError Unit :=
  if ¬ m.executionPolicy.scope.draftPrPermission then
    .error (m.refuse request .draftPrPermissionRequired
      "Draft PR permission is not enabled in the scope policy")
  else
    match m.subjectOrError request .draftPr with
    | .error error => .error error
    | .ok (.draftPr subject) =>
        if m.draftPrReviewSubject = some subject ∧
            m.hasApproval .draftPr (.draftPr subject) = true then
          .ok ()
        else
          .error (m.refuse request .draftPrApprovalRequired
            "matching Draft PR approval is required for the reviewed head")
    | .ok _ =>
        .error (m.refuse request .approvalSubjectMismatch
          "Draft PR authorization requires a delivery review subject")

/-- `_GUARDS`. -/
def guard [CanonicalDigest] (m : Mission) (request : TransitionRequest) :
    Except MissionTransitionError Unit :=
  match request.event with
  | .approvePlan => m.requirePlanApproval request
  | .beginVerification => m.requireVerification request
  | .completeVerification => m.requireVerification request
  | .createDraftPr => m.requireDraftPr request
  | .approveScope => m.requireScopeDecision request
  | _ => .ok ()

/-- The state that the event leads to, if it leads to one. -/
def target (m : Mission) (event : MissionEvent) : Option MissionState :=
  if event = .resume then m.resumeState else legalTransition m.currentState event

/-- The audit of a transition from the Mission to a state. -/
def newAudit (m : Mission) (request : TransitionRequest) (auditId : ApprovalId)
    (toState : MissionState) (occurredAt : Datetime) : MissionTransitionAudit where
  auditId := auditId
  event := request.event
  fromState := m.currentState
  toState := toState
  fromRevision := m.revision
  toRevision := m.revision.succPNat
  actorId := request.actorId
  idempotencyKey := request.idempotencyKey
  approvalSubject := request.approvalSubject
  occurredAt := occurredAt

/-- The copy of the Mission after the transition that the audit records. -/
def moved (m : Mission) (audit : MissionTransitionAudit) : Mission :=
  { m with
    currentState := audit.toState
    revision := m.revision + 1
    updatedAt := audit.occurredAt
    resumeState := if audit.toState = .paused then some m.currentState else none
    transitionAudit := m.transitionAudit ++ [audit] }

/-- `MissionStateMachine.transition`; `occurredAt` is what its clock answers. -/
def transition [CanonicalDigest] (m : Mission) (request : TransitionRequest)
    (occurredAt : Datetime) : Except TransitionFailure TransitionResult :=
  match m.transitionAudit.find? fun audit => audit.idempotencyKey = request.idempotencyKey with
  | some existing =>
      if existing.event ≠ request.event ∨ existing.approvalSubject ≠ request.approvalSubject then
        .error (.refused (m.refuse request .idempotencyConflict
          "idempotency key was already used for another event or subject"))
      else .ok ⟨m, existing, true⟩
  | none =>
      if m.currentState ∈ terminalStates then
        .error (.refused (m.refuse request .terminalState
          "terminal Mission states cannot transition"))
      else
        match m.target request.event with
        | none =>
            if request.event = .resume then
              .error (.refused (m.refuse request .resumeStateMissing
                "paused Mission has no recoverable resume state"))
            else
              .error (.refused (m.refuse request .invalidTransition
                "event is not legal from the current state"))
        | some toState =>
            match m.guard request with
            | .error error => .error (.refused error)
            | .ok () =>
                match Identifier.ofText ("transition:" ++ request.idempotencyKey.text) with
                | none => .error .invalidAudit
                | some auditId =>
                    let audit := m.newAudit request auditId toState occurredAt
                    .ok ⟨m.moved audit, audit, false⟩

end Mission

end AgentSystem.Missions
