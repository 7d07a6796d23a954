import AgentSystem.MissionStateMachine

/-!
# Runs of a Mission

What each method of the aggregate and a transition can return, and the runs of a fresh Mission
under any sequence of these calls.
-/
namespace AgentSystem.Missions

/-- A call of one of the four methods that return a changed Mission. -/
inductive AggregateCall
  | attachPlan (plan : ExecutionPlan)
  | addApprovalGate (gate : ApprovalGate)
  | addEvidenceRecord (evidence : EvidenceRecord)
  | recordVerificationGate (gate : VerificationGate)

namespace Mission

def aggregate [CanonicalDigest] (m : Mission) : AggregateCall → Except MissionError Mission
  | .attachPlan plan => m.attachPlan plan
  | .addApprovalGate gate => m.addApprovalGate gate
  | .addEvidenceRecord evidence => m.addEvidenceRecord evidence
  | .recordVerificationGate gate => m.recordVerificationGate gate

/-- A validated Mission as it is created, in `DRAFT` without plan, gates and audit. -/
structure Fresh (m : Mission) : Prop where
  valid : m.modelValidate = .ok m
  draft : m.currentState = .draft
  plan : m.executionPlan = none
  approvals : m.approvalGates = []
  verifications : m.verificationGates = []
  audit : m.transitionAudit = []
  resume : m.resumeState = none

end Mission

/-- The Missions that calls of the state machine and of the aggregate reach, when the aggregate
calls satisfy `P`. A call that raises leaves the Mission as it was. -/
inductive Run [CanonicalDigest] (P : Mission → AggregateCall → Prop) : Mission → Prop
  | fresh {m : Mission} (h : m.Fresh) : Run P m
  | aggregate {m m' : Mission} {call : AggregateCall} (prior : Run P m) (allowed : P m call)
      (returned : m.aggregate call = .ok m') : Run P m'
  | transition {m : Mission} {request : TransitionRequest} {occurredAt : Datetime}
      {result : TransitionResult} (prior : Run P m)
      (returned : m.transition request occurredAt = .ok result) : Run P result.mission

/-- A call on a Mission with the inputs it reads. -/
inductive Call
  | aggregate (call : AggregateCall)
  | transition (request : TransitionRequest) (occurredAt : Datetime)

/-- The Mission that a call returns, `none` when it raises. -/
def Mission.apply [CanonicalDigest] (m : Mission) : Call → Option Mission
  | .aggregate call => (m.aggregate call).toOption
  | .transition request occurredAt =>
      (m.transition request occurredAt).toOption.map TransitionResult.mission

/-- The Mission after a list of calls, `none` when one of them raises. -/
def Mission.play [CanonicalDigest] (m : Mission) : List Call → Option Mission
  | [] => some m
  | call :: calls => (m.apply call).bind fun m' => m'.play calls

/-- Two Missions that agree on identity, state and history. -/
structure SameHistory (m m' : Mission) : Prop where
  missionId : m'.missionId = m.missionId
  currentState : m'.currentState = m.currentState
  revision : m'.revision = m.revision
  resumeState : m'.resumeState = m.resumeState
  transitionAudit : m'.transitionAudit = m.transitionAudit

lemma SameHistory.refl (m : Mission) : SameHistory m m := ⟨rfl, rfl, rfl, rfl, rfl⟩

lemma SameHistory.trans {m m' m'' : Mission} (h : SameHistory m m') (h' : SameHistory m' m'') :
    SameHistory m m'' :=
  ⟨h'.missionId.trans h.missionId, h'.currentState.trans h.currentState,
    h'.revision.trans h.revision, h'.resumeState.trans h.resumeState,
    h'.transitionAudit.trans h.transitionAudit⟩

namespace Mission

variable {m m' : Mission}

lemma modelValidate_eq_ok :
    m.modelValidate = .ok m' ↔
      m' = m ∧ m.longFields = [] ∧ m.validateAggregateReferences = none := by
  unfold modelValidate
  constructor
  · intro h
    split_ifs at h with hlong
    split at h
    · cases h
    · next hrefs =>
      injection h with h
      exact ⟨h.symm, not_not.mp hlong, hrefs⟩
  · rintro ⟨rfl, hlong, hrefs⟩
    simp [hlong, hrefs]

lemma validateAggregateReferences_eq_none :
    m.validateAggregateReferences = none ↔
      m.planReferenceError = none ∧ m.uniquenessError = none ∧ m.taskLinksError = none ∧
        m.decisionError m.approvalGates [] = none ∧
        ∀ gate ∈ m.verificationGates, m.verificationGateError gate = none := by
  simp [validateAggregateReferences, List.findSome?_eq_none_iff]

lemma longFields_eq_nil :
    m.longFields = [] ↔ m.approvalGates.length ≤ 256 ∧ m.evidenceRecords.length ≤ 1000 ∧
      m.verificationGates.length ≤ 32 ∧ m.transitionAudit.length ≤ 1000 := by
  simp only [longFields, List.append_eq_nil_iff, ite_eq_right_iff, List.cons_ne_nil, imp_false,
    not_lt, and_assoc]

lemma evidenceById_congr (h : m'.evidenceRecords = m.evidenceRecords) :
    m'.evidenceById = m.evidenceById := by
  funext ref
  rw [evidenceById, evidenceById, h]

/-- The loop over the approval gates reads nothing but the evidence of the Mission. -/
lemma decisionError_congr (h : m'.evidenceRecords = m.evidenceRecords) (gates : List ApprovalGate)
    (finalDecisions : List ApprovalSubject) :
    m'.decisionError gates finalDecisions = m.decisionError gates finalDecisions := by
  induction gates generalizing finalDecisions with
  | nil => rfl
  | cons gate gates ih =>
      rw [decisionError, decisionError, evidenceById_congr h, ih, ih]

/-- The check of a verification gate reads nothing but the evidence of the Mission. -/
lemma verificationGateError_congr (h : m'.evidenceRecords = m.evidenceRecords)
    (gate : VerificationGate) : m'.verificationGateError gate = m.verificationGateError gate := by
  rw [verificationGateError, verificationGateError, evidenceById_congr h]

section Aggregate

variable [CanonicalDigest]

/-- `attach_plan` returns the Mission itself for the revision it has, or one with a first plan or
a later revision. -/
lemma attachPlan_cases {plan : ExecutionPlan} (h : m.attachPlan plan = .ok m') :
    (m' = m ∧ ∃ current, m.executionPlan = some current ∧ plan.revision = current.revision) ∨
      (m' = m.withPlan plan ∧ m'.validateAggregateReferences = none ∧
        ∀ current, m.executionPlan = some current →
          current.revision < plan.revision ∧ m.currentState ∉ planLockedStates) := by
  unfold attachPlan at h
  split at h
  · cases h
  split at h
  · next hplan =>
    obtain ⟨rfl, -, hrefs⟩ := modelValidate_eq_ok.mp h
    exact .inr ⟨rfl, hrefs, by simp [hplan]⟩
  · next current hplan =>
    split_ifs at h with hsame _ horder hlocked
    · injection h with h
      exact .inl ⟨h.symm, current, hplan, hsame.2⟩
    · obtain ⟨rfl, -, hrefs⟩ := modelValidate_eq_ok.mp h
      refine .inr ⟨rfl, hrefs, ?_⟩
      intro other hother
      rw [hplan] at hother
      cases hother
      push Not at horder
      exact ⟨horder.2, hlocked⟩

/-- `add_approval_gate` returns the Mission itself for a decision it has, or records the gate. -/
lemma addApprovalGate_cases {gate : ApprovalGate} (h : m.addApprovalGate gate = .ok m') :
    m' = m ∨
      (m' = m.withApprovalGate gate ∧ m'.validateAggregateReferences = none ∧
        m.planSubjectError gate = none) := by
  unfold addApprovalGate at h
  split at h
  · cases h
  split at h
  · cases h
  split at h
  · cases h
  next hplan =>
  split at h
  · split_ifs at h
    injection h with h
    exact .inl h.symm
  · obtain ⟨rfl, -, hrefs⟩ := modelValidate_eq_ok.mp h
    exact .inr ⟨rfl, hrefs, hplan⟩

/-- A gate on a plan that passes the check of its subject names exactly the attached plan. -/
lemma planSubject_of_accepted {gate : ApprovalGate} {subject : PlanApprovalSubject}
    (h : m.planSubjectError gate = none) (hsubject : gate.subject = .plan subject) :
    ∃ plan, m.executionPlan = some plan ∧ gate.subject = plan.approvalSubject := by
  have htype : gate.gateType = .plan := by
    rw [← gate.subject_kind, hsubject]
    rfl
  unfold planSubjectError at h
  rw [if_pos htype] at h
  split at h
  · cases h
  next plan hplan =>
  rw [hsubject] at h ⊢
  simp only [ite_eq_right_iff, reduceCtorEq, imp_false] at h
  push Not at h
  refine ⟨plan, hplan, ?_⟩
  rw [ExecutionPlan.approvalSubject, ← h.1, ← h.2.1, ← h.2.2]

omit [CanonicalDigest] in
lemma addEvidenceRecord_cases {evidence : EvidenceRecord}
    (h : m.addEvidenceRecord evidence = .ok m') :
    m' = m.withEvidenceRecord evidence ∧ m'.validateAggregateReferences = none ∧
      evidence.evidenceId ∉ m.evidenceRecords.map EvidenceRecord.evidenceId := by
  unfold addEvidenceRecord at h
  split_ifs at h with hnew
  obtain ⟨rfl, -, hrefs⟩ := modelValidate_eq_ok.mp h
  exact ⟨rfl, hrefs, hnew⟩

omit [CanonicalDigest] in
lemma recordVerificationGate_cases {gate : VerificationGate}
    (h : m.recordVerificationGate gate = .ok m') :
    m' = m.withVerificationGate gate ∧ m'.validateAggregateReferences = none := by
  obtain ⟨rfl, -, hrefs⟩ := modelValidate_eq_ok.mp h
  exact ⟨rfl, hrefs⟩

/-- A method of the aggregate returns the Mission itself or a validated one. -/
lemma aggregate_validated {call : AggregateCall} (h : m.aggregate call = .ok m') :
    m' = m ∨ m'.modelValidate = .ok m' := by
  have validates : ∀ built : Mission, built.modelValidate = .ok m' →
      m' = m ∨ m'.modelValidate = .ok m' := by
    intro built hbuilt
    obtain ⟨rfl, -⟩ := modelValidate_eq_ok.mp hbuilt
    exact .inr hbuilt
  cases call with
  | attachPlan plan =>
      simp only [aggregate, attachPlan] at h
      split at h
      · cases h
      split at h
      · exact validates _ h
      · split_ifs at h
        · cases h
          exact .inl rfl
        · exact validates _ h
  | addApprovalGate gate =>
      simp only [aggregate, addApprovalGate] at h
      split at h
      · cases h
      split at h
      · cases h
      split at h
      · cases h
      split at h
      · split_ifs at h
        cases h
        exact .inl rfl
      · exact validates _ h
  | addEvidenceRecord evidence =>
      simp only [aggregate, addEvidenceRecord] at h
      split_ifs at h
      exact validates _ h
  | recordVerificationGate gate => exact validates _ h

/-- A method of the aggregate returns a validated Mission when it is called on one. -/
lemma aggregate_valid {call : AggregateCall} (hvalid : m.modelValidate = .ok m)
    (h : m.aggregate call = .ok m') : m'.modelValidate = .ok m' := by
  rcases aggregate_validated h with rfl | hvalid'
  · exact hvalid
  · exact hvalid'

/-- No method of the aggregate touches the state or the history of the Mission. -/
lemma aggregate_sameHistory {call : AggregateCall} (h : m.aggregate call = .ok m') :
    SameHistory m m' := by
  cases call with
  | attachPlan plan =>
      rcases attachPlan_cases h with ⟨rfl, -⟩ | ⟨rfl, -⟩
      · exact .refl m'
      · exact ⟨rfl, rfl, rfl, rfl, rfl⟩
  | addApprovalGate gate =>
      rcases addApprovalGate_cases h with rfl | ⟨rfl, -⟩
      · exact .refl m'
      · exact ⟨rfl, rfl, rfl, rfl, rfl⟩
  | addEvidenceRecord evidence =>
      obtain ⟨rfl, -⟩ := addEvidenceRecord_cases h
      exact ⟨rfl, rfl, rfl, rfl, rfl⟩
  | recordVerificationGate gate =>
      obtain ⟨rfl, -⟩ := recordVerificationGate_cases h
      exact ⟨rfl, rfl, rfl, rfl, rfl⟩

end Aggregate

section Transition

variable [CanonicalDigest] {request : TransitionRequest} {occurredAt : Datetime}
  {result : TransitionResult}

/-- The request is a new one, its event leads to a state, its guard passes, and the result is the
Mission moved there with a new audit. -/
structure Moves (m : Mission) (request : TransitionRequest) (occurredAt : Datetime)
    (result : TransitionResult) : Prop where
  newKey : request.idempotencyKey ∉
    m.transitionAudit.map MissionTransitionAudit.idempotencyKey
  active : m.currentState ∉ terminalStates
  target : m.target request.event = some result.audit.toState
  guard : m.guard request = .ok ()
  audit : ∃ auditId, result.audit = m.newAudit request auditId result.audit.toState occurredAt
  mission : result.mission = m.moved result.audit
  replayed : result.replayed = false

/-- A transition that returns either repeats a recorded audit or moves the Mission. -/
lemma transition_cases (h : m.transition request occurredAt = .ok result) :
    (result.mission = m ∧ result.replayed = true ∧ result.audit ∈ m.transitionAudit ∧
        result.audit.idempotencyKey = request.idempotencyKey ∧
        result.audit.event = request.event ∧
        result.audit.approvalSubject = request.approvalSubject) ∨
      Moves m request occurredAt result := by
  unfold transition at h
  split at h
  · next existing hfound =>
    split_ifs at h with hconflict
    injection h with h
    subst h
    push Not at hconflict
    have hkey := List.find?_some hfound
    exact .inl ⟨rfl, rfl, List.mem_of_find?_eq_some hfound, by simpa using hkey,
      hconflict.1, hconflict.2⟩
  · next hnone =>
    split at h
    · cases h
    next hactive =>
    split at h
    · split_ifs at h
    next toState htarget =>
    split at h
    · cases h
    next hguard =>
    split at h
    · cases h
    next auditId _ =>
    injection h with h
    subst h
    refine .inr ⟨?_, hactive, htarget, hguard, ⟨auditId, rfl⟩, rfl, rfl⟩
    intro hmem
    obtain ⟨audit, haudit, hkey⟩ := List.mem_map.mp hmem
    have := List.find?_eq_none.mp hnone audit haudit
    simp [hkey] at this

lemma Moves.fromState (h : Moves m request occurredAt result) :
    result.audit.fromState = m.currentState := by
  obtain ⟨auditId, haudit⟩ := h.audit
  rw [haudit]
  rfl

lemma Moves.event (h : Moves m request occurredAt result) :
    result.audit.event = request.event := by
  obtain ⟨auditId, haudit⟩ := h.audit
  rw [haudit]
  rfl

lemma Moves.currentState (h : Moves m request occurredAt result) :
    result.mission.currentState = result.audit.toState := by
  rw [h.mission]
  rfl

end Transition

/-- A state that an event other than `RESUME` leads to stands in the table. -/
lemma mem_legalTransitions {state toState : MissionState} {event : MissionEvent}
    (h : legalTransition state event = some toState) :
    ((state, event), toState) ∈ legalTransitions := by
  unfold legalTransition at h
  obtain ⟨edge, hfound, rfl⟩ := Option.map_eq_some_iff.mp h
  have hkey := List.find?_some hfound
  have hmem := List.mem_of_find?_eq_some hfound
  simp only [decide_eq_true_eq] at hkey
  rwa [← hkey]

/-- A move follows an edge of the table or resumes the recorded state. -/
lemma target_cases {event : MissionEvent} {toState : MissionState}
    (h : m.target event = some toState) :
    (event = .resume ∧ m.resumeState = some toState) ∨
      ((m.currentState, event), toState) ∈ legalTransitions := by
  unfold target at h
  split_ifs at h with hresume
  · exact .inl ⟨hresume, h⟩
  · exact .inr (mem_legalTransitions h)

end Mission

/-- Every way into `PAUSED` in the table is the event `PAUSE`, and `PAUSED` is not among the states
that have it. -/
lemma paused_edge {state : MissionState} {event : MissionEvent}
    (h : ((state, event), .paused) ∈ legalTransitions) : event = .pause ∧ state ≠ .paused := by
  have edges : ∀ edge ∈ legalTransitions, edge.2 = .paused →
      edge.1.2 = .pause ∧ edge.1.1 ≠ .paused := by decide
  exact edges _ h rfl

/-- The recorded state of a paused Mission is one that can be paused. -/
lemma resumeState_of_run [CanonicalDigest] {P : Mission → AggregateCall → Prop} {m : Mission}
    (h : Run P m) :
    ∀ state ∈ m.resumeState, ((state, .pause), .paused) ∈ legalTransitions := by
  induction h with
  | fresh h =>
      intro state hstate
      rw [h.resume] at hstate
      cases hstate
  | aggregate _ _ returned ih =>
      rw [(Mission.aggregate_sameHistory returned).resumeState]
      exact ih
  | transition _ returned ih =>
      rcases Mission.transition_cases returned with ⟨hsame, -⟩ | hmoves
      · rwa [hsame]
      rw [hmoves.mission]
      intro state hstate
      simp only [Mission.moved, Option.mem_def, Option.ite_none_right_eq_some,
        Option.some.injEq] at hstate
      obtain ⟨hpaused, rfl⟩ := hstate
      have htarget := hmoves.target
      rw [hpaused] at htarget
      rcases Mission.target_cases htarget with ⟨-, hresume⟩ | hedge
      · exact absurd rfl (paused_edge (ih _ hresume)).2
      · rwa [(paused_edge hedge).1] at hedge

lemma eq_ok_of_toOption {ε α : Type*} {outcome : Except ε α} {a : α}
    (h : outcome.toOption = some a) : outcome = .ok a := by
  cases outcome with
  | error error => cases h
  | ok value =>
      cases h
      rfl

/-- A list of calls that return continues a run, when `P` allows its aggregate calls. -/
lemma Run.play [CanonicalDigest] {P : Mission → AggregateCall → Prop} {m m' : Mission}
    {calls : List Call} (h : Run P m) (hplay : m.play calls = some m')
    (allowed : ∀ m, ∀ call, Call.aggregate call ∈ calls → P m call) : Run P m' := by
  induction calls generalizing m with
  | nil =>
      cases hplay
      exact h
  | cons call calls ih =>
      obtain ⟨next, hcall, hrest⟩ := Option.bind_eq_some_iff.mp hplay
      refine ih ?_ hrest fun m c hc => allowed m c (List.mem_cons_of_mem _ hc)
      cases call with
      | aggregate call =>
          exact .aggregate h (allowed m call List.mem_cons_self) (eq_ok_of_toOption hcall)
      | transition request occurredAt =>
          obtain ⟨result, hresult, rfl⟩ := Option.map_eq_some_iff.mp hcall
          exact .transition h (eq_ok_of_toOption hresult)

/-! ## A Mission with one task -/

def identifier (text : String) (h : isIdentifier text = true := by decide) : Identifier :=
  ⟨text, h⟩

lemma isIdentifier_developer : isIdentifier "developer-1" = true := by decide

lemma isIdentifier_task : isIdentifier "task-1" = true := by decide

lemma isIdentifier_evidence : isIdentifier "evidence-1" = true := by decide

lemma isIdentifier_start : isIdentifier "start" = true := by decide

lemma isIdentifier_submit : isIdentifier "submit" = true := by decide

lemma isIdentifier_pause : isIdentifier "pause" = true := by decide

lemma isIdentifier_resume : isIdentifier "resume" = true := by decide

def samplePlan (revision : ℕ+) : ExecutionPlan where
  planId := identifier "plan-1"
  missionId := identifier "mission-1"
  revision := revision
  tasks := [{ taskId := identifier "task-1" isIdentifier_task
              title := "Inspect architecture"
              order := 1 }]
  requiredVerification := [.tests]
  valid := rfl

/-- The SHA-256 digests of the canonical JSON of the first two revisions of the plan. -/
@[reducible] def sampleDigest : CanonicalDigest where
  canonicalDigest plan :=
    if plan.revision = 1 then
      ⟨"4632d99af40993fb669737c624598108060faa1e92b7904b32c6e463566c084c", by decide⟩
    else ⟨"f2c528942685d8ab71faa1748c0fe60cafef8207c840dbe5f10bae4a786f83ad", by decide⟩

def sampleMission : Mission where
  missionId := identifier "mission-1"
  createdAt := 0
  updatedAt := 0
  actorId := identifier "developer-1" isIdentifier_developer

lemma sampleMission_fresh : sampleMission.Fresh where
  valid := Mission.modelValidate_eq_ok.mpr ⟨rfl, rfl, rfl⟩
  draft := rfl
  plan := rfl
  approvals := rfl
  verifications := rfl
  audit := rfl
  resume := rfl

def sampleSubject : ApprovalSubject := @ExecutionPlan.approvalSubject sampleDigest (samplePlan 1)

def sampleApproval : ApprovalGate where
  gateId := identifier "plan-gate"
  gateType := .plan
  subject := sampleSubject
  status := .approved
  actorId := some (identifier "developer-1" isIdentifier_developer)
  decidedAt := some 0
  idempotencyKey := identifier "approval-plan-gate"
  subject_kind := rfl

/-- A request of the developer at time 0. -/
def sampleRequest (event : MissionEvent) (key : IdempotencyKey)
    (subject : Option ApprovalSubject) : Call :=
  .transition ⟨event, identifier "developer-1" isIdentifier_developer, key, subject⟩ 0

/-- The calls that take the sample Mission to `RUNNING` with the first revision of its plan. -/
def callsToRunning : List Call :=
  [sampleRequest .startPlanning (identifier "start" isIdentifier_start) none,
   .aggregate (.attachPlan (samplePlan 1)),
   sampleRequest .submitPlan (identifier "submit" isIdentifier_submit) none,
   .aggregate (.addApprovalGate sampleApproval),
   sampleRequest .approvePlan (identifier "approve") (some sampleSubject)]

def samplePlay (calls : List Call) : Option Mission := @Mission.play sampleDigest sampleMission calls

end AgentSystem.Missions
