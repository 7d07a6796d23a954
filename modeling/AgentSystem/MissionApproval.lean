import AgentSystem.MissionRun

/-!
# Approval of the plan under execution

A Mission enters `RUNNING` from `AWAITING_APPROVAL` only with an approved plan, and every other
way into an executing state starts in a state in which the approved plan is in use. The approval
therefore stays with the Mission as long as the plan in use is not replaced. `attach_plan` locks
the plan in some of these states, but not in all of them.
-/
namespace AgentSystem.Missions

/-- The states in which the attached plan is carried out. -/
def executingStates : List MissionState :=
  [.running, .verifying, .ciFailed, .reviewReady, .draftPrCreated]

/-- The states between the approval of a plan and a new planning or the end of the Mission. -/
def planInUseStates : List MissionState := executingStates ++ [.needsDecision, .scopeBlocked]

/-- Only `APPROVE_PLAN` puts a plan to use. -/
lemma planInUse_edge {state toState : MissionState} {event : MissionEvent}
    (h : ((state, event), toState) ∈ legalTransitions) (huse : toState ∈ planInUseStates) :
    state ∈ planInUseStates ∨ event = .approvePlan := by
  have edges : ∀ edge ∈ legalTransitions, edge.2 ∈ planInUseStates →
      edge.1.1 ∈ planInUseStates ∨ edge.1.2 = .approvePlan := by decide
  exact edges _ h huse

namespace Mission

/-- `attach_plan` is not asked to replace the attached plan by a later revision while that plan is
in use in `NEEDS_DECISION`, `SCOPE_BLOCKED` or `CI_FAILED`, or in a Mission that was paused while
it was in use. -/
def KeepsPlanInUse (m : Mission) : AggregateCall → Prop
  | .attachPlan plan =>
      (∃ current ∈ m.executionPlan, current.revision < plan.revision) →
        m.currentState ∉ [.needsDecision, .scopeBlocked, .ciFailed] ∧
          ∀ state ∈ m.resumeState, state ∉ planInUseStates
  | _ => True

variable {m m' : Mission}

/-- The property holds while the plan is in use and while a paused Mission may return to its
use. -/
structure WhileInUse (Q : Mission → Prop) (m : Mission) : Prop where
  current : m.currentState ∈ planInUseStates → Q m
  resume : ∀ state ∈ m.resumeState, state ∈ planInUseStates → Q m

section WhileInUse

variable {Q : Mission → Prop}

lemma Fresh.whileInUse (h : m.Fresh) : WhileInUse Q m where
  current hstate := by
    rw [h.draft] at hstate
    exact absurd hstate (by decide)
  resume state hstate := by
    rw [h.resume] at hstate
    cases hstate

lemma WhileInUse.sameHistory (h : WhileInUse Q m) (hsame : SameHistory m m')
    (hkeep : Q m → Q m') : WhileInUse Q m' where
  current hstate := by
    rw [hsame.currentState] at hstate
    exact hkeep (h.current hstate)
  resume state hstate huse := by
    rw [hsame.resumeState] at hstate
    exact hkeep (h.resume state hstate huse)

/-- A property that the guard of `APPROVE_PLAN` checks and that no move changes holds while the
plan is in use. -/
lemma WhileInUse.transition [CanonicalDigest] {request : TransitionRequest}
    {occurredAt : Datetime} {result : TransitionResult} (h : WhileInUse Q m)
    (hguard : m.requirePlanApproval request = .ok () → Q m)
    (hmoved : ∀ audit, Q m → Q (m.moved audit))
    (hreturn : m.transition request occurredAt = .ok result) : WhileInUse Q result.mission := by
  rcases transition_cases hreturn with ⟨hsame, -⟩ | hmoves
  · rwa [hsame]
  rw [hmoves.mission]
  constructor
  · intro huse
    apply hmoved
    rcases target_cases hmoves.target with ⟨-, hresume⟩ | hedge
    · exact h.resume _ hresume huse
    · rcases planInUse_edge hedge huse with hstate | hevent
      · exact h.current hstate
      · have passes := hmoves.guard
        simp only [guard, hevent] at passes
        exact hguard passes
  · intro state hresume huse
    simp only [moved, Option.mem_def, Option.ite_none_right_eq_some, Option.some.injEq] at hresume
    obtain ⟨-, rfl⟩ := hresume
    exact hmoved _ (h.current huse)

end WhileInUse

section Approval

variable [CanonicalDigest]

/-- An approved gate of type `PLAN` names exactly the attached plan. -/
def PlanApproved (m : Mission) : Prop :=
  ∃ plan ∈ m.executionPlan, ∃ gate ∈ m.approvalGates,
    gate.gateType = .plan ∧ gate.status = .approved ∧ gate.subject = plan.approvalSubject

instance (m : Mission) : Decidable m.PlanApproved := by
  unfold PlanApproved
  infer_instance

/-- Approvals are only added. -/
lemma PlanApproved.mono (h : m.PlanApproved) (hplan : m'.executionPlan = m.executionPlan)
    (hgates : m.approvalGates ⊆ m'.approvalGates) : m'.PlanApproved := by
  obtain ⟨plan, hattached, gate, hgate, happroved⟩ := h
  rw [← hplan] at hattached
  exact ⟨plan, hattached, gate, hgates hgate, happroved⟩

/-- A replaced plan was not in use: where it was, the lock or the condition on the call forbids
the replacement. -/
lemma WhileInUse.attachPlan {plan : ExecutionPlan} (h : WhileInUse PlanApproved m)
    (hkeep : m.KeepsPlanInUse (.attachPlan plan)) (hreturn : m.attachPlan plan = .ok m') :
    WhileInUse PlanApproved m' := by
  rcases attachPlan_cases hreturn with ⟨rfl, -⟩ | ⟨rfl, -, hlater⟩
  · exact h
  have unused : ∀ current ∈ m.executionPlan, m.currentState ∉ planInUseStates ∧
      ∀ state ∈ m.resumeState, state ∉ planInUseStates := by
    intro current hcurrent
    obtain ⟨hrevision, hunlocked⟩ := hlater current hcurrent
    obtain ⟨hstate, hresume⟩ := hkeep ⟨current, hcurrent, hrevision⟩
    refine ⟨?_, hresume⟩
    simp only [planLockedStates, planInUseStates, executingStates, List.mem_append,
      List.mem_cons, List.not_mem_nil, or_false, not_or] at hunlocked hstate ⊢
    tauto
  constructor
  · intro hstate
    obtain ⟨current, hcurrent, -⟩ := h.current hstate
    exact absurd hstate (unused current hcurrent).1
  · intro state hresume hstate
    obtain ⟨current, hcurrent, -⟩ := h.resume state hresume hstate
    exact absurd hstate ((unused current hcurrent).2 state hresume)

lemma WhileInUse.aggregate {call : AggregateCall} (h : WhileInUse PlanApproved m)
    (hkeep : m.KeepsPlanInUse call) (hreturn : m.aggregate call = .ok m') :
    WhileInUse PlanApproved m' := by
  cases call with
  | attachPlan plan => exact h.attachPlan hkeep hreturn
  | addApprovalGate gate =>
      rcases addApprovalGate_cases hreturn with rfl | ⟨rfl, -⟩
      · exact h
      · exact h.sameHistory (aggregate_sameHistory hreturn) fun approved =>
          approved.mono rfl (List.subset_append_left _ _)
  | addEvidenceRecord evidence =>
      obtain ⟨rfl, -⟩ := addEvidenceRecord_cases hreturn
      exact h.sameHistory (aggregate_sameHistory hreturn) fun approved =>
        approved.mono rfl (List.Subset.refl _)
  | recordVerificationGate gate =>
      obtain ⟨rfl, -⟩ := recordVerificationGate_cases hreturn
      exact h.sameHistory (aggregate_sameHistory hreturn) fun approved =>
        approved.mono rfl (List.Subset.refl _)

/-- The guard of `APPROVE_PLAN`. -/
lemma planApproved_of_requirePlanApproval {request : TransitionRequest}
    (h : m.requirePlanApproval request = .ok ()) : m.PlanApproved := by
  unfold requirePlanApproval at h
  split at h
  · cases h
  · next subject _ =>
    split at h
    · cases h
    next plan hplan =>
    split_ifs at h with hsubject hgate
    push Not at hsubject
    obtain ⟨gate, hmem, happroved⟩ := List.any_eq_true.mp hgate
    obtain ⟨htype, hstatus, hnames⟩ := of_decide_eq_true happroved
    refine ⟨plan, hplan, gate, hmem, htype, hstatus, ?_⟩
    rw [hnames, ExecutionPlan.approvalSubject, ← hsubject.1, ← hsubject.2.1, ← hsubject.2.2]
  · cases h

lemma planApproved_whileInUse (h : Run KeepsPlanInUse m) : WhileInUse PlanApproved m := by
  induction h with
  | fresh h => exact h.whileInUse
  | aggregate _ allowed returned ih => exact ih.aggregate allowed returned
  | transition _ returned ih =>
      exact ih.transition planApproved_of_requirePlanApproval
        (fun _ approved => approved.mono rfl (List.Subset.refl _)) returned

/-- A plan in use is attached, whatever the calls of the run. -/
lemma hasPlan_whileInUse {P : Mission → AggregateCall → Prop} (h : Run P m) :
    WhileInUse (fun m => ∃ plan, m.executionPlan = some plan) m := by
  induction h with
  | fresh h => exact h.whileInUse
  | @aggregate m m' call _ _ returned ih =>
      refine ih.sameHistory (aggregate_sameHistory returned) ?_
      intro hplan
      cases call with
      | attachPlan plan =>
          rcases attachPlan_cases returned with ⟨rfl, -⟩ | ⟨rfl, -⟩
          · exact hplan
          · exact ⟨plan, rfl⟩
      | addApprovalGate gate =>
          rcases addApprovalGate_cases returned with rfl | ⟨rfl, -⟩ <;> exact hplan
      | addEvidenceRecord evidence =>
          obtain ⟨rfl, -⟩ := addEvidenceRecord_cases returned
          exact hplan
      | recordVerificationGate gate =>
          obtain ⟨rfl, -⟩ := recordVerificationGate_cases returned
          exact hplan
  | transition _ returned ih =>
      refine ih.transition ?_ (fun _ hplan => hplan) returned
      intro passes
      obtain ⟨plan, hplan, -⟩ := planApproved_of_requirePlanApproval passes
      exact ⟨plan, hplan⟩

/-- The approvals of plans name revisions up to that of the attached plan. -/
def ApprovalsUpToPlan (m : Mission) : Prop :=
  ∀ gate ∈ m.approvalGates, ∀ subject, gate.subject = .plan subject →
    ∃ plan ∈ m.executionPlan, subject.planRevision ≤ plan.revision

lemma ApprovalsUpToPlan.attachPlan {plan : ExecutionPlan} (h : m.ApprovalsUpToPlan)
    (hreturn : m.attachPlan plan = .ok m') : m'.ApprovalsUpToPlan := by
  rcases attachPlan_cases hreturn with ⟨rfl, -⟩ | ⟨rfl, -, hlater⟩
  · exact h
  intro gate hgate subject hsubject
  obtain ⟨current, hcurrent, hle⟩ := h gate hgate subject hsubject
  exact ⟨plan, rfl, hle.trans (hlater current hcurrent).1.le⟩

lemma ApprovalsUpToPlan.addApprovalGate {gate : ApprovalGate} (h : m.ApprovalsUpToPlan)
    (hreturn : m.addApprovalGate gate = .ok m') : m'.ApprovalsUpToPlan := by
  rcases addApprovalGate_cases hreturn with rfl | ⟨rfl, -, hplan⟩
  · exact h
  intro item hitem subject hsubject
  rcases List.mem_append.mp hitem with hold | hnew
  · exact h item hold subject hsubject
  · obtain rfl := List.mem_singleton.mp hnew
    obtain ⟨plan, hattached, hnames⟩ := planSubject_of_accepted hplan hsubject
    obtain rfl := ApprovalSubject.plan.inj (hsubject.symm.trans hnames)
    exact ⟨plan, hattached, le_rfl⟩

lemma approvalsUpToPlan_of_run {P : Mission → AggregateCall → Prop} (h : Run P m) :
    m.ApprovalsUpToPlan := by
  induction h with
  | fresh h =>
      intro gate hgate
      rw [h.approvals] at hgate
      cases hgate
  | @aggregate m m' call _ _ returned ih =>
      cases call with
      | attachPlan plan => exact ih.attachPlan returned
      | addApprovalGate gate => exact ih.addApprovalGate returned
      | addEvidenceRecord evidence =>
          obtain ⟨rfl, -⟩ := addEvidenceRecord_cases returned
          exact ih
      | recordVerificationGate gate =>
          obtain ⟨rfl, -⟩ := recordVerificationGate_cases returned
          exact ih
  | transition _ returned ih =>
      rcases transition_cases returned with ⟨hsame, -⟩ | hmoves
      · rwa [hsame]
      · rw [hmoves.mission]
        exact ih

/-- A plan that replaces another one comes without approval. -/
theorem replaced_plan_unapproved {P : Mission → AggregateCall → Prop} {plan : ExecutionPlan}
    (h : Run P m) (hlater : ∃ current ∈ m.executionPlan, current.revision < plan.revision)
    (hreturn : m.attachPlan plan = .ok m') : ¬ m'.PlanApproved := by
  obtain ⟨current, hcurrent, hlt⟩ := hlater
  rintro ⟨attached, hattached, gate, hgate, -, -, hsubject⟩
  have upTo := approvalsUpToPlan_of_run h
  rcases attachPlan_cases hreturn with ⟨rfl, other, hother, heq⟩ | ⟨rfl, -, -⟩
  · obtain rfl := Option.mem_unique hother hcurrent
    exact absurd heq hlt.ne'
  · cases hattached
    obtain ⟨other, hother, hle⟩ := upTo gate hgate _ hsubject
    obtain rfl : other = current := Option.mem_unique hother hcurrent
    exact absurd hle (not_le.mpr hlt)

/-- In every run in which `attach_plan` does not replace a plan that is in use, the plan of a
Mission in an executing state is approved, with exactly its id, revision and digest. -/
theorem plan_approved (h : Run KeepsPlanInUse m) (hstate : m.currentState ∈ executingStates) :
    m.PlanApproved :=
  (planApproved_whileInUse h).current (List.mem_append_left _ hstate)

end Approval

set_option maxRecDepth 4000 in
def runningMission : Mission := (samplePlay callsToRunning).get (by decide)

theorem plan_approved_running : @PlanApproved sampleDigest runningMission := by
  let := sampleDigest
  have hrun : Run KeepsPlanInUse runningMission := by
    refine .play (.fresh sampleMission_fresh) (Option.some_get _).symm ?_
    intro m call hcall
    simp only [callsToRunning, sampleRequest, List.mem_cons, Call.aggregate.injEq, reduceCtorEq,
      List.not_mem_nil, false_or, or_false] at hcall
    rcases hcall with rfl | rfl
    · rintro ⟨current, -, hlt⟩
      exact absurd hlt not_lt_one
    · trivial
  exact plan_approved hrun (by decide)

/-- The Mission is paused while it runs, its plan is replaced, and it runs on. -/
def replannedCalls : List Call :=
  callsToRunning ++
    [sampleRequest .pause (identifier "pause" isIdentifier_pause) none,
     .aggregate (.attachPlan (samplePlan 2)),
     sampleRequest .resume (identifier "resume" isIdentifier_resume) none]

set_option maxRecDepth 4000 in
def replannedMission : Mission := (samplePlay replannedCalls).get (by decide)

theorem replaced_plan_runs :
    ¬ ∀ [CanonicalDigest] (m : Mission), Run (fun _ _ => True) m →
      m.currentState ∈ executingStates → m.PlanApproved := by
  intro claim
  let := sampleDigest
  have hrun : Run (fun _ _ => True) replannedMission :=
    .play (.fresh sampleMission_fresh) (Option.some_get _).symm fun _ _ _ => trivial
  exact absurd (claim replannedMission hrun (by decide)) (by decide)

end Mission

end AgentSystem.Missions
