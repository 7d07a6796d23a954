import AgentSystem.MissionAuditTrail

/-!
# Replanning

A Mission comes back to `PLANNING` when its plan is rejected or a larger scope is refused, and then
needs a new revision of the plan. Everything that the run has recorded is validated again with it.
-/
namespace AgentSystem.Missions

namespace Mission

variable {m m' : Mission}

/-- What the validator asks of a Mission apart from the length of its audit, which transitions
extend without validation. -/
structure Consistent (m : Mission) : Prop where
  references : m.validateAggregateReferences = none
  approvals : m.approvalGates.length ≤ 256
  evidence : m.evidenceRecords.length ≤ 1000
  verifications : m.verificationGates.length ≤ 32

lemma consistent_of_valid (h : m.modelValidate = .ok m') : m.Consistent := by
  obtain ⟨-, hlong, hrefs⟩ := modelValidate_eq_ok.mp h
  obtain ⟨happrovals, hevidence, hverifications, -⟩ := longFields_eq_nil.mp hlong
  exact ⟨hrefs, happrovals, hevidence, hverifications⟩

lemma uniquenessError_eq_none :
    m.uniquenessError = none ↔ (m.approvalGates.map ApprovalGate.gateId).Nodup ∧
      (m.scopeExpansionRequests.map ScopeExpansionRequest.requestId).Nodup ∧
      (m.evidenceRecords.map EvidenceRecord.evidenceId).Nodup ∧
      (m.verificationGates.map VerificationGate.gate).Nodup ∧ m.requiredVerification.Nodup ∧
      (m.transitionAudit.map MissionTransitionAudit.idempotencyKey).Nodup := by
  unfold uniquenessError
  split_ifs <;> simp_all

section Run

variable [CanonicalDigest]

lemma Consistent.transition {request : TransitionRequest} {occurredAt : Datetime}
    {result : TransitionResult} (h : m.Consistent)
    (hreturn : m.transition request occurredAt = .ok result) : result.mission.Consistent := by
  rcases transition_cases hreturn with ⟨hsame, -⟩ | hmoves
  · rwa [hsame]
  rw [hmoves.mission]
  obtain ⟨hplan, hunique, hlinks, hdecisions, hgates⟩ :=
    validateAggregateReferences_eq_none.mp h.references
  have hevidence : (m.moved result.audit).evidenceRecords = m.evidenceRecords := rfl
  refine ⟨validateAggregateReferences_eq_none.mpr ⟨hplan, ?_, hlinks, ?_, ?_⟩, h.approvals,
    h.evidence, h.verifications⟩
  · obtain ⟨hids, hscopes, hrecords, hnames, hrequired, hkeys⟩ := uniquenessError_eq_none.mp hunique
    refine uniquenessError_eq_none.mpr ⟨hids, hscopes, hrecords, hnames, hrequired, ?_⟩
    change ((m.transitionAudit ++ [result.audit]).map
      MissionTransitionAudit.idempotencyKey).Nodup
    rw [List.map_append, List.map_singleton, hmoves.idempotencyKey, ← List.concat_eq_append]
    exact hkeys.concat hmoves.newKey
  · exact (decisionError_congr hevidence _ _).trans hdecisions
  · exact fun gate hgate => (verificationGateError_congr hevidence gate).trans (hgates gate hgate)

/-- What a run records stays consistent. -/
lemma consistent_of_run {P : Mission → AggregateCall → Prop} (h : Run P m) : m.Consistent := by
  induction h with
  | fresh h => exact consistent_of_valid h.valid
  | aggregate _ _ returned ih =>
      rcases aggregate_validated returned with rfl | hvalid
      · exact ih
      · exact consistent_of_valid hvalid
  | transition _ returned ih => exact ih.transition returned

end Run

/-! ## A later revision -/

/-- Evidence that is linked to tasks binds the revision that the Mission has. -/
lemma Consistent.linked {current : ExecutionPlan} (h : m.Consistent)
    (hplan : m.executionPlan = some current) {record : EvidenceRecord}
    (hrecord : record ∈ m.evidenceRecords) (hlinks : record.taskLinks ≠ []) :
    record.planRevision = some current.revision := by
  obtain ⟨-, -, herror, -⟩ := validateAggregateReferences_eq_none.mp h.references
  rw [taskLinksError, hplan] at herror
  have hnone := List.findSome?_eq_none_iff.mp herror record hrecord
  rw [taskLinkError] at hnone
  split_ifs at hnone with hrevision
  push Not at hrevision
  exact hrevision hlinks

/-- A record without links stands in the way of no plan. -/
lemma taskLinkError_unlinked {plan : ExecutionPlan} {record : EvidenceRecord}
    (h : record.taskLinks = []) : taskLinkError plan record = none := by
  simp [taskLinkError, h]

/-- The gates of an accepted plan are named once. -/
lemma requiredVerification_nodup (plan : ExecutionPlan) : plan.requiredVerification.Nodup := by
  by_contra hdup
  have hvalid := plan.valid
  simp only [planError, hdup, not_false_eq_true, if_true] at hvalid
  split at hvalid
  · cases hvalid
  split at hvalid
  · cases hvalid
  split at hvalid
  · cases hvalid
  · split_ifs at hvalid

/-- When the Mission with a later revision of its plan is valid. -/
lemma Consistent.withPlan_valid {current plan : ExecutionPlan} (h : m.Consistent)
    (hplan : m.executionPlan = some current) (hlater : current.revision < plan.revision) :
    (m.withPlan plan).modelValidate = .ok (m.withPlan plan) ↔
      (∀ record ∈ m.evidenceRecords, record.taskLinks = []) ∧
        m.transitionAudit.length ≤ 1000 := by
  rw [modelValidate_eq_ok, longFields_eq_nil, validateAggregateReferences_eq_none]
  have hevidence : (m.withPlan plan).evidenceRecords = m.evidenceRecords := rfl
  constructor
  · rintro ⟨-, ⟨-, -, -, haudit⟩, -, -, hlinks, -⟩
    refine ⟨fun record hrecord => ?_, haudit⟩
    by_contra hlinked
    have hnone : taskLinkError plan record = none :=
      List.findSome?_eq_none_iff.mp hlinks record hrecord
    have hbound := h.linked hplan hrecord hlinked
    rw [taskLinkError] at hnone
    split_ifs at hnone with hrevision
    push Not at hrevision
    have heq := hrevision hlinked
    rw [hbound, Option.some.injEq] at heq
    exact absurd heq hlater.ne
  · rintro ⟨hunlinked, haudit⟩
    obtain ⟨-, hunique, -, hdecisions, hgates⟩ :=
      validateAggregateReferences_eq_none.mp h.references
    obtain ⟨hids, hscopes, hrecords, hnames, -, hkeys⟩ := uniquenessError_eq_none.mp hunique
    refine ⟨rfl, ⟨h.approvals, h.evidence, h.verifications, haudit⟩, ?_, ?_, ?_, ?_, ?_⟩
    · simp [planReferenceError, Mission.withPlan]
    · exact uniquenessError_eq_none.mpr
        ⟨hids, hscopes, hrecords, hnames, requiredVerification_nodup plan, hkeys⟩
    · exact List.findSome?_eq_none_iff.mpr fun record hrecord =>
        taskLinkError_unlinked (hunlinked record hrecord)
    · exact (decisionError_congr hevidence _ _).trans hdecisions
    · exact fun gate hgate =>
        (verificationGateError_congr hevidence gate).trans (hgates gate hgate)

/-- `attach_plan` of a later revision in `PLANNING` is what the validator makes of it. -/
lemma attachPlan_planning [CanonicalDigest] {current plan : ExecutionPlan}
    (hstate : m.currentState = .planning) (hplan : m.executionPlan = some current)
    (hmission : plan.missionId = m.missionId) (hid : plan.planId = current.planId)
    (hlater : current.revision < plan.revision) :
    m.attachPlan plan = (m.withPlan plan).modelValidate := by
  rw [attachPlan, if_neg (not_not.mpr hmission), hplan]
  change (if _ then _ else _) = _
  rw [if_neg fun h => hlater.ne' h.2, if_neg, if_neg]
  · rw [hstate]
    decide
  · rintro (hother | hearlier)
    · exact hother hid
    · exact absurd hearlier (not_le.mpr hlater)

/-- In `PLANNING` a later revision of the plan is attached, and leaves gates and evidence as they
are, exactly if no evidence is linked to tasks and the audit is no longer than it may be. -/
theorem replanning_succeeds_iff [CanonicalDigest] {current plan : ExecutionPlan}
    (h : Run (fun _ _ => True) m) (hstate : m.currentState = .planning)
    (hplan : m.executionPlan = some current) (hmission : plan.missionId = m.missionId)
    (hid : plan.planId = current.planId) (hlater : current.revision < plan.revision) :
    (∃ m', m.attachPlan plan = .ok m' ∧ m'.approvalGates = m.approvalGates ∧
      m'.evidenceRecords = m.evidenceRecords) ↔
        (∀ record ∈ m.evidenceRecords, record.taskLinks = []) ∧
          m.transitionAudit.length ≤ 1000 := by
  rw [attachPlan_planning hstate hplan hmission hid hlater,
    ← (consistent_of_run h).withPlan_valid hplan hlater]
  constructor
  · rintro ⟨m', hvalid, -⟩
    obtain ⟨rfl, -⟩ := modelValidate_eq_ok.mp hvalid
    exact hvalid
  · intro hvalid
    exact ⟨m.withPlan plan, hvalid, rfl, rfl⟩

/-! ## A plan that is rejected -/

def callsToPlanning (evidence : EvidenceRecord) : List Call :=
  [sampleRequest .startPlanning (identifier "start" isIdentifier_start) none,
   .aggregate (.attachPlan (samplePlan ⟨1, Nat.one_pos⟩)),
   sampleRequest .submitPlan (identifier "submit" isIdentifier_submit) none,
   .aggregate (.addEvidenceRecord evidence),
   sampleRequest .rejectPlan (identifier "reject") none]

def unlinkedEvidence : EvidenceRecord where
  evidenceId := identifier "evidence-1" isIdentifier_evidence
  evidenceType := .review

/-- Evidence for the task of the first revision. -/
def linkedEvidence : EvidenceRecord where
  evidenceId := identifier "evidence-1" isIdentifier_evidence
  evidenceType := .review
  taskLinks := [identifier "task-1" isIdentifier_task]
  planRevision := some ⟨1, Nat.one_pos⟩

set_option maxRecDepth 4000 in
def replanningMission : Mission := (samplePlay (callsToPlanning unlinkedEvidence)).get (by decide)

set_option maxRecDepth 4000 in
def blockedMission : Mission := (samplePlay (callsToPlanning linkedEvidence)).get (by decide)

theorem replanning_succeeds_unlinked :
    ∃ m', @attachPlan sampleDigest replanningMission (samplePlan 2) = .ok m' ∧
      m'.approvalGates = replanningMission.approvalGates ∧
      m'.evidenceRecords = replanningMission.evidenceRecords := by
  let := sampleDigest
  have hrun : Run (fun _ _ => True) replanningMission :=
    .play (.fresh sampleMission_fresh) (Option.some_get _).symm fun _ _ _ => trivial
  have hplan : replanningMission.executionPlan = some (samplePlan 1) := by decide
  exact (replanning_succeeds_iff hrun (by decide) hplan (by decide) (by decide)
    (by decide)).mpr (by decide)

theorem linked_evidence_blocks :
    ¬ ∀ [CanonicalDigest] (m : Mission) (current plan : ExecutionPlan), Run (fun _ _ => True) m →
      m.currentState = .planning → m.executionPlan = some current →
        plan.missionId = m.missionId → plan.planId = current.planId →
          current.revision < plan.revision →
            ∃ m', m.attachPlan plan = .ok m' ∧ m'.approvalGates = m.approvalGates ∧
              m'.evidenceRecords = m.evidenceRecords := by
  intro claim
  let := sampleDigest
  have hrun : Run (fun _ _ => True) blockedMission :=
    .play (.fresh sampleMission_fresh) (Option.some_get _).symm fun _ _ _ => trivial
  obtain ⟨m', hattached, -⟩ := claim blockedMission (samplePlan 1) (samplePlan 2) hrun (by decide)
    (by decide) (by decide) (by decide) (by decide)
  have hrefused : @attachPlan sampleDigest blockedMission (samplePlan 2) =
      .error (.value "evidence task links must bind the current plan revision") := by decide
  rw [hrefused] at hattached
  cases hattached

end Mission

end AgentSystem.Missions
