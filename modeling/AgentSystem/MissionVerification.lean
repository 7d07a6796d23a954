import AgentSystem.KeyedTable
import AgentSystem.MissionApproval

/-!
# Verification before delivery

`REVIEW_READY` is entered by `COMPLETE_VERIFICATION`, whose guard asks for complete verification,
or by resuming it. Neither `CREATE_DRAFT_PR` nor `CLOSE` asks again. Complete verification
therefore stands behind a delivery as long as the gates that it rests on are not changed while the
Mission is in `REVIEW_READY` or paused from there.
-/
namespace AgentSystem.Missions

/-- A status with which a gate of a validated Mission counts as complete. -/
def GateStatus.settled (status : GateStatus) : Prop := status = .passed ∨ status = .notApplicable

/-- Only `COMPLETE_VERIFICATION` leads to `REVIEW_READY`. -/
lemma reviewReady_edge {state : MissionState} {event : MissionEvent}
    (h : ((state, event), .reviewReady) ∈ legalTransitions) : event = .completeVerification := by
  have edges : ∀ edge ∈ legalTransitions, edge.2 = .reviewReady →
      edge.1.2 = .completeVerification := by decide
  exact edges _ h rfl

/-- Only a Mission in `REVIEW_READY` gets a Draft PR. -/
lemma draftPrCreated_edge {state : MissionState} {event : MissionEvent}
    (h : ((state, event), .draftPrCreated) ∈ legalTransitions) : state = .reviewReady := by
  have edges : ∀ edge ∈ legalTransitions, edge.2 = .draftPrCreated →
      edge.1.1 = .reviewReady := by decide
  exact edges _ h rfl

namespace Mission

variable {m m' : Mission}

/-- The Mission is in `REVIEW_READY`, or paused and will return to it. -/
def UnderReview (m : Mission) : Prop :=
  m.currentState = .reviewReady ∨ m.resumeState = some .reviewReady

/-- While the Mission is under review, a required gate is recorded only as passed or not
applicable, and the attached plan is not replaced by one that requires a gate that is not recorded
so. -/
def KeepsVerification (m : Mission) : AggregateCall → Prop
  | .recordVerificationGate gate =>
      m.UnderReview → gate.gate ∈ m.requiredVerification → gate.status.settled
  | .attachPlan plan =>
      m.UnderReview → (∃ current ∈ m.executionPlan, current.revision < plan.revision) →
        ∀ name ∈ plan.requiredVerification,
          ∃ gate ∈ m.verificationGates, gate.gate = name ∧ gate.status.settled
  | _ => True

/-! ## What the validator says about gates -/

section Validator

variable {name : VerificationGateName} {gate : VerificationGate}

lemma unique_gates (h : m.validateAggregateReferences = none) :
    (m.verificationGates.map VerificationGate.gate).Nodup := by
  have hunique := (validateAggregateReferences_eq_none.mp h).2.1
  unfold uniquenessError at hunique
  split_ifs at hunique
  assumption

/-- The last gate of a name in a validated Mission is its only one. -/
lemma gatesByName_of_mem (h : m.validateAggregateReferences = none)
    (hgate : gate ∈ m.verificationGates) : m.gatesByName gate.gate = some gate :=
  (find?_reverse_key_eq_some (unique_gates h)).mpr ⟨hgate, rfl⟩

/-- The evidence of a passed gate that the validator accepts. -/
lemma evidence_of_passed (h : m.verificationGateError gate = none) (hpassed : gate.status = .passed)
    {ref : EvidenceId} (href : ref ∈ gate.evidenceRefs) :
    ∃ record, m.evidenceById ref = some record ∧ supports record gate.gate = true := by
  unfold verificationGateError at h
  simp only [hpassed, if_true] at h
  split_ifs at h with hmissing hstatus htype
  push Not at hstatus htype
  have hmem : m.evidenceById ref ∈ gate.evidenceRefs.map m.evidenceById :=
    List.mem_map_of_mem href
  cases hrecord : m.evidenceById ref with
  | none =>
      rw [hrecord] at hmem
      exact absurd hmem hmissing
  | some record =>
      rw [hrecord] at hmem
      have hlinked := List.reduceOption_mem_iff.mpr hmem
      exact ⟨record, rfl, by simp [supports, hstatus record hlinked, htype record hlinked]⟩

/-- What the validator demands of the evidence of a passed gate is what `verification_complete`
asks for. -/
lemma gateComplete_of_settled (h : m.validateAggregateReferences = none)
    (hgate : gate ∈ m.verificationGates) (hsettled : gate.status.settled) :
    m.gateComplete gate.gate = true := by
  unfold gateComplete
  rw [gatesByName_of_mem h hgate]
  rcases hsettled with hpassed | hnot
  · have haccepted := (validateAggregateReferences_eq_none.mp h).2.2.2.2 gate hgate
    simp only [hpassed, Bool.and_eq_true, decide_eq_true_eq, List.all_eq_true]
    refine ⟨gate.passed_refs hpassed, ?_⟩
    intro ref href
    obtain ⟨record, hrecord, hsupports⟩ := evidence_of_passed haccepted hpassed href
    rw [hrecord]
    exact hsupports
  · simp only [hnot]

/-- A gate stays complete when its record stays and the evidence found before is still found. -/
lemma gateComplete_mono (h : m.gateComplete name = true)
    (hgates : m'.gatesByName name = m.gatesByName name)
    (hevidence : ∀ ref record, m.evidenceById ref = some record →
      m'.evidenceById ref = some record) : m'.gateComplete name = true := by
  unfold gateComplete at h ⊢
  rw [hgates]
  split at h
  · cases h
  next gate hgate =>
  split at h
  · assumption
  · simp only [Bool.and_eq_true, decide_eq_true_eq, List.all_eq_true] at h ⊢
    refine ⟨h.1, ?_⟩
    intro ref href
    have hfound := h.2 ref href
    split at hfound
    · cases hfound
    next record hrecord =>
    rw [hevidence ref record hrecord]
    exact hfound
  all_goals cases h

end Validator

/-! ## The review -/

/-- A Mission under review is completely verified. -/
def ReviewVerified (m : Mission) : Prop := m.UnderReview → m.verificationComplete = true

lemma ReviewVerified.recordVerificationGate {gate : VerificationGate} (h : m.ReviewVerified)
    (hkeep : m.KeepsVerification (.recordVerificationGate gate))
    (hreturn : m.recordVerificationGate gate = .ok m') : m'.ReviewVerified := by
  obtain ⟨rfl, hvalid⟩ := recordVerificationGate_cases hreturn
  intro (hreview : m.UnderReview)
  have hcomplete := List.all_eq_true.mp (h hreview)
  apply List.all_eq_true.mpr
  intro name (hname : name ∈ m.requiredVerification)
  by_cases hsame : name = gate.gate
  · subst hsame
    apply gateComplete_of_settled hvalid _ (hkeep hreview hname)
    exact List.mem_append_right _ (List.mem_singleton_self gate)
  · refine gateComplete_mono (hcomplete name hname) ?_ fun _ _ hrecord => hrecord
    have hother : ¬ gate.gate = name := fun heq => hsame heq.symm
    simp only [gatesByName, withVerificationGate, List.reverse_append, List.reverse_singleton,
      List.singleton_append, List.find?_cons, hother, decide_false, ← List.filter_reverse,
      List.find?_filter]
    congr 1
    funext item
    by_cases hitem : item.gate = name <;> simp [hitem, hsame]

lemma ReviewVerified.attachPlan [CanonicalDigest] {plan : ExecutionPlan}
    {P : Mission → AggregateCall → Prop} (hrun : Run P m) (h : m.ReviewVerified)
    (hkeep : m.KeepsVerification (.attachPlan plan))
    (hreturn : m.attachPlan plan = .ok m') : m'.ReviewVerified := by
  rcases attachPlan_cases hreturn with ⟨rfl, -⟩ | ⟨rfl, hvalid, hlater⟩
  · exact h
  intro (hreview : m.UnderReview)
  obtain ⟨current, hcurrent⟩ : ∃ current, m.executionPlan = some current := by
    rcases hreview with hstate | hresume
    · exact (hasPlan_whileInUse hrun).current (by rw [hstate]; decide)
    · exact (hasPlan_whileInUse hrun).resume _ hresume (by decide)
  apply List.all_eq_true.mpr
  intro name hname
  obtain ⟨gate, hgate, rfl, hsettled⟩ :=
    hkeep hreview ⟨current, hcurrent, (hlater current hcurrent).1⟩ name hname
  exact gateComplete_of_settled hvalid hgate hsettled

lemma ReviewVerified.addEvidenceRecord {evidence : EvidenceRecord} (h : m.ReviewVerified)
    (hreturn : m.addEvidenceRecord evidence = .ok m') : m'.ReviewVerified := by
  obtain ⟨rfl, -, hnew⟩ := addEvidenceRecord_cases hreturn
  intro (hreview : m.UnderReview)
  have hcomplete := List.all_eq_true.mp (h hreview)
  apply List.all_eq_true.mpr
  intro name hname
  refine gateComplete_mono (hcomplete name hname) rfl ?_
  intro ref record hrecord
  have hid : record.evidenceId = ref := by simpa using List.find?_some hrecord
  have hmem := List.mem_reverse.mp (List.mem_of_find?_eq_some hrecord)
  have hother : evidence.evidenceId ≠ ref := by
    rintro rfl
    exact hnew (hid ▸ List.mem_map_of_mem hmem)
  unfold evidenceById at hrecord ⊢
  simp [withEvidenceRecord, hother, hrecord]

section Run

variable [CanonicalDigest] {request : TransitionRequest} {occurredAt : Datetime}
  {result : TransitionResult}

/-- `REVIEW_READY` is entered with complete verification, and a move keeps the gates. -/
lemma ReviewVerified.transition (h : m.ReviewVerified)
    (hreturn : m.transition request occurredAt = .ok result) : result.mission.ReviewVerified := by
  rcases transition_cases hreturn with ⟨hsame, -⟩ | hmoves
  · rwa [hsame]
  rw [hmoves.mission]
  intro hreview
  change m.verificationComplete = true
  rcases hreview with hstate | hresume
  · have htarget := hmoves.target
    rw [show result.audit.toState = .reviewReady from hstate] at htarget
    rcases target_cases htarget with ⟨-, hrecorded⟩ | hedge
    · exact h (.inr hrecorded)
    · have hguard := hmoves.guard
      simp only [guard, reviewReady_edge hedge, requireVerification] at hguard
      split_ifs at hguard with hcomplete
      exact hcomplete
  · simp only [moved, Option.ite_none_right_eq_some, Option.some.injEq] at hresume
    exact h (.inl hresume.2)

lemma reviewVerified_of_run (h : Run KeepsVerification m) : m.ReviewVerified := by
  induction h with
  | fresh h =>
      rintro (hstate | hresume)
      · rw [h.draft] at hstate
        cases hstate
      · rw [h.resume] at hresume
        cases hresume
  | @aggregate m m' call prior allowed returned ih =>
      cases call with
      | attachPlan plan => exact ih.attachPlan prior allowed returned
      | addApprovalGate gate =>
          rcases addApprovalGate_cases returned with rfl | ⟨rfl, -⟩ <;> exact ih
      | addEvidenceRecord evidence => exact ih.addEvidenceRecord returned
      | recordVerificationGate gate => exact ih.recordVerificationGate allowed returned
  | transition _ returned ih => exact ih.transition returned

/-- The transition creates the Draft PR or closes a reviewed Mission. -/
def Delivers (m : Mission) (result : TransitionResult) : Prop :=
  result.replayed = false ∧
    (result.mission.currentState = .draftPrCreated ∨
      (m.currentState = .reviewReady ∧ result.mission.currentState = .closed))

/-- A delivery starts in `REVIEW_READY`. -/
lemma Delivers.reviewReady {P : Mission → AggregateCall → Prop} (h : Run P m)
    (hreturn : m.transition request occurredAt = .ok result) (hdelivers : m.Delivers result) :
    m.currentState = .reviewReady := by
  obtain ⟨hnew, hcreated | hclosed⟩ := hdelivers
  · rcases transition_cases hreturn with ⟨-, hreplayed, -⟩ | hmoves
    · rw [hreplayed] at hnew
      cases hnew
    rw [hmoves.currentState] at hcreated
    have htarget := hmoves.target
    rw [hcreated] at htarget
    rcases target_cases htarget with ⟨-, hresume⟩ | hedge
    · -- a Mission with a Draft PR has no event `PAUSE`
      exact absurd (resumeState_of_run h _ hresume) (by decide)
    · exact draftPrCreated_edge hedge
  · exact hclosed.1

/-- In every run that keeps the verification of a Mission under review, each transition that
enters `DRAFT_PR_CREATED`, or `CLOSED` from `REVIEW_READY`, starts from a completely verified
Mission. -/
theorem delivery_verified (h : Run KeepsVerification m)
    (hreturn : m.transition request occurredAt = .ok result) (hdelivers : m.Delivers result) :
    m.verificationComplete = true :=
  reviewVerified_of_run h (.inl (hdelivers.reviewReady h hreturn))

end Run

/-- Passed tests for the sample Mission. -/
def sampleEvidence : EvidenceRecord where
  evidenceId := identifier "evidence-1" isIdentifier_evidence
  evidenceType := .test
  verificationStatus := .passed

def samplePassedGate : VerificationGate where
  gate := .tests
  status := .passed
  evidenceRefs := [identifier "evidence-1" isIdentifier_evidence]

/-- The calls that take the sample Mission to `REVIEW_READY`. -/
def callsToReview : List Call :=
  callsToRunning ++
    [.aggregate (.addEvidenceRecord sampleEvidence),
     .aggregate (.recordVerificationGate samplePassedGate),
     sampleRequest .beginVerification (identifier "begin") none,
     sampleRequest .completeVerification (identifier "complete") none]

set_option maxRecDepth 4000 in
def reviewedMission : Mission := (samplePlay callsToReview).get (by decide)

def closeRequest : TransitionRequest :=
  ⟨.close, identifier "developer-1" isIdentifier_developer, identifier "close", none⟩

set_option maxRecDepth 4000 in
/-- The reviewed Mission is closed. -/
def closedReview : TransitionResult :=
  (@Mission.transition sampleDigest reviewedMission closeRequest 0).toOption.get (by decide)

theorem delivery_verified_close : reviewedMission.verificationComplete = true := by
  let := sampleDigest
  have hrun : Run KeepsVerification reviewedMission := by
    refine .play (.fresh sampleMission_fresh) (Option.some_get _).symm ?_
    intro m call hcall
    simp only [callsToReview, callsToRunning, sampleRequest, List.cons_append, List.nil_append,
      List.mem_cons, Call.aggregate.injEq, reduceCtorEq, List.not_mem_nil, false_or,
      or_false] at hcall
    rcases hcall with rfl | rfl | rfl | rfl
    · rintro - ⟨current, -, hlt⟩
      exact absurd hlt not_lt_one
    · trivial
    · trivial
    · exact fun _ _ => .inl rfl
  have hreturn : reviewedMission.transition closeRequest 0 = .ok closedReview :=
    eq_ok_of_toOption (Option.some_get _).symm
  exact delivery_verified hrun hreturn ⟨by decide, .inr ⟨by decide, by decide⟩⟩

/-- The reviewed Mission is paused, its tests are recorded as failed, and it returns to
`REVIEW_READY`. -/
def callsToFailedReview : List Call :=
  callsToReview ++
    [sampleRequest .pause (identifier "pause" isIdentifier_pause) none,
     .aggregate (.recordVerificationGate { gate := .tests, status := .failed }),
     sampleRequest .resume (identifier "resume" isIdentifier_resume) none]

set_option maxRecDepth 4000 in
def failedReview : Mission := (samplePlay callsToFailedReview).get (by decide)

set_option maxRecDepth 4000 in
def closedFailedReview : TransitionResult :=
  (@Mission.transition sampleDigest failedReview closeRequest 0).toOption.get (by decide)

theorem failed_review_closes :
    ¬ ∀ [CanonicalDigest] (m : Mission) (request : TransitionRequest) (occurredAt : Datetime)
      (result : TransitionResult), Run (fun _ _ => True) m →
        m.transition request occurredAt = .ok result → m.Delivers result →
        m.verificationComplete = true := by
  intro claim
  let := sampleDigest
  have hrun : Run (fun _ _ => True) failedReview :=
    .play (.fresh sampleMission_fresh) (Option.some_get _).symm fun _ _ _ => trivial
  have hreturn : failedReview.transition closeRequest 0 = .ok closedFailedReview :=
    eq_ok_of_toOption (Option.some_get _).symm
  have hcomplete := claim failedReview closeRequest 0 closedFailedReview hrun hreturn
    ⟨by decide, .inr ⟨by decide, by decide⟩⟩
  exact absurd hcomplete (by decide)

end Mission

end AgentSystem.Missions
