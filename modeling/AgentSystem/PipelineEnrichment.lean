import AgentSystem.PipelineGate

/-!
# The approved and the executed plan

With a committee the executor gets the plan that the debate synthesized, under the approval of the
submitted one.
-/
namespace AgentSystem.Pipeline

open CodingPipelineManager

/-- The executed plan does what was approved. -/
structure KeepsApproved (plan executed : ScopedMutationPlan) : Prop where
  fileMutations : executed.fileMutations = plan.fileMutations
  assignedRole : executed.assignedRole = plan.assignedRole
  targetFiles : executed.targetFiles = plan.targetFiles
  edgeCases : plan.edgeCases ⊆ executed.edgeCases
  testStrategy : plan.testStrategy ⊆ executed.testStrategy

lemma keepsApproved_iff {request : CodingTaskRequest} {plan handed : ScopedMutationPlan}
    (h : Handed request plan handed) :
    KeepsApproved plan handed ↔
      (request.enableCommittee = true →
        plan.fileMutations = [] ∧ plan.assignedRole = leadRole request) := by
  have hmutations := h.fileMutations
  have hrole := h.assignedRole
  rw [handedRole] at hrole
  constructor
  · intro hkeeps hcommittee
    rw [if_pos hcommittee] at hmutations hrole
    exact ⟨hkeeps.fileMutations.symm.trans hmutations, hkeeps.assignedRole.symm.trans hrole⟩
  · intro hplan
    refine ⟨?_, ?_, h.targetFiles, h.edgeCases, h.testStrategy⟩
    · by_cases hcommittee : request.enableCommittee = true
      · rw [hmutations, if_pos hcommittee, (hplan hcommittee).1]
      · rw [hmutations, if_neg hcommittee]
    · by_cases hcommittee : request.enableCommittee = true
      · rw [hrole, if_pos hcommittee, (hplan hcommittee).2]
      · rw [hrole, if_neg hcommittee]

/-- A plan executed after a debate carries the approval of the submitted plan, and it does what was
approved just if that plan lists no mutations and is assigned to the first allowed role. -/
theorem executed_keeps_approved_iff {W : Type} (manager : CodingPipelineManager W) (task : String)
    {request : CodingTaskRequest} (hcommittee : request.enableCommittee = true)
    {plan executed : ScopedMutationPlan} (world : W)
    (sessions : String → Option CodingPipelineResult)
    (h : executed ∈
      (manager.executePipeline task request plan (.start world sessions)).2.executed) :
    executed.humanApproved = plan.humanApproved ∧ executed.approvalToken = plan.approvalToken ∧
      (KeepsApproved plan executed ↔
        plan.fileMutations = [] ∧ plan.assignedRole = leadRole request) := by
  obtain ⟨hhanded, -⟩ := manager.reaches_of_executed h
  refine ⟨hhanded.humanApproved, hhanded.approvalToken, ?_⟩
  rw [keepsApproved_iff hhanded]
  exact ⟨fun hplan => hplan hcommittee, fun hplan _ => hplan⟩

/-! ## A plan with a mutation -/

def committeeRequest : CodingTaskRequest :=
  { sampleRequest with enableCommittee := true, committeeRoles := [] }

def approvedPlan : ScopedMutationPlan :=
  { samplePlan with
    edgeCases := ["empty name"]
    testStrategy := ["pytest"]
    fileMutations := [{ filePath := "greeting.py", content := "print(1)" }]
    humanApproved := true
    approvalToken := some "alice" }

/-- What the committee makes of the approved plan. -/
def enrichedPlan : ScopedMutationPlan :=
  { approvedPlan with
    planSummary := "Greeting (Reviewed & Enriched by Multi-Agent Committee)"
    assignedRole := "DOMAIN_LOGIC_AGENT"
    testStrategy := ["pytest", "Run pytest with exit code 0 enforcement",
      "Add regression tests covering edge cases and boundary inputs"]
    fileMutations := [] }

lemma enrichedPlan_executed :
    enrichedPlan ∈ (scriptedManager.executePipeline "T1" committeeRequest approvedPlan
      (.start [] fun _ => none)).2.executed := by
  decide +kernel

theorem enrichedPlan_keeps_approved_iff :
    enrichedPlan.humanApproved = true ∧ enrichedPlan.approvalToken = some "alice" ∧
      (KeepsApproved approvedPlan enrichedPlan ↔
        approvedPlan.fileMutations = [] ∧ approvedPlan.assignedRole = leadRole committeeRequest) :=
  executed_keeps_approved_iff scriptedManager "T1" rfl [] (fun _ => none) enrichedPlan_executed

/-- The mutation of an approved plan is lost, and the plan goes to another role. -/
theorem approved_mutation_lost :
    approvedPlan.humanApproved = true ∧
      ∃ executed ∈ (scriptedManager.executePipeline "T1" committeeRequest approvedPlan
          (.start [] fun _ => none)).2.executed,
        executed.approvalToken = approvedPlan.approvalToken ∧
          executed.fileMutations ≠ approvedPlan.fileMutations ∧
          executed.assignedRole ≠ approvedPlan.assignedRole ∧
          ¬KeepsApproved approvedPlan executed := by
  refine ⟨rfl, enrichedPlan, enrichedPlan_executed, rfl, by decide, by decide, fun hkeeps => ?_⟩
  cases hkeeps.fileMutations

end AgentSystem.Pipeline
