import AgentSystem.PipelineTrace

/-!
# Which plan reaches the executor

In a run of `execute_pipeline` the executor gets one plan only: the submitted one or what the
committee makes of it, and only after the gate has accepted it.
-/
namespace AgentSystem.Pipeline

open Programs

variable {W : Type}

/-! ## The plan of the committee -/

/-- The role under which a plan goes on. -/
def handedRole (request : CodingTaskRequest) (plan : ScopedMutationPlan) : String :=
  if request.enableCommittee then leadRole request else plan.assignedRole

/-- What becomes of a plan before it is submitted. -/
structure Handed (request : CodingTaskRequest) (plan handed : ScopedMutationPlan) : Prop where
  humanApproved : handed.humanApproved = plan.humanApproved
  approvalToken : handed.approvalToken = plan.approvalToken
  assignedRole : handed.assignedRole = handedRole request plan
  targetFiles : handed.targetFiles = plan.targetFiles
  fileMutations : handed.fileMutations = if request.enableCommittee then [] else plan.fileMutations
  edgeCases : plan.edgeCases ⊆ handed.edgeCases
  testStrategy : plan.testStrategy ⊆ handed.testStrategy

lemma mergeCritiques_subset (text : TextTables) (points : List String)
    (merged : List String × List String) :
    merged.1 ⊆ (mergeCritiques text points merged).1 ∧
      merged.2 ⊆ (mergeCritiques text points merged).2 := by
  induction points generalizing merged with
  | nil => exact ⟨List.Subset.refl _, List.Subset.refl _⟩
  | cons point points ih =>
      obtain ⟨edgeCases, testStrategy⟩ := merged
      unfold mergeCritiques
      split_ifs
      · obtain ⟨hedge, htest⟩ := ih (edgeCases ++ [point], testStrategy)
        exact ⟨List.Subset.trans (List.subset_append_left _ _) hedge, htest⟩
      · obtain ⟨hedge, htest⟩ := ih (edgeCases, testStrategy ++ [point])
        exact ⟨hedge, List.Subset.trans (List.subset_append_left _ _) htest⟩
      · exact ih (edgeCases, testStrategy)

lemma synthesizeMutationPlan_edgeCases (text : TextTables) (request : CodingTaskRequest)
    (plan : ScopedMutationPlan) (scorecard : CommitteeConsensusScorecard)
    (points : List String) :
    plan.edgeCases ⊆
      (synthesizeMutationPlan text request (some plan) scorecard points).edgeCases :=
  (mergeCritiques_subset text points (plan.edgeCases, plan.testStrategy)).1

lemma synthesizeMutationPlan_testStrategy (text : TextTables) (request : CodingTaskRequest)
    (plan : ScopedMutationPlan) (scorecard : CommitteeConsensusScorecard)
    (points : List String) :
    plan.testStrategy ⊆
      (synthesizeMutationPlan text request (some plan) scorecard points).testStrategy := by
  have hmerged := (mergeCritiques_subset text points (plan.edgeCases, plan.testStrategy)).2
  intro test htest
  have hmem := hmerged htest
  show test ∈ if (mergeCritiques text points (plan.edgeCases, plan.testStrategy)).2 = [] then _
    else _
  rw [if_neg (List.ne_nil_of_mem hmem)]
  exact hmem

/-- The debate always ends with a plan synthesized from the draft. -/
lemma runDebate_plan (text : TextTables) (mesh : Option (Mesh W)) (request : CodingTaskRequest)
    (formation : CommitteeFormation) (draftPlan : Option ScopedMutationPlan) :
    Triple (fun _ => True) (runDebate text mesh request formation draftPlan)
      (fun record _ => ∃ scorecard points, record.synthesizedMutationPlan =
        synthesizeMutationPlan text request draftPlan scorecard points) fun _ _ => True := by
  refine Triple.bind Triple.any fun precedents => ?_
  refine Triple.bind Triple.any fun debated => ?_
  refine Triple.bind Triple.any fun verdict => ?_
  refine Triple.bind Triple.any fun _ => ?_
  exact Triple.ret fun _ _ => ⟨_, _, rfl⟩

namespace CodingPipelineManager

variable (manager : CodingPipelineManager W)

lemma runCommitteeDebate_plan (task : String) (request : CodingTaskRequest)
    (draftPlan : Option ScopedMutationPlan) :
    Triple (fun _ => True) (manager.runCommitteeDebate task request draftPlan)
      (fun record _ => ∃ scorecard points, record.synthesizedMutationPlan =
        synthesizeMutationPlan manager.text request draftPlan scorecard points)
      fun _ _ => True := by
  refine Triple.bind Triple.any fun _ => ?_
  refine Triple.bind Triple.any fun _ => ?_
  refine Triple.bind (Triple.within (runDebate_plan _ _ _ _ _) _ _) fun record => ?_
  refine Triple.known fun hrecord => ?_
  refine Triple.bind Triple.any fun _ => ?_
  refine Triple.bind Triple.any fun _ => ?_
  exact Triple.ret fun _ _ => hrecord

lemma debateGate_handed (task : String) (request : CodingTaskRequest)
    (plan : ScopedMutationPlan) :
    Triple (fun _ => True) (manager.debateGate task request plan)
      (fun debated _ => ∀ handed, debated = some handed → Handed request plan handed)
      fun _ _ => True := by
  unfold debateGate
  split_ifs with hcommittee
  · refine Triple.bind (manager.runCommitteeDebate_plan task request _) fun record => ?_
    refine Triple.known fun hrecord => ?_
    obtain ⟨scorecard, points, hplan⟩ := hrecord
    refine Triple.split (fun _ => ?_) fun _ => ?_
    · exact Triple.bind Triple.any fun _ => Triple.ret fun _ _ _ hnone => by cases hnone
    · refine Triple.bind Triple.any fun _ => Triple.ret fun _ _ handed hhanded => ?_
      cases hhanded
      rw [hplan]
      exact
        { humanApproved := rfl
          approvalToken := rfl
          assignedRole := by rw [handedRole, if_pos hcommittee]; rfl
          targetFiles := rfl
          fileMutations := by rw [if_pos hcommittee]; rfl
          edgeCases := synthesizeMutationPlan_edgeCases manager.text request plan scorecard points
          testStrategy :=
            synthesizeMutationPlan_testStrategy manager.text request plan scorecard points }
  · refine Triple.ret fun _ _ handed hhanded => ?_
    cases hhanded
    exact
      { humanApproved := rfl
        approvalToken := rfl
        assignedRole := by rw [handedRole, if_neg hcommittee]
        targetFiles := rfl
        fileMutations := by rw [if_neg hcommittee]
        edgeCases := List.Subset.refl _
        testStrategy := List.Subset.refl _ }

/-! ## The gate -/

/-- The gate lets the plan pass. -/
structure Accepted (plan : ScopedMutationPlan) : Prop where
  humanApproved : plan.humanApproved = true
  notSelfApproved : manager.selfApproved plan = false
  inScope : validateRoleScope plan.assignedRole plan.targetFiles = none

lemma approved_of_gate {planApproved : Bool} {approverId : Option String}
    (h : manager.checkStopAndWaitGate planApproved approverId = none) : planApproved = true := by
  unfold checkStopAndWaitGate at h
  split_ifs at h with hunapproved
  exact Bool.not_eq_false _ ▸ hunapproved

/-- What `isStopped` reads. -/
def Stopped (result : CodingPipelineResult) : Prop :=
  result.status = .blocked ∨ result.currentStage = .failed

/-- A plan that is submitted is accepted, or its task is blocked. -/
lemma submitPlan_accepted (task : String) (plan : ScopedMutationPlan) :
    Triple (fun _ => True) (manager.submitPlan task plan)
      (fun _ s => Stopped (s.result task) ∨ manager.Accepted plan) fun _ _ => True := by
  have hblocked (message : String) (stage : PipelineStage) :
      Triple (fun _ => True) (manager.stop task .blocked message stage)
        (fun _ s => Stopped (s.result task) ∨ manager.Accepted plan) fun _ _ => True :=
    Triple.weaken (manager.stop_spec task .blocked message stage) (fun _ => id)
      (fun _ _ h => Or.inl (Or.inl h.1)) fun _ _ _ => trivial
  refine Triple.bind Triple.any fun session => ?_
  refine Triple.split (fun _ => Triple.raise fun _ _ => trivial) fun _ => ?_
  refine Triple.bind Triple.any fun _ => ?_
  split
  · exact hblocked _ _
  · rename_i hgate
    refine Triple.split (fun _ => hblocked _ _) fun hself => ?_
    split
    · exact hblocked _ _
    · rename_i hscope
      have haccepted : manager.Accepted plan :=
        { humanApproved := manager.approved_of_gate hgate
          notSelfApproved := Bool.not_eq_true _ ▸ hself
          inScope := hscope }
      exact Triple.weaken Triple.any (fun _ => id) (fun _ _ _ => Or.inr haccepted)
        fun _ _ _ => trivial

/-! ## The run -/

/-- The executor was given plans of one kind only. -/
def OnlyExecuted (good : ScopedMutationPlan → Prop) (s : Process W) : Prop :=
  ∀ plan ∈ s.executed, good plan

section OnlyExecuted

variable {good : ScopedMutationPlan → Prop} {α : Type}

lemma onlyExecuted_of_leaves {t : String} {x : Run W α} (h : Leaves (Process.evidence t) x) :
    Keeps (OnlyExecuted good) x := h.keeps fun e => ∀ plan ∈ e.executed, good plan

lemma executePlan_onlyExecuted (executor : ScopedExecutor W) (session : WorktreeSessionConfig)
    {plan : ScopedMutationPlan} (hplan : good plan) :
    Keeps (OnlyExecuted good) (executePlan executor session plan) := by
  refine Keeps.bind (Keeps.update fun s hs => ?_) fun _ => ?_
  · intro p hp
    rcases List.mem_append.mp hp with hp | hp
    · exact hs p hp
    · exact List.mem_singleton.mp hp ▸ hplan
  · exact onlyExecuted_of_leaves (call_leaves "" _)

lemma runLadder_onlyExecuted (runner : VerificationRunner W) (session : WorktreeSessionConfig)
    (plan : ScopedMutationPlan) :
    Keeps (OnlyExecuted good) (runLadder runner session plan) := by
  refine Keeps.bind (onlyExecuted_of_leaves (call_leaves "" _)) fun receipts => ?_
  exact Keeps.bind (Keeps.update fun s hs => hs) fun _ => Keeps.ret receipts

lemma setFields_onlyExecuted (task : String) (f : CodingPipelineResult → CodingPipelineResult) :
    Keeps (OnlyExecuted good) (setFields task f : Run W Unit) := Keeps.update fun _ hs => hs

lemma applyPlan_onlyExecuted (session : WorktreeSessionConfig) {plan : ScopedMutationPlan}
    (hplan : good plan) : Keeps (OnlyExecuted good) (manager.applyPlan session plan) := by
  unfold applyPlan
  split
  · exact Keeps.bind (executePlan_onlyExecuted _ session hplan) fun _ => Keeps.ret _
  · exact Keeps.ret _

lemma correctiveMutation_onlyExecuted (session : WorktreeSessionConfig)
    {plan : ScopedMutationPlan} (hplan : good plan) (diagnostics : List String) :
    Keeps (OnlyExecuted good) (manager.correctiveMutation session plan diagnostics) := by
  unfold correctiveMutation
  split
  · exact Keeps.ret _
  · split
    · refine Keeps.handle ?_ fun _ => Keeps.ret _
      exact Keeps.bind (onlyExecuted_of_leaves (call_leaves "" _)) fun _ => Keeps.ret _
    · refine Keeps.handle ?_ fun _ => Keeps.ret _
      exact Keeps.bind (executePlan_onlyExecuted _ session hplan) fun _ => Keeps.ret _

lemma attemptSelfHealing_onlyExecuted (runner : VerificationRunner W)
    (session : WorktreeSessionConfig) {plan : ScopedMutationPlan} (hplan : good plan)
    (failedReceipts : List VerificationReceipt) (attemptIndex : ℕ) :
    Keeps (OnlyExecuted good)
      (manager.attemptSelfHealing runner session plan failedReceipts attemptIndex) := by
  refine Keeps.bind (onlyExecuted_of_leaves (manager.healingPrecedents_leaves "" _)) fun _ => ?_
  refine Keeps.bind (manager.correctiveMutation_onlyExecuted session hplan _) fun _ => ?_
  exact Keeps.bind (runLadder_onlyExecuted runner session plan) fun _ => Keeps.ret _

lemma healLoop_onlyExecuted (task : String) (request : CodingTaskRequest)
    (runner : VerificationRunner W) (session : WorktreeSessionConfig)
    {plan : ScopedMutationPlan} (hplan : good plan) (failedReceipts : List VerificationReceipt)
    (attempts : List ℕ) :
    Keeps (OnlyExecuted good)
      (manager.healLoop task request runner session plan failedReceipts attempts) := by
  induction attempts with
  | nil => exact Keeps.ret none
  | cons attemptIndex attempts ih =>
      refine Keeps.bind (manager.attemptSelfHealing_onlyExecuted runner session hplan _ _)
        fun receipt => ?_
      refine Keeps.bind (setFields_onlyExecuted task _) fun _ => ?_
      refine Keeps.bind (onlyExecuted_of_leaves (manager.recordStage_leaves "" task _ _))
        fun _ => Keeps.split ?_ ih
      refine Keeps.bind (runLadder_onlyExecuted runner session plan) fun receipts => ?_
      exact Keeps.bind (setFields_onlyExecuted task _) fun _ => Keeps.ret _

lemma heal_onlyExecuted (task : String) (request : CodingTaskRequest) {plan : ScopedMutationPlan}
    (hplan : good plan) (runner : VerificationRunner W) (session : WorktreeSessionConfig)
    (failedReceipts : List VerificationReceipt) :
    Keeps (OnlyExecuted good)
      (manager.heal task request plan runner session failedReceipts) := by
  have hstop (message : String) :
      Keeps (OnlyExecuted good) (manager.stop task .fail message .failed) :=
    onlyExecuted_of_leaves (manager.stop_leaves "" task _ _ _)
  have hrecord (stage : PipelineStage) (detail : String) :
      Keeps (OnlyExecuted good) (manager.recordStage task stage detail) :=
    onlyExecuted_of_leaves (manager.recordStage_leaves "" task _ _)
  refine Keeps.split ?_ (Keeps.bind (hstop _) fun _ => Keeps.ret none)
  refine Keeps.bind (hrecord _ _) fun _ => ?_
  refine Keeps.bind (manager.healLoop_onlyExecuted task request runner session hplan _ _)
    fun healed => ?_
  cases healed with
  | some receipts => exact Keeps.ret _
  | none =>
      refine Keeps.bind (hstop _) fun _ => ?_
      refine Keeps.bind (onlyExecuted_of_leaves (manager.executeAutoRollback_leaves "" task _))
        fun receipt => ?_
      refine Keeps.bind (setFields_onlyExecuted task _) fun _ => ?_
      exact Keeps.bind (hrecord _ _) fun _ => Keeps.ret none

lemma verify_onlyExecuted (task : String) (request : CodingTaskRequest)
    {plan : ScopedMutationPlan} (hplan : good plan) (session : WorktreeSessionConfig) :
    Keeps (OnlyExecuted good) (manager.verify task request plan session) := by
  refine Keeps.bind (onlyExecuted_of_leaves (manager.recordStage_leaves "" task _ _)) fun _ => ?_
  split
  · exact Keeps.raise _
  · refine Keeps.bind (runLadder_onlyExecuted _ session plan) fun receipts => ?_
    refine Keeps.bind (setFields_onlyExecuted task _) fun _ => ?_
    refine Keeps.bind ?_ fun collected => ?_
    · exact Keeps.split (Keeps.ret _) (manager.heal_onlyExecuted task request hplan _ session _)
    · cases collected with
      | none => exact Keeps.ret none
      | some receipts =>
          refine Keeps.split ?_ (Keeps.ret _)
          exact Keeps.bind (onlyExecuted_of_leaves (manager.stop_leaves "" task _ _ _))
            fun _ => Keeps.ret none

lemma mutate_onlyExecuted (task : String) (request : CodingTaskRequest)
    {plan : ScopedMutationPlan} (hplan : good plan) (worktrees : WorktreeManager W) :
    Keeps (OnlyExecuted good) (manager.mutate task request plan worktrees) := by
  refine Keeps.bind (onlyExecuted_of_leaves (call_leaves "" _)) fun session => ?_
  refine Keeps.bind (setFields_onlyExecuted task _) fun _ => ?_
  refine Keeps.bind (manager.applyPlan_onlyExecuted session hplan) fun detail => ?_
  exact Keeps.bind (onlyExecuted_of_leaves (manager.recordStage_leaves "" task _ _))
    fun _ => Keeps.ret session

lemma runStages_onlyExecuted (task : String) (request : CodingTaskRequest)
    {plan : ScopedMutationPlan} (hplan : good plan) :
    Keeps (OnlyExecuted good) (manager.runStages task request plan) := by
  have hrecord (stage : PipelineStage) (detail : String) :
      Keeps (OnlyExecuted good) (manager.recordStage task stage detail) :=
    onlyExecuted_of_leaves (manager.recordStage_leaves "" task _ _)
  refine Keeps.bind (hrecord _ _) fun _ => ?_
  split
  · exact Keeps.raise _
  · refine Keeps.bind (manager.mutate_onlyExecuted task request hplan _) fun session => ?_
    refine Keeps.bind (onlyExecuted_of_leaves (manager.checkEvidence_leaves "" task request _ _))
      fun evident => Keeps.split ?_ (Keeps.ret ())
    refine Keeps.bind (manager.verify_onlyExecuted task request hplan session) fun receipts => ?_
    cases receipts with
    | none => exact Keeps.ret ()
    | some receipts =>
        refine Keeps.bind (setFields_onlyExecuted task _) fun _ => ?_
        refine Keeps.bind (hrecord _ _) fun _ => ?_
        refine Keeps.bind (onlyExecuted_of_leaves (manager.review_leaves "" task request _))
          fun reviewed => Keeps.split ?_ (Keeps.ret ())
        exact onlyExecuted_of_leaves (manager.exportDraft_leaves "" task request plan _ _ _)

lemma startPipeline_onlyExecuted (request : CodingTaskRequest) :
    Keeps (OnlyExecuted good) (manager.startPipeline request) := by
  have hrecord (stage : PipelineStage) (detail : String) :
      Keeps (OnlyExecuted good) (manager.recordStage request.taskId stage detail) :=
    onlyExecuted_of_leaves (manager.recordStage_leaves "" request.taskId _ _)
  have hstop (message : String) :
      Keeps (OnlyExecuted good) (manager.stop request.taskId .blocked message .failed) :=
    onlyExecuted_of_leaves (manager.stop_leaves "" request.taskId _ _ _)
  refine Keeps.bind (Keeps.update fun s hs => hs) fun _ => ?_
  refine Keeps.bind (hrecord _ _) fun _ => Keeps.bind (Keeps.read _) fun blocked => ?_
  split
  · exact hstop _
  · split
    · exact hstop _
    · exact hrecord _ _

end OnlyExecuted

/-- The executor is given what becomes of the plan, and only if the gate accepts that. -/
def Reaches (request : CodingTaskRequest) (plan handed : ScopedMutationPlan) : Prop :=
  Handed request plan handed ∧ manager.Accepted handed

lemma submitPlan_onlyExecuted (good : ScopedMutationPlan → Prop) (task : String)
    (plan : ScopedMutationPlan) :
    Triple (OnlyExecuted good) (manager.submitPlan task plan)
      (fun _ s => (Stopped (s.result task) ∨ manager.Accepted plan) ∧ OnlyExecuted good s)
      fun _ => OnlyExecuted good :=
  Triple.weaken
    (Triple.both (manager.submitPlan_accepted task plan)
      (onlyExecuted_of_leaves (manager.submitPlan_leaves "" task plan)))
    (fun _ hs => ⟨trivial, hs⟩) (fun _ _ h => h) fun _ _ h => h.2

lemma debateGate_onlyExecuted (good : ScopedMutationPlan → Prop) (task : String)
    (request : CodingTaskRequest) (plan : ScopedMutationPlan) :
    Triple (OnlyExecuted good) (manager.debateGate task request plan)
      (fun debated s => (∀ handed, debated = some handed → Handed request plan handed) ∧
        OnlyExecuted good s)
      fun _ => OnlyExecuted good :=
  Triple.weaken
    (Triple.both (manager.debateGate_handed task request plan)
      (onlyExecuted_of_leaves (manager.debateGate_leaves "" task request plan)))
    (fun _ hs => ⟨trivial, hs⟩) (fun _ _ h => h) fun _ _ h => h.2

lemma executePipeline_onlyExecuted (task : String) (request : CodingTaskRequest)
    (plan : ScopedMutationPlan) :
    Keeps (OnlyExecuted (manager.Reaches request plan))
      (manager.executePipeline task request plan) := by
  refine Keeps.bind (manager.startPipeline_onlyExecuted request) fun _ => ?_
  refine Keeps.bind (Keeps.read _) fun blocked => Keeps.split (Keeps.ret _) ?_
  refine Triple.bind (manager.debateGate_onlyExecuted _ task request plan) fun debated => ?_
  refine Triple.assume fun hhanded => ?_
  cases debated with
  | none => exact Keeps.ret request.taskId
  | some handed =>
      have hplan := hhanded handed rfl
      refine Triple.bind (manager.submitPlan_onlyExecuted _ task handed) fun _ => ?_
      refine Triple.bind (R := fun stopped s => (stopped = true ∨ manager.Accepted handed) ∧
        OnlyExecuted (manager.Reaches request plan) s) ?_ fun stopped => ?_
      · refine Triple.read fun s hs => ⟨hs.1.imp_left fun hstopped => ?_, hs.2⟩
        simpa [Stopped] using hstopped
      · refine Triple.assume fun haccepted => Triple.split (fun _ => Keeps.ret task) fun hgo => ?_
        have hreaches : manager.Reaches request plan handed :=
          ⟨hplan, haccepted.resolve_left hgo⟩
        refine Keeps.bind (Keeps.handle (manager.runStages_onlyExecuted task request hreaches)
          fun exc => ?_) fun _ => Keeps.ret task
        exact Keeps.bind (setFields_onlyExecuted task _) fun _ =>
          onlyExecuted_of_leaves (manager.recordStage_leaves "" task _ _)

/-- Every plan that a run executes is the handed plan, accepted by the gate. -/
lemma reaches_of_executed {task : String} {request : CodingTaskRequest}
    {plan handed : ScopedMutationPlan} {world : W}
    {sessions : String → Option CodingPipelineResult}
    (h : handed ∈
      (manager.executePipeline task request plan (.start world sessions)).2.executed) :
    manager.Reaches request plan handed := by
  have hstart : OnlyExecuted (manager.Reaches request plan) (Process.start world sessions) := by
    intro p hp
    cases hp
  exact (manager.executePipeline_onlyExecuted task request plan).final hstart handed h

end CodingPipelineManager

end AgentSystem.Pipeline
