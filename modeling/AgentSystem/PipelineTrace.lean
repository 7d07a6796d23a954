import AgentSystem.PipelineExecution

/-!
# What the stages leave as it is

The properties of a run read the receipts of a task, the plans given to the executor and the answers
of the runner. Most steps of the manager change none of them.
-/
namespace AgentSystem.Pipeline

open Programs

variable {W α : Type}

/-- What the properties of a run read. -/
structure Evidence where
  receipts : List VerificationReceipt
  executed : List ScopedMutationPlan
  answers : List (List VerificationReceipt)

namespace Process

def evidence (t : String) (s : Process W) : Evidence where
  receipts := (s.result t).receipts
  executed := s.executed
  answers := s.answers

lemma result_setResult_of_ne {t task : String} (h : t ≠ task) (s : Process W)
    (result : CodingPipelineResult) : (s.setResult task result).result t = s.result t := by
  simp [Process.result, setResult, Function.update_of_ne h]

lemma evidence_setResult {t task : String} {s : Process W} {result : CodingPipelineResult}
    (h : result.receipts = (s.result task).receipts) :
    (s.setResult task result).evidence t = s.evidence t := by
  by_cases ht : t = task
  · subst ht
    simp [evidence, h]
  · simp [evidence, result_setResult_of_ne ht]

@[simp] lemma evidence_world (t : String) (s : Process W) (world : W) :
    ({ s with world := world } : Process W).evidence t = s.evidence t := rfl

end Process

lemma call_keeps {P : Process W → Prop} (hP : ∀ (world : W) s, P s → P { s with world := world })
    (x : Program W String α) : Keeps P (call x) := Keeps.within hP x

lemma call_leaves (t : String) (x : Program W String α) :
    Leaves (Process.evidence t) (call x) := by
  intro v
  exact call_keeps (fun _ _ h => h) x

lemma setFields_keeps (t task : String) (v : Evidence)
    {f : CodingPipelineResult → CodingPipelineResult}
    (h : ∀ r, (f r).receipts = r.receipts) :
    Keeps (fun s => Process.evidence t s = v) (setFields task f : Run W Unit) := by
  refine Keeps.update fun s hs => ?_
  rw [Process.evidence_setResult (h _)]
  exact hs

namespace CodingPipelineManager

variable (manager : CodingPipelineManager W)

lemma recordEvent_keeps {P : Process W → Prop}
    (hP : ∀ (world : W) s, P s → P { s with world := world }) (taskId : String)
    (stage : PipelineStage) (detail : String) :
    Keeps P (manager.recordEvent taskId stage detail) := by
  unfold recordEvent
  split
  · exact Keeps.ret ()
  · exact Keeps.bind (Keeps.attempt (call_keeps hP _)) fun _ => Keeps.ret ()

/-- What is recorded is the stage, with the history that ends in it. -/
lemma recordStage_spec {P Q : CodingPipelineResult → Prop} (task : String)
    {stage : PipelineStage} (detail : String)
    (h : ∀ r history, P r → Q { r with currentStage := stage, stageHistory := history }) :
    Triple (fun s => P (s.result task)) (manager.recordStage task stage detail)
      (fun _ s => Q (s.result task)) fun _ _ => True := by
  refine Triple.bind (R := fun _ s => P (s.result task)) (Triple.read fun _ hs => hs)
    fun result => ?_
  refine Triple.split (fun _ => Triple.raise fun _ _ => trivial) fun _ => ?_
  refine Triple.bind (Triple.update (Q := fun _ s => Q (s.result task)) fun s hs => ?_) fun _ => ?_
  · rw [Process.result_setResult]
    exact h _ _ hs
  · exact Triple.weaken (manager.recordEvent_keeps (fun _ _ h => h) _ stage detail) (fun _ => id)
      (fun _ _ => id) fun _ _ _ => trivial

lemma recordStage_stage {P : Process W → Prop} (task : String) (stage : PipelineStage)
    (detail : String) :
    Triple P (manager.recordStage task stage detail)
      (fun _ s => (s.result task).currentStage = stage) fun _ _ => True :=
  Triple.weaken
    (manager.recordStage_spec (P := fun _ => True) (Q := fun r => r.currentStage = stage) task
      detail fun _ _ _ => rfl)
    (fun _ _ => trivial) (fun _ _ => id) fun _ _ => id

lemma stop_spec {P : Process W → Prop} (task : String) (status : VerificationStatus)
    (message : String) (stage : PipelineStage) :
    Triple P (manager.stop task status message stage)
      (fun _ s => (s.result task).status = status ∧ (s.result task).currentStage = stage)
      fun _ _ => True := by
  refine Triple.bind (Triple.update (Q := fun _ s => (s.result task).status = status)
    fun s _ => ?_) fun _ => ?_
  · rw [Process.result_setResult]
  · exact manager.recordStage_spec (P := fun r => r.status = status)
      (Q := fun r => r.status = status ∧ r.currentStage = stage) task message
      fun _ _ hstatus => ⟨hstatus, rfl⟩

lemma recordStage_leaves (t task : String) (stage : PipelineStage) (detail : String) :
    Leaves (Process.evidence t) (manager.recordStage task stage detail) := by
  intro v
  refine Keeps.bind (Keeps.read _) fun result => Keeps.split (Keeps.raise _) ?_
  refine Keeps.bind (setFields_keeps t task v fun _ => rfl) fun _ => ?_
  exact manager.recordEvent_keeps (fun _ _ h => h) _ stage detail

lemma stop_leaves (t task : String) (status : VerificationStatus) (message : String)
    (stage : PipelineStage) :
    Leaves (Process.evidence t) (manager.stop task status message stage) := fun v =>
  Keeps.bind (setFields_keeps t task v fun _ => rfl) fun _ =>
    manager.recordStage_leaves t task stage message v

lemma runCommitteeDebate_leaves (t task : String) (request : CodingTaskRequest)
    (draftPlan : Option ScopedMutationPlan) :
    Leaves (Process.evidence t) (manager.runCommitteeDebate task request draftPlan) := by
  intro v
  refine Keeps.bind (setFields_keeps t task v fun _ => rfl) fun _ => ?_
  refine Keeps.bind (manager.recordStage_leaves t task _ _ v) fun _ => ?_
  refine Keeps.bind (call_leaves t _ v) fun record => ?_
  refine Keeps.bind (setFields_keeps t task v fun _ => rfl) fun _ => ?_
  exact Keeps.bind (manager.recordStage_leaves t task _ _ v) fun _ => Keeps.ret record

lemma debateGate_leaves (t task : String) (request : CodingTaskRequest)
    (plan : ScopedMutationPlan) :
    Leaves (Process.evidence t) (manager.debateGate task request plan) := by
  intro v
  refine Keeps.split ?_ (Keeps.ret _)
  refine Keeps.bind (manager.runCommitteeDebate_leaves t task request _ v) fun record => ?_
  refine Keeps.split ?_ ?_
  · exact Keeps.bind (manager.stop_leaves t _ _ _ _ v) fun _ => Keeps.ret _
  · exact Keeps.bind (setFields_keeps t task v fun _ => rfl) fun _ => Keeps.ret _

lemma submitPlan_leaves (t task : String) (plan : ScopedMutationPlan) :
    Leaves (Process.evidence t) (manager.submitPlan task plan) := by
  intro v
  refine Keeps.bind (Keeps.read _) fun session => Keeps.split (Keeps.raise _) ?_
  refine Keeps.bind (setFields_keeps t task v fun _ => rfl) fun _ => ?_
  split
  · exact manager.stop_leaves t _ _ _ _ v
  · refine Keeps.split (manager.stop_leaves t _ _ _ _ v) ?_
    split
    · exact manager.stop_leaves t _ _ _ _ v
    · exact manager.recordStage_leaves t task _ _ v

lemma checkEvidence_leaves (t task : String) (request : CodingTaskRequest)
    (worktrees : WorktreeManager W) (session : WorktreeSessionConfig) :
    Leaves (Process.evidence t) (manager.checkEvidence task request worktrees session) := by
  intro v
  refine Keeps.split ?_ (Keeps.ret true)
  refine Keeps.bind (call_leaves t _ v) fun diffStat => Keeps.split ?_ (Keeps.ret true)
  exact Keeps.bind (manager.stop_leaves t _ _ _ _ v) fun _ => Keeps.ret false

lemma healingPrecedents_leaves (t : String) (diagnostics : List String) :
    Leaves (Process.evidence t) (manager.healingPrecedents diagnostics) := by
  intro v
  unfold healingPrecedents
  split
  · exact Keeps.ret []
  · exact Keeps.bind (Keeps.attempt (call_leaves t _ v)) fun _ => Keeps.ret _

lemma executeAutoRollback_leaves (t task : String) (session : WorktreeSessionConfig) :
    Leaves (Process.evidence t) (manager.executeAutoRollback task session) :=
  fun v => Keeps.bind (call_leaves t _ v) fun _ => Keeps.ret _

lemma reviewFreshness_leaves (t head : String) :
    Leaves (Process.evidence t) (manager.reviewFreshness head) := by
  intro v
  unfold reviewFreshness
  split
  · exact call_leaves t _ v
  · exact Keeps.ret _

lemma review_leaves (t task : String) (request : CodingTaskRequest)
    (session : WorktreeSessionConfig) :
    Leaves (Process.evidence t) (manager.review task request session) := by
  intro v
  refine Keeps.split ?_ (Keeps.ret true)
  refine Keeps.bind (manager.recordStage_leaves t task _ _ v) fun _ => ?_
  refine Keeps.bind (Keeps.attempt (call_leaves t _ v)) fun head => ?_
  refine Keeps.bind (manager.reviewFreshness_leaves t _ v) fun freshness => ?_
  refine Keeps.split ?_ ?_
  · refine Keeps.bind (setFields_keeps t task v fun _ => rfl) fun _ => ?_
    exact Keeps.bind (manager.recordStage_leaves t task _ _ v) fun _ => Keeps.ret true
  · exact Keeps.bind (manager.stop_leaves t _ _ _ _ v) fun _ => Keeps.ret false

lemma publish_leaves (t : String) (request : CodingTaskRequest) (payload : DraftPRPayload) :
    Leaves (Process.evidence t) (manager.publish request payload) := by
  intro v
  unfold publish
  split
  · exact Keeps.ret payload
  · exact Keeps.bind (call_leaves t _ v) fun _ => Keeps.ret _

lemma exportDraft_leaves (t task : String) (request : CodingTaskRequest)
    (plan : ScopedMutationPlan) (worktrees : WorktreeManager W) (session : WorktreeSessionConfig)
    (receipts : List VerificationReceipt) :
    Leaves (Process.evidence t)
      (manager.exportDraft task request plan worktrees session receipts) := by
  intro v
  refine Keeps.bind (manager.recordStage_leaves t task _ _ v) fun _ => ?_
  refine Keeps.bind (call_leaves t _ v) fun commitHash => ?_
  refine Keeps.bind (call_leaves t _ v) fun diffStat => ?_
  refine Keeps.bind (Keeps.read _) fun debate => ?_
  refine Keeps.bind (manager.publish_leaves t request _ v) fun payload => ?_
  refine Keeps.bind (setFields_keeps t task v fun _ => rfl) fun _ => ?_
  exact manager.recordStage_leaves t task _ _ v

end CodingPipelineManager

end AgentSystem.Pipeline
