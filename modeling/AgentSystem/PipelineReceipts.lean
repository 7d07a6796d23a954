import AgentSystem.PipelineGate

/-!
# The receipts of a completed run

A run that completes publishes the receipts of its result. They come from the first ladder, or from
the ladder that is run once more after a healing attempt.
-/
namespace AgentSystem.Pipeline

open Programs

variable {W : Type}

/-- An answer whose receipts all pass is followed only by such answers. -/
def Steady (answers : List (List VerificationReceipt)) : Prop :=
  answers.IsChain fun a b => CodingPipelineManager.allPass a = true →
    CodingPipelineManager.allPass b = true

/-- No answer so far has passed. -/
def Failing (answers : List (List VerificationReceipt)) : Prop :=
  ∀ answer ∈ answers, CodingPipelineManager.allPass answer = false

namespace CodingPipelineManager

lemma allPass_iff {receipts : List VerificationReceipt} :
    allPass receipts = true ↔ ∀ r ∈ receipts, r.status = .pass := by
  simp [allPass]

lemma steady_of_failing {answers : List (List VerificationReceipt)} (h : Failing answers)
    {a b : List VerificationReceipt} (ha : allPass a = true) :
    Steady (answers ++ [a, b]) ↔ allPass b = true := by
  induction answers with
  | nil => simp [Steady, ha]
  | cons answer answers ih =>
      have hrest := ih fun other hother => h other (List.mem_cons_of_mem _ hother)
      have hfirst : allPass answer = false := h answer List.mem_cons_self
      rw [← hrest]
      cases answers with
      | nil => simp [Steady, hfirst]
      | cons next answers => simp [Steady, hfirst]

variable (manager : CodingPipelineManager W)

/-! ## The ladder and its repair -/

lemma runLadder_answers {answers : List (List VerificationReceipt)}
    (runner : VerificationRunner W) (session : WorktreeSessionConfig) (plan : ScopedMutationPlan) :
    Triple (fun s => s.answers = answers) (runLadder runner session plan)
      (fun receipts s => s.answers = answers ++ [receipts]) fun _ _ => True := by
  refine Triple.bind ((call_leaves "" _).triple fun e => e.answers = answers) fun receipts => ?_
  refine Triple.bind (Triple.update (Q := fun _ s => s.answers = answers ++ [receipts])
    fun s hs => ?_) fun _ => Triple.ret fun s hs => hs
  exact congrArg (· ++ [receipts]) hs

lemma executePlan_answers {answers : List (List VerificationReceipt)}
    (executor : ScopedExecutor W) (session : WorktreeSessionConfig) (plan : ScopedMutationPlan) :
    Keeps (fun s => s.answers = answers) (executePlan executor session plan) :=
  Keeps.bind (Keeps.update fun _ hs => hs) fun _ =>
    (call_leaves "" _).keeps fun e => e.answers = answers

lemma applyPlan_answers {answers : List (List VerificationReceipt)}
    (session : WorktreeSessionConfig) (plan : ScopedMutationPlan) :
    Keeps (fun s => s.answers = answers) (manager.applyPlan session plan) := by
  unfold applyPlan
  split
  · exact Keeps.bind (executePlan_answers _ session plan) fun _ => Keeps.ret _
  · exact Keeps.ret _

lemma mutate_answers {answers : List (List VerificationReceipt)} (task : String)
    (request : CodingTaskRequest) (plan : ScopedMutationPlan) (worktrees : WorktreeManager W) :
    Keeps (fun s => s.answers = answers) (manager.mutate task request plan worktrees) := by
  refine Keeps.bind ((call_leaves task _).keeps fun e => e.answers = answers) fun session => ?_
  refine Keeps.bind (Keeps.update fun _ hs => hs) fun _ => ?_
  refine Keeps.bind (manager.applyPlan_answers session plan) fun detail => ?_
  exact Keeps.bind ((manager.recordStage_leaves task task _ _).keeps fun e => e.answers = answers)
    fun _ => Keeps.ret session

lemma correctiveMutation_answers {answers : List (List VerificationReceipt)}
    (session : WorktreeSessionConfig) (plan : ScopedMutationPlan) (diagnostics : List String) :
    Keeps (fun s => s.answers = answers)
      (manager.correctiveMutation session plan diagnostics) := by
  unfold correctiveMutation
  split
  · exact Keeps.ret _
  · split
    · refine Keeps.handle ?_ fun _ => Keeps.ret _
      exact Keeps.bind ((call_leaves "" _).keeps fun e => e.answers = answers) fun _ => Keeps.ret _
    · refine Keeps.handle ?_ fun _ => Keeps.ret _
      exact Keeps.bind (executePlan_answers _ session plan) fun _ => Keeps.ret _

/-- The ladder of an attempt decides about it. -/
lemma attemptSelfHealing_answers {answers : List (List VerificationReceipt)}
    (runner : VerificationRunner W) (session : WorktreeSessionConfig) (plan : ScopedMutationPlan)
    (failedReceipts : List VerificationReceipt) (attemptIndex : ℕ) :
    Triple (fun s => s.answers = answers)
      (manager.attemptSelfHealing runner session plan failedReceipts attemptIndex)
      (fun receipt s => ∃ answer, s.answers = answers ++ [answer] ∧
        receipt.ladderPassed = allPass answer) fun _ _ => True := by
  refine Triple.bind ((manager.healingPrecedents_leaves "" _).triple fun e => e.answers = answers)
    fun precedents => ?_
  refine Triple.bind (manager.correctiveMutation_answers session plan _).triple
    fun corrected => ?_
  refine Triple.bind (runLadder_answers runner session plan) fun receipts => ?_
  exact Triple.ret fun s hs => ⟨receipts, hs, rfl⟩

/-- The receipts of the result are these, and they pass just if the answers are steady. -/
def Collected (task : String) (receipts : List VerificationReceipt) (s : Process W) : Prop :=
  (s.result task).receipts = receipts ∧ (allPass receipts = true ↔ Steady s.answers)

/-- What a step that may end with receipts leaves behind. -/
def CollectedOrFailed (task : String) (collected : Option (List VerificationReceipt))
    (s : Process W) : Prop :=
  match collected with
  | some receipts => Collected task receipts s
  | none => (s.result task).currentStage = .failed

lemma collected_leaves {α : Type} {task : String} {receipts : List VerificationReceipt}
    {x : Run W α} (h : Leaves (Process.evidence task) x) : Keeps (Collected task receipts) x :=
  h.keeps fun e => e.receipts = receipts ∧ (allPass receipts = true ↔ Steady e.answers)

lemma failing_append {answers : List (List VerificationReceipt)} (h : Failing answers)
    {answer : List VerificationReceipt} (hanswer : allPass answer = false) :
    Failing (answers ++ [answer]) := by
  intro other hother
  rcases List.mem_append.mp hother with hother | hother
  · exact h other hother
  · rw [List.mem_singleton.mp hother]
    exact hanswer

/-- The last answer is the one of this attempt, and no answer before it passed. -/
def Attempted (receipt : SelfHealingAttemptReceipt) (answers : List (List VerificationReceipt)) :
    Prop :=
  ∃ before answer, Failing before ∧ answers = before ++ [answer] ∧
    receipt.ladderPassed = allPass answer

lemma attemptSelfHealing_attempted (runner : VerificationRunner W)
    (session : WorktreeSessionConfig) (plan : ScopedMutationPlan)
    (failedReceipts : List VerificationReceipt) (attemptIndex : ℕ) :
    Triple (fun s => Failing s.answers)
      (manager.attemptSelfHealing runner session plan failedReceipts attemptIndex)
      (fun receipt s => Attempted receipt s.answers) fun _ _ => True := by
  intro s hs
  refine Triple.weaken (manager.attemptSelfHealing_answers runner session plan failedReceipts
    attemptIndex) (fun _ => id) (fun receipt s' h => ?_) (fun _ _ => id) s rfl
  obtain ⟨answer, hanswers, hpassed⟩ := h
  exact ⟨s.answers, answer, hs, hanswers, hpassed⟩

/-- The ladder after an attempt that passed. -/
lemma recollect_collected (task : String) (runner : VerificationRunner W)
    (session : WorktreeSessionConfig) (plan : ScopedMutationPlan)
    {receipt : SelfHealingAttemptReceipt} (hpassed : receipt.ladderPassed = true) :
    Triple (fun s => Attempted receipt s.answers)
      (do let receipts ← runLadder runner session plan
          setFields task fun r => { r with receipts := receipts }
          pure (some receipts))
      (fun healed s => ∀ receipts, healed = some receipts → Collected task receipts s)
      fun _ _ => True := by
  rintro s ⟨before, answer, hbefore, hanswers, hanswer⟩
  have hpass : allPass answer = true := hanswer ▸ hpassed
  refine Triple.bind (runLadder_answers runner session plan) (fun receipts => ?_) s hanswers
  refine Triple.bind (Triple.update (Q := fun _ s => Collected task receipts s) fun s hs => ?_)
    fun _ => Triple.ret fun s hs receipts' heq => ?_
  · refine ⟨by rw [Process.result_setResult], ?_⟩
    rw [Process.answers_setResult, hs, List.append_assoc]
    exact (steady_of_failing hbefore hpass).symm
  · cases heq
    exact hs

/-- The loop ends without receipts, or with those of the ladder after the first attempt that
passed. -/
lemma healLoop_collected (task : String) (request : CodingTaskRequest)
    (runner : VerificationRunner W) (session : WorktreeSessionConfig) (plan : ScopedMutationPlan)
    (failedReceipts : List VerificationReceipt) (attempts : List ℕ) :
    Triple (fun s => Failing s.answers)
      (manager.healLoop task request runner session plan failedReceipts attempts)
      (fun healed s => ∀ receipts, healed = some receipts → Collected task receipts s)
      fun _ _ => True := by
  induction attempts with
  | nil => exact Triple.ret fun s hs receipts h => by cases h
  | cons attemptIndex attempts ih =>
      refine Triple.bind (manager.attemptSelfHealing_attempted runner session plan _ _)
        fun receipt => ?_
      refine Triple.bind (R := fun _ s => Attempted receipt s.answers)
        (Triple.update fun s hs => hs) fun _ => ?_
      refine Triple.bind ((manager.recordStage_leaves task task _ _).triple
        fun e => Attempted receipt e.answers) fun _ => ?_
      refine Triple.split (fun hpassed => recollect_collected task runner session plan hpassed)
        fun hpassed => ?_
      refine Triple.weaken ih (fun s hs => ?_) (fun _ _ => id) fun _ _ => id
      obtain ⟨before, answer, hbefore, hanswers, hanswer⟩ := hs
      have hanswers' : s.answers = before ++ [answer] := hanswers
      rw [hanswers']
      exact failing_append hbefore (by rw [← hanswer]; exact Bool.eq_false_of_not_eq_true hpassed)

lemma heal_collected (task : String) (request : CodingTaskRequest) (plan : ScopedMutationPlan)
    (runner : VerificationRunner W) (session : WorktreeSessionConfig)
    (failedReceipts : List VerificationReceipt) :
    Triple (fun s => Failing s.answers)
      (manager.heal task request plan runner session failedReceipts)
      (CollectedOrFailed task) fun _ _ => True := by
  refine Triple.split (fun _ => ?_) fun _ => ?_
  · refine Triple.bind ((manager.recordStage_leaves task task _ _).triple
      fun e => Failing e.answers) fun _ => ?_
    refine Triple.bind (manager.healLoop_collected task request runner session plan _ _)
      fun healed => ?_
    cases healed with
    | some receipts => exact Triple.ret fun s hs => hs receipts rfl
    | none =>
        refine Triple.bind Triple.any fun _ => Triple.bind Triple.any fun receipt => ?_
        refine Triple.bind Triple.any fun _ => ?_
        exact Triple.bind (manager.recordStage_stage task .failed _) fun _ =>
          Triple.ret fun s hs => hs
  · exact Triple.bind (manager.stop_spec task .fail _ .failed) fun _ =>
      Triple.ret fun s hs => hs.2

lemma healIfFailed_collected (task : String) (request : CodingTaskRequest)
    (plan : ScopedMutationPlan) (runner : VerificationRunner W) (session : WorktreeSessionConfig)
    (receipts : List VerificationReceipt) :
    Triple (fun s => (s.result task).receipts = receipts ∧ s.answers = [receipts])
      (manager.healIfFailed task request plan runner session receipts)
      (CollectedOrFailed task) fun _ _ => True := by
  have hfilter : receipts.filter (fun r => r.status ≠ .pass) = [] ↔ allPass receipts = true := by
    simp [allPass, List.filter_eq_nil_iff]
  refine Triple.split (fun hpassed => ?_) fun hfailed => ?_
  · refine Triple.ret fun s hs => ⟨hs.1, ?_⟩
    rw [hs.2]
    exact iff_of_true (hfilter.mp hpassed) (List.isChain_singleton _)
  · refine Triple.weaken (manager.heal_collected task request plan runner session _)
      (fun s hs => ?_) (fun _ _ => id) fun _ _ => id
    rw [hs.2]
    intro answer hanswer
    rw [List.mem_singleton.mp hanswer]
    exact Bool.eq_false_of_not_eq_true fun hpass => hfailed (hfilter.mpr hpass)

/-- The receipts that the run goes on with are not empty. -/
lemma verify_collected (task : String) (request : CodingTaskRequest) (plan : ScopedMutationPlan)
    (session : WorktreeSessionConfig) :
    Triple (fun s => s.answers = []) (manager.verify task request plan session)
      (fun collected s => CollectedOrFailed task collected s ∧ collected ≠ some [])
      fun _ _ => True := by
  refine Triple.bind ((manager.recordStage_leaves task task _ _).triple
    fun e => e.answers = []) fun _ => ?_
  split
  · exact Triple.raise fun _ _ => trivial
  · rename_i runner hrunner
    refine Triple.bind (runLadder_answers runner session plan) fun receipts => ?_
    refine Triple.bind (R := fun _ s => (s.result task).receipts = receipts ∧
      s.answers = [receipts]) (Triple.update fun s hs => ⟨?_, hs⟩) fun _ => ?_
    · rw [Process.result_setResult]
    · refine Triple.bind (manager.healIfFailed_collected task request plan runner session _)
        fun collected => ?_
      cases collected with
      | none => exact Triple.ret fun s hs => ⟨hs, nofun⟩
      | some receipts =>
          refine Triple.split (fun _ => ?_) fun hreceipts => ?_
          · exact Triple.bind (manager.stop_spec task .fail _ .failed) fun _ =>
              Triple.ret fun s hs => ⟨hs.2, nofun⟩
          · exact Triple.ret fun s hs => ⟨hs, fun h => hreceipts (Option.some.inj h)⟩

/-! ## The end of a run -/

lemma checkEvidence_failed {P : Process W → Prop} (task : String) (request : CodingTaskRequest)
    (worktrees : WorktreeManager W) (session : WorktreeSessionConfig) :
    Triple P (manager.checkEvidence task request worktrees session)
      (fun evident s => evident = false → (s.result task).currentStage = .failed)
      fun _ _ => True := by
  refine Triple.split (fun _ => ?_) fun _ => Triple.ret fun _ _ => nofun
  refine Triple.bind Triple.any fun diffStat => Triple.split (fun _ => ?_) fun _ => ?_
  · exact Triple.bind (manager.stop_spec task .fail _ .failed) fun _ =>
      Triple.ret fun s hs _ => hs.2
  · exact Triple.ret fun _ _ => nofun

lemma review_failed {P : Process W → Prop} (task : String) (request : CodingTaskRequest)
    (session : WorktreeSessionConfig) :
    Triple P (manager.review task request session)
      (fun reviewed s => reviewed = false → (s.result task).currentStage = .failed)
      fun _ _ => True := by
  refine Triple.split (fun _ => ?_) fun _ => Triple.ret fun _ _ => nofun
  refine Triple.bind Triple.any fun _ => Triple.bind Triple.any fun head => ?_
  refine Triple.bind Triple.any fun freshness => Triple.split (fun _ => ?_) fun _ => ?_
  · exact Triple.bind Triple.any fun _ => Triple.bind Triple.any fun _ =>
      Triple.ret fun _ _ => nofun
  · exact Triple.bind (manager.stop_spec task .fail _ .failed) fun _ =>
      Triple.ret fun s hs _ => hs.2

lemma publish_receipts {P : Process W → Prop} (request : CodingTaskRequest)
    (payload : DraftPRPayload) :
    Triple P (manager.publish request payload)
      (fun published _ => published.receipts = payload.receipts) fun _ _ => True := by
  unfold publish
  split
  · exact Triple.ret fun _ _ => rfl
  · exact Triple.bind Triple.any fun _ => Triple.ret fun _ _ => rfl

/-- The draft pull request of a result has these receipts. -/
def Published (receipts : List VerificationReceipt) (result : CodingPipelineResult) : Prop :=
  result.prPayload.map DraftPRPayload.receipts = some receipts

lemma exportDraft_published {P : Process W → Prop} (task : String) (request : CodingTaskRequest)
    (plan : ScopedMutationPlan) (worktrees : WorktreeManager W) (session : WorktreeSessionConfig)
    (receipts : List VerificationReceipt) :
    Triple P (manager.exportDraft task request plan worktrees session receipts)
      (fun _ s => Published receipts (s.result task)) fun _ _ => True := by
  refine Triple.bind Triple.any fun _ => Triple.bind Triple.any fun commitHash => ?_
  refine Triple.bind Triple.any fun diffStat => Triple.bind Triple.any fun debate => ?_
  refine Triple.bind (manager.publish_receipts request _) fun payload => ?_
  refine Triple.known fun hpayload => ?_
  refine Triple.bind (R := fun _ s => Published receipts (s.result task))
    (Triple.update fun s _ => ?_) fun _ => ?_
  · rw [Process.result_setResult]
    exact congrArg some hpayload
  · exact manager.recordStage_spec task _ fun _ _ h => h

/-- A result that completes has receipts, its draft pull request has them too, and they pass just if
the answers are steady. -/
def SoundIfCompleted (task : String) (s : Process W) : Prop :=
  (s.result task).currentStage = .completed →
    (s.result task).receipts ≠ [] ∧ Published (s.result task).receipts (s.result task) ∧
      (allPass (s.result task).receipts = true ↔ Steady s.answers)

lemma soundIfCompleted_of_failed {task : String} {s : Process W}
    (h : (s.result task).currentStage = .failed) : SoundIfCompleted task s := by
  intro hcompleted
  rw [h] at hcompleted
  cases hcompleted

lemma exportDraft_sound (task : String) (request : CodingTaskRequest)
    (plan : ScopedMutationPlan) (worktrees : WorktreeManager W) (session : WorktreeSessionConfig)
    {receipts : List VerificationReceipt} (hreceipts : receipts ≠ []) :
    Triple (Collected task receipts)
      (manager.exportDraft task request plan worktrees session receipts)
      (fun _ => SoundIfCompleted task) fun _ _ => True := by
  refine Triple.weaken
    (Triple.conj
      (manager.exportDraft_published task request plan worktrees session receipts)
      (collected_leaves
        (manager.exportDraft_leaves task task request plan worktrees session receipts)).triple)
    (fun _ => id) (fun _ s hs _ => ?_) fun _ _ _ => trivial
  obtain ⟨hpublished, hcollected, hsteady⟩ := hs
  rw [hcollected]
  exact ⟨hreceipts, hpublished, hsteady⟩

lemma runStages_sound (task : String) (request : CodingTaskRequest) (plan : ScopedMutationPlan) :
    Triple (fun s => s.answers = []) (manager.runStages task request plan)
      (fun _ => SoundIfCompleted task) fun _ _ => True := by
  refine Triple.bind ((manager.recordStage_leaves task task _ _).triple
    fun e => e.answers = []) fun _ => ?_
  split
  · exact Triple.raise fun _ _ => trivial
  · rename_i worktrees hworktrees
    refine Triple.bind (manager.mutate_answers task request plan worktrees).triple
      fun session => ?_
    refine Triple.bind (Triple.conj
      (manager.checkEvidence_failed task request worktrees session)
      ((manager.checkEvidence_leaves task task request worktrees session).triple
        fun e => e.answers = [])) fun evident => Triple.split (fun _ => ?_) fun hevident => ?_
    · refine Triple.bind (Triple.weaken (manager.verify_collected task request plan session)
        (fun s hs => hs.2) (fun _ _ => id) fun _ _ => id) fun collected => ?_
      cases collected with
      | none => exact Triple.ret fun s hs => soundIfCompleted_of_failed hs.1
      | some receipts =>
          refine Triple.weaken (P := fun s => receipts ≠ [] ∧ Collected task receipts s)
            (Triple.assume fun hreceipts => ?_)
            (fun s hs => ⟨fun h => hs.2 (congrArg some h), hs.1⟩) (fun _ _ => id) fun _ _ => id
          refine Triple.bind (R := fun _ => Collected task receipts)
            (Triple.update fun s hs => ?_) fun _ => ?_
          · refine ⟨?_, hs.2⟩
            rw [Process.result_setResult]
            exact hs.1
          · refine Triple.bind
              (collected_leaves (manager.recordStage_leaves task task _ _)).triple fun _ => ?_
            refine Triple.bind (Triple.conj (manager.review_failed task request session)
              (collected_leaves (manager.review_leaves task task request session)).triple)
              fun reviewed => Triple.split (fun _ => ?_) fun hreviewed => ?_
            · exact Triple.weaken
                (manager.exportDraft_sound task request plan worktrees session hreceipts)
                (fun s hs => hs.2) (fun _ _ => id) fun _ _ => id
            · exact Triple.ret fun s hs =>
                soundIfCompleted_of_failed (hs.1 (Bool.eq_false_of_not_eq_true hreviewed))
    · exact Triple.ret fun s hs =>
        soundIfCompleted_of_failed (hs.1 (Bool.eq_false_of_not_eq_true hevident))

lemma startPipeline_answers {answers : List (List VerificationReceipt)}
    (request : CodingTaskRequest) :
    Keeps (fun s => s.answers = answers) (manager.startPipeline request) := by
  have hrecord (stage : PipelineStage) (detail : String) :
      Keeps (fun s => s.answers = answers) (manager.recordStage request.taskId stage detail) :=
    (manager.recordStage_leaves "" request.taskId _ _).keeps fun e => e.answers = answers
  have hstop (message : String) :
      Keeps (fun s => s.answers = answers)
        (manager.stop request.taskId .blocked message .failed) :=
    (manager.stop_leaves "" request.taskId _ _ _).keeps fun e => e.answers = answers
  refine Keeps.bind (Keeps.update fun s hs => hs) fun _ => ?_
  refine Keeps.bind (hrecord _ _) fun _ => Keeps.bind (Keeps.read _) fun blocked => ?_
  split
  · exact hstop _
  · split
    · exact hstop _
    · exact hrecord _ _

/-- The task has not completed. -/
def Incomplete (task : String) (s : Process W) : Prop :=
  (s.result task).currentStage ≠ .completed

lemma incomplete_of_stage {task : String} {stage : PipelineStage} {x : Run W α}
    {P : Process W → Prop} (hstage : stage ≠ .completed)
    (h : Triple P x (fun _ s => (s.result task).currentStage = stage) fun _ _ => True) :
    Triple P x (fun _ => Incomplete task) fun _ _ => True :=
  Triple.weaken h (fun _ => id) (fun _ _ hs => fun hcompleted => hstage (hs.symm.trans hcompleted))
    fun _ _ => id

lemma stop_incomplete {P : Process W → Prop} (task : String) (status : VerificationStatus)
    (message : String) {stage : PipelineStage} (hstage : stage ≠ .completed) :
    Triple P (manager.stop task status message stage) (fun _ => Incomplete task)
      fun _ _ => True :=
  incomplete_of_stage hstage
    (Triple.weaken (manager.stop_spec task status message stage) (fun _ => id)
      (fun _ _ hs => hs.2) fun _ _ => id)

lemma startPipeline_incomplete {P : Process W → Prop} (request : CodingTaskRequest) :
    Triple P (manager.startPipeline request) (fun _ => Incomplete request.taskId)
      fun _ _ => True := by
  refine Triple.bind Triple.any fun _ => Triple.bind Triple.any fun _ => ?_
  refine Triple.bind Triple.any fun blocked => ?_
  split
  · exact manager.stop_incomplete _ _ _ (by decide)
  · split
    · exact manager.stop_incomplete _ _ _ (by decide)
    · exact incomplete_of_stage (by decide) (manager.recordStage_stage _ .precheck _)

lemma debateGate_incomplete {P : Process W → Prop} (task : String) (request : CodingTaskRequest)
    (plan : ScopedMutationPlan) :
    Triple P (manager.debateGate task request plan)
      (fun debated s => debated = none → Incomplete request.taskId s) fun _ _ => True := by
  refine Triple.split (fun _ => ?_) fun _ => Triple.ret fun _ _ => nofun
  refine Triple.bind Triple.any fun record => Triple.split (fun _ => ?_) fun _ => ?_
  · exact Triple.bind (manager.stop_incomplete _ _ _ (by decide)) fun _ =>
      Triple.ret fun s hs _ => hs
  · exact Triple.bind Triple.any fun _ => Triple.ret fun _ _ => nofun

lemma submitPlan_incomplete {P : Process W → Prop} (task : String) (plan : ScopedMutationPlan) :
    Triple P (manager.submitPlan task plan) (fun _ => Incomplete task) fun _ _ => True := by
  refine Triple.bind Triple.any fun session => ?_
  refine Triple.split (fun _ => Triple.raise fun _ _ => trivial) fun _ => ?_
  refine Triple.bind Triple.any fun _ => ?_
  split
  · exact manager.stop_incomplete _ _ _ (by decide)
  · refine Triple.split (fun _ => manager.stop_incomplete _ _ _ (by decide)) fun _ => ?_
    split
    · exact manager.stop_incomplete _ _ _ (by decide)
    · exact incomplete_of_stage (by decide) (manager.recordStage_stage _ .planAndGate _)

lemma executePipeline_sound (task : String) (request : CodingTaskRequest)
    (plan : ScopedMutationPlan) :
    Triple (fun s => s.answers = []) (manager.executePipeline task request plan)
      SoundIfCompleted fun _ _ => True := by
  refine Triple.bind (Triple.conj (manager.startPipeline_incomplete request)
    (manager.startPipeline_answers request).triple) fun _ => ?_
  refine Triple.bind (R := fun _ s => Incomplete request.taskId s ∧ s.answers = [])
    (Triple.read fun _ hs => hs) fun blocked => ?_
  refine Triple.split (fun _ => Triple.ret fun s hs hcompleted => absurd hcompleted hs.1)
    fun _ => ?_
  refine Triple.bind (Triple.weaken (Triple.conj (manager.debateGate_incomplete task request plan)
    ((manager.debateGate_leaves task task request plan).triple fun e => e.answers = []))
    (fun s hs => hs.2) (fun _ _ => id) fun _ _ => id) fun debated => ?_
  cases debated with
  | none => exact Triple.ret fun s hs hcompleted => absurd hcompleted (hs.1 rfl)
  | some handed =>
      refine Triple.bind (Triple.weaken (Triple.conj (manager.submitPlan_incomplete task handed)
        ((manager.submitPlan_leaves task task handed).triple fun e => e.answers = []))
        (fun s hs => hs.2) (fun _ _ => id) fun _ _ => id) fun _ => ?_
      refine Triple.bind (R := fun _ s => Incomplete task s ∧ s.answers = [])
        (Triple.read fun _ hs => hs) fun stopped => ?_
      refine Triple.split (fun _ => Triple.ret fun s hs hcompleted => absurd hcompleted hs.1)
        fun _ => ?_
      refine Triple.bind (Triple.handle (Triple.weaken (manager.runStages_sound task request handed)
        (fun s hs => hs.2) (fun _ _ => id) fun _ _ => id) fun exc => ?_) fun _ =>
        Triple.ret fun s hs => hs
      exact Triple.bind Triple.any fun _ => Triple.weaken
        (manager.recordStage_stage task .failed _) (fun _ => id)
        (fun _ s hs => soundIfCompleted_of_failed hs) fun _ _ => id

end CodingPipelineManager

open CodingPipelineManager

/-- A completed result has receipts, and they are the published ones. They all pass just if the
runner followed no answer that passes by one that does not. -/
theorem completed_receipts {manager : CodingPipelineManager W} {task : String}
    {request : CodingTaskRequest} {plan : ScopedMutationPlan} {world : W}
    {sessions : String → Option CodingPipelineResult} {key : String} {s : Process W}
    (hrun : manager.executePipeline task request plan (.start world sessions) = (.ok key, s))
    (hcompleted : (s.result key).currentStage = .completed) :
    (s.result key).receipts ≠ [] ∧
      (s.result key).prPayload.map DraftPRPayload.receipts = some (s.result key).receipts ∧
      ((∀ r ∈ (s.result key).receipts, r.status = .pass) ↔ Steady s.answers) := by
  have hends := manager.executePipeline_sound task request plan (.start world sessions) rfl
  rw [hrun] at hends
  obtain ⟨hne, hpublished, hsteady⟩ := hends hcompleted
  exact ⟨hne, hpublished, allPass_iff.symm.trans hsteady⟩

/-! ## Runs with a healing attempt -/

def sampleReceipt (status : VerificationStatus) : VerificationReceipt where
  stepName := "tests"
  command := "pytest"
  exitCode := if status = .pass then 0 else 1
  status := status

def healedPlan : ScopedMutationPlan :=
  { samplePlan with humanApproved := true, approvalToken := some "alice" }

/-- The run over a runner that gives these answers. -/
def healingRun (statuses : List VerificationStatus) :
    Except String String × Process (List (List VerificationReceipt)) :=
  scriptedManager.executePipeline "T1" sampleRequest healedPlan
    (.start (statuses.map fun status => [sampleReceipt status]) fun _ => none)

theorem healed_run_receipts :
    ((healingRun [.fail, .pass, .pass]).2.result "T1").receipts ≠ [] ∧
      ((healingRun [.fail, .pass, .pass]).2.result "T1").prPayload.map DraftPRPayload.receipts =
        some ((healingRun [.fail, .pass, .pass]).2.result "T1").receipts ∧
      ((∀ r ∈ ((healingRun [.fail, .pass, .pass]).2.result "T1").receipts, r.status = .pass) ↔
        Steady (healingRun [.fail, .pass, .pass]).2.answers) :=
  @completed_receipts _ scriptedManager _ _ _ _ _ "T1" _
    (by
      have hkey : (healingRun [.fail, .pass, .pass]).1 = .ok "T1" := by decide +kernel
      exact Prod.ext hkey rfl)
    (by decide +kernel)

/-- The ladder is green for the attempt and red for the receipts that are collected after it. -/
theorem completed_with_failed_receipt :
    (healingRun [.fail, .pass, .fail]).1 = .ok "T1" ∧
      ((healingRun [.fail, .pass, .fail]).2.result "T1").currentStage = .completed ∧
      sampleReceipt .fail ∈ ((healingRun [.fail, .pass, .fail]).2.result "T1").receipts ∧
      (sampleReceipt .fail).status ≠ .pass := by
  decide +kernel

end AgentSystem.Pipeline
