import AgentSystem.PipelineDebate
import AgentSystem.PolicyGate

/-!
# The manager of the pipeline

`CodingPipelineManager` over tools whose answers depend on a world that each call may change. The
state keeps the sessions of the manager and, for the properties of a run, the plans that were given
to the executor and the answers of the verification runner.
-/
namespace AgentSystem.Pipeline

open Programs

/-! ## Tools -/

structure WorktreeManager (W : Type) where
  createWorktree : String → String → String → Program W String WorktreeSessionConfig
  cleanupWorktree : WorktreeSessionConfig → Program W String Bool
  getDiff : WorktreeSessionConfig → Program W String String
  commitChanges : WorktreeSessionConfig → String → Program W String String
  /-- `create_multi_agent_worktrees`, if the manager has it. -/
  createMultiAgentWorktrees :
    Option (String → List String → String → Program W String (List (String × WorktreeSessionConfig)))
  /-- `squash_merge_worktree_branch`, if the manager has it. -/
  squashMergeWorktreeBranch : Option (String → String → String → Program W String (Bool × String))

/-- What an executor reports about a correction, where it says so. -/
structure HealResult where
  modifiedFiles : Option (List String) := none
  actionTaken : Option String := none

structure ScopedExecutor (W : Type) where
  executePlan : WorktreeSessionConfig → ScopedMutationPlan → Program W String HealResult
  /-- `heal_mutation`, if the executor has it. -/
  healMutation : Option
    (WorktreeSessionConfig → ScopedMutationPlan → List String → Program W String HealResult)

structure VerificationRunner (W : Type) where
  runVerificationLadder : String → List String → Program W String (List VerificationReceipt)

structure DraftPRPublisher (W : Type) where
  publishDraftPr : DraftPRPayload → String → Program W String String

/-- The manager with its tools, the files and the commands that it uses itself. -/
structure CodingPipelineManager (W : Type) where
  text : TextTables
  worktreeManager : Option (WorktreeManager W)
  scopedExecutor : Option (ScopedExecutor W)
  verificationRunner : Option (VerificationRunner W)
  draftPrPublisher : Option (DraftPRPublisher W)
  /-- `record_event` of the audit ledger with the type of the event, the task and the detail. -/
  auditLedger : Option (String → String → String → Program W String Unit)
  mesh : Option (Mesh W)
  /-- `verify_review_freshness` of a verifier other than the standard one. -/
  reviewVerifier : Option (String → String → Program W String (Bool × String))
  /-- A file exists in a repository, or in the workspace if none is named. -/
  fileExists : W → String → String → Bool
  /-- `git rev-parse HEAD`. -/
  headCommit : String → Program W String String
  /-- The reset of a worktree and the untracked files that it removes, `none` for a repository that
  is not touched. -/
  resetWorktree : WorktreeSessionConfig → Program W String (Option (List String))

/-- The state of a run. -/
structure Process (W : Type) where
  world : W
  sessions : String → Option CodingPipelineResult
  executed : List ScopedMutationPlan := []
  answers : List (List VerificationReceipt) := []

variable {W α : Type}

/-- A program of the manager. -/
abbrev Run (W α : Type) : Type := Program (Process W) String α

/-- A call of a tool. -/
def call (x : Program W String α) : Run W α :=
  Program.within Process.world (fun world s => { s with world := world }) x

def newResult (taskId : String) : CodingPipelineResult where
  taskId := taskId
  status := .notRun
  currentStage := .intake

namespace Process

/-- The state before a run. -/
def start (world : W) (sessions : String → Option CodingPipelineResult) : Process W where
  world := world
  sessions := sessions

/-- The result that is kept for a task. -/
def result (s : Process W) (task : String) : CodingPipelineResult :=
  (s.sessions task).getD (newResult task)

def setResult (s : Process W) (task : String) (result : CodingPipelineResult) : Process W :=
  { s with sessions := Function.update s.sessions task (some result) }

@[simp] lemma result_setResult (s : Process W) (task : String) (result : CodingPipelineResult) :
    (s.setResult task result).result task = result := by
  simp [Process.result, setResult]

@[simp] lemma executed_setResult (s : Process W) (task : String) (result : CodingPipelineResult) :
    (s.setResult task result).executed = s.executed := rfl

@[simp] lemma answers_setResult (s : Process W) (task : String) (result : CodingPipelineResult) :
    (s.setResult task result).answers = s.answers := rfl

end Process

/-- An assignment to fields of the result. -/
def setFields (task : String) (f : CodingPipelineResult → CodingPipelineResult) : Run W Unit :=
  .update fun s => s.setResult task (f (s.result task))

def isTerminal (stage : PipelineStage) : Bool := stage = .completed || stage = .failed

/-- The scope of a role: the error for the first file that it must not touch. -/
def validateRoleScope (role : String) (targetFiles : List String) : Option String :=
  match PolicyGate.roleScopeRestrictions.lookup role with
  | none => none
  | some restriction =>
      if restriction.readOnly then
        some s!"Role {role} is strictly read-only and cannot mutate any files."
      else
        targetFiles.findSome? fun filePath =>
          (restriction.forbiddenPrefixes.find? fun forbidden =>
            startsWith (cleanPath filePath) (cleanPath forbidden)).map fun forbidden =>
              s!"Role {role} is forbidden from modifying '{filePath}' (violates boundary prefix " ++
              s!"'{forbidden}'). {restriction.description}"

namespace CodingPipelineManager

variable (manager : CodingPipelineManager W)

/-- The event of a stage in the audit ledger, if there is one. -/
def recordEvent (taskId : String) (stage : PipelineStage) (detail : String) : Run W Unit :=
  match manager.auditLedger with
  | none => pure ()
  | some record => do
      let _ ← Program.attempt (call
        (record s!"pipeline_stage_{manager.text.lower stage.value}" taskId detail))
      pure ()

/-- `_record_stage`. -/
def recordStage (task : String) (stage : PipelineStage) (detail : String) : Run W Unit := do
  let result ← .read fun s => s.result task
  if isTerminal result.currentStage && !isTerminal stage then
    .raise (s!"Illegal state transition: cannot re-enter active stage '{stage.value}' from " ++
      s!"terminal stage '{result.currentStage.value}'")
  else
    setFields task fun r =>
      { r with currentStage := stage, stageHistory := r.stageHistory ++ [(stage, detail)] }
    manager.recordEvent result.taskId stage detail

/-- A status with its message, and the stage that records it. -/
def stop (task : String) (status : VerificationStatus) (message : String)
    (stage : PipelineStage) : Run W Unit := do
  setFields task fun r => { r with status := status, errorMessage := some message }
  manager.recordStage task stage message

/-- `check_anti_summary_preflight` over a repository, or the workspace if none is named: the message
that blocks. -/
def checkAntiSummaryPreflight (repositoryPath : String) (inspectedFiles : List String) (world : W) :
    Option String :=
  if inspectedFiles = [] then
    some ("Anti-Summary violation: Primary source inspection required before planning or code " ++
      "changes. Citing concrete files is mandatory.")
  else
    let missing := inspectedFiles.filter fun file => !manager.fileExists world repositoryPath file
    if missing = [] then none
    else
      some ("Anti-Summary violation: Specified primary source files do not exist: " ++
        ", ".intercalate missing)

/-- `check_stop_and_wait_gate`: the message that blocks. -/
def checkStopAndWaitGate (planApproved : Bool) (approverId : Option String) : Option String :=
  if planApproved = false then
    some ("Stop-and-Wait Gate: Plan proposal requires explicit Human sign-off before modifying " ++
      "code.")
  else
    match approverId with
    | none => none
    | some approver =>
        let cleaned := manager.text.lower (manager.text.strip approver)
        if approver ≠ "" ∧ (startsWith cleaned "agent" || startsWith cleaned "bot") = true then
          some (s!"Stop-and-Wait Gate: Self-approval rejected. Autonomous agent '{approver}' " ++
            "cannot approve execution plans.")
        else none

/-- `start_pipeline`; the session that it returns is the one of the task of the request. -/
def startPipeline (request : CodingTaskRequest) : Run W Unit := do
  let task := request.taskId
  .update fun s => s.setResult task (newResult task)
  manager.recordStage task .intake
    s!"Requirement accepted: {firstChars 80 request.requirementPrompt}..."
  let blocked ← .read fun s =>
    manager.checkAntiSummaryPreflight request.repositoryPath request.inspectedFiles s.world
  match blocked with
  | some message => manager.stop task .blocked message .failed
  | none =>
      match request.allowedRoles.findSome? fun role =>
        validateRoleScope role request.targetFiles with
      | some error => manager.stop task .blocked s!"Role scope violation: {error}" .failed
      | none =>
          manager.recordStage task .precheck
            "Preflight checks passed: Anti-Summary and scope verified."

/-- `run_committee_debate`. -/
def runCommitteeDebate (task : String) (request : CodingTaskRequest)
    (draftPlan : Option ScopedMutationPlan) : Run W CommitteeDebateRecord := do
  .update fun s => s.setResult task (s.result task)
  manager.recordStage task .committeeDebate
    s!"Forming specialist committee for deliberation ({request.debateRounds} round(s))."
  let formation := evaluateCommittee manager.text request
  let record ← call (runDebate manager.text manager.mesh request formation draftPlan)
  setFields task fun r =>
    { r with
      committeeDebate := some record
      mutationPlan := some record.synthesizedMutationPlan }
  let scorecard := record.consensusScorecard
  manager.recordStage task .committeeDebate
    (s!"Debate concluded. Composite: {fixed2 scorecard.compositeScore} ({scorecard.decision}). " ++
      s!"Members: " ++ ", ".intercalate record.committeeMembers)
  pure record

/-- The plan was approved by the role that it is assigned to. -/
def selfApproved (plan : ScopedMutationPlan) : Bool :=
  plan.approvalToken.any fun token =>
    token != "" &&
      manager.text.lower (manager.text.strip token) =
        manager.text.lower (manager.text.strip plan.assignedRole)

/-- `submit_plan`. -/
def submitPlan (task : String) (plan : ScopedMutationPlan) : Run W Unit := do
  let session ← .read fun s => s.sessions task
  if session.isNone then
    .raise s!"Task '{task}' not found in active pipeline sessions."
  else
    setFields task fun r => { r with mutationPlan := some plan }
    match manager.checkStopAndWaitGate plan.humanApproved plan.approvalToken with
    | some message => manager.stop task .blocked message .planAndGate
    | none =>
        if manager.selfApproved plan then
          manager.stop task .blocked
            (s!"Self-approval rejected: Assigned role '{plan.assignedRole}' cannot approve its " ++
              "own plan.") .failed
        else
          match validateRoleScope plan.assignedRole plan.targetFiles with
          | some error =>
              manager.stop task .blocked s!"Plan role scope violation: {error}" .failed
          | none =>
              let token := plan.approvalToken.getD ""
              let shown := if token = "" then "VERIFIED" else token
              manager.recordStage task .planAndGate s!"Plan approved by human (Token: {shown})."

/-- The status is blocked or the stage is the failed one. -/
def isStopped (task : String) : Run W Bool :=
  .read fun s => (s.result task).status = .blocked || (s.result task).currentStage = .failed

/-- A call of `execute_plan`. -/
def executePlan (executor : ScopedExecutor W) (session : WorktreeSessionConfig)
    (plan : ScopedMutationPlan) : Run W HealResult := do
  .update fun s => { s with executed := s.executed ++ [plan] }
  call (executor.executePlan session plan)

/-- A call of `run_verification_ladder`. -/
def runLadder (runner : VerificationRunner W) (session : WorktreeSessionConfig)
    (plan : ScopedMutationPlan) : Run W (List VerificationReceipt) := do
  let receipts ← call (runner.runVerificationLadder session.worktreePath plan.testStrategy)
  .update fun s => { s with answers := s.answers ++ [receipts] }
  pure receipts

end CodingPipelineManager

end AgentSystem.Pipeline
