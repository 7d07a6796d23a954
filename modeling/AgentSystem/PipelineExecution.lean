import AgentSystem.PipelineManager

/-!
# The execution of a plan

`execute_pipeline` with its stages from the isolated worktree to the draft pull request, the
self-healing loop, and `execute_concurrent_role_pipeline` over one worktree for each role.
-/
namespace AgentSystem.Pipeline

open Programs

variable {W : Type}

namespace CodingPipelineManager

variable (manager : CodingPipelineManager W)

/-! ## Self-healing -/

/-- `extract_failure_evidence`. -/
def extractFailureEvidence (receipts : List VerificationReceipt) : List String :=
  (receipts.filter fun r => r.status ≠ .pass).map fun r =>
    let output := manager.text.strip
      (if r.stderrSnippet = "" then r.stdoutSnippet else r.stderrSnippet)
    let summaryLines := (manager.text.splitlines output).filter fun line =>
      ["FAIL", "Error", "Exception", "AssertionError", "SyntaxError"].any fun word =>
        hasPart line word
    let diagnostic := (summaryLines.getLast?.map manager.text.strip).getD (firstChars 150 output)
    s!"[{r.command}] Exit {r.exitCode}: {diagnostic}"

/-- The precedents that an attempt refers to. -/
def healingPrecedents (diagnostics : List String) : Run W (List String) :=
  match manager.mesh.bind Mesh.vectorMemory with
  | none => pure []
  | some memory => do
      let found ← Program.attempt
        (call (memory.search (firstChars 200 (" ".intercalate diagnostics)) 2))
      pure ((found.getD []).map fun precedent =>
        s!"[{precedent.category}] {firstChars 120 precedent.content}")

/-- The correction of an attempt: the files that it modified and what it did. -/
def correctiveMutation (session : WorktreeSessionConfig) (plan : ScopedMutationPlan)
    (diagnostics : List String) : Run W (List String × String) :=
  match manager.scopedExecutor with
  | none => pure ([], "No active scoped executor attached; simulated healing pass")
  | some executor =>
      match executor.healMutation with
      | some healMutation =>
          Program.handle
            (do let healed ← call (healMutation session plan diagnostics)
                pure (healed.modifiedFiles.getD plan.targetFiles,
                  healed.actionTaken.getD "Applied scoped executor corrective mutation"))
            fun exc => pure ([], s!"Attempted executor fix, encountered: {exc}")
      | none =>
          Program.handle
            (do let executed ← executePlan executor session plan
                pure (executed.modifiedFiles.getD plan.targetFiles,
                  "Re-executed scoped mutation plan with updated parameters"))
            fun exc => pure ([], s!"Fallback fix failed: {exc}")

def allPass (receipts : List VerificationReceipt) : Bool := receipts.all fun r => r.status = .pass

/-- `attempt_self_healing`. -/
def attemptSelfHealing (runner : VerificationRunner W) (session : WorktreeSessionConfig)
    (plan : ScopedMutationPlan) (failedReceipts : List VerificationReceipt) (attemptIndex : ℕ) :
    Run W SelfHealingAttemptReceipt := do
  let diagnostics := manager.extractFailureEvidence failedReceipts
  let precedents ← manager.healingPrecedents diagnostics
  let (modifiedFiles, correctiveAction) ← manager.correctiveMutation session plan diagnostics
  let receipts ← runLadder runner session plan
  pure
    { attemptIndex := attemptIndex
      failedSteps := failedReceipts.map VerificationReceipt.stepName
      diagnosticEvidence := diagnostics
      memoryPrecedentsUsed := precedents
      correctiveAction := correctiveAction
      modifiedFiles := modifiedFiles
      ladderPassed := allPass receipts }

/-- The loop over the attempts: the receipts that are collected again after one that passed. -/
def healLoop (task : String) (request : CodingTaskRequest) (runner : VerificationRunner W)
    (session : WorktreeSessionConfig) (plan : ScopedMutationPlan)
    (failedReceipts : List VerificationReceipt) :
    List ℕ → Run W (Option (List VerificationReceipt))
  | [] => pure none
  | attemptIndex :: attempts => do
      let receipt ← manager.attemptSelfHealing runner session plan failedReceipts attemptIndex
      setFields task fun r => { r with selfHealingAttempts := r.selfHealingAttempts ++ [receipt] }
      let outcome := if receipt.ladderPassed then "PASSED" else "FAILED"
      manager.recordStage task .selfHealing
        s!"Self-healing attempt {attemptIndex}/{request.maxHealingAttempts}: {outcome}"
      if receipt.ladderPassed then
        let receipts ← runLadder runner session plan
        setFields task fun r => { r with receipts := receipts }
        pure (some receipts)
      else healLoop task request runner session plan failedReceipts attempts

/-- `execute_auto_rollback`. -/
def executeAutoRollback (task : String) (session : WorktreeSessionConfig) :
    Run W RollbackReceipt := do
  let purged ← call (manager.resetWorktree session)
  pure
    { taskId := task
      worktreePath := session.worktreePath
      branchName := session.branchName
      restoredBaseCommit := session.baseCommit
      untrackedFilesPurged := purged.getD []
      restorationStatus :=
        if purged.isSome then "PRISTINE_ROLLBACK" else "PRIMARY_REPO_PROTECTED"
      canonicalClean := purged.isSome }

/-! ## The stages -/

/-- The committee step: the plan that goes on, `none` if the committee rejects the task. -/
def debateGate (task : String) (request : CodingTaskRequest) (plan : ScopedMutationPlan) :
    Run W (Option ScopedMutationPlan) :=
  if request.enableCommittee then do
    let record ← manager.runCommitteeDebate task request (some plan)
    let scorecard := record.consensusScorecard
    if scorecard.securityAssurance < 70 / 100 then
      manager.stop request.taskId .blocked
        ("Committee debate rejected task due to critical security objection: " ++
          "; ".intercalate scorecard.dissentingOpinions) .failed
      pure none
    else
      let enriched : ScopedMutationPlan :=
        { record.synthesizedMutationPlan with
          humanApproved := plan.humanApproved
          approvalToken := plan.approvalToken
          approvalTimestamp := plan.approvalTimestamp }
      -- the approval is written to the plan that the result and its debate hold
      setFields task fun r =>
        { r with
          committeeDebate := some { record with synthesizedMutationPlan := enriched }
          mutationPlan := some enriched }
      pure (some enriched)
  else pure (some plan)

/-- The call of the executor, if there is one, with the detail that is recorded for it. -/
def applyPlan (session : WorktreeSessionConfig) (plan : ScopedMutationPlan) : Run W String :=
  match manager.scopedExecutor with
  | some executor => do
      let _ ← executePlan executor session plan
      pure "Code modifications successfully applied inside worktree."
  | none => pure "Mutation step ready (Executor stubbed)."

/-- Step 3: the mutation in a worktree. -/
def mutate (task : String) (request : CodingTaskRequest) (plan : ScopedMutationPlan)
    (worktrees : WorktreeManager W) : Run W WorktreeSessionConfig := do
  let session ← call
    (worktrees.createWorktree request.repositoryPath request.targetBranch request.baseBranch)
  setFields task fun r => { r with worktreeConfig := some session }
  let detail ← manager.applyPlan session plan
  manager.recordStage task .isolatedMutation detail
  pure session

/-- The check for mutation evidence, and whether the run goes on. -/
def checkEvidence (task : String) (request : CodingTaskRequest) (worktrees : WorktreeManager W)
    (session : WorktreeSessionConfig) : Run W Bool :=
  if request.requireMutationEvidence then do
    let diffStat ← call (worktrees.getDiff session)
    if manager.text.strip diffStat = "" then
      manager.stop task .fail
        ("No mutation evidence: Worktree diff is empty. Expected concrete modifications.") .failed
      pure false
    else pure true
  else pure true

def failedNames (receipts : List VerificationReceipt) : String :=
  ", ".intercalate (receipts.map VerificationReceipt.stepName)

/-- What follows a ladder with failed receipts: the receipts collected after healing, if any. -/
def heal (task : String) (request : CodingTaskRequest) (plan : ScopedMutationPlan)
    (runner : VerificationRunner W) (session : WorktreeSessionConfig)
    (failedReceipts : List VerificationReceipt) : Run W (Option (List VerificationReceipt)) :=
  if request.enableSelfHealing && 0 < request.maxHealingAttempts then do
    manager.recordStage task .selfHealing
      "Verification ladder failed; entering autonomous self-healing loop."
    let healed ← manager.healLoop task request runner session plan failedReceipts
      ((List.range request.maxHealingAttempts).map (· + 1))
    match healed with
    | some receipts => pure (some receipts)
    | none => do
        manager.stop task .fail
          (s!"Verification ladder failed on steps: {failedNames failedReceipts} (Self-healing " ++
            s!"exhausted after {request.maxHealingAttempts} attempts).") .failed
        let receipt ← manager.executeAutoRollback task session
        setFields task fun r => { r with rollbackReceipt := some receipt }
        manager.recordStage task .failed s!"Auto-rollback executed: {receipt.restorationStatus}"
        pure none
  else do
    manager.stop task .fail s!"Verification ladder failed on steps: {failedNames failedReceipts}"
      .failed
    pure none

/-- The receipts after the ladder, and after healing where it failed. -/
def healIfFailed (task : String) (request : CodingTaskRequest) (plan : ScopedMutationPlan)
    (runner : VerificationRunner W) (session : WorktreeSessionConfig)
    (receipts : List VerificationReceipt) : Run W (Option (List VerificationReceipt)) :=
  let failedReceipts := receipts.filter fun r => r.status ≠ .pass
  if failedReceipts = [] then pure (some receipts)
  else manager.heal task request plan runner session failedReceipts

/-- Step 4: the receipts with which the run goes on, if it does. -/
def verify (task : String) (request : CodingTaskRequest) (plan : ScopedMutationPlan)
    (session : WorktreeSessionConfig) : Run W (Option (List VerificationReceipt)) := do
  manager.recordStage task .verifyAndEvidence "Running verification test ladder."
  match manager.verificationRunner with
  | none => .raise "VerificationRunner is not configured on pipeline."
  | some runner => do
      let receipts ← runLadder runner session plan
      setFields task fun r => { r with receipts := receipts }
      let collected ← manager.healIfFailed task request plan runner session receipts
      match collected with
      | none => pure none
      | some receipts =>
          if receipts = [] then do
            manager.stop task .fail
              ("Verification ladder cannot be empty. Zero verification receipts were generated.")
              .failed
            pure none
          else pure (some receipts)

/-- `verify_review_freshness` of the standard verifier. -/
def verifyReviewFreshness (reviewedCommit currentHead : String) : Bool × String :=
  if manager.text.strip reviewedCommit = manager.text.strip currentHead then
    (true, "Review is fresh: verified against current HEAD commit.")
  else
    (false, s!"STALE_REVIEW: Review conducted on commit " ++
      s!"'{firstChars 8 (manager.text.strip reviewedCommit)}', but current worktree HEAD is " ++
      s!"'{firstChars 8 (manager.text.strip currentHead)}'. Re-review required.")

/-- The verdict of the review verifier on the head that it reviewed. -/
def reviewFreshness (head : String) : Run W (Bool × String) :=
  match manager.reviewVerifier with
  | some verifier => call (verifier head head)
  | none => pure (manager.verifyReviewFreshness head head)

/-- Step 4.5: the independent review, and whether the run goes on. -/
def review (task : String) (request : CodingTaskRequest) (session : WorktreeSessionConfig) :
    Run W Bool :=
  if request.enableIndependentReview then do
    manager.recordStage task .independentReview "Executing independent review gate verification."
    let head ← Program.attempt (call (manager.headCommit session.worktreePath))
    let head := (head.map manager.text.strip).getD session.baseCommit
    let (isFresh, message) ← manager.reviewFreshness head
    if isFresh then
      setFields task fun r => { r with independentReviewReceipt := some head }
      manager.recordStage task .independentReview s!"Independent review verified: {message}"
      pure true
    else
      manager.stop task .fail s!"Independent review gate rejected: {message}" .failed
      pure false
  else pure true

def joinQuoted (texts : List String) : String :=
  ", ".intercalate (texts.map fun name => "\x60" ++ name ++ "\x60")

/-- `_build_pr_body`. -/
def buildPrBody (request : CodingTaskRequest) (plan : ScopedMutationPlan)
    (receipts : List VerificationReceipt) (diffStat : String)
    (committeeDebate : Option CommitteeDebateRecord) : String :=
  let rows := receipts.map fun r =>
    "| \x60" ++ r.stepName ++ "\x60 | \x60" ++ r.command ++ "\x60 | \x60" ++ toString r.exitCode ++
      "\x60 | **\x60" ++ r.status.value ++ "\x60** | \x60" ++ toString r.durationMs ++ "ms\x60 |"
  let table := "| Step | Command | Exit Code | Status | Duration |\n|---|---|---|---|---|\n" ++
    "\n".intercalate rows
  let committee := match committeeDebate with
    | none => ""
    | some debate =>
        let sc := debate.consensusScorecard
        let actions := "; ".intercalate sc.recommendedActions
        "---\n\n### 🏛️ Multi-Agent Committee Consensus Scorecard (P85)\n" ++
        "- **Deliberation Decision**: **\x60" ++ sc.decision ++ "\x60**\n" ++
        "- **Composite Score**: \x60" ++ fixed2 sc.compositeScore ++ "\x60 (Arch: \x60" ++
          fixed2 sc.architecturalIntegrity ++ "\x60, Sec: \x60" ++ fixed2 sc.securityAssurance ++
          "\x60, QA: \x60" ++ fixed2 sc.testThoroughness ++ "\x60)\n" ++
        "- **Committee Members**: " ++ joinQuoted debate.committeeMembers ++ "\n" ++
        "- **Recommended Actions**: " ++ (if actions = "" then "Proceed to gate" else actions) ++
          "\n\n"
  let token := plan.approvalToken.getD ""
  "## 🤖 LAS Autonomous Coding Agent - Draft PR\n\n### 📋 Requirement Summary\n" ++
  "> **Task ID**: \x60" ++ request.taskId ++ "\x60\n" ++
  "> **Requirement**: " ++ request.requirementPrompt ++ "\n" ++
  "> **Assigned Specialist Role**: \x60" ++ plan.assignedRole ++ "\x60\n" ++
  "> **Target Files**: " ++ joinQuoted plan.targetFiles ++ "\n" ++ committee ++ "\n\n---\n\n" ++
  "### 🛡️ Preflight & Architecture Gate Verification\n" ++
  "- **Anti-Summary Invariant (調研先行)**: Verified across " ++
    toString request.inspectedFiles.length ++ " primary source files.\n" ++
  "- **Stop-and-Wait Architecture Gate**: Explicit human approval confirmed (\x60" ++
    (if token = "" then "VERIFIED" else token) ++ "\x60).\n" ++
  "- **Role Scope Restriction**: Target boundaries confirmed compliant with " ++
    "\x60ROLE_SCOPE_RESTRICTIONS\x60.\n\n---\n\n" ++
  "### 🧪 Objective Verification Ledger Receipts (Evidence Before Completion)\n" ++ table ++
  "\n\n---\n\n### 📊 Structural Diff Overview\n\x60\x60\x60diff\n" ++ firstChars 1500 diffStat ++
  "\n\x60\x60\x60\n\n---\n*Generated autonomously by LLM-Agent-System (LAS) under Universal " ++
  "Protocol v3.8.0.*\n"

/-- The payload with the address that the publisher gives it, if there is one. -/
def publish (request : CodingTaskRequest) (payload : DraftPRPayload) : Run W DraftPRPayload :=
  match manager.draftPrPublisher with
  | none => pure payload
  | some publisher => do
      let url ← call (publisher.publishDraftPr payload request.repositoryPath)
      pure { payload with prUrl := some url }

/-- Step 5: the draft pull request. -/
def exportDraft (task : String) (request : CodingTaskRequest) (plan : ScopedMutationPlan)
    (worktrees : WorktreeManager W) (session : WorktreeSessionConfig)
    (receipts : List VerificationReceipt) : Run W Unit := do
  manager.recordStage task .draftPrExport "Committing changes and generating Draft PR."
  let commitHash ← call (worktrees.commitChanges session
    (s!"feat({task}): {firstChars 50 request.requirementPrompt}\n\n" ++
      "Verified by LAS Autonomous Pipeline."))
  let diffStat ← call (worktrees.getDiff session)
  let debate ← .read fun s => (s.result task).committeeDebate
  let payload ← manager.publish request
    { title := s!"[LAS Draft PR] {firstChars 60 request.requirementPrompt}"
      body := buildPrBody request plan receipts diffStat debate
      headBranch := request.targetBranch
      baseBranch := request.baseBranch
      commitHash := commitHash
      changedFiles := plan.targetFiles
      receipts := receipts }
  setFields task fun r => { r with prPayload := some payload }
  manager.recordStage task .completed s!"Draft PR successfully created: {payload.title}"

/-- The steps from the worktree to the draft pull request. -/
def runStages (task : String) (request : CodingTaskRequest) (plan : ScopedMutationPlan) :
    Run W Unit := do
  manager.recordStage task .isolatedMutation "Setting up isolated git worktree environment."
  match manager.worktreeManager with
  | none => .raise "WorktreeManager is not configured on pipeline."
  | some worktrees => do
      let session ← manager.mutate task request plan worktrees
      let evident ← manager.checkEvidence task request worktrees session
      if evident then
        let receipts ← manager.verify task request plan session
        match receipts with
        | none => pure ()
        | some receipts => do
            setFields task fun r => { r with status := .pass }
            manager.recordStage task .verifyAndEvidence
              s!"All {receipts.length} verification steps passed with Exit Code 0."
            let reviewed ← manager.review task request session
            if reviewed then manager.exportDraft task request plan worktrees session receipts
            else pure ()
      else pure ()

/-- `execute_pipeline`: the task whose session is the result. -/
def executePipeline (task : String) (request : CodingTaskRequest) (plan : ScopedMutationPlan) :
    Run W String := do
  manager.startPipeline request
  let blocked ← isStopped request.taskId
  if blocked then pure request.taskId
  else do
    let debated ← manager.debateGate task request plan
    match debated with
    | none => pure request.taskId
    | some plan => do
        manager.submitPlan task plan
        let blocked ← isStopped task
        if blocked then pure task
        else do
          Program.handle (manager.runStages task request plan) fun exc => do
            setFields task fun r => { r with status := .fail, errorMessage := some exc }
            manager.recordStage task .failed s!"Pipeline execution failed: {exc}"
          pure task

/-! ## One worktree for each role -/

structure RoleExecution where
  sessionId : String
  branch : String
  commit : String
  diff : String

inductive ConcurrentResult
  | failure (error : String) (stage : PipelineStage)
      (partialResults : Option (List (String × RoleExecution)))
  | success (roles : List String) (executions : List (String × RoleExecution))
      (squashReceipts : List (String × Bool × String)) (arbitratedFilesCount : ℕ)

/-- The first role whose plan leaves the scope of the role. -/
def scopeViolation (rolePlans : List (String × ScopedMutationPlan)) : Option String :=
  rolePlans.findSome? fun rolePlan =>
    (validateRoleScope rolePlan.1 rolePlan.2.targetFiles).map fun error =>
      s!"Policy Gate violation for role '{rolePlan.1}': {error}"

/-- The loop that assigns files to roles: the assignment, or the first conflict. -/
def assignFiles : List (String × String) → List (String × String) →
    Except String (List (String × String))
  | assigned, [] => .ok assigned
  | assigned, (role, file) :: claims =>
      match assigned.lookup file with
      | some other =>
          .error (s!"Role overlap arbitration conflict: file '{file}' claimed by both " ++
            s!"'{other}' and '{role}'")
      | none => assignFiles (assigned ++ [(file, role)]) claims

/-- The files that the plans claim. -/
def fileClaims (rolePlans : List (String × ScopedMutationPlan)) : List (String × String) :=
  rolePlans.flatMap fun rolePlan => rolePlan.2.targetFiles.map fun file => (rolePlan.1, file)

/-- The worktrees of the roles. -/
def createRoleWorktrees (request : CodingTaskRequest) (worktrees : WorktreeManager W)
    (roles : List String) : Run W (List (String × WorktreeSessionConfig)) :=
  match worktrees.createMultiAgentWorktrees with
  | some create => call (create request.repositoryPath roles request.baseBranch)
  | none =>
      Program.collect (fun role => do
        let session ← call (worktrees.createWorktree request.repositoryPath
          s!"{request.targetBranch}_{manager.text.lower role}" request.baseBranch)
        pure (role, session)) roles

/-- The mutation of a role in its worktree. -/
def executeRole (task : String) (worktrees : WorktreeManager W)
    (sessions : List (String × WorktreeSessionConfig)) (rolePlan : String × ScopedMutationPlan) :
    Run W (String × RoleExecution) := do
  let (role, plan) := rolePlan
  match sessions.lookup role with
  | none => .raise s!"'{role}'"
  | some session => do
      let _ ← manager.applyPlan session plan
      let commit ← call (worktrees.commitChanges session
        s!"feat({manager.text.lower role}): apply concurrent mutation for {task}")
      let diff ← call (worktrees.getDiff session)
      pure (role,
        { sessionId := session.sessionId
          branch := session.branchName
          commit := commit
          diff := diff })

/-- The loop that merges the branches of the roles: their receipts, or the role that failed. -/
def mergeRoles (request : CodingTaskRequest)
    (squash : String → String → String → Program W String (Bool × String)) :
    List (String × Bool × String) → List (String × WorktreeSessionConfig) →
      Run W (Except String (List (String × Bool × String)))
  | receipts, [] => pure (.ok receipts)
  | receipts, (role, session) :: sessions => do
      let (merged, receipt) ←
        call (squash request.repositoryPath session.branchName request.targetBranch)
      if merged then
        mergeRoles request squash (receipts ++ [(role, merged, receipt)]) sessions
      else pure (.error s!"Squash merge failed for role '{role}': {receipt}")

/-- The merges, if the worktree manager can squash. -/
def mergeSessions (request : CodingTaskRequest) (worktrees : WorktreeManager W)
    (sessions : List (String × WorktreeSessionConfig)) :
    Run W (Except String (List (String × Bool × String))) :=
  match worktrees.squashMergeWorktreeBranch with
  | none => pure (.ok [])
  | some squash => mergeRoles request squash [] sessions

/-- The work of the roles in their worktrees, and the merge of their branches. -/
def mergeRolePlans (task : String) (request : CodingTaskRequest) (worktrees : WorktreeManager W)
    (rolePlans : List (String × ScopedMutationPlan))
    (sessions : List (String × WorktreeSessionConfig)) (arbitratedFiles : ℕ) :
    Run W ConcurrentResult := do
  let executions ← Program.collect (manager.executeRole task worktrees sessions) rolePlans
  let merged ← mergeSessions request worktrees sessions
  match merged with
  | .error error => pure (.failure error .isolatedMutation (some executions))
  | .ok receipts =>
      pure (.success (rolePlans.map Prod.fst) executions receipts arbitratedFiles)

def cleanupWorktrees (worktrees : WorktreeManager W)
    (sessions : List (String × WorktreeSessionConfig)) : Run W Unit := do
  let _ ← Program.collect (fun session : String × WorktreeSessionConfig =>
    Program.attempt (call (worktrees.cleanupWorktree session.2))) sessions
  pure ()

/-- `execute_concurrent_role_pipeline`. -/
def executeConcurrentRolePipeline (task : String) (request : CodingTaskRequest)
    (rolePlans : List (String × ScopedMutationPlan)) : Run W ConcurrentResult :=
  match manager.worktreeManager with
  | none => .raise "WorktreeManager is not configured on pipeline."
  | some worktrees =>
      match scopeViolation rolePlans with
      | some error => pure (.failure error .planAndGate none)
      | none =>
          match assignFiles [] (fileClaims rolePlans) with
          | .error conflict => pure (.failure conflict .planAndGate none)
          | .ok assigned => do
              let sessions ← manager.createRoleWorktrees request worktrees (rolePlans.map Prod.fst)
              Program.cleanUp
                (manager.mergeRolePlans task request worktrees rolePlans sessions assigned.length)
                (cleanupWorktrees worktrees sessions)

end CodingPipelineManager

end AgentSystem.Pipeline
