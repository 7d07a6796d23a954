import AgentSystem.PipelineHandover

/-!
# The gate before the executor

Which plans can be given to the executor, over the two entry points of the manager.
-/
namespace AgentSystem.Pipeline

open Programs

/-! ## Tools that do not fail -/

def scriptedSession (name : String) : WorktreeSessionConfig where
  sessionId := name
  worktreePath := "worktrees/" ++ name
  branchName := name
  baseCommit := "base"

def scriptedWorktrees : WorktreeManager (List (List VerificationReceipt)) where
  createWorktree := fun _ branch _ => pure (scriptedSession branch)
  cleanupWorktree := fun _ => pure true
  getDiff := fun _ => pure "diff"
  commitChanges := fun _ _ => pure "commit"
  createMultiAgentWorktrees := some fun _ roles _ =>
    pure (roles.map fun role => (role, scriptedSession role))
  squashMergeWorktreeBranch := none

/-- A manager with tools that do not fail; the world holds the answers that the verification runner
has still to give. -/
def scriptedManager : CodingPipelineManager (List (List VerificationReceipt)) where
  text := asciiTables
  worktreeManager := some scriptedWorktrees
  scopedExecutor := some { executePlan := fun _ _ => pure {}, healMutation := none }
  verificationRunner := some
    { runVerificationLadder := fun _ _ answers => (.ok (answers.headD []), answers.tail) }
  draftPrPublisher := none
  auditLedger := none
  mesh := none
  reviewVerifier := none
  fileExists := fun _ _ _ => true
  headCommit := fun _ => pure "head"
  resetWorktree := fun _ => pure none

/-! ## The gate -/

/-- What the gate asks of a plan. -/
structure Gated (plan : ScopedMutationPlan) : Prop where
  humanApproved : plan.humanApproved = true
  token : plan.approvalToken ≠ some plan.assignedRole
  inScope : validateRoleScope plan.assignedRole plan.targetFiles = none

/-- The plan is approved with the empty token, and it goes on under the empty role. -/
def EmptyApproval (request : CodingTaskRequest) (plan : ScopedMutationPlan) : Prop :=
  plan.approvalToken = some "" ∧ handedRole request plan = ""

namespace CodingPipelineManager

variable {W : Type} (manager : CodingPipelineManager W)

lemma token_eq_empty {plan : ScopedMutationPlan} (hself : manager.selfApproved plan = false)
    (htoken : plan.approvalToken = some plan.assignedRole) : plan.assignedRole = "" := by
  by_contra hrole
  simp [selfApproved, htoken, hrole] at hself

lemma gated_iff_of_reaches {request : CodingTaskRequest} {plan handed : ScopedMutationPlan}
    (h : manager.Reaches request plan handed) : Gated handed ↔ ¬EmptyApproval request plan := by
  obtain ⟨hhanded, haccepted⟩ := h
  constructor
  · rintro hgated ⟨htoken, hrole⟩
    apply hgated.token
    rw [hhanded.approvalToken, hhanded.assignedRole, htoken, hrole]
  · intro hempty
    refine ⟨haccepted.humanApproved, fun htoken => hempty ?_, haccepted.inScope⟩
    have hrole := manager.token_eq_empty haccepted.notSelfApproved htoken
    rw [hrole, hhanded.approvalToken] at htoken
    exact ⟨htoken, hhanded.assignedRole ▸ hrole⟩

/-! ## One worktree for each role -/

/-- The checks before the worktrees turn the plans away. -/
def Rejected (rolePlans : List (String × ScopedMutationPlan)) : Prop :=
  scopeViolation rolePlans ≠ none ∨
    ∃ conflict, assignFiles [] (fileClaims rolePlans) = .error conflict

section OnlyExecuted

variable {good : ScopedMutationPlan → Prop}

lemma createRoleWorktrees_onlyExecuted (request : CodingTaskRequest)
    (worktrees : WorktreeManager W) (roles : List String) :
    Keeps (OnlyExecuted good) (manager.createRoleWorktrees request worktrees roles) := by
  unfold createRoleWorktrees
  split
  · exact onlyExecuted_of_leaves (call_leaves "" _)
  · refine Keeps.collect fun role _ => ?_
    exact Keeps.bind (onlyExecuted_of_leaves (call_leaves "" _)) fun _ => Keeps.ret _

lemma executeRole_onlyExecuted (task : String) (worktrees : WorktreeManager W)
    (sessions : List (String × WorktreeSessionConfig))
    {rolePlan : String × ScopedMutationPlan} (hplan : good rolePlan.2) :
    Keeps (OnlyExecuted good) (manager.executeRole task worktrees sessions rolePlan) := by
  unfold executeRole
  dsimp only
  split
  · exact Keeps.raise _
  · refine Keeps.bind (manager.applyPlan_onlyExecuted _ hplan) fun _ => ?_
    refine Keeps.bind (onlyExecuted_of_leaves (call_leaves "" _)) fun _ => ?_
    exact Keeps.bind (onlyExecuted_of_leaves (call_leaves "" _)) fun _ => Keeps.ret _

lemma mergeRoles_onlyExecuted (request : CodingTaskRequest)
    (squash : String → String → String → Program W String (Bool × String))
    (sessions : List (String × WorktreeSessionConfig))
    (receipts : List (String × Bool × String)) :
    Keeps (OnlyExecuted good) (mergeRoles request squash receipts sessions) := by
  induction sessions generalizing receipts with
  | nil => exact Keeps.ret _
  | cons session sessions ih =>
      refine Keeps.bind (onlyExecuted_of_leaves (call_leaves "" _)) fun merged => ?_
      exact Keeps.split (ih _) (Keeps.ret _)

lemma cleanupWorktrees_leaves (t : String) (worktrees : WorktreeManager W)
    (sessions : List (String × WorktreeSessionConfig)) :
    Leaves (Process.evidence t) (cleanupWorktrees worktrees sessions) := fun v =>
  Keeps.bind (Keeps.collect fun _ _ => Keeps.attempt (call_leaves t _ v)) fun _ => Keeps.ret ()

lemma mergeRolePlans_onlyExecuted (task : String) (request : CodingTaskRequest)
    (worktrees : WorktreeManager W) {rolePlans : List (String × ScopedMutationPlan)}
    (hplans : ∀ rolePlan ∈ rolePlans, good rolePlan.2)
    (sessions : List (String × WorktreeSessionConfig)) (arbitratedFiles : ℕ) :
    Keeps (OnlyExecuted good)
      (manager.mergeRolePlans task request worktrees rolePlans sessions arbitratedFiles) := by
  refine Keeps.bind (Keeps.collect fun rolePlan h =>
    manager.executeRole_onlyExecuted task worktrees sessions (hplans rolePlan h))
    fun executions => ?_
  refine Keeps.bind ?_ fun merged => ?_
  · unfold mergeSessions
    split
    · exact Keeps.ret _
    · exact mergeRoles_onlyExecuted request _ sessions []
  · cases merged with
    | error e => exact Keeps.ret _
    | ok receipts => exact Keeps.ret _

lemma executeConcurrentRolePipeline_onlyExecuted (task : String) (request : CodingTaskRequest)
    {rolePlans : List (String × ScopedMutationPlan)}
    (hplans : Rejected rolePlans ∨ ∀ rolePlan ∈ rolePlans, good rolePlan.2) :
    Keeps (OnlyExecuted good)
      (manager.executeConcurrentRolePipeline task request rolePlans) := by
  unfold executeConcurrentRolePipeline
  split
  · exact Keeps.raise _
  · split
    · exact Keeps.ret _
    · rename_i hscope
      split
      · exact Keeps.ret _
      · rename_i hassigned
        have hgood : ∀ rolePlan ∈ rolePlans, good rolePlan.2 := by
          rcases hplans with hrejected | hgood
          · simp [Rejected, hscope, hassigned] at hrejected
          · exact hgood
        refine Keeps.bind (manager.createRoleWorktrees_onlyExecuted request _ _)
          fun sessions => ?_
        exact Keeps.cleanUp (manager.mergeRolePlans_onlyExecuted task request _ hgood sessions _)
          (onlyExecuted_of_leaves (cleanupWorktrees_leaves "" _ sessions))

end OnlyExecuted

/-! ## The run of the tools that do not fail -/

lemma lookup_scriptedSession {role : String} {roles : List String} (h : role ∈ roles) :
    (roles.map fun role => (role, scriptedSession role)).lookup role =
      some (scriptedSession role) := by
  induction roles with
  | nil => cases h
  | cons other roles ih =>
      rw [List.map_cons, List.lookup_cons]
      by_cases heq : role = other
      · simp [heq]
      · rw [beq_eq_false_iff_ne.mpr heq]
        exact ih ((List.mem_cons.mp h).resolve_left heq)

lemma scripted_executeRole (task : String) {sessions : List (String × WorktreeSessionConfig)}
    {rolePlan : String × ScopedMutationPlan} {session : WorktreeSessionConfig}
    (h : sessions.lookup rolePlan.1 = some session)
    (s : Process (List (List VerificationReceipt))) :
    ∃ execution, scriptedManager.executeRole task scriptedWorktrees sessions rolePlan s =
      (.ok execution, { s with executed := s.executed ++ [rolePlan.2] }) := by
  unfold executeRole
  simp only [h]
  exact ⟨_, rfl⟩

lemma scripted_collect (task : String) {sessions : List (String × WorktreeSessionConfig)}
    {rolePlans : List (String × ScopedMutationPlan)}
    (h : ∀ rolePlan ∈ rolePlans, ∃ session, sessions.lookup rolePlan.1 = some session)
    (s : Process (List (List VerificationReceipt))) :
    ∃ executions,
      Program.collect (scriptedManager.executeRole task scriptedWorktrees sessions) rolePlans s =
        (.ok executions, { s with executed := s.executed ++ rolePlans.map Prod.snd }) := by
  induction rolePlans generalizing s with
  | nil => exact ⟨[], by simp [Program.collect]⟩
  | cons rolePlan rolePlans ih =>
      obtain ⟨session, hsession⟩ := h rolePlan List.mem_cons_self
      obtain ⟨execution, hrole⟩ := scripted_executeRole task hsession s
      obtain ⟨executions, hrest⟩ :=
        ih (fun other hother => h other (List.mem_cons_of_mem _ hother))
          { s with executed := s.executed ++ [rolePlan.2] }
      refine ⟨execution :: executions, ?_⟩
      rw [Program.collect, Program.bind_ok hrole, Program.bind_ok hrest]
      simp

lemma scripted_executed (task : String) (request : CodingTaskRequest)
    {rolePlans : List (String × ScopedMutationPlan)} (h : ¬Rejected rolePlans)
    (world : List (List VerificationReceipt))
    (sessions : String → Option CodingPipelineResult) :
    (scriptedManager.executeConcurrentRolePipeline task request rolePlans
      (.start world sessions)).2.executed = rolePlans.map Prod.snd := by
  simp only [Rejected, not_or, not_not, not_exists] at h
  obtain ⟨hscope, hconflict⟩ := h
  cases hassigned : assignFiles [] (fileClaims rolePlans) with
  | error conflict => exact absurd hassigned (hconflict conflict)
  | ok assigned =>
      let worktreeSessions :=
        (rolePlans.map Prod.fst).map fun role => (role, scriptedSession role)
      have hlookup : ∀ rolePlan ∈ rolePlans,
          ∃ session, worktreeSessions.lookup rolePlan.1 = some session :=
        fun rolePlan hrolePlan =>
          ⟨_, lookup_scriptedSession (List.mem_map_of_mem (f := Prod.fst) hrolePlan)⟩
      obtain ⟨executions, hcollect⟩ :=
        scripted_collect task hlookup (Process.start world sessions)
      have hmerge : scriptedManager.mergeRolePlans task request scriptedWorktrees rolePlans
          worktreeSessions assigned.length (Process.start world sessions) =
            (.ok (.success (rolePlans.map Prod.fst) executions [] assigned.length),
              { Process.start world sessions with executed := rolePlans.map Prod.snd }) := by
        rw [mergeRolePlans, Program.bind_ok hcollect]
        rfl
      have hrun : scriptedManager.executeConcurrentRolePipeline task request rolePlans =
          (scriptedManager.createRoleWorktrees request scriptedWorktrees
              (rolePlans.map Prod.fst) >>= fun sessions =>
            Program.cleanUp
              (scriptedManager.mergeRolePlans task request scriptedWorktrees rolePlans sessions
                assigned.length)
              (cleanupWorktrees scriptedWorktrees sessions)) := by
        simp only [executeConcurrentRolePipeline, scriptedManager, hscope, hassigned]
      have hcreate : scriptedManager.createRoleWorktrees request scriptedWorktrees
          (rolePlans.map Prod.fst) (Process.start world sessions) =
            (.ok worktreeSessions, Process.start world sessions) := rfl
      rw [hrun, Program.bind_ok hcreate, Program.cleanUp_state, hmerge]
      exact ((cleanupWorktrees_leaves "" scriptedWorktrees worktreeSessions).keeps
        fun e => e.executed = rolePlans.map Prod.snd).final rfl

end CodingPipelineManager

open CodingPipelineManager

/-- The gate holds before every plan of `execute_pipeline` but the one with an empty approval, and
before the plans of `execute_concurrent_role_pipeline` only if they all pass it by themselves or no
worktree is made. -/
theorem gate_before_executor_iff (task : String) (request : CodingTaskRequest) :
    (∀ {W : Type} (manager : CodingPipelineManager W) (plan handed : ScopedMutationPlan) (world : W)
        (sessions : String → Option CodingPipelineResult),
      handed ∈ (manager.executePipeline task request plan (.start world sessions)).2.executed →
        (Gated handed ↔ ¬EmptyApproval request plan)) ∧
    ∀ rolePlans : List (String × ScopedMutationPlan),
      (∀ {W : Type} (manager : CodingPipelineManager W) (world : W)
          (sessions : String → Option CodingPipelineResult),
        ∀ plan ∈ (manager.executeConcurrentRolePipeline task request rolePlans
          (.start world sessions)).2.executed, Gated plan) ↔
      Rejected rolePlans ∨ ∀ rolePlan ∈ rolePlans, Gated rolePlan.2 := by
  refine ⟨fun manager plan handed world sessions h =>
    manager.gated_iff_of_reaches (manager.reaches_of_executed h), fun rolePlans => ⟨?_, ?_⟩⟩
  · intro h
    by_cases hrejected : Rejected rolePlans
    · exact Or.inl hrejected
    · refine Or.inr fun rolePlan hrolePlan => ?_
      apply h scriptedManager [] fun _ => none
      rw [scripted_executed task request hrejected]
      exact List.mem_map_of_mem hrolePlan
  · intro h W manager world sessions
    have hstart : OnlyExecuted Gated (Process.start world sessions) := by
      intro plan hplan
      cases hplan
    exact Keeps.final (manager.executeConcurrentRolePipeline_onlyExecuted task request h) hstart

/-- A request for the counterexamples. -/
def sampleRequest : CodingTaskRequest where
  taskId := "T1"
  repositoryPath := "repo"
  requirementPrompt := "Add a greeting"
  targetBranch := "feature"
  inspectedFiles := ["README.md"]
  debateRounds_pos := Nat.one_pos

def samplePlan : ScopedMutationPlan where
  taskId := "T1"
  planSummary := "Greeting"
  targetFiles := ["greeting.py"]
  assignedRole := "BACKEND_INFRA_AGENT"

lemma samplePlan_not_rejected : ¬Rejected [("BACKEND_INFRA_AGENT", samplePlan)] := by
  simp only [Rejected, not_or, not_not, not_exists]
  exact ⟨by decide +kernel, fun conflict h => by cases h⟩

/-- A plan that nobody approved is executed. -/
theorem unapproved_plan_executed :
    ∃ plan ∈ (scriptedManager.executeConcurrentRolePipeline "T1" sampleRequest
        [("BACKEND_INFRA_AGENT", samplePlan)] (.start [] fun _ => none)).2.executed,
      ¬Gated plan := by
  rw [scripted_executed "T1" sampleRequest samplePlan_not_rejected]
  refine ⟨samplePlan, List.mem_singleton_self _, fun hgated => ?_⟩
  cases hgated.humanApproved

end AgentSystem.Pipeline
