import AgentSystem.PipelineGate
import AgentSystem.SquashMerge

/-!
# The merge of the role branches

`execute_concurrent_role_pipeline` over git worktrees. What a failed call leaves on the target
branch depends on the merges that came before the failure.
-/
namespace AgentSystem.GitWorktree

open Programs Pipeline

variable {α : Type}

/-! ## The merges of a call -/

section Merges

variable {git : Git} {target : String}

/-- Before the merge that failed there was nothing to merge, and that merge does not get as far as
a commit that takes place. -/
def CleanMerges (git : Git) (target : String) (merges : List (String × GitState)) : Prop :=
  (∀ merge ∈ merges.dropLast, NothingToMerge git merge.1 target merge.2) ∧
    ∀ merge ∈ merges.getLast?, ¬CommitTakesEffect git merge.1 target merge.2

/-- The commit of the target branch. -/
def targetCommit (target : String) (s : Process GitWorld) : Option Commit :=
  s.world.state.branch target

def commitDepth (commit : Option Commit) : ℕ := commit.elim 0 fun commit => commit.depth + 1

/-- The merges so far have all succeeded. -/
structure Merging (git : Git) (target : String) (base : Option Commit) (s : Process GitWorld) :
    Prop where
  same_iff : targetCommit target s = base ↔
    ∀ merge ∈ s.world.merges, NothingToMerge git merge.1 target merge.2
  depth_le : commitDepth base ≤ commitDepth (targetCommit target s)

/-- What is left of the target branch after a failure. -/
def CleanFailure (git : Git) (target : String) (base : Option Commit) (s : Process GitWorld) :
    Prop :=
  targetCommit target s = base ↔ CleanMerges git target s.world.merges

lemma call_loggedSquash (source : String) (s : Process GitWorld) :
    ∃ merged receipt s', call (loggedSquash git source target) s = (.ok (merged, receipt), s') ∧
      s'.world.merges = s.world.merges ++ [(source, s.world.state)] ∧
      Squashed git source target s.world.state s'.world.state merged := by
  obtain ⟨merged, receipt, state, hsquash, hcases⟩ := squash_cases git source target s.world.state
  refine ⟨merged, receipt,
    { s with world := ⟨state, s.world.merges ++ [(source, s.world.state)]⟩ }, ?_, rfl, hcases⟩
  have hlogged : loggedSquash git source target s.world =
      (.ok (merged, receipt), ⟨state, s.world.merges ++ [(source, s.world.state)]⟩) := by
    have hupdate : (Program.update (fun world : GitWorld =>
        { world with merges := world.merges ++ [(source, world.state)] }) :
          Program GitWorld String Unit) s.world =
        (.ok (), ⟨s.world.state, s.world.merges ++ [(source, s.world.state)]⟩) := rfl
    rw [loggedSquash, Program.bind_ok hupdate]
    unfold onState Program.within
    rw [hsquash]
  unfold call Program.within
  rw [hlogged]

lemma targetCommit_of_branches {s s' : Process GitWorld}
    (h : s'.world.state.repository.branches = s.world.state.repository.branches) :
    targetCommit target s' = targetCommit target s := congrFun h target

/-- After a commit the target is never again where it was before the call. -/
lemma targetCommit_committed {message : String} {base : Option Commit} {ours : Commit}
    {tree : Tree} {s s' : Process GitWorld} (hdepth : commitDepth base ≤
      commitDepth (targetCommit target s)) (hours : s.world.state.branch target = some ours)
    (hbranches : s'.world.state.repository.branches = Function.update
      s.world.state.repository.branches target (some (.child ours tree message))) :
    targetCommit target s' ≠ base ∧
      commitDepth base ≤ commitDepth (targetCommit target s') := by
  have hnew : targetCommit target s' = some (.child ours tree message) := by
    show s'.world.state.repository.branches target = _
    rw [hbranches, Function.update_self]
  have hold : targetCommit target s = some ours := hours
  have hlt : commitDepth base < commitDepth (targetCommit target s') := by
    rw [hold] at hdepth
    rw [hnew]
    exact Nat.lt_succ_of_le hdepth
  exact ⟨fun heq => absurd hlt (by rw [heq]; exact lt_irrefl _), hlt.le⟩

lemma merging_append {source : String} {base : Option Commit} {s s' : Process GitWorld}
    (hs : Merging git target base s)
    (hmerges : s'.world.merges = s.world.merges ++ [(source, s.world.state)])
    (hcases : Squashed git source target s.world.state s'.world.state true) :
    Merging git target base s' := by
  cases hcases with
  | nothing hbranches hnothing =>
      have hsame : targetCommit target s' = targetCommit target s :=
        targetCommit_of_branches hbranches
      refine ⟨?_, hsame ▸ hs.depth_le⟩
      rw [hsame, hs.same_iff, hmerges, List.forall_mem_append]
      exact ⟨fun h => ⟨h, by simpa using hnothing⟩, fun h => h.1⟩
  | committed _ hours hbranches hchange hcommit =>
      obtain ⟨hne, hdepth⟩ := targetCommit_committed hs.depth_le hours hbranches
      refine ⟨iff_of_false hne fun h => hchange ?_, hdepth⟩
      exact h (source, s.world.state)
        (hmerges ▸ List.mem_append_right _ (List.mem_singleton_self _))

lemma cleanFailure_append {source : String} {base : Option Commit} {s s' : Process GitWorld}
    (hs : Merging git target base s)
    (hmerges : s'.world.merges = s.world.merges ++ [(source, s.world.state)])
    (hcases : Squashed git source target s.world.state s'.world.state false) :
    CleanFailure git target base s' := by
  have hclean : CleanMerges git target s'.world.merges ↔
      (∀ merge ∈ s.world.merges, NothingToMerge git merge.1 target merge.2) ∧
        ¬CommitTakesEffect git source target s.world.state := by
    rw [CleanMerges, hmerges, List.dropLast_concat, List.getLast?_concat]
    simp
  rw [CleanFailure, hclean]
  cases hcases with
  | stopped hbranches hcommit =>
      have hsame : targetCommit target s' = targetCommit target s :=
        targetCommit_of_branches hbranches
      rw [hsame, hs.same_iff]
      exact ⟨fun h => ⟨h, hcommit⟩, fun h => h.1⟩
  | committed _ hours hbranches hchange hcommit =>
      exact iff_of_false (targetCommit_committed hs.depth_le hours hbranches).1 fun h => h.2 hcommit

lemma mergeRoles_clean (request : CodingTaskRequest) (base : Option Commit)
    (htarget : request.targetBranch = target)
    (sessions : List (String × WorktreeSessionConfig)) (receipts : List (String × Bool × String)) :
    Triple (Merging git target base)
      (CodingPipelineManager.mergeRoles request
        (fun _ source target => loggedSquash git source target) receipts sessions)
      (fun result s => (∃ error, result = .error error) → CleanFailure git target base s)
      fun _ _ => False := by
  induction sessions generalizing receipts with
  | nil => exact Triple.ret fun _ _ h => by obtain ⟨error, h⟩ := h; cases h
  | cons session sessions ih =>
      obtain ⟨role, session⟩ := session
      intro s hs
      obtain ⟨merged, receipt, s', hcall, hmerges, hcases⟩ :=
        @call_loggedSquash git target session.branchName s
      rw [CodingPipelineManager.mergeRoles, htarget, Program.bind_ok hcall]
      dsimp only
      cases merged with
      | true =>
          rw [if_pos rfl]
          exact ih _ s' (merging_append hs hmerges hcases)
      | false =>
          rw [if_neg Bool.false_ne_true]
          exact fun _ => cleanFailure_append hs hmerges hcases

/-! ## The whole call -/

/-- The call returns no success, or it raises. -/
def Failed : Except String CodingPipelineManager.ConcurrentResult → Prop
  | .ok (.success _ _ _ _) => False
  | .ok (.failure _ _ _) => True
  | .error _ => True

/-- No merge has begun, and the worktrees of the roles are not on the target. -/
def BeforeMerges (target : String) (base : Option Commit) (paths : List String)
    (s : Process GitWorld) : Prop :=
  OffTarget target base paths s.world.state.repository ∧ s.world.merges = []

lemma cleanFailure_of_noMerge {base : Option Commit} {s : Process GitWorld}
    (htarget : targetCommit target s = base) (hmerges : s.world.merges = []) :
    CleanFailure git target base s := by
  refine iff_of_true htarget ?_
  rw [CleanMerges, hmerges]
  exact ⟨nofun, nofun⟩

lemma merging_of_beforeMerges {base : Option Commit} {paths : List String} {s : Process GitWorld}
    (hs : BeforeMerges target base paths s) : Merging git target base s := by
  obtain ⟨⟨htarget, -⟩, hmerges⟩ := hs
  have hcommit : targetCommit target s = base := htarget
  refine ⟨iff_of_true hcommit ?_, by rw [hcommit]⟩
  rw [hmerges]
  exact nofun

lemma call_onState {x : Program GitState String α} {P : GitState → Prop}
    {Q : α → GitState → Prop} {E : String → GitState → Prop} (h : Triple P x Q E)
    (merges : List (String × GitState)) :
    Triple (fun s : Process GitWorld => P s.world.state ∧ s.world.merges = merges)
      (call (onState x)) (fun a s => Q a s.world.state ∧ s.world.merges = merges)
      fun e s => E e s.world.state ∧ s.world.merges = merges := by
  have hworld := Triple.lift (F := fun world : GitWorld => world.merges = merges) GitWorld.state
    (fun state world => { world with state := state }) h (fun _ _ => rfl) fun _ _ h => h
  have hprocess := Triple.lift (F := fun _ : Process GitWorld => True) Process.world
    (fun world s => { s with world := world }) hworld (fun _ _ => rfl) fun _ _ h => h
  exact Triple.weaken hprocess (fun _ hs => ⟨hs, trivial⟩) (fun _ _ hs => hs.1)
    fun _ _ hs => hs.1

lemma mem_of_lookup {sessions : List (String × WorktreeSessionConfig)} {role : String}
    {session : WorktreeSessionConfig} (h : sessions.lookup role = some session) :
    session.worktreePath ∈ sessionPaths sessions := by
  induction sessions with
  | nil => cases h
  | cons other sessions ih =>
      rw [List.lookup_cons] at h
      split at h
      · cases h
        exact List.mem_cons_self
      · exact List.mem_cons_of_mem _ (ih h)

section Call

variable {manager : CodingPipelineManager GitWorld} {worktreePath : String → String}
  {execute : Option (WorktreeSessionConfig → ScopedMutationPlan → Program Tree String HealResult)}
  {base : Option Commit} {paths : List String}

lemma applyPlan_beforeMerges (session : WorktreeSessionConfig) (plan : ScopedMutationPlan) :
    Keeps (BeforeMerges target base paths)
      ((gitPipeline git worktreePath manager execute).applyPlan session plan) := by
  cases execute with
  | none => exact Keeps.ret _
  | some execute =>
      refine Keeps.bind (Keeps.bind (Keeps.update fun _ hs => hs) fun _ => ?_) fun _ => Keeps.ret _
      exact call_onState (inFiles_offTarget session _) []

lemma executeRole_beforeMerges (task : String)
    (sessions : List (String × WorktreeSessionConfig)) (rolePlan : String × ScopedMutationPlan)
    (hpaths : sessionPaths sessions ⊆ paths) :
    Keeps (BeforeMerges target base paths)
      ((gitPipeline git worktreePath manager execute).executeRole task
        (gitWorktrees git manager.text worktreePath) sessions rolePlan) := by
  unfold CodingPipelineManager.executeRole
  dsimp only
  split
  · exact Keeps.raise _
  · rename_i session hsession
    refine Keeps.bind (applyPlan_beforeMerges session rolePlan.2) fun _ => ?_
    refine Keeps.bind (call_onState (commitChanges_offTarget _
      (hpaths (mem_of_lookup hsession))) []) fun commit => ?_
    exact Keeps.bind (call_onState (getDiff_offTarget session) []) fun _ => Keeps.ret _

lemma mergeRolePlans_clean (task : String) (request : CodingTaskRequest)
    (htarget : request.targetBranch = target) (rolePlans : List (String × ScopedMutationPlan))
    (sessions : List (String × WorktreeSessionConfig)) (hpaths : sessionPaths sessions ⊆ paths)
    (arbitratedFiles : ℕ) :
    Triple (BeforeMerges target base paths)
      ((gitPipeline git worktreePath manager execute).mergeRolePlans task request
        (gitWorktrees git manager.text worktreePath) rolePlans sessions arbitratedFiles)
      (fun result s => Failed (.ok result) → CleanFailure git target base s)
      fun _ s => CleanFailure git target base s := by
  refine Triple.bind (Triple.weaken (Keeps.collect fun rolePlan _ =>
    executeRole_beforeMerges task sessions rolePlan hpaths) (fun _ => id) (fun _ _ => id)
    fun _ s hs => cleanFailure_of_noMerge hs.1.1 hs.2) fun executions => ?_
  refine Triple.bind (Triple.weaken (mergeRoles_clean request base htarget sessions [])
    (fun s hs => merging_of_beforeMerges hs) (fun _ _ => id) fun _ _ => False.elim)
    fun merged => ?_
  cases merged with
  | error error => exact Triple.ret fun s hs _ => hs ⟨error, rfl⟩
  | ok receipts => exact Triple.ret fun s hs hfailed => hfailed.elim

/-- The branches and the merges stay as they are when the worktrees are removed. -/
lemma cleanupWorktrees_returns {P : Process GitWorld → Prop}
    (hP : ∀ s s' : Process GitWorld,
      s'.world.state.repository.branches = s.world.state.repository.branches →
        s'.world.merges = s.world.merges → P s → P s')
    (sessions : List (String × WorktreeSessionConfig)) {E : String → Process GitWorld → Prop} :
    Triple P (CodingPipelineManager.cleanupWorktrees (gitWorktrees git manager.text worktreePath)
      sessions) (fun _ => P) E := by
  refine Triple.bind (Triple.collect fun session _ => Triple.attempt ?_) fun _ =>
    Triple.ret fun _ => id
  intro s hs
  exact Triple.weaken
    (call_onState (cleanupWorktree_branches s.world.state.repository.branches session.2)
      s.world.merges)
    (fun _ => id) (fun _ s' h => hP s s' h.1 h.2 hs) (fun _ s' h => hP s s' h.1 h.2 hs) s ⟨rfl, rfl⟩

lemma cleanFailure_congr {s s' : Process GitWorld}
    (hbranches : s'.world.state.repository.branches = s.world.state.repository.branches)
    (hmerges : s'.world.merges = s.world.merges) (hs : CleanFailure git target base s) :
    CleanFailure git target base s' := by
  rw [CleanFailure, targetCommit_of_branches hbranches, hmerges]
  exact hs

lemma executeConcurrentRolePipeline_clean (task : String) (request : CodingTaskRequest)
    (htarget : request.targetBranch = target) {rolePlans : List (String × ScopedMutationPlan)}
    {uuids : ℕ → String} (hfresh : Fresh manager.text target (rolePlans.map Prod.fst) uuids) :
    Triple (fun s => Ready target base [] uuids s.world.state ∧ s.world.merges = [])
      ((gitPipeline git worktreePath manager execute).executeConcurrentRolePipeline task request
        rolePlans)
      (fun result s => Failed (.ok result) → CleanFailure git target base s)
      fun _ s => CleanFailure git target base s := by
  have hstart (s : Process GitWorld)
      (hs : Ready target base [] uuids s.world.state ∧ s.world.merges = []) :
      CleanFailure git target base s := cleanFailure_of_noMerge hs.1.2.1 hs.2
  unfold CodingPipelineManager.executeConcurrentRolePipeline
  rw [show (gitPipeline git worktreePath manager execute).worktreeManager =
    some (gitWorktrees git manager.text worktreePath) from rfl]
  dsimp only
  split
  · exact Triple.ret fun s hs _ => hstart s hs
  · split
    · exact Triple.ret fun s hs _ => hstart s hs
    · refine Triple.bind (Triple.weaken
        (call_onState (createMultiAgentWorktrees_offTarget hfresh request.baseBranch) [])
        (fun _ => id) (fun _ _ => id) fun _ s hs => cleanFailure_of_noMerge hs.1 hs.2)
        fun sessions => ?_
      have hpaths : sessionPaths sessions ⊆ sessionPaths sessions ++ [] := by simp
      refine Triple.cleanUp (mergeRolePlans_clean task request htarget rolePlans sessions hpaths _)
        (fun result => ?_) fun e => ?_
      · exact cleanupWorktrees_returns (fun s s' hbranches hmerges hs hfailed =>
          cleanFailure_congr hbranches hmerges (hs hfailed)) sessions
      · exact cleanupWorktrees_returns (fun s s' hbranches hmerges hs =>
          cleanFailure_congr hbranches hmerges hs) sessions

end Call

end Merges

/-- After a call that fails the target branch is where it was just if nothing was merged before the
failure: the merges before it found nothing to merge, and the one that failed did not commit. -/
theorem failed_call_atomic_iff (git : Git) (worktreePath : String → String)
    (manager : CodingPipelineManager GitWorld)
    (execute : Option
      (WorktreeSessionConfig → ScopedMutationPlan → Program Tree String HealResult))
    (task : String) (request : CodingTaskRequest)
    (rolePlans : List (String × ScopedMutationPlan)) (state : GitState)
    (sessions : String → Option CodingPipelineResult)
    (hfresh : Fresh manager.text request.targetBranch (rolePlans.map Prod.fst) state.uuids)
    {outcome : Except String CodingPipelineManager.ConcurrentResult} {s : Process GitWorld}
    (hrun : (gitPipeline git worktreePath manager execute).executeConcurrentRolePipeline task
      request rolePlans (.start ⟨state, []⟩ sessions) = (outcome, s))
    (hfailed : Failed outcome) :
    targetCommit request.targetBranch s = state.branch request.targetBranch ↔
      CleanMerges git request.targetBranch s.world.merges := by
  have hclean : Triple
      (fun s => Ready request.targetBranch (state.branch request.targetBranch) [] state.uuids
        s.world.state ∧ s.world.merges = [])
      ((gitPipeline git worktreePath manager execute).executeConcurrentRolePipeline task request
        rolePlans)
      (fun result s => Failed (.ok result) →
        CleanFailure git request.targetBranch (state.branch request.targetBranch) s)
      fun _ s => CleanFailure git request.targetBranch (state.branch request.targetBranch) s :=
    executeConcurrentRolePipeline_clean task request rfl hfresh
  have hends := hclean (.start ⟨state, []⟩ sessions) ⟨⟨rfl, rfl, nofun⟩, rfl⟩
  rw [hrun] at hends
  cases outcome with
  | ok result => exact hends hfailed
  | error e => exact hends

/-! ## A target that has moved on -/

def ancestors : Commit → List Commit
  | .initial tree => [.initial tree]
  | .child parent tree message => .child parent tree message :: ancestors parent

/-- The content of a file after a three-way merge, `none` for a conflict. -/
def mergeFile (base ours theirs : Option String) : Option (Option String) :=
  if ours = theirs ∨ theirs = base then some ours else if ours = base then some theirs else none

def mergeFiles (base ours theirs : Tree) : List String → Option Tree
  | [] => some []
  | path :: paths => do
      let merged ← mergeFile (base.lookup path) (ours.lookup path) (theirs.lookup path)
      let rest ← mergeFiles base ours theirs paths
      pure ((merged.toList.map fun content => (path, content)) ++ rest)

def sampleGit : Git where
  mergeTree ours theirs :=
    let base := (((ancestors ours).find? fun commit => ancestors theirs |>.contains commit).map
      Commit.tree).getD []
    mergeFiles base ours.tree theirs.tree ((ours.tree ++ theirs.tree).map Prod.fst).dedup
  sha commit := toString commit.depth
  diffText _ _ := "diff"

def mainCommit : Commit := .initial [("a.py", "0"), ("b.py", "0")]

/-- The release branch has changed one of the files since it left the main branch. -/
def releaseCommit : Commit := .child mainCommit [("a.py", "0"), ("b.py", "1")] "hotfix"

def releaseState : GitState where
  repository :=
    { branches := fun name =>
        if name = "main" then some mainCommit
        else if name = "release" then some releaseCommit else none
      head := "main"
      staged := mainCommit.tree }
  uuids := fun n => toString n

def releaseRequest : CodingTaskRequest := { sampleRequest with targetBranch := "release" }

/-- An executor that writes the target files of its plan. -/
def writeTargets (_ : WorktreeSessionConfig) (plan : ScopedMutationPlan) :
    Program Tree String HealResult := do
  .update fun files => files.map fun file =>
    if file.1 ∈ plan.targetFiles then (file.1, "2") else file
  pure {}

def rolePlan (role file : String) : String × ScopedMutationPlan :=
  (role, { samplePlan with assignedRole := role, targetFiles := [file] })

def releasePlans : List (String × ScopedMutationPlan) :=
  [rolePlan "BACKEND_INFRA_AGENT" "a.py", rolePlan "DOMAIN_LOGIC_AGENT" "b.py"]

/-- A manager without other tools. -/
def bareManager : CodingPipelineManager GitWorld where
  text := asciiTables
  worktreeManager := none
  scopedExecutor := none
  verificationRunner := none
  draftPrPublisher := none
  auditLedger := none
  mesh := none
  reviewVerifier := none
  fileExists := fun _ _ _ => true
  headCommit := fun _ => pure "head"
  resetWorktree := fun _ => pure none

def releaseRun : Except String CodingPipelineManager.ConcurrentResult × Process GitWorld :=
  (gitPipeline sampleGit (fun session => "worktrees/" ++ session) bareManager
      (some writeTargets)).executeConcurrentRolePipeline
    "T1" releaseRequest releasePlans (.start ⟨releaseState, []⟩ fun _ => none)

instance (outcome : Except String CodingPipelineManager.ConcurrentResult) :
    Decidable (Failed outcome) :=
  match outcome with
  | .ok (.success _ _ _ _) => isFalse id
  | .ok (.failure _ _ _) => isTrue trivial
  | .error _ => isTrue trivial

/-- The second role conflicts with the target, and the commit of the first role stays on it. -/
theorem failed_call_changes_target :
    Failed releaseRun.1 ∧
      targetCommit "release" releaseRun.2 ≠ releaseState.branch "release" ∧
      (targetCommit "release" releaseRun.2).map Commit.tree =
        some [("a.py", "2"), ("b.py", "1")] := by
  decide +kernel

lemma fresh_release : Fresh bareManager.text releaseRequest.targetBranch
    (releasePlans.map Prod.fst) releaseState.uuids := by
  intro role _ m n
  have hstart (name : String) (h : name.toList.head? = some 't') : name ≠ "release" := by
    rintro rfl
    exact absurd h (by decide)
  exact ⟨hstart _ (by simp [roleBranch, toString]),
    hstart _ (by simp [roleBranch, sessionBranch, toString])⟩

theorem release_run_atomic_iff :
    targetCommit "release" releaseRun.2 = releaseState.branch "release" ↔
      CleanMerges sampleGit "release" releaseRun.2.world.merges :=
  @failed_call_atomic_iff sampleGit (fun session => "worktrees/" ++ session) bareManager
    (some writeTargets) "T1" releaseRequest releasePlans releaseState (fun _ => none)
    fresh_release releaseRun.1 releaseRun.2 rfl (by decide +kernel)

end AgentSystem.GitWorktree
