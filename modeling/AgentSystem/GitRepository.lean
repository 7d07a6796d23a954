import AgentSystem.PipelineExecution

/-!
# Git worktrees

The commands that `GitWorktreeManager` gives to git, as transformers of a repository, and the
manager itself. A script of faults says which of its commands fail, and whether the effect of a
failed command has taken place.
-/
namespace AgentSystem.GitWorktree

open Programs Pipeline

/-! ## The repository -/

/-- The files of a commit, a checkout or an index. -/
abbrev Tree : Type := List (String × String)

inductive Commit
  | initial (tree : Tree)
  | child (parent : Commit) (tree : Tree) (message : String)
  deriving DecidableEq

namespace Commit

def tree : Commit → Tree
  | initial tree => tree
  | child _ tree _ => tree

def depth : Commit → ℕ
  | initial _ => 0
  | child parent _ _ => parent.depth + 1

end Commit

structure Worktree where
  branch : String
  files : Tree
  staged : Tree

structure Repository where
  branches : String → Option Commit
  /-- The branch that the main checkout is on, and the index of that checkout. -/
  head : String
  staged : Tree
  worktrees : List (String × Worktree) := []

/-- What git computes from commits: a three-way merge without conflicts, a name, a diff. -/
structure Git where
  mergeTree : Commit → Commit → Option Tree
  sha : Commit → String
  diffText : Tree → Tree → String

/-- A fault of a command: it ends with an exit code other than zero, or it runs out of time, after
its effect is done or before. -/
inductive Fault
  | none
  | exit (done : Bool)
  | timeout (done : Bool)
  deriving DecidableEq

/-- The effect of the command takes place. -/
def Fault.done : Fault → Bool
  | none => true
  | exit done => done
  | timeout done => done

structure GitState where
  repository : Repository
  /-- The faults of the commands to come. -/
  faults : List Fault := []
  /-- The random texts to come. -/
  uuids : ℕ → String

namespace GitState

def branch (name : String) (s : GitState) : Option Commit := s.repository.branches name

end GitState

variable {α : Type}

/-! ## Commands -/

/-- A command that git refuses where the effect is `none`; the result is `none` for an exit code
other than zero. -/
def command (name : String) (effect : Repository → Option (α × Repository)) :
    Program GitState String (Option α) := fun s =>
  let fault := s.faults.headD .none
  let repository :=
    if fault.done then ((effect s.repository).map Prod.snd).getD s.repository else s.repository
  let s' := { s with repository := repository, faults := s.faults.tail }
  match fault with
  | .none => (.ok ((effect s.repository).map Prod.fst), s')
  | .exit _ => (.ok none, s')
  | .timeout _ => (.error s!"Git command '{name}' timed out", s')

/-- A command that must succeed. -/
def checked (name : String) (effect : Repository → Option (α × Repository)) :
    Program GitState String α := do
  let output ← command name effect
  match output with
  | some output => pure output
  | none => .raise s!"Git command '{name}' failed"

/-- A question that leaves the repository as it is. -/
def asks (answer : Repository → Option α) (r : Repository) : Option (α × Repository) :=
  (answer r).map fun output => (output, r)

def headCommit (r : Repository) : Option Commit := r.branches r.head

def checkout (target : String) (r : Repository) : Option (Unit × Repository) :=
  if r.worktrees.any fun worktree => worktree.2.branch = target then none
  else (r.branches target).map fun commit => ((), { r with head := target, staged := commit.tree })

def mergeSquash (git : Git) (source : String) (r : Repository) : Option (Unit × Repository) := do
  let ours ← headCommit r
  let theirs ← r.branches source
  let tree ← git.mergeTree ours theirs
  pure ((), { r with staged := tree })

def resetHard (r : Repository) : Option (Unit × Repository) :=
  (headCommit r).map fun commit => ((), { r with staged := commit.tree })

/-- `diff --cached --quiet`: nothing is staged. -/
def diffCached (r : Repository) : Option Unit := do
  let commit ← headCommit r
  if r.staged = commit.tree then some () else none

def commitStaged (message : String) (r : Repository) : Option (Unit × Repository) := do
  let commit ← headCommit r
  if r.staged = commit.tree then none
  else
    pure ((), { r with
      branches := Function.update r.branches r.head (some (.child commit r.staged message)) })

/-! ## Squash merges -/

section SquashMerge

variable (git : Git) (source target : String)

def checkoutTarget (current : String) : Program GitState String Unit :=
  if current = target then pure () else checked "checkout" (checkout target)

/-- The commands before the commit: the error of a merge that failed, or whether something is
staged. -/
def prepareMerge : Program GitState String (Except String Bool) := do
  let current ← checked "rev-parse --abbrev-ref HEAD" (asks fun r => some r.head)
  checkoutTarget target current
  let merged ← command "merge --squash" (mergeSquash git source)
  if merged.isNone then do
    let _ ← command "reset --hard HEAD" resetHard
    pure (.error "Squash merge conflict or failure")
  else do
    let same ← command "diff --cached --quiet" (asks diffCached)
    pure (.ok same.isNone)

def squashMessage : String := s!"chore(worktree): squash merge {source} into {target}"

def commitMerge : Program GitState String (Bool × String) := do
  checked "commit" (commitStaged (squashMessage source target))
  let sha ← checked "rev-parse HEAD" (asks fun r => (headCommit r).map git.sha)
  pure (true, sha)

/-- What follows the preparation. -/
def finishMerge : Except String Bool → Program GitState String (Bool × String)
  | .error error => pure (false, error)
  | .ok false => pure (true, "NOOP_NO_CHANGES")
  | .ok true => commitMerge git source target

/-- `squash_merge_worktree_branch`. -/
def squashMergeWorktreeBranch : Program GitState String (Bool × String) :=
  Program.handle (prepareMerge git source target >>= finishMerge git source target) fun exc =>
    pure (false, exc)

end SquashMerge

/-! ## Worktrees -/

section Worktrees

variable (git : Git) (text : TextTables) (worktreePath : String → String)

/-- The next random text. -/
def uuid : Program GitState String String := fun s =>
  (.ok (s.uuids 0), { s with uuids := fun n => s.uuids (n + 1) })

def worktreeAdd (newBranch : Bool) (branch path : String) (base : Commit) (r : Repository) :
    Option (Unit × Repository) :=
  let commit := if newBranch then some base else r.branches branch
  if newBranch && (r.branches branch).isSome then none
  else
    commit.map fun commit =>
      ((), { r with
        branches := Function.update r.branches branch (some commit)
        worktrees := (path, { branch := branch, files := commit.tree, staged := commit.tree }) ::
          r.worktrees.filter fun worktree => worktree.1 ≠ path })

/-- The commit that a new worktree starts from. -/
def resolveBase (baseRef : String) : Program GitState String Commit := do
  let base ← command "rev-parse base_ref" (asks fun r => r.branches baseRef)
  match base with
  | some base => pure base
  | none => checked "rev-parse HEAD" (asks headCommit)

def sessionName (random : String) : String := s!"wt_{random}"

def sessionBranch (branchName sessionId : String) : String := s!"{branchName}_{sessionId}"

/-- The branch of a new worktree, and whether it is made for it. -/
def chooseBranch (branchName sessionId : String) (base : Commit) :
    Program GitState String (String × Bool) := do
  let listed ← command "branch --list" (asks fun r => some (r.branches branchName).isSome)
  if listed.getD false then do
    let commit ← command "rev-parse branch_name" (asks fun r => r.branches branchName)
    let checkedOut ← command "worktree list --porcelain" (asks fun r => some
      (startsWith r.head branchName ||
        r.worktrees.any fun worktree => startsWith worktree.2.branch branchName))
    if commit = some base ∧ checkedOut.getD false = false then pure (branchName, false)
    else pure (sessionBranch branchName sessionId, true)
  else pure (branchName, true)

/-- `create_worktree`. -/
def createWorktree (branchName baseRef : String) :
    Program GitState String WorktreeSessionConfig := do
  checked "rev-parse --git-dir" (asks fun _ => some ())
  let random ← uuid
  let sessionId := sessionName random
  let base ← resolveBase baseRef
  let (branch, isNew) ← chooseBranch branchName sessionId base
  checked "worktree add" (worktreeAdd isNew branch (worktreePath sessionId) base)
  pure
    { sessionId := sessionId
      worktreePath := worktreePath sessionId
      branchName := branch
      baseCommit := git.sha base }

/-- `re.sub(r"[^a-zA-Z0-9_\-]", "_", role.lower())`. -/
def sanitizedRole (role : String) : String :=
  (text.lower role).map fun c => if c.isAlphanum || c = '_' || c = '-' then c else '_'

def roleBranch (role random : String) : String := s!"task_{sanitizedRole text role}_{random}"

/-- `create_multi_agent_worktrees`. -/
def createMultiAgentWorktrees (roles : List String) (baseRef : String) :
    Program GitState String (List (String × WorktreeSessionConfig)) :=
  Program.collect (fun role => do
    let random ← uuid
    let session ← createWorktree git worktreePath (roleBranch text role random) baseRef
    pure (role, session)) roles

/-- A change of the worktree at a path. -/
def inWorktree (path : String) (f : Worktree → Option (α × Worktree)) (r : Repository) :
    Option (α × Repository) := do
  let worktree ← r.worktrees.lookup path
  let (output, worktree) ← f worktree
  pure (output, { r with
    worktrees := r.worktrees.map fun other =>
      if other.1 = path then (path, { worktree with branch := other.2.branch }) else other })

def commitWorktree (path message : String) (r : Repository) : Option (Unit × Repository) := do
  let worktree ← r.worktrees.lookup path
  let commit ← r.branches worktree.branch
  if worktree.staged = commit.tree then none
  else
    pure ((), { r with
      branches := Function.update r.branches worktree.branch
        (some (.child commit worktree.staged message)) })

/-- The commit of a worktree if something is staged in it. -/
def commitIfChanged (path message : String) (same : Option Unit) : Program GitState String Unit :=
  if same.isNone then checked "commit" (commitWorktree path message) else pure ()

/-- `commit_changes`. -/
def commitChanges (session : WorktreeSessionConfig) (message : String) :
    Program GitState String String := do
  let path := session.worktreePath
  checked "add -A" (inWorktree path fun worktree =>
    some ((), { worktree with staged := worktree.files }))
  let same ← command "diff --cached --quiet" (asks fun r => do
    let worktree ← r.worktrees.lookup path
    let commit ← r.branches worktree.branch
    if worktree.staged = commit.tree then some () else none)
  commitIfChanged path message same
  checked "rev-parse HEAD" (asks fun r => do
    let worktree ← r.worktrees.lookup path
    (r.branches worktree.branch).map git.sha)

/-- `get_diff`. -/
def getDiff (session : WorktreeSessionConfig) : Program GitState String String := do
  let diff ← command "diff" (asks fun r => do
    let worktree ← r.worktrees.lookup session.worktreePath
    let commit ← r.branches worktree.branch
    pure (git.diffText commit.tree worktree.files))
  let _ ← command "status --porcelain" (asks fun _ => some ())
  pure (diff.getD "")

/-- `cleanup_worktree`. -/
def cleanupWorktree (session : WorktreeSessionConfig) : Program GitState String Bool := do
  let remove (r : Repository) : Repository :=
    { r with worktrees := r.worktrees.filter fun other => other.1 ≠ session.worktreePath }
  let _ ← command "worktree remove --force" fun r => some ((), remove r)
  let _ ← command "worktree prune" (asks fun _ => some ())
  Program.update fun s => { s with repository := remove s.repository }
  pure true

/-- An executor that works on the files of the worktree. -/
def inFiles (session : WorktreeSessionConfig) (x : Program Tree String HealResult) :
    Program GitState String HealResult := fun s =>
  match s.repository.worktrees.lookup session.worktreePath with
  | none => (.error s!"Worktree path does not exist: {session.worktreePath}", s)
  | some worktree =>
      let (result, files) := x worktree.files
      (result, { s with
        repository :=
          { s.repository with
            worktrees := s.repository.worktrees.map fun other =>
              if other.1 = session.worktreePath then (other.1, { other.2 with files := files })
              else other } })

end Worktrees

/-! ## The pipeline over git -/

/-- The repository with the squash merges so far: the branch that was merged and the state that the
merge found. -/
structure GitWorld where
  state : GitState
  merges : List (String × GitState) := []

def onState (x : Program GitState String α) : Program GitWorld String α :=
  Program.within GitWorld.state (fun state world => { world with state := state }) x

section Pipeline

variable (git : Git) (text : TextTables) (worktreePath : String → String)

def loggedSquash (source target : String) : Program GitWorld String (Bool × String) := do
  .update fun world => { world with merges := world.merges ++ [(source, world.state)] }
  onState (squashMergeWorktreeBranch git source target)

def gitWorktrees : WorktreeManager GitWorld where
  createWorktree _ branchName baseRef :=
    onState (createWorktree git worktreePath branchName baseRef)
  cleanupWorktree session := onState (cleanupWorktree session)
  getDiff session := onState (getDiff git session)
  commitChanges session message := onState (commitChanges git session message)
  createMultiAgentWorktrees := some fun _ roles baseRef =>
    onState (createMultiAgentWorktrees git text worktreePath roles baseRef)
  squashMergeWorktreeBranch := some fun _ source target => loggedSquash git source target

def gitExecutor
    (execute : WorktreeSessionConfig → ScopedMutationPlan → Program Tree String HealResult) :
    ScopedExecutor GitWorld where
  executePlan session plan := onState (inFiles session (execute session plan))
  healMutation := none

/-- A manager with git worktrees and an executor that works in them. -/
def gitPipeline (manager : CodingPipelineManager GitWorld)
    (execute : Option
      (WorktreeSessionConfig → ScopedMutationPlan → Program Tree String HealResult)) :
    CodingPipelineManager GitWorld :=
  { manager with
    worktreeManager := some (gitWorktrees git manager.text worktreePath)
    scopedExecutor := execute.map gitExecutor }

end Pipeline

end AgentSystem.GitWorktree
