import AgentSystem.PipelineReceipts
import AgentSystem.RoleMerge

/-!
# The review of what is delivered

The review reads the head of the worktree and compares it with itself. The changes are committed
after it, and the hash of that commit is published.
-/
namespace AgentSystem.Pipeline

open Programs

variable {W : Type}

/-- The commit that was reviewed is the one that is published. -/
def ReviewPublished (result : CodingPipelineResult) : Prop :=
  ∀ head, result.independentReviewReceipt = some head →
    result.prPayload.map DraftPRPayload.commitHash = some head

namespace CodingPipelineManager

variable (manager : CodingPipelineManager W)

/-! ## The steps up to the review -/

/-- The steps before the worktree: the plan that goes on, if the run does. -/
def gatedPlan (task : String) (request : CodingTaskRequest) (plan : ScopedMutationPlan) :
    Run W (Option ScopedMutationPlan) := do
  manager.startPipeline request
  let blocked ← isStopped request.taskId
  if blocked then pure none
  else do
    let debated ← manager.debateGate task request plan
    match debated with
    | none => pure none
    | some plan => do
        manager.submitPlan task plan
        let blocked ← isStopped task
        if blocked then pure none else pure (some plan)

/-- What a run hands to the review and to the export. -/
structure Delivery (W : Type) where
  plan : ScopedMutationPlan
  worktrees : WorktreeManager W
  session : WorktreeSessionConfig
  receipts : List VerificationReceipt

/-- The stages before the review. -/
def verifiedWork (task : String) (request : CodingTaskRequest) (plan : ScopedMutationPlan) :
    Run W (Option (Delivery W)) := do
  manager.recordStage task .isolatedMutation "Setting up isolated git worktree environment."
  match manager.worktreeManager with
  | none => .raise "WorktreeManager is not configured on pipeline."
  | some worktrees => do
      let session ← manager.mutate task request plan worktrees
      let evident ← manager.checkEvidence task request worktrees session
      if evident then
        let receipts ← manager.verify task request plan session
        match receipts with
        | none => pure none
        | some receipts => do
            setFields task fun r => { r with status := .pass }
            manager.recordStage task .verifyAndEvidence
              s!"All {receipts.length} verification steps passed with Exit Code 0."
            pure (some ⟨plan, worktrees, session, receipts⟩)
      else pure none

/-- The steps up to the review. -/
def beforeReview (task : String) (request : CodingTaskRequest) (plan : ScopedMutationPlan) :
    Run W (Option (Delivery W)) := do
  let gated ← manager.gatedPlan task request plan
  match gated with
  | none => pure none
  | some plan => manager.verifiedWork task request plan

/-- The review and the export. -/
def deliver (task : String) (request : CodingTaskRequest) (work : Delivery W) : Run W Unit := do
  let reviewed ← manager.review task request work.session
  if reviewed then
    manager.exportDraft task request work.plan work.worktrees work.session work.receipts
  else pure ()

lemma runStages_eq (task : String) (request : CodingTaskRequest) (plan : ScopedMutationPlan) :
    manager.runStages task request plan = (do
      let work ← manager.verifiedWork task request plan
      match work with
      | none => pure ()
      | some work => manager.deliver task request work) := by
  unfold runStages verifiedWork
  simp only [bind_assoc]
  refine bind_congr fun _ => ?_
  generalize manager.worktreeManager = worktrees
  cases worktrees with
  | none => rfl
  | some worktrees =>
      simp only [bind_assoc]
      refine bind_congr fun session => bind_congr fun evident => ?_
      split_ifs with hevident
      · simp only [bind_assoc]
        refine bind_congr fun receipts => ?_
        cases receipts with
        | none => rfl
        | some receipts =>
            simp only [bind_assoc, pure_bind]
            rfl
      · rfl

lemma incomplete_of_failed {task : String} {s : Process W}
    (h : (s.result task).currentStage = .failed) : Incomplete task s := by
  rw [Incomplete, h]
  exact nofun

lemma heal_failed {P : Process W → Prop} (task : String) (request : CodingTaskRequest)
    (plan : ScopedMutationPlan) (runner : VerificationRunner W) (session : WorktreeSessionConfig)
    (failedReceipts : List VerificationReceipt) :
    Triple P (manager.heal task request plan runner session failedReceipts)
      (fun collected s => collected = none → (s.result task).currentStage = .failed)
      fun _ _ => True := by
  refine Triple.split (fun _ => ?_) fun _ => ?_
  · refine Triple.bind Triple.any fun _ => Triple.bind Triple.any fun healed => ?_
    cases healed with
    | some receipts => exact Triple.ret fun _ _ => nofun
    | none =>
        refine Triple.bind Triple.any fun _ => Triple.bind Triple.any fun receipt => ?_
        refine Triple.bind Triple.any fun _ => ?_
        exact Triple.bind (manager.recordStage_stage task .failed _) fun _ =>
          Triple.ret fun s hs _ => hs
  · exact Triple.bind (manager.stop_spec task .fail _ .failed) fun _ =>
      Triple.ret fun s hs _ => hs.2

/-- A run that does not go on after the ladder has failed. -/
lemma verify_failed {P : Process W → Prop} (task : String) (request : CodingTaskRequest)
    (plan : ScopedMutationPlan) (session : WorktreeSessionConfig) :
    Triple P (manager.verify task request plan session)
      (fun collected s => collected = none → (s.result task).currentStage = .failed)
      fun _ _ => True := by
  refine Triple.bind Triple.any fun _ => ?_
  split
  · exact Triple.raise fun _ _ => trivial
  · refine Triple.bind Triple.any fun receipts => Triple.bind Triple.any fun _ => ?_
    refine Triple.bind (R := fun collected s =>
      collected = none → (s.result task).currentStage = .failed)
      (Triple.split (fun _ => Triple.ret fun _ _ => nofun) fun _ =>
        manager.heal_failed task request plan _ session _)
      fun collected => ?_
    cases collected with
    | none => exact Triple.ret fun s hs => hs
    | some receipts =>
        refine Triple.split (fun _ => ?_) fun _ => Triple.ret fun _ _ => nofun
        exact Triple.bind (manager.stop_spec task .fail _ .failed) fun _ =>
          Triple.ret fun s hs _ => hs.2

lemma verifiedWork_incomplete (task : String) (request : CodingTaskRequest)
    (plan : ScopedMutationPlan) :
    Triple (fun _ => True) (manager.verifiedWork task request plan)
      (fun work s => work = none → Incomplete task s) fun _ _ => True := by
  refine Triple.bind Triple.any fun _ => ?_
  split
  · exact Triple.raise fun _ _ => trivial
  · refine Triple.bind Triple.any fun session => ?_
    refine Triple.bind (manager.checkEvidence_failed task request _ session) fun evident => ?_
    refine Triple.split (fun _ => ?_) fun hevident => Triple.ret fun s hs _ => ?_
    · refine Triple.bind (manager.verify_failed task request plan session) fun receipts => ?_
      cases receipts with
      | none => exact Triple.ret fun s hs _ => incomplete_of_failed (hs rfl)
      | some receipts =>
          exact Triple.bind Triple.any fun _ => Triple.bind Triple.any fun _ =>
            Triple.ret fun _ _ => nofun
    · exact incomplete_of_failed (hs (Bool.eq_false_of_not_eq_true hevident))

lemma runStages_delivers {task : String} {request : CodingTaskRequest} {plan : ScopedMutationPlan}
    {s s' : Process W} (h : manager.runStages task request plan s = (.ok (), s'))
    (hcompleted : (s'.result task).currentStage = .completed) :
    ∃ work s₁, manager.verifiedWork task request plan s = (.ok (some work), s₁) ∧
      manager.deliver task request work s₁ = (.ok (), s') := by
  rw [runStages_eq] at h
  obtain ⟨work, s₁, hwork, h⟩ := Program.bind_eq_ok h
  cases work with
  | some work => exact ⟨work, s₁, hwork, h⟩
  | none =>
      cases h
      exact absurd hcompleted (manager.verifiedWork_incomplete task request plan
        |>.returned trivial hwork rfl)

/-- A run that completes has come to the review, and its end is the end of the delivery. -/
lemma executePipeline_delivers {task key : String} {request : CodingTaskRequest}
    {plan : ScopedMutationPlan} {s s' : Process W}
    (hrun : manager.executePipeline task request plan s = (.ok key, s'))
    (hcompleted : (s'.result key).currentStage = .completed) :
    key = task ∧ ∃ work s₁, manager.beforeReview task request plan s = (.ok (some work), s₁) ∧
      manager.deliver task request work s₁ = (.ok (), s') := by
  obtain ⟨_, s₁, hstart, hrun⟩ := Program.bind_eq_ok hrun
  have hincomplete := (manager.startPipeline_incomplete request).returned
    (P := fun _ => True) trivial hstart
  obtain ⟨blocked, s₂, hblocked, hrun⟩ := Program.bind_eq_ok hrun
  have hsame : s₁ = s₂ := congrArg Prod.snd hblocked
  subst hsame
  split_ifs at hrun with hstop
  · cases hrun
    exact absurd hcompleted hincomplete
  obtain ⟨debated, s₃, hdebated, hrun⟩ := Program.bind_eq_ok hrun
  cases debated with
  | none =>
      cases hrun
      exact absurd hcompleted
        ((manager.debateGate_incomplete task request plan).returned (P := fun _ => True) trivial
          hdebated rfl)
  | some handed =>
      obtain ⟨_, s₄, hsubmit, hrun⟩ := Program.bind_eq_ok hrun
      have hopen := (manager.submitPlan_incomplete task handed).returned
        (P := fun _ => True) trivial hsubmit
      obtain ⟨stopped, s₅, hstopped, hrun⟩ := Program.bind_eq_ok hrun
      have hsame : s₄ = s₅ := congrArg Prod.snd hstopped
      subst hsame
      split_ifs at hrun with hstop'
      · cases hrun
        exact absurd hcompleted hopen
      obtain ⟨_, s₆, hstages, hrun⟩ := Program.bind_eq_ok hrun
      cases hrun
      have hgated : manager.gatedPlan task request plan s = (.ok (some handed), s₄) := by
        rw [gatedPlan, Program.bind_ok hstart, Program.bind_ok hblocked, if_neg hstop,
          Program.bind_ok hdebated]
        dsimp only
        rw [Program.bind_ok hsubmit, Program.bind_ok hstopped, if_neg hstop', Program.pure_apply]
      rcases Program.handle_eq_ok hstages with hstages | ⟨exc, s₇, -, hfailed⟩
      · obtain ⟨work, s₇, hwork, hdeliver⟩ := manager.runStages_delivers hstages hcompleted
        refine ⟨rfl, work, s₇, ?_, hdeliver⟩
        rw [beforeReview, Program.bind_ok hgated]
        exact hwork
      · obtain ⟨_, s₈, -, hfailed⟩ := Program.bind_eq_ok hfailed
        have hstage := (manager.recordStage_stage task .failed _).returned
          (P := fun _ => True) trivial hfailed
        rw [hstage] at hcompleted
        cases hcompleted

/-! ## From the review to the commit -/

/-- The head that the review reads, or the commit that the worktree was made from. -/
def readHead (session : WorktreeSessionConfig) : Run W String := do
  let head ← Program.attempt (call (manager.headCommit session.worktreePath))
  pure ((head.map manager.text.strip).getD session.baseCommit)

/-- The commit of the export. -/
def commitWork (task : String) (request : CodingTaskRequest) (work : Delivery W) :
    Run W String := do
  manager.recordStage task .draftPrExport "Committing changes and generating Draft PR."
  call (work.worktrees.commitChanges work.session
    (s!"feat({task}): {firstChars 50 request.requirementPrompt}\n\n" ++
      "Verified by LAS Autonomous Pipeline."))

/-- The steps from the review to the commit: the head that is reviewed, and the hash of the
commit. -/
def reviewAndCommit (task : String) (request : CodingTaskRequest) (work : Delivery W) :
    Run W (String × String) := do
  manager.recordStage task .independentReview "Executing independent review gate verification."
  let head ← manager.readHead work.session
  let (_, message) ← manager.reviewFreshness head
  setFields task fun r => { r with independentReviewReceipt := some head }
  manager.recordStage task .independentReview s!"Independent review verified: {message}"
  let commitHash ← manager.commitWork task request work
  pure (head, commitHash)

/-- The commit has the hash that the review read before it. -/
def CommitsReviewedHead (task : String) (request : CodingTaskRequest) (work : Delivery W)
    (s : Process W) : Prop :=
  ∃ head s', manager.reviewAndCommit task request work s = (.ok (head, head), s')

/-- The receipt of the review is not changed by what follows. -/
def Reviewed (task head : String) (s : Process W) : Prop :=
  (s.result task).independentReviewReceipt = some head

lemma call_reviewed {α : Type} (task head : String) (x : Program W String α) :
    Keeps (Reviewed task head) (call x) := call_keeps (fun _ _ h => h) x

lemma recordStage_reviewed (task head : String) (stage : PipelineStage) (detail : String) :
    Triple (Reviewed task head) (manager.recordStage task stage detail)
      (fun _ => Reviewed task head) fun _ _ => True :=
  manager.recordStage_spec (P := fun r => r.independentReviewReceipt = some head)
    (Q := fun r => r.independentReviewReceipt = some head) task detail fun _ _ h => h

lemma publish_commitHash {P : Process W → Prop} (request : CodingTaskRequest)
    (payload : DraftPRPayload) :
    Triple P (manager.publish request payload)
      (fun published _ => published.commitHash = payload.commitHash) fun _ _ => True := by
  unfold publish
  split
  · exact Triple.ret fun _ _ => rfl
  · exact Triple.bind Triple.any fun _ => Triple.ret fun _ _ => rfl

lemma publish_reviewed (task head : String) (request : CodingTaskRequest)
    (payload : DraftPRPayload) :
    Keeps (Reviewed task head) (manager.publish request payload) := by
  unfold publish
  split
  · exact Keeps.ret _
  · exact Keeps.bind (call_reviewed task head _) fun _ => Keeps.ret _

/-- The export commits, and what it publishes has the hash of that commit. -/
lemma exportDraft_commits {task head : String} {request : CodingTaskRequest} {work : Delivery W}
    {s s' : Process W} (hreviewed : Reviewed task head s)
    (h : manager.exportDraft task request work.plan work.worktrees work.session work.receipts s =
      (.ok (), s')) :
    ∃ commitHash s₁, manager.commitWork task request work s = (.ok commitHash, s₁) ∧
      Reviewed task head s' ∧
      (s'.result task).prPayload.map DraftPRPayload.commitHash = some commitHash := by
  obtain ⟨_, s₁, hstage, h⟩ := Program.bind_eq_ok h
  obtain ⟨commitHash, s₂, hcommit, h⟩ := Program.bind_eq_ok h
  have hcommitted : manager.commitWork task request work s = (.ok commitHash, s₂) := by
    rw [commitWork, Program.bind_ok hstage]
    exact hcommit
  have hreviewed₁ : Reviewed task head s₁ :=
    (manager.recordStage_reviewed task head _ _).returned hreviewed hstage
  have hreviewed₂ : Reviewed task head s₂ :=
    (call_reviewed task head _).triple.returned hreviewed₁ hcommit
  obtain ⟨diffStat, s₃, hdiff, h⟩ := Program.bind_eq_ok h
  have hreviewed₃ : Reviewed task head s₃ :=
    (call_reviewed task head _).triple.returned hreviewed₂ hdiff
  obtain ⟨debate, s₄, hread, h⟩ := Program.bind_eq_ok h
  cases hread
  obtain ⟨payload, s₅, hpublish, h⟩ := Program.bind_eq_ok h
  have hreviewed₅ : Reviewed task head s₅ :=
    (manager.publish_reviewed task head request _).triple.returned hreviewed₃ hpublish
  have hhash : payload.commitHash = commitHash :=
    (manager.publish_commitHash (P := fun _ => True) request _).returned trivial hpublish
  obtain ⟨_, s₆, hset, h⟩ := Program.bind_eq_ok h
  cases hset
  refine ⟨commitHash, s₂, hcommitted, (manager.recordStage_spec
    (P := fun r => r.independentReviewReceipt = some head ∧
      r.prPayload.map DraftPRPayload.commitHash = some commitHash)
    (Q := fun r => r.independentReviewReceipt = some head ∧
      r.prPayload.map DraftPRPayload.commitHash = some commitHash)
    task _ fun _ _ h => h).returned ?_ h⟩
  rw [Process.result_setResult]
  exact ⟨hreviewed₅, congrArg some hhash⟩

/-- A delivery that completes has the reviewed head in its receipt and publishes the hash of the
commit after it. -/
lemma deliver_completed {task : String} {request : CodingTaskRequest} {work : Delivery W}
    {s s' : Process W} (hreview : request.enableIndependentReview = true)
    (h : manager.deliver task request work s = (.ok (), s'))
    (hcompleted : (s'.result task).currentStage = .completed) :
    ∃ head commitHash s₁,
      manager.reviewAndCommit task request work s = (.ok (head, commitHash), s₁) ∧
      (s'.result task).independentReviewReceipt = some head ∧
      (s'.result task).prPayload.map DraftPRPayload.commitHash = some commitHash := by
  obtain ⟨reviewed, s₁, hreviewed, h⟩ := Program.bind_eq_ok h
  split_ifs at h with hgoes
  swap
  · cases h
    have hfailed := (manager.review_failed (P := fun _ => True) task request work.session).returned
      trivial hreviewed (Bool.eq_false_of_not_eq_true hgoes)
    rw [hfailed] at hcompleted
    cases hcompleted
  rw [review, if_pos hreview] at hreviewed
  obtain ⟨_, s₂, hstage, hreviewed⟩ := Program.bind_eq_ok hreviewed
  obtain ⟨printed, s₃, hprinted, hreviewed⟩ := Program.bind_eq_ok hreviewed
  obtain ⟨⟨isFresh, message⟩, s₄, hfresh, hreviewed⟩ := Program.bind_eq_ok hreviewed
  have hhead : manager.readHead work.session s₂ =
      (.ok ((printed.map manager.text.strip).getD work.session.baseCommit), s₃) := by
    rw [readHead, Program.bind_ok hprinted, Program.pure_apply]
  generalize (printed.map manager.text.strip).getD work.session.baseCommit = head
    at hfresh hreviewed hhead
  cases isFresh with
  | false =>
      obtain ⟨_, s₅, -, hreviewed⟩ := Program.bind_eq_ok hreviewed
      cases hreviewed
      cases hgoes
  | true =>
      obtain ⟨_, s₅, hset, hreviewed⟩ := Program.bind_eq_ok hreviewed
      obtain ⟨_, s₆, hverified, hreviewed⟩ := Program.bind_eq_ok hreviewed
      cases hreviewed
      have hreceipt : Reviewed task head s₅ := by
        cases hset
        rw [Reviewed, Process.result_setResult]
      have hkept : Reviewed task head s₁ :=
        (manager.recordStage_reviewed task head _ _).returned hreceipt hverified
      obtain ⟨commitHash, s₇, hcommit, hpublished⟩ := manager.exportDraft_commits hkept h
      refine ⟨head, commitHash, s₇, ?_, hpublished⟩
      rw [reviewAndCommit, Program.bind_ok hstage, Program.bind_ok hhead, Program.bind_ok hfresh]
      dsimp only
      rw [Program.bind_ok hset, Program.bind_ok hverified, Program.bind_ok hcommit,
        Program.pure_apply]

/-- The receipt of a delivery that completes names the published commit just if the commit has the
hash that was reviewed. -/
lemma reviewPublished_iff {task : String} {request : CodingTaskRequest} {work : Delivery W}
    {s s' : Process W} (hreview : request.enableIndependentReview = true)
    (h : manager.deliver task request work s = (.ok (), s'))
    (hcompleted : (s'.result task).currentStage = .completed) :
    ReviewPublished (s'.result task) ↔ manager.CommitsReviewedHead task request work s := by
  obtain ⟨head, commitHash, s₁, hrun, hreceipt, hpublished⟩ :=
    manager.deliver_completed hreview h hcompleted
  constructor
  · intro hsame
    have hhash : commitHash = head :=
      Option.some.inj (hpublished.symm.trans (hsame head hreceipt))
    exact ⟨head, s₁, hhash ▸ hrun⟩
  · rintro ⟨reviewed, s₂, hrun'⟩ head' hreceipt'
    have hsame : (head, commitHash) = (reviewed, reviewed) := by
      have heq := hrun.symm.trans hrun'
      exact Except.ok.inj (congrArg Prod.fst heq)
    rw [hreceipt] at hreceipt'
    cases hreceipt'
    rw [hpublished, (Prod.mk.inj hsame).1, (Prod.mk.inj hsame).2]

end CodingPipelineManager

open CodingPipelineManager

section Git

open GitWorktree

/-- `git rev-parse HEAD` in a worktree. -/
def worktreeHead (git : Git) (path : String) : Program GitWorld String String :=
  onState (checked "rev-parse HEAD" (asks fun r => do
    let worktree ← r.worktrees.lookup path
    (r.branches worktree.branch).map git.sha))

/-- The worktree at a path, and the commit that its branch is at. -/
def CheckedOut (path : String) (worktree : Worktree) (commit : Commit) (r : Repository) : Prop :=
  r.worktrees.lookup path = some worktree ∧ r.branches worktree.branch = some commit

/-- The repository after `git add -A` in a worktree. -/
def stageAll (path : String) (worktree : Worktree) (r : Repository) : Repository :=
  { r with
    worktrees := r.worktrees.map fun other =>
      if other.1 = path then
        (path, { branch := other.2.branch, files := worktree.files, staged := worktree.files })
      else other }

lemma inWorktree_stageAll {path : String} {worktree : Worktree} {commit : Commit} {r : Repository}
    (h : CheckedOut path worktree commit r) :
    inWorktree path (fun worktree => some ((), { worktree with staged := worktree.files })) r =
      some ((), stageAll path worktree r) := by
  rw [inWorktree, h.1]
  rfl

lemma checkedOut_stageAll {path : String} {worktree : Worktree} {commit : Commit} {r : Repository}
    (h : CheckedOut path worktree commit r) :
    CheckedOut path { worktree with staged := worktree.files } commit
      (stageAll path worktree r) := by
  obtain ⟨hlookup, hbranch⟩ := h
  refine ⟨?_, hbranch⟩
  unfold stageAll
  dsimp only
  generalize r.worktrees = worktrees at hlookup
  induction worktrees with
  | nil => cases hlookup
  | cons other worktrees ih =>
      obtain ⟨name, first⟩ := other
      rw [List.map_cons]
      by_cases hpath : name = path
      · cases hpath
        rw [List.lookup_cons_self] at hlookup
        cases hlookup
        rw [if_pos rfl, List.lookup_cons_self]
      · have hne : (path == name) = false := beq_eq_false_iff_ne.mpr (Ne.symm hpath)
        rw [if_neg hpath]
        rw [List.lookup_cons, hne] at hlookup ⊢
        exact ih hlookup

lemma command_clean {α : Type} {s : GitState} (hfaults : s.faults = []) (name : String)
    (effect : Repository → Option (α × Repository)) :
    command name effect s = (.ok ((effect s.repository).map Prod.fst),
      { s with repository := ((effect s.repository).map Prod.snd).getD s.repository }) := by
  obtain ⟨repository, faults, uuids⟩ := s
  cases hfaults
  rfl

lemma checked_clean {α : Type} {s : GitState} (hfaults : s.faults = []) (name : String)
    {effect : Repository → Option (α × Repository)} {output : α} {r : Repository}
    (heffect : effect s.repository = some (output, r)) :
    checked name effect s = (.ok output, { s with repository := r }) := by
  have hcommand := command_clean hfaults name effect
  rw [heffect] at hcommand
  exact checked_ok hcommand

lemma revParse_checkedOut (git : Git) {path : String} {worktree : Worktree} {commit : Commit}
    {s : GitState} (h : CheckedOut path worktree commit s.repository) (hfaults : s.faults = []) :
    (checked "rev-parse HEAD" (asks fun r => (r.worktrees.lookup path).bind fun worktree =>
      (r.branches worktree.branch).map git.sha) s).1 = .ok (git.sha commit) := by
  have heffect : asks (fun r : Repository => (r.worktrees.lookup path).bind fun worktree =>
      (r.branches worktree.branch).map git.sha) s.repository =
        some (git.sha commit, s.repository) := by
    simp only [asks, h.1, h.2, Option.bind_some, Option.map_some]
  rw [checked_clean hfaults _ heffect]

lemma sha_child_ne {git : Git} (hsha : Function.Injective git.sha) (commit : Commit) (tree : Tree)
    (message : String) : git.sha (.child commit tree message) ≠ git.sha commit := by
  intro h
  have hdepth := congrArg Commit.depth (hsha h)
  simp [Commit.depth] at hdepth

/-- Without faults, `commit_changes` returns the head before it just if the files of the worktree
are those of that head. -/
theorem commitChanges_head_iff {git : Git} (hsha : Function.Injective git.sha)
    {session : WorktreeSessionConfig} {worktree : Worktree} {commit : Commit} {s : GitState}
    (hout : CheckedOut session.worktreePath worktree commit s.repository) (hfaults : s.faults = [])
    (message : String) :
    (commitChanges git session message s).1 = .ok (git.sha commit) ↔
      worktree.files = commit.tree := by
  have hadded := checked_clean hfaults "add -A" (inWorktree_stageAll hout)
  obtain ⟨hlookup, hbranch⟩ := checkedOut_stageAll hout
  generalize stageAll session.worktreePath worktree s.repository = r at hadded hlookup hbranch
  rw [commitChanges, Program.bind_ok hadded,
    Program.bind_ok (command_clean (s := { s with repository := r }) hfaults _ _)]
  simp only [asks, hlookup, hbranch, Option.bind_eq_bind, Option.bind_some]
  by_cases hsame : worktree.files = commit.tree
  · simp only [if_pos hsame, Option.map_some, Option.getD_some, commitIfChanged, Option.isNone_some,
      Bool.false_eq_true, if_false, pure_bind]
    exact iff_of_true
      (revParse_checkedOut git (s := { s with repository := r }) ⟨hlookup, hbranch⟩ hfaults) hsame
  · have hcommitted : commitWorktree session.worktreePath message r = some ((), { r with
        branches := Function.update r.branches worktree.branch
          (some (.child commit worktree.files message)) }) := by
      simp only [commitWorktree, hlookup, hbranch, Option.bind_eq_bind, Option.bind_some,
        if_neg hsame]
      rfl
    simp only [if_neg hsame, Option.map_none, Option.getD_none, commitIfChanged, Option.isNone_none,
      if_true]
    rw [Program.bind_ok (checked_clean (s := { s with repository := r }) hfaults "commit"
      hcommitted)]
    have hhead := revParse_checkedOut git (s := { s with repository := { r with
        branches := Function.update r.branches worktree.branch
          (some (.child commit worktree.files message)) } })
      ⟨hlookup, Function.update_self ..⟩ hfaults
    exact iff_of_false
      (fun h => sha_child_ne hsha _ _ _ (Except.ok.inj (hhead.symm.trans h))) hsame

/-- A pipeline over git whose ladder passes. -/
def reviewedPipeline
    (execute : Option
      (WorktreeSessionConfig → ScopedMutationPlan → Program Tree String HealResult)) :
    CodingPipelineManager GitWorld :=
  gitPipeline sampleGit (fun session => "worktrees/" ++ session)
    { bareManager with
      verificationRunner := some { runVerificationLadder := fun _ _ => pure [sampleReceipt .pass] }
      headCommit := worktreeHead sampleGit }
    execute

def reviewedRequest : CodingTaskRequest := { sampleRequest with enableIndependentReview := true }

def reviewedPlan : ScopedMutationPlan := { healedPlan with targetFiles := ["a.py"] }

/-- The run of a plan for a file of the main branch. -/
def reviewedRun
    (execute : Option
      (WorktreeSessionConfig → ScopedMutationPlan → Program Tree String HealResult)) :
    Except String String × Process GitWorld :=
  (reviewedPipeline execute).executePipeline "T1" reviewedRequest
    reviewedPlan (.start ⟨releaseState, []⟩ fun _ => none)

end Git

end AgentSystem.Pipeline
