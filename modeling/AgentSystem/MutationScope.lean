import AgentSystem.AgentExecutor

/-!
# The scope of the mutations of a plan

Which of the file mutations of a plan the executor lets through, and when all of them stay inside
the scope of the environment and of the role that the plan is assigned to.
-/
namespace AgentSystem.Executor

open Json Audit Programs PolicyGate Pipeline

variable {D W G : Type} [Interpreter D] [Coercion D]

namespace ScopeGuard

variable (guard : ScopeGuard D W G)

/-- The environment lets a file be changed, and so does the role. -/
def Governs (role : String) (path : FilePath) : Prop :=
  guard.taskEnv.isPathMutable (guard.relPath path) = none ∧
    roleAllows role (guard.relPath path) = true

/-! ## What the guard accepts -/

omit [Interpreter D] in
lemma checkScope_eq_ok (path : PyStr) :
    guard.checkScope path = .ok () ↔
      guard.taskEnv.isPathMutable path = none ∧ roleAllows guard.taskEnv.agentRole path = true := by
  unfold checkScope roleAllows
  cases guard.taskEnv.isPathMutable path with
  | some reason => simp
  | none =>
      cases hreadOnly : (roleRule guard.taskEnv.agentRole).readOnly with
      | true => simp [hreadOnly]
      | false =>
          cases hforbidden : forbiddenPrefix guard.taskEnv.agentRole path <;> simp [hreadOnly, hforbidden]

omit [Coercion D] in
/-- The tools of the registry are no actions of the policy gate. -/
lemma policyGateRequest_eq_none {toolName : String} (h : toolName ∈ minimalGovernedTools)
    (args : Arguments D) : policyGateRequest guard.taskEnv toolName args = none := by
  have haction : policyAction toolName = none := by
    revert toolName
    decide
  unfold policyGateRequest
  rw [haction]

/-- Behind a policy gate each of the governed tools raises before the gate is asked. -/
lemma validateToolCall_of_gate {toolName : String} (h : toolName ∈ minimalGovernedTools)
    (hgate : guard.policyGate ≠ none) (args : Arguments D) (host : Host D W G) :
    guard.validateToolCall toolName args host = (.error (.other "ValidationError" []), host) := by
  obtain ⟨evaluate, hevaluate⟩ := Option.ne_none_iff_exists'.mp hgate
  refine Program.bind_error ?_
  unfold consultGate
  rw [hevaluate]
  dsimp only
  rw [guard.policyGateRequest_eq_none h]
  rfl

lemma validateToolCall_of_noGate (hgate : guard.policyGate = none) (toolName : String)
    (args : Arguments D) (host : Host D W G) :
    guard.validateToolCall toolName args host = (guard.checkTool toolName args host.disk, host) := by
  have hconsult : guard.consultGate toolName args host = (.ok none, host) := by
    unfold consultGate
    rw [hgate]
    rfl
  exact (Program.bind_ok hconsult).trans rfl

/-- A write with these arguments to this file goes through. -/
structure AcceptsWrite (args : Arguments D) (path : FilePath) (disk : W) : Prop where
  noGate : guard.policyGate = none
  allowed : guard.taskEnv.validateToolAllowed "filesystem.write" = true
  named : truthy ((args.find "file_path").getD (.str [])) = true
  resolves : guard.resolveAndVerifyPath ((args.find "file_path").getD (.str [])) disk = .ok path
  inScope : guard.checkScope (guard.relPath path) = .ok ()
  clean : codeViolation (args.get "content") (guard.relPath path) = none

lemma checkWrite_eq_ok (args : Arguments D) (disk : W) :
    guard.checkWrite args disk = .ok none ↔
      truthy ((args.find "file_path").getD (.str [])) = true ∧
        ∃ path, guard.resolveAndVerifyPath ((args.find "file_path").getD (.str [])) disk = .ok path ∧
          guard.checkScope (guard.relPath path) = .ok () ∧
          codeViolation (args.get "content") (guard.relPath path) = none := by
  unfold checkWrite
  dsimp only
  split_ifs with hnamed
  · cases hpath : guard.resolveAndVerifyPath ((args.find "file_path").getD (.str [])) disk with
    | error fault => simp [bind, Except.bind]
    | ok path =>
        cases hscope : guard.checkScope (guard.relPath path) with
        | error fault => simp [bind, Except.bind, hscope]
        | ok _ =>
            cases hclean : codeViolation (args.get "content") (guard.relPath path) <;>
              simp [bind, Except.bind, hscope, hclean, hnamed]
  · simp [hnamed]

lemma acceptsWrite_iff (args : Arguments D) (host : Host D W G) :
    (guard.validateToolCall "filesystem.write" args host).1 = .ok none ↔
      ∃ path, guard.AcceptsWrite args path host.disk := by
  by_cases hgate : guard.policyGate = none
  · rw [guard.validateToolCall_of_noGate hgate]
    unfold checkTool
    cases hallowed : guard.taskEnv.validateToolAllowed "filesystem.write" with
    | false =>
        simp only [if_true]
        exact ⟨nofun, fun ⟨_, h⟩ => absurd h.allowed (by simp [hallowed])⟩
    | true =>
        simp only [Bool.true_eq_false, if_false, if_true]
        rw [guard.checkWrite_eq_ok]
        exact ⟨fun ⟨hnamed, path, hpath, hscope, hclean⟩ =>
            ⟨path, hgate, hallowed, hnamed, hpath, hscope, hclean⟩,
          fun ⟨path, h⟩ => ⟨h.named, path, h.resolves, h.inScope, h.clean⟩⟩
  · rw [guard.validateToolCall_of_gate (by decide) hgate]
    exact ⟨nofun, fun ⟨_, h⟩ => absurd h.noGate hgate⟩

/-- Asking the guard about a tool of the registry changes nothing. -/
lemma validateToolCall_host {toolName : String} (h : toolName ∈ minimalGovernedTools)
    (args : Arguments D) (host : Host D W G) :
    (guard.validateToolCall toolName args host).2 = host := by
  by_cases hgate : guard.policyGate = none
  · rw [guard.validateToolCall_of_noGate hgate]
  · rw [guard.validateToolCall_of_gate h hgate]

/-! ## What the tools touch -/

lemma revalidate_error {toolName : String} (h : toolName ∈ minimalGovernedTools)
    (args : Arguments D) (host : Host D W G)
    (hrefused : (guard.validateToolCall toolName args host).1 ≠ .ok none) :
    ∃ fault, guard.revalidate toolName args host = (.error fault, host) := by
  have hhost := guard.validateToolCall_host h args host
  unfold revalidate
  generalize hvalidate : guard.validateToolCall toolName args host = result at hrefused hhost
  obtain ⟨⟨fault⟩ | ⟨_ | error⟩, host'⟩ := result
  · cases hhost
    exact ⟨fault, Program.bind_error hvalidate⟩
  · exact absurd rfl hrefused
  · cases hhost
    exact ⟨.securityViolation error, (Program.bind_ok hvalidate).trans rfl⟩

lemma revalidate_ok {toolName : String} (h : toolName ∈ minimalGovernedTools)
    (args : Arguments D) (host : Host D W G)
    (haccepted : (guard.validateToolCall toolName args host).1 = .ok none) :
    guard.revalidate toolName args host = (.ok (), host) := by
  have hhost := guard.validateToolCall_host h args host
  have hvalidate : guard.validateToolCall toolName args host = (.ok none, host) :=
    Prod.ext haccepted hhost
  exact (Program.bind_ok hvalidate).trans rfl

omit [Interpreter D] [Coercion D] in
lemma find_filePath (filePath content : PyValue D) :
    (writeArguments filePath content).find "file_path" = some filePath := by
  rw [writeArguments, Arguments.find_ofPairs]
  rfl

/-- A write that is not accepted leaves everything as it was. -/
lemma filesystemWrite_refused (filePath content append : PyValue D) (host : Host D W G)
    (h : ∀ path, ¬ guard.AcceptsWrite (writeArguments filePath content) path host.disk) :
    ∃ fault, guard.filesystemWrite filePath content append host = (.error fault, host) := by
  have hrefused : (guard.validateToolCall "filesystem.write" (writeArguments filePath content)
      host).1 ≠ .ok none := by
    rw [Ne, guard.acceptsWrite_iff]
    exact fun ⟨path, hpath⟩ => h path hpath
  obtain ⟨fault, hfault⟩ := guard.revalidate_error (by decide) _ host hrefused
  exact ⟨fault, Program.bind_error hfault⟩

lemma filesystemWrite_accepted {filePath content : PyValue D} (append : PyValue D)
    {path : FilePath} {host : Host D W G}
    (h : guard.AcceptsWrite (writeArguments filePath content) path host.disk) :
    (guard.filesystemWrite filePath content append host).2.effects =
      host.effects ++ [.write path content (truthy append)] := by
  have hvalid := guard.revalidate_ok (by decide) _ host ((guard.acceptsWrite_iff _ host).mpr ⟨path, h⟩)
  have hresolves := h.resolves
  rw [find_filePath, Option.getD_some] at hresolves
  have hpath : Host.query (guard.resolveAndVerifyPath filePath) host = (.ok path, host) :=
    Prod.ext hresolves rfl
  unfold filesystemWrite
  rw [Program.bind_ok hvalid, Program.bind_ok hpath, Program.bind_ok (Host.perform_apply _ host)]
  exact Host.bind_effects (Host.onDisk_effects _ _) fun _ _ => rfl

omit [Interpreter D] [Coercion D] in
lemma deleteFile_apply (path : FilePath) (host : Host D W G) :
    guard.deleteFile path host =
      if guard.platform.exists_ path host.disk then
        (Host.perform (.delete path) >>= fun _ =>
          Host.onDisk (guard.platform.unlink path)) host
      else (.ok (), host) := by
  have hread : (Program.read fun h : Host D W G => guard.platform.exists_ path h.disk) host =
      ((.ok (guard.platform.exists_ path host.disk) : Except Fault Bool), host) := rfl
  unfold deleteFile
  rw [Program.bind_ok hread]
  split_ifs <;> rfl

omit [Interpreter D] [Coercion D] in
/-- A removal touches the file that its path resolves to, if there is one. -/
lemma removeFile_resolved {mutation : FileMutationSpec} {path : FilePath} {host : Host D W G}
    (h : guard.resolveAndVerifyPath (strValue mutation.filePath) host.disk = .ok path) :
    (guard.removeFile mutation host).2.effects =
      host.effects ++ if guard.platform.exists_ path host.disk then [.delete path] else [] := by
  have hpath : Host.query (guard.resolveAndVerifyPath (strValue mutation.filePath)) host =
      (.ok path, host) := Prod.ext h rfl
  unfold removeFile
  rw [Program.bind_ok hpath]
  refine Host.bind_effects ?_ fun _ _ => rfl
  rw [guard.deleteFile_apply]
  split_ifs with hexists
  · rw [Program.bind_ok (Host.perform_apply _ host)]
    exact Host.onDisk_effects _ _
  · exact (List.append_nil _).symm

omit [Interpreter D] [Coercion D] in
/-- A removal of a file that does not exist returns. -/
lemma removeFile_absent {mutation : FileMutationSpec} {path : FilePath} {host : Host D W G}
    (h : guard.resolveAndVerifyPath (strValue mutation.filePath) host.disk = .ok path)
    (habsent : guard.platform.exists_ path host.disk = false) :
    guard.removeFile mutation host = (.ok (some (.deleted (guard.relPath path))), host) := by
  have hpath : Host.query (guard.resolveAndVerifyPath (strValue mutation.filePath)) host =
      (.ok path, host) := Prod.ext h rfl
  have hskip : guard.deleteFile path host = (.ok (), host) := by
    rw [guard.deleteFile_apply, habsent, if_neg Bool.false_ne_true]
  unfold removeFile
  rw [Program.bind_ok hpath, Program.bind_ok hskip]
  rfl

omit [Interpreter D] [Coercion D] in
lemma removeFile_unresolved {mutation : FileMutationSpec} {fault : Fault} {host : Host D W G}
    (h : guard.resolveAndVerifyPath (strValue mutation.filePath) host.disk = .error fault) :
    guard.removeFile mutation host = (.error fault, host) :=
  Program.bind_error (Prod.ext h rfl)

/-! ## One mutation -/

/-- The arguments that the write of a mutation is validated with. -/
def mutationArguments (mutation : FileMutationSpec) : Arguments D :=
  writeArguments (strValue mutation.filePath) (strValue mutation.content)

/-- A mutation writes, appends to or deletes a file. -/
def IsOperation (mutation : FileMutationSpec) : Prop :=
  mutation.action = "write" ∨ mutation.action = "append" ∨ mutation.action = "delete"

/-- A write that the guard accepts touches its file. -/
lemma writeFile_accepted {mutation : FileMutationSpec} {path : FilePath} {host : Host D W G}
    (h : guard.AcceptsWrite (mutationArguments mutation) path host.disk) :
    (guard.writeFile mutation host).2.effects =
      host.effects ++ [.write path (strValue mutation.content) (mutation.action = "append")] :=
  Host.bind_effects (guard.filesystemWrite_accepted (.bool (mutation.action = "append")) h)
    fun _ _ => rfl

lemma writeFile_refused {mutation : FileMutationSpec} {host : Host D W G}
    (h : ∀ path, ¬ guard.AcceptsWrite (mutationArguments mutation) path host.disk) :
    ∃ fault, guard.writeFile mutation host = (.error fault, host) := by
  obtain ⟨fault, hfault⟩ := guard.filesystemWrite_refused _ _
    (.bool (mutation.action = "append")) host h
  exact ⟨fault, Program.bind_error hfault⟩

/-- The path of a mutation is one that the environment and the role leave open. -/
def InScope (role : String) (mutation : FileMutationSpec) (disk : W) : Prop :=
  ∃ path, guard.resolveAndVerifyPath (strValue mutation.filePath) disk = .ok path ∧
    guard.Governs role path

/-- The checks that the executor makes for this mutation cover what the role must not touch: a
deleted file is in the scope of the role, and so is a written one that the guard accepts. -/
structure Covers (role : String) (mutation : FileMutationSpec) (disk : W) : Prop where
  delete : mutation.action = "delete" → ∀ path,
    guard.resolveAndVerifyPath (strValue mutation.filePath) disk = .ok path →
      guard.Governs role path
  write : mutation.action = "write" ∨ mutation.action = "append" → ∀ path,
    guard.AcceptsWrite (mutationArguments mutation) path disk →
      roleAllows role (guard.relPath path) = true

lemma AcceptsWrite.inScope_iff {guard : ScopeGuard D W G} {mutation : FileMutationSpec}
    {path : FilePath} {disk : W} (h : guard.AcceptsWrite (mutationArguments mutation) path disk)
    (role : String) : guard.InScope role mutation disk ↔ guard.Governs role path := by
  have hresolves := h.resolves
  rw [mutationArguments, find_filePath, Option.getD_some] at hresolves
  constructor
  · rintro ⟨path', hpath', hgoverns⟩
    rw [hresolves] at hpath'
    cases hpath'
    exact hgoverns
  · exact fun hgoverns => ⟨path, hresolves, hgoverns⟩

lemma AcceptsWrite.governs_iff {guard : ScopeGuard D W G} {args : Arguments D}
    {path : FilePath} {disk : W} (h : guard.AcceptsWrite args path disk) (role : String) :
    guard.Governs role path ↔ roleAllows role (guard.relPath path) = true :=
  and_iff_right ((guard.checkScope_eq_ok _).mp h.inScope).1

lemma applyMutation_write {mutation : FileMutationSpec}
    (h : mutation.action = "write" ∨ mutation.action = "append") :
    guard.applyMutation mutation = guard.writeFile mutation := if_pos h

lemma applyMutation_delete {mutation : FileMutationSpec} (h : mutation.action = "delete") :
    guard.applyMutation mutation = guard.removeFile mutation := by
  unfold applyMutation
  rw [h, if_neg (by decide), if_pos rfl]

/-- A mutation that goes through as the checks of the executor cover it leaves its file in scope. -/
lemma touched_of_covers {role : String} {mutation : FileMutationSpec} {host : Host D W G}
    (hcovers : guard.Covers role mutation host.disk) {effect : Effect D}
    (heffect : effect ∈ (guard.applyMutation mutation host).2.effects) :
    effect ∈ host.effects ∨ ∀ path ∈ effect.target, guard.Governs role path := by
  by_cases hwrite : mutation.action = "write" ∨ mutation.action = "append"
  · rw [guard.applyMutation_write hwrite] at heffect
    by_cases haccepts : ∃ path, guard.AcceptsWrite (mutationArguments mutation) path host.disk
    · obtain ⟨path, hpath⟩ := haccepts
      rw [guard.writeFile_accepted hpath] at heffect
      refine (List.mem_append.mp heffect).imp_right fun hnew path' hpath' => ?_
      rw [List.mem_singleton.mp hnew] at hpath'
      cases hpath'
      exact (hpath.governs_iff role).mpr (hcovers.write hwrite path hpath)
    · obtain ⟨fault, hfault⟩ := guard.writeFile_refused fun path hpath => haccepts ⟨path, hpath⟩
      rw [hfault] at heffect
      exact .inl heffect
  · by_cases hdelete : mutation.action = "delete"
    · rw [guard.applyMutation_delete hdelete] at heffect
      cases hpath : guard.resolveAndVerifyPath (strValue mutation.filePath) host.disk with
      | error fault =>
          rw [guard.removeFile_unresolved hpath] at heffect
          exact .inl heffect
      | ok path =>
          rw [guard.removeFile_resolved hpath] at heffect
          refine (List.mem_append.mp heffect).imp_right fun hnew path' hpath' => ?_
          split_ifs at hnew
          · rw [List.mem_singleton.mp hnew] at hpath'
            cases hpath'
            exact hcovers.delete hdelete path hpath
          · exact absurd hnew List.not_mem_nil
    · unfold applyMutation at heffect
      rw [if_neg hwrite, if_neg hdelete] at heffect
      exact .inl heffect

/-- The checks of the executor cover a mutation when it raises outside the scope of the role. -/
lemma covers_iff {role : String} {mutation : FileMutationSpec} (hop : IsOperation mutation)
    (host : Host D W G) :
    guard.Covers role mutation host.disk ↔
      (¬ guard.InScope role mutation host.disk → ∃ fault host',
        guard.applyMutation mutation host = (.error fault, host') ∧
          host'.effects = host.effects) := by
  constructor
  · intro hcovers hout
    by_cases hwrite : mutation.action = "write" ∨ mutation.action = "append"
    · have hrefused : ∀ path,
          ¬ guard.AcceptsWrite (mutationArguments mutation) path host.disk := fun path hpath =>
        hout ((hpath.inScope_iff role).mpr
          ((hpath.governs_iff role).mpr (hcovers.write hwrite path hpath)))
      obtain ⟨fault, hfault⟩ := guard.writeFile_refused hrefused
      exact ⟨fault, host, guard.applyMutation_write hwrite ▸ hfault, rfl⟩
    · have hdelete : mutation.action = "delete" := by
        unfold IsOperation at hop
        tauto
      rw [guard.applyMutation_delete hdelete]
      cases hpath : guard.resolveAndVerifyPath (strValue mutation.filePath) host.disk with
      | error fault => exact ⟨fault, host, guard.removeFile_unresolved hpath, rfl⟩
      | ok path => exact absurd ⟨path, hpath, hcovers.delete hdelete path hpath⟩ hout
  · intro hraises
    refine ⟨fun hdelete path hpath => ?_, fun hwrite path hpath => ?_⟩
    · by_contra hout
      obtain ⟨fault, host', hfault, hsame⟩ := hraises fun ⟨path', hpath', hgoverns⟩ => by
        rw [hpath] at hpath'
        cases hpath'
        exact hout hgoverns
      rw [guard.applyMutation_delete hdelete] at hfault
      cases hexists : guard.platform.exists_ path host.disk with
      | false =>
          rw [guard.removeFile_absent hpath hexists] at hfault
          cases hfault
      | true =>
          have hnew := guard.removeFile_resolved hpath
          rw [hfault, hexists, if_pos rfl] at hnew
          exact absurd (hnew.symm.trans hsame) (by simp)
    · by_contra hout
      obtain ⟨fault, host', hfault, hsame⟩ := hraises fun hscope =>
        hout ((hpath.governs_iff role).mp ((hpath.inScope_iff role).mp hscope))
      have hnew := guard.writeFile_accepted hpath
      rw [← guard.applyMutation_write hwrite, hfault] at hnew
      exact absurd (hnew.symm.trans hsame) (by simp)

end ScopeGuard

/-! ## Plans -/

namespace AgentExecutor

variable (x : AgentExecutor D W G) (session : WorktreeSessionConfig) (plan : ScopedMutationPlan)

/-- A plan gets to its mutations, and the ones before go through and leave this host. -/
structure Reaches (before : List FileMutationSpec) (start host : Host D W G) : Prop where
  compliant : validateScopeCompliance plan.assignedRole plan.targetFiles = none
  limited : x.maxTurns session plan ≠ none
  applied : ∃ applied,
    Program.collect (x.guard session plan).applyMutation before start = (.ok applied, host)

/-- Every file that a plan touches is in the scope of its role, and a mutation of another file
raises, the plan with it, before anything is touched. -/
structure MutationsGoverned (start : Host D W G) : Prop where
  touched : ∀ effect ∈ (x.executePlan session plan start).2.effects, ∀ path ∈ effect.target,
    (x.guard session plan).Governs plan.assignedRole path
  refused : ∀ before mutation after host, plan.fileMutations = before ++ mutation :: after →
    x.Reaches session plan before start host → ScopeGuard.IsOperation mutation →
    ¬ (x.guard session plan).InScope plan.assignedRole mutation host.disk →
      ∃ fault host', (x.guard session plan).applyMutation mutation host = (.error fault, host') ∧
        x.executePlan session plan start = (.error fault, host') ∧ host'.effects = host.effects

/-- The checks of the executor cover every mutation that a plan gets to. -/
def CoversAll (start : Host D W G) : Prop :=
  ∀ before mutation after host, plan.fileMutations = before ++ mutation :: after →
    x.Reaches session plan before start host →
      (x.guard session plan).Covers plan.assignedRole mutation host.disk

lemma executePlan_effects {P : List (Effect D) → Prop} {start : Host D W G}
    (hstart : P start.effects)
    (hstep : ∀ before mutation after host, plan.fileMutations = before ++ mutation :: after →
      x.Reaches session plan before start host → P host.effects →
        P ((x.guard session plan).applyMutation mutation host).2.effects) :
    P (x.executePlan session plan start).2.effects := by
  unfold executePlan
  cases hcompliant : validateScopeCompliance plan.assignedRole plan.targetFiles with
  | some error => exact hstart
  | none =>
      cases hturns : x.maxTurns session plan with
      | none => exact hstart
      | some maxTurns =>
          dsimp only
          rw [Host.bind_effects rfl fun _ _ => rfl]
          refine Program.collect_induct (P := fun host : Host D W G => P host.effects) hstart ?_
          intro before mutation after applied host heq happlied hP
          exact hstep before mutation after host heq
            ⟨hcompliant, by simp [hturns], applied, happlied⟩ hP

lemma executePlan_error {before after : List FileMutationSpec} {mutation : FileMutationSpec}
    {start host host' : Host D W G} {fault : Fault}
    (hplan : plan.fileMutations = before ++ mutation :: after)
    (hreaches : x.Reaches session plan before start host)
    (h : (x.guard session plan).applyMutation mutation host = (.error fault, host')) :
    x.executePlan session plan start = (.error fault, host') := by
  obtain ⟨maxTurns, hturns⟩ := Option.ne_none_iff_exists'.mp hreaches.limited
  obtain ⟨applied, happlied⟩ := hreaches.applied
  unfold executePlan
  rw [hreaches.compliant, hturns, hplan]
  exact Program.bind_error (Program.collect_error happlied h)

/-- The mutations of a plan stay governed exactly when the checks of the executor cover each one
that the plan gets to. -/
theorem mutationsGoverned_iff (disk : W) (gate : G) :
    x.MutationsGoverned session plan { disk := disk, gate := gate } ↔
      x.CoversAll session plan { disk := disk, gate := gate } := by
  constructor
  · intro hgoverned before mutation after host hplan hreaches
    by_cases hop : ScopeGuard.IsOperation mutation
    · refine ((x.guard session plan).covers_iff hop host).mpr fun hout => ?_
      obtain ⟨fault, host', hfault, -, hsame⟩ :=
        hgoverned.refused before mutation after host hplan hreaches hop hout
      exact ⟨fault, host', hfault, hsame⟩
    · unfold ScopeGuard.IsOperation at hop
      exact ⟨fun hdelete => absurd (.inr (.inr hdelete)) hop,
        fun hwrite => absurd (hwrite.imp_right .inl) hop⟩
  · intro hcovers
    constructor
    · refine x.executePlan_effects session plan
        (P := fun effects => ∀ effect ∈ effects, ∀ path ∈ effect.target,
          (x.guard session plan).Governs plan.assignedRole path) (by simp) ?_
      intro before mutation after host hplan hreaches hsofar effect heffect
      exact ((x.guard session plan).touched_of_covers
        (hcovers before mutation after host hplan hreaches) heffect).elim (hsofar effect) id
    · intro before mutation after host hplan hreaches hop hout
      obtain ⟨fault, host', hfault, hsame⟩ := ((x.guard session plan).covers_iff hop host).mp
        (hcovers before mutation after host hplan hreaches) hout
      exact ⟨fault, host', hfault, x.executePlan_error session plan hplan hreaches hfault, hsame⟩

end AgentExecutor

/-! ## A protected file that a plan deletes -/

def sampleSession : WorktreeSessionConfig where
  sessionId := "wt_session_1"
  worktreePath := "/srv/wt1"
  branchName := "pipeline/T1"
  baseCommit := "c0ffee"

/-- A plan for one file of the backend, whose only mutation deletes the settings. -/
def deletingPlan : ScopedMutationPlan where
  taskId := "T1"
  planSummary := "Clean up the settings"
  targetFiles := ["core/app.py"]
  assignedRole := "BACKEND_INFRA_AGENT"
  fileMutations := [{ filePath := ".env", action := "delete" }]

def settingsPath : FilePath := ["srv", "wt1", ".env"].map toPyStr

/-- The executor deletes a protected file outside the mutable scope. -/
theorem protected_file_deleted :
    ¬ memoryExecutor.MutationsGoverned sampleSession deletingPlan
      { disk := [(settingsPath, toPyStr "KEY=1")], gate := () } := by
  intro hgoverned
  have htouched : settingsPath ∈ (memoryExecutor.executePlan sampleSession deletingPlan
      { disk := [(settingsPath, toPyStr "KEY=1")], gate := () }).2.effects.filterMap
        Effect.target := by
    decide +kernel
  obtain ⟨effect, heffect, htarget⟩ := List.mem_filterMap.mp htouched
  exact absurd (hgoverned.touched effect heffect settingsPath htarget).1 (by decide +kernel)

end AgentSystem.Executor
