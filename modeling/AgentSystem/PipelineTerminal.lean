import AgentSystem.PipelineGate

/-!
# Terminal stages of the pipeline

What later calls of the manager do to a result whose stage is `COMPLETED` or `FAILED`, and what a
call that raises leaves behind.
-/
namespace AgentSystem.Pipeline

open Programs

/-! ## Calls -/

/-- A call that works on the result of a task. -/
inductive ResultCall
  | submitPlan (task : String) (plan : ScopedMutationPlan)
  | runCommitteeDebate (task : String) (request : CodingTaskRequest)
      (draftPlan : Option ScopedMutationPlan)

def ResultCall.task : ResultCall → String
  | .submitPlan task _ => task
  | .runCommitteeDebate task _ _ => task

/-- A call of the manager. -/
inductive PipelineCall
  | startPipeline (request : CodingTaskRequest)
  | onResult (call : ResultCall)
  | executePipeline (task : String) (request : CodingTaskRequest) (plan : ScopedMutationPlan)

/-- The task for which the call makes a new result. -/
def PipelineCall.restarts : PipelineCall → Option String
  | .startPipeline request => some request.taskId
  | .onResult _ => none
  | .executePipeline _ request _ => some request.taskId

variable {W : Type}

namespace CodingPipelineManager

variable (manager : CodingPipelineManager W)

def perform : ResultCall → Run W Unit
  | .submitPlan task plan => manager.submitPlan task plan
  | .runCommitteeDebate task request draftPlan => do
      let _ ← manager.runCommitteeDebate task request draftPlan
      pure ()

def invoke : PipelineCall → Run W Unit
  | .startPipeline request => manager.startPipeline request
  | .onResult call => manager.perform call
  | .executePipeline task request plan => do
      let _ ← manager.executePipeline task request plan
      pure ()

/-- The state after some calls, whether they raise or not. -/
def afterCalls (s : Process W) (calls : List PipelineCall) : Process W :=
  calls.foldl (fun s call => (manager.invoke call s).2) s

/-- The debate that `execute_pipeline` runs, if it gets to one. -/
def debateMade (task : String) (request : CodingTaskRequest) (plan : ScopedMutationPlan)
    (s : Process W) : List (Process W × ResultCall) :=
  if request.enableCommittee then [(s, .runCommitteeDebate task request (some plan))] else []

/-- The plan that `execute_pipeline` submits, if it gets to it. -/
def planMade (task : String) (request : CodingTaskRequest) (plan : ScopedMutationPlan)
    (s : Process W) : List (Process W × ResultCall) :=
  match manager.debateGate task request plan s with
  | (.ok (some handed), s) => [(s, .submitPlan task handed)]
  | _ => []

/-- The calls on results that a call makes, each with the state in which it is made. -/
def callsMade : PipelineCall → Process W → List (Process W × ResultCall)
  | .startPipeline _, _ => []
  | .onResult call, s => [(s, call)]
  | .executePipeline task request plan, s =>
      match (do manager.startPipeline request; isStopped request.taskId) s with
      | (.ok false, s) => debateMade task request plan s ++ manager.planMade task request plan s
      | _ => []

/-! ## The properties -/

/-- A call on a result in a terminal stage leaves it in one, with nothing but terminal stages added
to its history, and it changes the status or the plan only together with such a stage. A call that
raises leaves the result as it was. -/
structure Absorbed (call : ResultCall) (s : Process W) : Prop where
  terminal : ∀ result, s.sessions call.task = some result →
    isTerminal result.currentStage = true →
    ∃ result', (manager.perform call s).2.sessions call.task = some result' ∧
      isTerminal result'.currentStage = true ∧
      ∃ added, result'.stageHistory = result.stageHistory ++ added ∧
        (∀ entry ∈ added, isTerminal entry.1 = true) ∧
        (added = [] → result'.status = result.status ∧ result'.mutationPlan = result.mutationPlan)
  raised : ∀ e s', manager.perform call s = (.error e, s') →
    s'.sessions call.task = s.sessions call.task

/-- Every call on a result, also one that `execute_pipeline` makes, is absorbed, and a call that
raises leaves every result that it does not replace as it was. -/
def Absorbing (s : Process W) (calls : List PipelineCall) : Prop :=
  ∀ before call after, calls = before ++ call :: after →
    (∀ made ∈ manager.callsMade call (manager.afterCalls s before),
      manager.Absorbed made.2 made.1) ∧
    ∀ e s', manager.invoke call (manager.afterCalls s before) = (.error e, s') →
      ∀ task, call.restarts ≠ some task →
        s'.sessions task = (manager.afterCalls s before).sessions task

/-- What `submit_plan` writes before it records a stage is in the result already. -/
def Written (plan : ScopedMutationPlan) (result : CodingPipelineResult) : Prop :=
  result.mutationPlan = some plan ∧
    ∀ message, manager.checkStopAndWaitGate plan.humanApproved plan.approvalToken = some message →
      result.status = .blocked ∧ result.errorMessage = some message

/-- The gate lets the plan through, and it is refused for its approver or for its scope. -/
def RefusedAfterGate (plan : ScopedMutationPlan) : Prop :=
  manager.checkStopAndWaitGate plan.humanApproved plan.approvalToken = none ∧
    (manager.selfApproved plan = true ∨
      validateRoleScope plan.assignedRole plan.targetFiles ≠ none)

/-- The text with which a debate is recorded. -/
def formingDetail (request : CodingTaskRequest) : String :=
  s!"Forming specialist committee for deliberation ({request.debateRounds} round(s))."

/-- The text with which its end is recorded. -/
def concludedDetail (record : CommitteeDebateRecord) : String :=
  let scorecard := record.consensusScorecard
  s!"Debate concluded. Composite: {fixed2 scorecard.compositeScore} ({scorecard.decision}). " ++
    s!"Members: " ++ ", ".intercalate record.committeeMembers

/-- The world in which the committee debates. -/
def debateWorld (task : String) (request : CodingTaskRequest) (s : Process W) : W :=
  (manager.recordStage task .committeeDebate (formingDetail request)
    (s.setResult task (s.result task))).2.world

/-- A plan that is submitted for a terminal result is refused behind the gate, or the result has it
already. A debate is for a terminal result, or it does not raise. -/
def Harmless : ResultCall → Process W → Prop
  | .submitPlan task plan, s => ∀ result, s.sessions task = some result →
      isTerminal result.currentStage = true →
      manager.RefusedAfterGate plan ∨ manager.Written plan result
  | .runCommitteeDebate task request draftPlan, s =>
      isTerminal (s.result task).currentStage = true ∨
        ∀ e world, runDebate manager.text manager.mesh request
          (evaluateCommittee manager.text request) draftPlan
          (manager.debateWorld task request s) ≠ (.error e, world)

/-! ## Recorded stages -/

section Stages

variable {s : Process W} {task : String} {result : CodingPipelineResult}

lemma result_of_session (h : s.sessions task = some result) : s.result task = result := by
  rw [Process.result, h, Option.getD_some]

lemma read_result (h : s.sessions task = some result) :
    (Program.read fun s => s.result task : Run W CodingPipelineResult) s = (.ok result, s) := by
  rw [Program.read, result_of_session h]

lemma recordEvent_apply (taskId : String) (stage : PipelineStage) (detail : String)
    (s : Process W) :
    ∃ world, manager.recordEvent taskId stage detail s = (.ok (), { s with world := world }) := by
  unfold recordEvent
  cases manager.auditLedger with
  | none => exact ⟨s.world, rfl⟩
  | some record =>
      dsimp only
      rw [Program.bind_apply]
      unfold Program.attempt call Program.within
      dsimp only
      generalize record _ taskId detail s.world = answer
      obtain ⟨answer, world⟩ := answer
      cases answer <;> exact ⟨world, rfl⟩

/-- A terminal stage is not followed by another one: nothing is recorded. -/
lemma recordStage_refused (hsession : s.sessions task = some result)
    (hterminal : isTerminal result.currentStage = true) (stage : PipelineStage)
    (hstage : isTerminal stage = false) (detail : String) :
    ∃ e, manager.recordStage task stage detail s = (.error e, s) := by
  refine ⟨s!"Illegal state transition: cannot re-enter active stage '{stage.value}' from " ++
    s!"terminal stage '{result.currentStage.value}'", ?_⟩
  rw [recordStage, Program.bind_ok (read_result hsession), hterminal, hstage]
  rfl

/-- The result when a stage is recorded. -/
def recorded (result : CodingPipelineResult) (stage : PipelineStage) (detail : String) :
    CodingPipelineResult :=
  { result with
    currentStage := stage
    stageHistory := result.stageHistory ++ [(stage, detail)] }

lemma recordStage_recorded (hsession : s.sessions task = some result) (stage : PipelineStage)
    (h : isTerminal result.currentStage = false ∨ isTerminal stage = true) (detail : String) :
    ∃ s', manager.recordStage task stage detail s = (.ok (), s') ∧
      s'.sessions = Function.update s.sessions task (some (recorded result stage detail)) := by
  have hgo : (isTerminal result.currentStage && !isTerminal stage) = false := by
    rcases h with h | h <;> simp [h]
  obtain ⟨world, hevent⟩ := manager.recordEvent_apply result.taskId stage detail
    (s.setResult task (recorded result stage detail))
  refine ⟨{ s.setResult task (recorded result stage detail) with world := world }, ?_, rfl⟩
  rw [recordStage, Program.bind_ok (read_result hsession), hgo, if_neg Bool.false_ne_true, ← hevent, setFields,
    Program.bind_apply, Program.update, result_of_session hsession]
  rfl

/-- The result when a status and a message are set. -/
def stopped (result : CodingPipelineResult) (status : VerificationStatus) (message : String) :
    CodingPipelineResult :=
  { result with status := status, errorMessage := some message }

lemma setFields_apply (hsession : s.sessions task = some result)
    (f : CodingPipelineResult → CodingPipelineResult) :
    (setFields task f : Run W Unit) s = (.ok (), s.setResult task (f result)) := by
  rw [setFields, Program.update, result_of_session hsession]

lemma sessions_setResult (s : Process W) (task : String) (result : CodingPipelineResult) :
    (s.setResult task result).sessions task = some result := Function.update_self _ _ _

/-- The fields are set before the stage is refused. -/
lemma stop_refused (hsession : s.sessions task = some result)
    (hterminal : isTerminal result.currentStage = true) (stage : PipelineStage)
    (hstage : isTerminal stage = false) (status : VerificationStatus) (message : String) :
    ∃ e, manager.stop task status message stage s =
      (.error e, s.setResult task (stopped result status message)) := by
  obtain ⟨e, he⟩ := manager.recordStage_refused (sessions_setResult s task
    (stopped result status message)) hterminal stage hstage message
  refine ⟨e, ?_⟩
  rw [stop, Program.bind_ok (setFields_apply hsession _)]
  exact he

lemma stop_recorded (hsession : s.sessions task = some result) (stage : PipelineStage)
    (h : isTerminal result.currentStage = false ∨ isTerminal stage = true)
    (status : VerificationStatus) (message : String) :
    ∃ s', manager.stop task status message stage s = (.ok (), s') ∧
      s'.sessions = Function.update s.sessions task
        (some (recorded (stopped result status message) stage message)) := by
  obtain ⟨s', hrun, hsessions⟩ := manager.recordStage_recorded (sessions_setResult s task
    (stopped result status message)) stage h message
  refine ⟨s', ?_, ?_⟩
  · rw [stop, Program.bind_ok (setFields_apply hsession _)]
    exact hrun
  · rw [hsessions, Process.setResult, Function.update_idem]

end Stages

/-! ## Submitted plans -/

section Plans

variable {s : Process W} {task : String} {result : CodingPipelineResult}
  {plan : ScopedMutationPlan}

/-- The result when `submit_plan` comes to record a stage behind the gate or in front of it. -/
def submitted (plan : ScopedMutationPlan) (result : CodingPipelineResult) :
    CodingPipelineResult :=
  match manager.checkStopAndWaitGate plan.humanApproved plan.approvalToken with
  | some message => stopped { result with mutationPlan := some plan } .blocked message
  | none => { result with mutationPlan := some plan }

lemma submitted_eq_iff : manager.submitted plan result = result ↔ manager.Written plan result := by
  rw [submitted, Written]
  cases manager.checkStopAndWaitGate plan.humanApproved plan.approvalToken with
  | some message =>
      constructor
      · intro heq
        refine ⟨by rw [← heq]; rfl, fun message' hmessage => ?_⟩
        cases hmessage
        exact ⟨by rw [← heq]; rfl, by rw [← heq]; rfl⟩
      · rintro ⟨hplan, hmessage⟩
        obtain ⟨hstatus, herror⟩ := hmessage message rfl
        cases result
        cases hplan
        cases hstatus
        cases herror
        rfl
  | none =>
      constructor
      · intro heq
        exact ⟨by rw [← heq], nofun⟩
      · rintro ⟨hplan, -⟩
        cases result
        cases hplan
        rfl

lemma submitPlan_unknown (h : s.sessions task = none) (plan : ScopedMutationPlan) :
    ∃ e, manager.submitPlan task plan s = (.error e, s) := by
  refine ⟨s!"Task '{task}' not found in active pipeline sessions.", ?_⟩
  have hread : (Program.read fun s => s.sessions task :
      Run W (Option CodingPipelineResult)) s = (.ok none, s) := by rw [Program.read, h]
  rw [submitPlan, Program.bind_ok hread]
  rfl

/-- `submit_plan` behind the assignment of the plan. -/
def judge (task : String) (plan : ScopedMutationPlan) : Run W Unit :=
  match manager.checkStopAndWaitGate plan.humanApproved plan.approvalToken with
  | some message => manager.stop task .blocked message .planAndGate
  | none =>
      if manager.selfApproved plan then
        manager.stop task .blocked
          (s!"Self-approval rejected: Assigned role '{plan.assignedRole}' cannot approve its " ++
            "own plan.") .failed
      else
        match validateRoleScope plan.assignedRole plan.targetFiles with
        | some error =>
            manager.stop task .blocked s!"Plan role scope violation: {error}" .failed
        | none =>
            let token := plan.approvalToken.getD ""
            let shown := if token = "" then "VERIFIED" else token
            manager.recordStage task .planAndGate s!"Plan approved by human (Token: {shown})."

lemma submitPlan_apply (h : s.sessions task = some result) :
    manager.submitPlan task plan s =
      manager.judge task plan (s.setResult task { result with mutationPlan := some plan }) := by
  have hread : (Program.read fun s => s.sessions task :
      Run W (Option CodingPipelineResult)) s = (.ok (some result), s) := by rw [Program.read, h]
  rw [submitPlan, Program.bind_ok hread]
  change (setFields task _ >>= _) s = _
  rw [Program.bind_ok (setFields_apply h _)]
  rfl

/-- A plan that is not refused behind the gate raises for a terminal result. -/
lemma submitPlan_raises (h : s.sessions task = some result)
    (hterminal : isTerminal result.currentStage = true)
    (hrefused : ¬manager.RefusedAfterGate plan) :
    ∃ e s', manager.submitPlan task plan s = (.error e, s') ∧
      s'.sessions = Function.update s.sessions task (some (manager.submitted plan result)) := by
  rw [manager.submitPlan_apply h, judge, submitted]
  rw [RefusedAfterGate] at hrefused
  cases hgate : manager.checkStopAndWaitGate plan.humanApproved plan.approvalToken with
  | some message =>
      obtain ⟨e, he⟩ := manager.stop_refused (sessions_setResult s task
        { result with mutationPlan := some plan }) hterminal .planAndGate rfl .blocked message
      refine ⟨e, _, he, ?_⟩
      rw [Process.setResult, Process.setResult, Function.update_idem]
  | none =>
      rw [not_and, not_or, not_not] at hrefused
      obtain ⟨hself, hscope⟩ := hrefused hgate
      dsimp only
      rw [if_neg hself, hscope]
      obtain ⟨e, he⟩ := manager.recordStage_refused (sessions_setResult s task
        { result with mutationPlan := some plan }) hterminal .planAndGate rfl _
      exact ⟨e, _, he, rfl⟩

/-- Every other plan is recorded, a refused one with the failed stage. -/
lemma submitPlan_returns (h : s.sessions task = some result) (plan : ScopedMutationPlan)
    (hok : isTerminal result.currentStage = false ∨ manager.RefusedAfterGate plan) :
    ∃ s' result' stage detail, manager.submitPlan task plan s = (.ok (), s') ∧
      s'.sessions = Function.update s.sessions task (some (recorded result' stage detail)) ∧
      result'.stageHistory = result.stageHistory ∧
      (manager.RefusedAfterGate plan → isTerminal stage = true) := by
  have hsession := sessions_setResult s task { result with mutationPlan := some plan }
  rw [manager.submitPlan_apply h, judge]
  cases hgate : manager.checkStopAndWaitGate plan.humanApproved plan.approvalToken with
  | some message =>
      have hopen : isTerminal result.currentStage = false := by
        refine hok.resolve_right fun hrefused => ?_
        rw [RefusedAfterGate, hgate] at hrefused
        cases hrefused.1
      obtain ⟨s', hrun, hsessions⟩ := manager.stop_recorded hsession .planAndGate (.inl hopen)
        .blocked message
      rw [Process.setResult, Function.update_idem] at hsessions
      refine ⟨s', _, _, _, hrun, hsessions, rfl, fun hrefused => ?_⟩
      rw [RefusedAfterGate, hgate] at hrefused
      cases hrefused.1
  | none =>
      by_cases hself : manager.selfApproved plan = true
      · dsimp only
        rw [if_pos hself]
        obtain ⟨s', hrun, hsessions⟩ := manager.stop_recorded hsession .failed (.inr rfl)
          .blocked _
        rw [Process.setResult, Function.update_idem] at hsessions
        exact ⟨s', _, _, _, hrun, hsessions, rfl, fun _ => rfl⟩
      · dsimp only
        rw [if_neg hself]
        cases hscope : validateRoleScope plan.assignedRole plan.targetFiles with
        | some error =>
            obtain ⟨s', hrun, hsessions⟩ := manager.stop_recorded hsession .failed (.inr rfl)
              .blocked s!"Plan role scope violation: {error}"
            rw [Process.setResult, Function.update_idem] at hsessions
            exact ⟨s', _, _, _, hrun, hsessions, rfl, fun _ => rfl⟩
        | none =>
            have hnot : ¬manager.RefusedAfterGate plan := by
              rintro ⟨-, hself' | hscope'⟩
              · exact hself hself'
              · exact hscope' hscope
            obtain ⟨s', hrun, hsessions⟩ := manager.recordStage_recorded hsession .planAndGate
              (.inl (hok.resolve_right hnot)) _
            rw [Process.setResult, Function.update_idem] at hsessions
            exact ⟨s', _, _, _, hrun, hsessions, rfl, fun hrefused => absurd hrefused hnot⟩

end Plans

/-- A submitted plan is absorbed exactly when it is harmless. -/
lemma absorbed_submitPlan (task : String) (plan : ScopedMutationPlan) (s : Process W) :
    manager.Absorbed (.submitPlan task plan) s ↔ manager.Harmless (.submitPlan task plan) s := by
  constructor
  · intro habsorbed result hsession hterminal
    by_cases hrefused : manager.RefusedAfterGate plan
    · exact .inl hrefused
    · obtain ⟨e, s', hrun, hsessions⟩ := manager.submitPlan_raises hsession hterminal hrefused
      have hsame := habsorbed.raised e s' hrun
      rw [hsessions] at hsame
      change Function.update s.sessions task _ task = s.sessions task at hsame
      rw [Function.update_self, hsession] at hsame
      exact .inr (manager.submitted_eq_iff.mp (Option.some.inj hsame))
  · intro hharmless
    cases hsession : s.sessions task with
    | none =>
        obtain ⟨e, hrun⟩ := manager.submitPlan_unknown hsession plan
        refine ⟨fun result hresult => ?_, fun e' s' hrun' => ?_⟩
        · rw [show s.sessions task = some result from hresult] at hsession
          cases hsession
        · rw [show manager.submitPlan task plan s = (.error e', s') from hrun'] at hrun
          rw [(Prod.mk.inj hrun).2]
    | some result =>
        by_cases hraises : isTerminal result.currentStage = true ∧ ¬manager.RefusedAfterGate plan
        · obtain ⟨hterminal, hrefused⟩ := hraises
          have hwritten := (hharmless result hsession hterminal).resolve_left hrefused
          obtain ⟨e, s', hrun, hsessions⟩ :=
            manager.submitPlan_raises hsession hterminal hrefused
          rw [manager.submitted_eq_iff.mpr hwritten, ← hsession, Function.update_eq_self]
            at hsessions
          have hstate : (manager.perform (.submitPlan task plan) s).2 = s' := congrArg Prod.snd hrun
          refine ⟨fun result' hresult hterminal' => ?_, fun e' s'' hrun' => ?_⟩
          · refine ⟨result', ?_, hterminal', [], (List.append_nil _).symm, nofun, fun _ => ⟨rfl, rfl⟩⟩
            rw [hstate, hsessions]
            exact hresult
          · rw [show manager.submitPlan task plan s = (.error e', s'') from hrun'] at hrun
            rw [(Prod.mk.inj hrun).2, hsessions]
        · have hok : isTerminal result.currentStage = false ∨ manager.RefusedAfterGate plan := by
            by_cases hterminal : isTerminal result.currentStage = true
            · exact .inr (not_not.mp fun hrefused => hraises ⟨hterminal, hrefused⟩)
            · exact .inl (Bool.eq_false_of_not_eq_true hterminal)
          obtain ⟨s', result', stage, detail, hrun, hsessions, hhistory, hstage⟩ :=
            manager.submitPlan_returns hsession plan hok
          have hstate : (manager.perform (.submitPlan task plan) s).2 = s' := congrArg Prod.snd hrun
          refine ⟨fun old hold hterminal => ?_, fun e' s'' hrun' => ?_⟩
          · obtain rfl : result = old := Option.some.inj (hsession.symm.trans hold)
            have hlast := hstage (hok.resolve_left (by simp [hterminal]))
            refine ⟨recorded result' stage detail, ?_, hlast, [(stage, detail)], ?_, ?_, nofun⟩
            · rw [hstate, hsessions]
              exact Function.update_self _ _ _
            · rw [← hhistory]
              rfl
            · intro entry hentry
              rw [List.mem_singleton.mp hentry]
              exact hlast
          · rw [show manager.submitPlan task plan s = (.error e', s'') from hrun'] at hrun
            cases (Prod.mk.inj hrun).1

/-! ## Debates -/

section Debates

variable {s : Process W} {task : String} (request : CodingTaskRequest)
  (draftPlan : Option ScopedMutationPlan)

/-- The result with the debate and the plan that came out of it. -/
def debated (result : CodingPipelineResult) (record : CommitteeDebateRecord) :
    CodingPipelineResult :=
  { recorded result .committeeDebate (formingDetail request) with
    committeeDebate := some record
    mutationPlan := some record.synthesizedMutationPlan }

/-- A debate on a terminal result is refused before anything is written. -/
lemma runCommitteeDebate_refused (h : isTerminal (s.result task).currentStage = true) :
    ∃ e s', manager.runCommitteeDebate task request draftPlan s = (.error e, s') ∧
      s'.sessions = s.sessions := by
  have hsession : s.sessions task = some (s.result task) := by
    cases hresult : s.sessions task with
    | none =>
        rw [Process.result, hresult] at h
        cases h
    | some result => rw [result_of_session hresult]
  obtain ⟨e, he⟩ := manager.recordStage_refused (sessions_setResult s task (s.result task)) h
    .committeeDebate rfl (formingDetail request)
  refine ⟨e, s.setResult task (s.result task), ?_, ?_⟩
  · rw [runCommitteeDebate, Program.bind_apply]
    exact Program.bind_error he
  · rw [Process.setResult, ← hsession, Function.update_eq_self]

/-- A debate on another result is recorded; it raises where the committee does, and the stage that
was recorded stays. -/
lemma runCommitteeDebate_open (h : isTerminal (s.result task).currentStage = false) :
    (∃ e s', manager.runCommitteeDebate task request draftPlan s = (.error e, s') ∧
        s'.sessions = Function.update s.sessions task
          (some (recorded (s.result task) .committeeDebate (formingDetail request))) ∧
        ∃ world, runDebate manager.text manager.mesh request
          (evaluateCommittee manager.text request) draftPlan
          (manager.debateWorld task request s) = (.error e, world)) ∨
      ∃ record s' result', manager.runCommitteeDebate task request draftPlan s = (.ok record, s') ∧
        s'.sessions = Function.update s.sessions task (some result') ∧
        isTerminal result'.currentStage = false ∧
        ∃ world, runDebate manager.text manager.mesh request
          (evaluateCommittee manager.text request) draftPlan
          (manager.debateWorld task request s) = (.ok record, world) := by
  obtain ⟨s₁, hrecord, hsessions⟩ := manager.recordStage_recorded
    (sessions_setResult s task (s.result task)) .committeeDebate (.inl h) (formingDetail request)
  rw [Process.setResult, Function.update_idem] at hsessions
  have hworld : manager.debateWorld task request s = s₁.world := by
    rw [debateWorld, hrecord]
  rw [hworld]
  rw [runCommitteeDebate, Program.bind_apply]
  change (∃ e s', (manager.recordStage task .committeeDebate (formingDetail request) >>= _)
    (s.setResult task (s.result task)) = _ ∧ _) ∨ ∃ record s' result', (manager.recordStage task
    .committeeDebate (formingDetail request) >>= _) (s.setResult task (s.result task)) = _ ∧ _
  rw [Program.bind_ok hrecord, Program.bind_apply]
  unfold call Program.within
  cases hdebate : runDebate manager.text manager.mesh request
      (evaluateCommittee manager.text request) draftPlan s₁.world with
  | mk answer world =>
      cases answer with
      | error e =>
          exact .inl ⟨e, _, rfl, hsessions, world, rfl⟩
      | ok record =>
          right
          dsimp only
          have hsession : ({ s₁ with world := world } : Process W).sessions task =
              some (recorded (s.result task) .committeeDebate (formingDetail request)) := by
            change s₁.sessions task = _
            rw [hsessions, Function.update_self]
          obtain ⟨s₂, hlast, hsessions₂⟩ := manager.recordStage_recorded
            (sessions_setResult { s₁ with world := world } task
              (debated request (s.result task) record)) .committeeDebate (.inl rfl)
            (concludedDetail record)
          rw [Program.bind_ok (setFields_apply hsession _)]
          refine ⟨record, s₂, recorded (debated request (s.result task) record) .committeeDebate
            (concludedDetail record), (Program.bind_ok hlast).trans rfl, ?_, rfl, world, rfl⟩
          rw [hsessions₂, Process.setResult, Function.update_idem]
          change Function.update s₁.sessions task _ = _
          rw [hsessions, Function.update_idem]

end Debates

lemma perform_debate_error {s s' : Process W} {task : String} {request : CodingTaskRequest}
    {draftPlan : Option ScopedMutationPlan} {e : String}
    (h : manager.runCommitteeDebate task request draftPlan s = (.error e, s')) :
    manager.perform (.runCommitteeDebate task request draftPlan) s = (.error e, s') :=
  Program.bind_error h

lemma perform_debate_ok {s s' : Process W} {task : String} {request : CodingTaskRequest}
    {draftPlan : Option ScopedMutationPlan} {record : CommitteeDebateRecord}
    (h : manager.runCommitteeDebate task request draftPlan s = (.ok record, s')) :
    manager.perform (.runCommitteeDebate task request draftPlan) s = (.ok (), s') :=
  Program.bind_ok h

/-- A debate is absorbed exactly when it is harmless. -/
lemma absorbed_runCommitteeDebate (task : String) (request : CodingTaskRequest)
    (draftPlan : Option ScopedMutationPlan) (s : Process W) :
    manager.Absorbed (.runCommitteeDebate task request draftPlan) s ↔
      manager.Harmless (.runCommitteeDebate task request draftPlan) s := by
  by_cases hterminal : isTerminal (s.result task).currentStage = true
  · refine iff_of_true ?_ (.inl hterminal)
    obtain ⟨e, s', hrun, hsessions⟩ :=
      manager.runCommitteeDebate_refused request draftPlan hterminal
    have hperform := manager.perform_debate_error hrun
    refine ⟨fun result hresult hterm => ?_, fun e' s'' hrun' => ?_⟩
    · refine ⟨result, ?_, hterm, [], (List.append_nil _).symm, nofun, fun _ => ⟨rfl, rfl⟩⟩
      rw [hperform, hsessions]
      exact hresult
    · rw [hrun'] at hperform
      rw [(Prod.mk.inj hperform).2, hsessions]
  · have hopen := Bool.eq_false_of_not_eq_true hterminal
    rw [Harmless, or_iff_right hterminal]
    rcases manager.runCommitteeDebate_open request draftPlan hopen with
      ⟨e, s', hrun, hsessions, world, hdebate⟩ |
        ⟨record, s', result', hrun, hsessions, -, world, hdebate⟩
    · -- The stage that was recorded stays behind.
      refine iff_of_false (fun habsorbed => ?_) fun hreturns => hreturns e world hdebate
      have hsame := habsorbed.raised e s' (manager.perform_debate_error hrun)
      change s'.sessions task = s.sessions task at hsame
      rw [hsessions, Function.update_self] at hsame
      have hresult : s.result task =
          recorded (s.result task) .committeeDebate (formingDetail request) :=
        result_of_session hsame.symm
      have hhistory := congrArg (fun r => r.stageHistory.length) hresult
      simp [recorded] at hhistory
    · refine iff_of_true ⟨fun result hresult hterm => ?_, fun e' s'' hrun' => ?_⟩
        fun e world' hraises => ?_
      · change s.sessions task = some result at hresult
        rw [result_of_session hresult] at hopen
        rw [hopen] at hterm
        cases hterm
      · rw [manager.perform_debate_ok hrun] at hrun'
        cases (Prod.mk.inj hrun').1
      · rw [hraises] at hdebate
        cases (Prod.mk.inj hdebate).1

lemma absorbed_iff (call : ResultCall) (s : Process W) :
    manager.Absorbed call s ↔ manager.Harmless call s := by
  cases call with
  | submitPlan task plan => exact manager.absorbed_submitPlan task plan s
  | runCommitteeDebate task request draftPlan =>
      exact manager.absorbed_runCommitteeDebate task request draftPlan s

/-! ## Other results -/

section Others

variable {t task : String} (hne : t ≠ task)
include hne

lemma setFields_others (f : CodingPipelineResult → CodingPipelineResult) :
    Leaves (fun s : Process W => s.sessions t) (setFields task f) := fun _ =>
  Keeps.update fun s hs => (Function.update_of_ne hne _ s.sessions).trans hs

lemma recordStage_others (stage : PipelineStage) (detail : String) :
    Leaves (fun s => s.sessions t) (manager.recordStage task stage detail) := by
  intro v
  refine Keeps.bind (Keeps.read _) fun result => Keeps.split (Keeps.raise _) ?_
  refine Keeps.bind (setFields_others hne _ v) fun _ => ?_
  exact manager.recordEvent_keeps (fun _ _ h => h) _ stage detail

lemma stop_others (status : VerificationStatus) (message : String) (stage : PipelineStage) :
    Leaves (fun s => s.sessions t) (manager.stop task status message stage) := fun v =>
  Keeps.bind (setFields_others hne _ v) fun _ => manager.recordStage_others hne stage message v

lemma runCommitteeDebate_others (request : CodingTaskRequest)
    (draftPlan : Option ScopedMutationPlan) :
    Leaves (fun s => s.sessions t) (manager.runCommitteeDebate task request draftPlan) := by
  intro v
  refine Keeps.bind (setFields_others hne (fun r => r) v) fun _ => ?_
  refine Keeps.bind (manager.recordStage_others hne _ _ v) fun _ => ?_
  refine Keeps.bind (call_keeps (fun _ _ h => h) _) fun record => ?_
  refine Keeps.bind (setFields_others hne _ v) fun _ => ?_
  exact Keeps.bind (manager.recordStage_others hne _ _ v) fun _ => Keeps.ret record

lemma submitPlan_others (plan : ScopedMutationPlan) :
    Leaves (fun s => s.sessions t) (manager.submitPlan task plan) := by
  intro v
  refine Keeps.bind (Keeps.read _) fun session => Keeps.split (Keeps.raise _) ?_
  refine Keeps.bind (setFields_others hne _ v) fun _ => ?_
  split
  · exact manager.stop_others hne _ _ _ v
  · refine Keeps.split (manager.stop_others hne _ _ _ v) ?_
    split
    · exact manager.stop_others hne _ _ _ v
    · exact manager.recordStage_others hne _ _ v

end Others

lemma perform_others {t : String} (call : ResultCall) (hne : t ≠ call.task) :
    Leaves (fun s => s.sessions t) (manager.perform call) := by
  cases call with
  | submitPlan task plan => exact manager.submitPlan_others hne plan
  | runCommitteeDebate task request draftPlan =>
      exact fun v => Keeps.bind (manager.runCommitteeDebate_others hne request draftPlan v)
        fun _ => Keeps.ret ()

lemma startPipeline_others {t : String} {request : CodingTaskRequest} (hne : t ≠ request.taskId) :
    Leaves (fun s => s.sessions t) (manager.startPipeline request) := by
  intro v
  refine Keeps.bind (setFields_others hne (fun _ => newResult request.taskId) v) fun _ => ?_
  refine Keeps.bind (manager.recordStage_others hne _ _ v) fun _ => ?_
  refine Keeps.bind (Keeps.read _) fun blocked => ?_
  split
  · exact manager.stop_others hne _ _ _ v
  · split
    · exact manager.stop_others hne _ _ _ v
    · exact manager.recordStage_others hne _ _ v

/-! ## Pipelines that raise -/

/-- Recording a terminal stage does not raise. -/
lemma recordStage_terminal (task : String) (stage : PipelineStage)
    (hstage : isTerminal stage = true) (detail : String) (s : Process W) :
    ∃ s', manager.recordStage task stage detail s = (.ok (), s') := by
  have hread : (Program.read fun s => s.result task : Run W CodingPipelineResult) s =
      (.ok (s.result task), s) := rfl
  have hgo : (isTerminal (s.result task).currentStage && !isTerminal stage) = false := by
    simp [hstage]
  obtain ⟨world, hevent⟩ := manager.recordEvent_apply (s.result task).taskId stage detail
    (s.setResult task (recorded (s.result task) stage detail))
  refine ⟨{ s.setResult task (recorded (s.result task) stage detail) with world := world }, ?_⟩
  rw [recordStage, Program.bind_ok hread, hgo, if_neg Bool.false_ne_true]
  exact hevent

lemma stop_terminal (task : String) (status : VerificationStatus) (message : String)
    (stage : PipelineStage) (hstage : isTerminal stage = true) (s : Process W) :
    ∃ s', manager.stop task status message stage s = (.ok (), s') :=
  manager.recordStage_terminal task stage hstage message _

/-- What `execute_pipeline` does once the plan is submitted. -/
lemma finish_returns (task : String) (request : CodingTaskRequest) (plan : ScopedMutationPlan)
    (s : Process W) :
    ∃ s', (do
      let blocked ← isStopped task
      if blocked then pure task
      else do
        Program.handle (manager.runStages task request plan) fun exc => do
          setFields task fun r => { r with status := .fail, errorMessage := some exc }
          manager.recordStage task .failed s!"Pipeline execution failed: {exc}"
        pure task : Run W String) s = (.ok task, s') := by
  have hread : (isStopped task : Run W Bool) s = (.ok ((s.result task).status = .blocked ||
      (s.result task).currentStage = .failed), s) := rfl
  rw [Program.bind_ok hread]
  split_ifs with hstopped
  · exact ⟨s, rfl⟩
  · cases hstages : manager.runStages task request plan s with
    | mk answer s₁ =>
        cases answer with
        | ok _ =>
            exact ⟨s₁, Program.bind_ok (Program.handle_ok hstages)⟩
        | error exc =>
            obtain ⟨s₂, hlast⟩ := manager.recordStage_terminal task .failed rfl
              s!"Pipeline execution failed: {exc}"
              (s₁.setResult task { s₁.result task with status := .fail, errorMessage := some exc })
            exact ⟨s₂, Program.bind_ok (a := ()) ((Program.handle_error hstages).trans hlast)⟩

/-- Behind a debate the plan of the committee is submitted for an open result. -/
lemma debateGate_open {task : String} {request : CodingTaskRequest} {plan handed : ScopedMutationPlan}
    {s s' : Process W} (hcommittee : request.enableCommittee = true)
    (h : manager.debateGate task request plan s = (.ok (some handed), s')) :
    ∃ result, s'.sessions task = some result ∧ isTerminal result.currentStage = false := by
  rw [debateGate, if_pos hcommittee] at h
  obtain ⟨record, s₁, hdebate, hrest⟩ := Program.bind_eq_ok h
  have hopen : isTerminal (s.result task).currentStage = false := by
    by_contra hterminal
    obtain ⟨e, s'', hrun, -⟩ := manager.runCommitteeDebate_refused request (some plan)
      (Bool.eq_true_of_not_eq_false hterminal)
    rw [hdebate] at hrun
    cases (Prod.mk.inj hrun).1
  rcases manager.runCommitteeDebate_open request (some plan) hopen with
    ⟨e, s'', hrun, -⟩ | ⟨record', s'', result, hrun, hsessions, hstage, -⟩
  · rw [hdebate] at hrun
    cases (Prod.mk.inj hrun).1
  · obtain ⟨-, rfl⟩ := Prod.mk.inj (hdebate.symm.trans hrun)
    dsimp only at hrest
    split_ifs at hrest with hsecurity
    · obtain ⟨_, s₂, -, hpure⟩ := Program.bind_eq_ok hrest
      cases (Prod.mk.inj hpure).1
    · have hsession : s₁.sessions task = some result := by rw [hsessions, Function.update_self]
      rw [Program.bind_ok (setFields_apply hsession _)] at hrest
      obtain ⟨-, rfl⟩ := Prod.mk.inj hrest
      exact ⟨_, sessions_setResult s₁ task _, hstage⟩

/-- What raises in front of the plan is the debate. -/
lemma debateGate_error {task : String} {request : CodingTaskRequest} {plan : ScopedMutationPlan}
    {s s' : Process W} {e : String} (h : manager.debateGate task request plan s = (.error e, s')) :
    request.enableCommittee = true ∧
      manager.runCommitteeDebate task request (some plan) s = (.error e, s') := by
  rw [debateGate] at h
  split_ifs at h with hcommittee
  · refine ⟨hcommittee, ?_⟩
    cases hdebate : manager.runCommitteeDebate task request (some plan) s with
    | mk answer s₁ =>
        cases answer with
        | error e' =>
            rw [Program.bind_error hdebate] at h
            obtain ⟨he, rfl⟩ := Prod.mk.inj h
            rw [Except.error.inj he]
        | ok record =>
            rw [Program.bind_ok hdebate] at h
            dsimp only at h
            split_ifs at h with hsecurity
            · obtain ⟨s₂, hstop⟩ := manager.stop_terminal request.taskId .blocked
                ("Committee debate rejected task due to critical security objection: " ++
                  "; ".intercalate record.consensusScorecard.dissentingOpinions) .failed rfl s₁
              rw [Program.bind_ok hstop] at h
              cases (Prod.mk.inj h).1
            · cases (Prod.mk.inj h).1
  · cases (Prod.mk.inj h).1

/-- A call that is absorbed and raises leaves every result as it was. -/
lemma Absorbed.sessions {manager : CodingPipelineManager W} {call : ResultCall} {s s' : Process W}
    {e : String} (habsorbed : manager.Absorbed call s)
    (h : manager.perform call s = (.error e, s')) (t : String) :
    s'.sessions t = s.sessions t := by
  by_cases ht : t = call.task
  · rw [ht]
    exact habsorbed.raised e s' h
  · have hframe := Keeps.final (manager.perform_others call ht (s.sessions t)) (s := s) rfl
    rwa [h] at hframe

/-- Where every call on a result is absorbed, a pipeline that raises has changed no result but the
one that it has started. -/
lemma executePipeline_raised {task : String} {request : CodingTaskRequest}
    {plan : ScopedMutationPlan} {s s' : Process W} {e : String}
    (habsorbed : ∀ made ∈ manager.callsMade (.executePipeline task request plan) s,
      manager.Absorbed made.2 made.1)
    (h : manager.executePipeline task request plan s = (.error e, s')) {t : String}
    (ht : t ≠ request.taskId) : s'.sessions t = s.sessions t := by
  rw [executePipeline] at h
  rw [callsMade] at habsorbed
  have hframe := Keeps.final (manager.startPipeline_others ht (s.sessions t)) (s := s) rfl
  rcases hstart : manager.startPipeline request s with ⟨⟨e'⟩ | ⟨⟩, s₁⟩
  · rw [Program.bind_error hstart] at h
    rw [hstart] at hframe
    rw [← (Prod.mk.inj h).2]
    exact hframe
  rw [hstart] at hframe
  rw [← hframe]
  rw [Program.bind_ok hstart] at h habsorbed
  have hread : (isStopped request.taskId : Run W Bool) s₁ =
      (.ok ((s₁.result request.taskId).status = .blocked ||
        (s₁.result request.taskId).currentStage = .failed), s₁) := rfl
  rw [Program.bind_ok hread] at h
  rw [hread] at habsorbed
  cases hstopped : ((s₁.result request.taskId).status = .blocked ||
      (s₁.result request.taskId).currentStage = .failed : Bool) with
  | true =>
      rw [hstopped] at h
      cases (Prod.mk.inj h).1
  | false =>
      rw [hstopped] at h habsorbed
      rw [if_neg Bool.false_ne_true] at h
      dsimp only at habsorbed ⊢
      rcases hgate : manager.debateGate task request plan s₁ with
        ⟨⟨e'⟩ | ⟨⟨⟩ | ⟨handed⟩⟩, s₂⟩
      · rw [Program.bind_error hgate] at h
        obtain ⟨-, rfl⟩ := Prod.mk.inj h
        obtain ⟨hcommittee, hdebate⟩ := manager.debateGate_error hgate
        refine (habsorbed (s₁, .runCommitteeDebate task request (some plan)) ?_).sessions
          (manager.perform_debate_error hdebate) t
        rw [debateMade, if_pos hcommittee]
        exact List.mem_append_left _ List.mem_cons_self
      · rw [Program.bind_ok hgate] at h
        cases (Prod.mk.inj h).1
      · rw [Program.bind_ok hgate] at h
        dsimp only at h
        rcases hsubmit : manager.submitPlan task handed s₂ with ⟨⟨e'⟩ | ⟨⟩, s₃⟩
        · rw [Program.bind_error hsubmit] at h
          obtain ⟨-, rfl⟩ := Prod.mk.inj h
          cases hcommittee : request.enableCommittee with
          | true =>
              obtain ⟨result, hsession, hopen⟩ := manager.debateGate_open hcommittee hgate
              obtain ⟨s₄, _, _, _, hrun, -⟩ :=
                manager.submitPlan_returns hsession handed (.inl hopen)
              rw [hsubmit] at hrun
              cases (Prod.mk.inj hrun).1
          | false =>
              have hplan : planMade manager task request plan s₁ =
                  [(s₂, .submitPlan task handed)] := by rw [planMade, hgate]
              have hmade := (habsorbed (s₂, .submitPlan task handed) (by
                rw [hplan]
                exact List.mem_append_right _ List.mem_cons_self)).sessions hsubmit t
              rw [debateGate, hcommittee] at hgate
              obtain ⟨-, rfl⟩ := Prod.mk.inj hgate
              exact hmade
        · rw [Program.bind_ok hsubmit] at h
          obtain ⟨s₄, hrun⟩ := manager.finish_returns task request handed s₃
          rw [hrun] at h
          cases (Prod.mk.inj h).1

/-- The result in a terminal stage absorbs every call of a run, and no call that raises changes a
result, exactly when every call on a result is harmless in the state in which it is made. -/
theorem absorbing_iff (s : Process W) (calls : List PipelineCall) :
    manager.Absorbing s calls ↔ ∀ before call after, calls = before ++ call :: after →
      ∀ made ∈ manager.callsMade call (manager.afterCalls s before),
        manager.Harmless made.2 made.1 := by
  refine forall₄_congr fun before call after _ => ?_
  constructor
  · rintro ⟨habsorbed, -⟩ made hmade
    exact (manager.absorbed_iff made.2 made.1).mp (habsorbed made hmade)
  · intro hharmless
    have habsorbed : ∀ made ∈ manager.callsMade call (manager.afterCalls s before),
        manager.Absorbed made.2 made.1 := fun made hmade =>
      (manager.absorbed_iff made.2 made.1).mpr (hharmless made hmade)
    refine ⟨habsorbed, fun e s' hrun t ht => ?_⟩
    cases call with
    | startPipeline request =>
        have hne : t ≠ request.taskId := fun heq => ht (congrArg some heq.symm)
        have hframe := Keeps.final (manager.startPipeline_others hne _)
          (s := manager.afterCalls s before) rfl
        rwa [show manager.startPipeline request _ = (.error e, s') from hrun] at hframe
    | onResult call =>
        exact (habsorbed (_, call) (List.mem_singleton.mpr rfl)).sessions hrun t
    | executePipeline task request plan =>
        have hne : t ≠ request.taskId := fun heq => ht (congrArg some heq.symm)
        rcases hpipeline : manager.executePipeline task request plan (manager.afterCalls s before)
          with ⟨⟨e'⟩ | ⟨⟩, s₁⟩
        · have hsame := manager.executePipeline_raised habsorbed hpipeline hne
          rw [invoke, Program.bind_error hpipeline] at hrun
          rwa [← (Prod.mk.inj hrun).2]
        · rw [invoke, Program.bind_ok hpipeline] at hrun
          cases (Prod.mk.inj hrun).1

end CodingPipelineManager

/-- A task that fails its preflight check, and a plan for it that nobody has approved. -/
def lateCalls : List PipelineCall :=
  [.startPipeline { sampleRequest with inspectedFiles := [] },
    .onResult (.submitPlan "T1" samplePlan)]

/-- The call is refused for the failed task, which has the plan then all the same. -/
theorem late_plan_written :
    ¬scriptedManager.Absorbing (.start [] fun _ => none) lateCalls := by
  intro habsorbing
  obtain ⟨result, hsession, hterminal, hplan⟩ : ∃ result,
      (scriptedManager.afterCalls (.start [] fun _ => none)
        [.startPipeline { sampleRequest with inspectedFiles := [] }]).sessions "T1" = some result ∧
      isTerminal result.currentStage = true ∧ result.mutationPlan = none :=
    ⟨_, rfl, rfl, rfl⟩
  have hharmless := (scriptedManager.absorbed_submitPlan "T1" samplePlan _).mp
    ((habsorbing [_] _ [] rfl).1 _ List.mem_cons_self)
  rcases hharmless result hsession hterminal with hrefused | hwritten
  · cases hrefused.1
  · rw [hwritten.1] at hplan
    cases hplan

end AgentSystem.Pipeline
