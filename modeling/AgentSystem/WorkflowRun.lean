import AgentSystem.WorkflowState

/-!
# Runs of the workflow engine

`execute` as a machine that takes one event after the other. The steps of a batch are coroutines
that start and end in any order; when one of them raises, `execute` raises too and the others go on.
Every save may fail, and the process may stop after any event.
-/
namespace AgentSystem.Workflow

/-- The answer of one pass of the main loop up to the batch that it starts. `saves` tells whether
the run is saved as failed before the exception. -/
inductive Verdict
  | finish
  | halt (error : WorkflowError) (saves : Bool)
  | sleep
  | batch (active ready : List Scalar)
  deriving DecidableEq

inductive TaskPhase
  | waiting
  | running
  | ended (result : Bool)
  | raised
  deriving DecidableEq

/-- A coroutine of `_execute_step_async`. -/
structure Task where
  stepId : Scalar
  phase : TaskPhase
  deriving DecidableEq

/-- Where the coroutine of `execute` stands. -/
inductive Main (ω : Type)
  | looping
  | gathering (active : List Scalar)
  | returned (results : List (Scalar × Option ω))
  | raised (error : WorkflowError)

/-- The memory of a run, the checkpoint on disk, the coroutines of the last batch, and as a record
of the run the steps that were started and the number of passes of the main loop. -/
structure Config (ω : Type) where
  state : RunState ω
  context : Context ω
  saved : Option (RunState ω)
  main : Main ω := .looping
  tasks : List Task := []
  started : List Scalar := []
  rounds : ℕ := 0

/-- A call of the tool: the parsed output, or the message of an exception or of a text that starts
with `Error:`. -/
inductive ToolCall (ω : Type)
  | returned (output : ω)
  | raised (message : String)

/-- `healing_attempts`. -/
def healingAttempts : ℕ := 2

/-- The loop over the attempts from this one on, with so many healing attempts left. -/
def attemptLoop {ω : Type} (tool : ℕ → ToolCall ω) (attempt : ℕ) : ℕ → Except String ω
  | 0 =>
      match tool attempt with
      | .returned output => .ok output
      | .raised message => .error message
  | healing + 1 =>
      match tool attempt with
      | .returned output => .ok output
      | .raised _ => attemptLoop tool (attempt + 1) healing

/-- What happens next in a run. `saves` tells whether the save that the event makes succeeds, and
`crash` is an exception outside the `try` block of a step. -/
inductive Event (ω : Type)
  | evaluate (saves : Bool)
  | start (stepId : Scalar) (saves : Bool)
  | finish (stepId : Scalar) (tool : ℕ → ToolCall ω) (saves : Bool)
  | crash (stepId : Scalar)
  | gather (saves : Bool)

variable {ω : Type}

def Definition.policyOf (d : Definition) (stepId : Scalar) : Node :=
  ((d.step stepId).map StepDef.policy).getD failPolicy

/-- The pairs behind `failed_errors`. -/
def failedErrors (s : RunState ω) (active : List Scalar) : List (Scalar × String) :=
  active.filterMap fun stepId =>
    (s.steps.lookup stepId).bind fun row =>
      if row.status = .failed then (row.error.filter (· ≠ "")).map fun error => (stepId, error)
      else none

/-- The summary that `execute` returns. -/
def RunState.results (s : RunState ω) : List (Scalar × Option ω) :=
  (s.steps.rows.filter fun row => row.status = .success).map fun row => (row.stepId, row.output)

section Evaluate

variable (env : Env ω) (d : Definition) (s : RunState ω) (context : Context ω)

/-- A failed step with the policy `fail`. -/
def fatal (stepId : Scalar) : Bool :=
  decide (s.statusOf stepId = some .failed) && decide (d.policyOf stepId = failPolicy)

/-- The main loop after the active steps are known. -/
def evaluateActive (active : List Scalar) : Verdict :=
  match (env.iterate active).find? fun stepId => (s.statusOf stepId).isNone with
  | some missing => .halt (.keyError missing) false
  | none =>
    if active.all fun stepId => (s.statusOf stepId).any StepStatus.ended then .finish
    else if active.any (fatal d s) then
      .halt (.stepFailed (failedErrors s (env.iterate active))) true
    else
      match readySteps env d s active with
      | .error error => .halt error false
      | .ok [] =>
          if active.any fun stepId => decide (s.statusOf stepId = some .running) then .sleep
          else
            let blocked := (env.iterate active).filter fun stepId =>
              decide (s.statusOf stepId = some .pending)
            .halt (.deadlock blocked) true
      | .ok ready => .batch active (ready.take env.maxConcurrentTasks)

def evaluate : Verdict :=
  match activeSteps env d s context with
  | .error (.cycle stepId) => .halt (.cycle stepId) true
  | .error error => .halt error false
  | .ok active => evaluateActive env d s active

end Evaluate

def setPhase (tasks : List Task) (stepId : Scalar) (phase : TaskPhase) : List Task :=
  tasks.map fun task => if task.stepId = stepId then { task with phase := phase } else task

namespace Config

variable (env : Env ω) (d : Definition) (c : Config ω)

/-- `save_state`, when it succeeds. -/
def checkpoint (state : RunState ω) (saves : Bool) : Option (RunState ω) :=
  if saves then some state else c.saved

/-- `execute` saves the run as failed and raises. -/
def fail (error : WorkflowError) (saves : Bool) : Config ω :=
  let state := c.state.withStatus .failed
  { c with
    state := state
    saved := c.checkpoint state saves
    main := .raised (if saves then error else .saveState) }

/-- `execute` saves the run as successful and returns. -/
def succeed (saves : Bool) : Config ω :=
  let state := c.state.withStatus .success
  { c with
    state := state
    saved := c.checkpoint state saves
    main := if saves then .returned state.results else .raised .saveState }

def startBatch (active ready : List Scalar) : Config ω :=
  { c with
    main := .gathering active
    tasks := ready.map fun stepId => ⟨stepId, .waiting⟩ }

/-- One pass of the main loop. -/
def evaluateLoop (saves : Bool) : Config ω :=
  let c := { c with rounds := c.rounds + 1 }
  match evaluate env d c.state c.context with
  | .finish => c.succeed saves
  | .halt error true => c.fail error saves
  | .halt error false => { c with main := .raised error }
  | .sleep => c
  | .batch active ready => c.startBatch active ready

/-- The first block of `_execute_step_async`. -/
def startStep (stepId : Scalar) (saves : Bool) : Config ω :=
  let state := c.state.setRunning stepId
  { c with
    state := state
    saved := c.checkpoint state saves
    tasks := setPhase c.tasks stepId (if saves then .running else .raised)
    started := c.started ++ [stepId] }

/-- The save at the end of a step and its result. -/
def endStep (stepId : Scalar) (state : RunState ω) (context : Context ω) (result saves : Bool) :
    Config ω :=
  { c with
    state := state
    context := context
    saved := c.checkpoint state saves
    tasks := setPhase c.tasks stepId (if saves then .ended result else .raised) }

/-- The last block of `_execute_step_async`. -/
def finishStep (stepId : Scalar) (outcome : Except String ω) (saves : Bool) : Config ω :=
  match outcome with
  | .ok output =>
      c.endStep stepId (c.state.setSuccess stepId output)
        (Function.update c.context stepId (some output)) true saves
  | .error message =>
      if d.policyOf stepId = skipPolicy then
        c.endStep stepId (c.state.setFailed stepId .skipped message) c.context true saves
      else if d.policyOf stepId = fallbackPolicy ∧ ((d.step stepId).bind StepDef.fallback).isSome then
        c.endStep stepId (c.state.setFailed stepId .failed message) c.context false saves
      else
        c.endStep stepId ((c.state.setFailed stepId .failed message).withStatus .failed) c.context
          false saves

/-- After `asyncio.gather` has returned the results. -/
def afterGather (active : List Scalar) (saves : Bool) : Config ω :=
  if c.tasks.any (fun task => decide (task.phase = .ended false)) &&
      c.tasks.any (fun task => fatal d c.state task.stepId) then
    c.fail (.stepFailed (failedErrors c.state (env.iterate active))) saves
  else { c with main := .looping }

/-- The next configuration, `none` for an event that cannot happen. -/
def step : Event ω → Option (Config ω)
  | .evaluate saves =>
      match c.main with
      | .looping => some (c.evaluateLoop env d saves)
      | _ => none
  | .start stepId saves =>
      if ⟨stepId, .waiting⟩ ∈ c.tasks then some (c.startStep stepId saves) else none
  | .finish stepId tool saves =>
      if ⟨stepId, .running⟩ ∈ c.tasks then
        some (c.finishStep d stepId (attemptLoop tool 1 healingAttempts) saves)
      else none
  | .crash stepId =>
      if ⟨stepId, .running⟩ ∈ c.tasks then
        some { c with tasks := setPhase c.tasks stepId .raised }
      else none
  | .gather saves =>
      match c.main with
      | .gathering active =>
          match c.tasks.find? fun task => task.phase = .raised with
          | some task => some { c with main := .raised (.step task.stepId) }
          | none =>
              if c.tasks.all fun task => decide (∃ result, task.phase = .ended result) then
                some (c.afterGather env d active saves)
              else none
      | _ => none

/-- The configuration after a list of events. -/
def play : Config ω → List (Event ω) → Option (Config ω)
  | c, [] => some c
  | c, event :: events => (c.step env d event).bind fun c' => play c' events

/-- Some events lead from one configuration to the other. -/
def Reaches (c c' : Config ω) : Prop := ∃ events, play env d c events = some c'

end Config

/-! ## The start of a run -/

/-- A run in which no step was started yet. -/
def RunState.fresh (d : Definition) (workflowId : String) : RunState ω where
  workflowId := workflowId
  status := .running
  steps :=
    { rows := d.steps.map fun step => { stepId := step.id }
      unique := by
        rw [List.map_map]
        exact d.ids_nodup }

/-- `load_state`: the outputs come back as JSON gives them, and a step whose id is no text is not
found under its key. -/
def RunState.reload (decode : ω → ω) (saved : RunState ω) : Option (RunState ω) :=
  if saved.steps.rows.all fun row => row.stepId.isText then
    some
      { saved with
        steps := saved.steps.update (fun _ => true)
          (fun row => { row with output := row.output.map decode }) fun _ => rfl }
  else none

/-- A checkpoint made ready to be resumed: failed steps are pending again. -/
def RunState.resumed (s : RunState ω) : RunState ω where
  workflowId := s.workflowId
  status := .running
  steps := s.steps.update (fun row => decide (row.status = .failed))
    (fun row => { row with status := .pending, error := none }) fun _ => rfl

/-- `context["steps"]` of the steps that have succeeded already. -/
def RunState.outputs (s : RunState ω) : Context ω := fun stepId =>
  (s.steps.lookup stepId).bind fun row => if row.status = .success then row.output else none

/-- `execute` up to its main loop. `unlinked` tells whether an old checkpoint could be removed. -/
def beginRun (d : Definition) (workflowId : String) (decode : ω → ω) (resume unlinked : Bool)
    (disk : Option (RunState ω)) : Except WorkflowError (Config ω) :=
  match disk with
  | none => .ok ⟨.fresh d workflowId, fun _ => none, none, .looping, [], [], 0⟩
  | some saved =>
    match saved.reload decode with
    | none => .error .checkpoint
    | some s =>
        if s.workflowId ≠ workflowId then .error (.otherWorkflow s.workflowId)
        else if resume ∧ s.status = .failed then
          .ok ⟨s.resumed, s.resumed.outputs, disk, .looping, [], [], 0⟩
        else
          let disk := if unlinked then none else disk
          .ok ⟨.fresh d workflowId, fun _ => none, disk, .looping, [], [], 0⟩

/-- The checkpoints that runs of one definition can leave behind, each stopped anywhere. -/
inductive Leaves (d : Definition) : Option (RunState ω) → Prop
  | nothing : Leaves d none
  | run {env : Env ω} {workflowId : String} {decode : ω → ω} {resume unlinked : Bool}
      {disk : Option (RunState ω)} {c c' : Config ω} (prior : Leaves d disk)
      (began : beginRun d workflowId decode resume unlinked disk = .ok c)
      (reached : c.Reaches env d c') : Leaves d c'.saved

/-! ## Two workflows -/

def textNode (text : String) : Node := .scalar (.text text)

/-- Two steps without dependencies. -/
def parallelWorkflow : Definition where
  steps :=
    [{ stepId := some (textNode "a"), dependencies := some (.sequence []) },
     { stepId := some (textNode "b"), dependencies := some (.sequence []) }]
  valid := rfl

/-- Three steps in a row, of which each falls back to the next. -/
def chainWorkflow : Definition where
  steps :=
    [{ stepId := some (textNode "a"), onFailure := some fallbackPolicy,
       fallbackStep := some (textNode "b") },
     { stepId := some (textNode "b"), onFailure := some fallbackPolicy,
       fallbackStep := some (textNode "c") },
     { stepId := some (textNode "c") }]
  valid := rfl

/-- No template renders to anything. -/
def plainEnv : Env ℕ where
  render _ _ := none

def failing : ℕ → ToolCall ℕ := fun _ => .raised "boom"

def working : ℕ → ToolCall ℕ := fun _ => .returned 1

/-- Only the last step of the chain works. -/
def chainEvents : List (Event ℕ) :=
  [.evaluate true, .start (.text "a") true, .finish (.text "a") failing true, .gather true,
   .evaluate true, .start (.text "b") true, .finish (.text "b") failing true, .gather true,
   .evaluate true, .start (.text "c") true, .finish (.text "c") working true, .gather true,
   .evaluate true]

/-- Both steps start; the second one fails while the first one is running. -/
def siblingEvents : List (Event ℕ) :=
  [.evaluate true, .start (.text "a") true, .start (.text "b") true,
   .finish (.text "b") failing true]

/-- A resumed run in which the failed step works. -/
def resumedEvents : List (Event ℕ) :=
  [.evaluate true, .start (.text "b") true, .finish (.text "b") working true, .gather true]

end AgentSystem.Workflow
