import AgentSystem.KeyedTable
import AgentSystem.WorkflowDefinition

/-!
# The state of a workflow run

Step states, the steps that the loop of `execute` takes for active, and those of them that are
ready. The steps whose turn comes are found by propagating over finished and failed steps until
nothing changes.
-/
namespace AgentSystem.Workflow

inductive StepStatus
  | pending
  | running
  | success
  | failed
  | skipped
  deriving DecidableEq

/-- `status in ["success", "skipped", "failed"]`. -/
def StepStatus.ended : StepStatus → Bool
  | .success | .skipped | .failed => true
  | .pending | .running => false

inductive RunStatus
  | pending
  | running
  | success
  | failed
  deriving DecidableEq

structure StepState (ω : Type) where
  stepId : Scalar
  status : StepStatus := .pending
  output : Option ω := none
  error : Option String := none

structure RunState (ω : Type) where
  workflowId : String
  status : RunStatus
  steps : KeyedTable (StepState ω) StepState.stepId

/-- The outputs in `context["steps"]`. -/
abbrev Context (ω : Type) := Scalar → Option ω

/-- The exceptions that leave `execute`. -/
inductive WorkflowError
  | checkpoint
  | otherWorkflow (owner : String)
  | cycle (stepId : Scalar)
  | keyError (stepId : Scalar)
  | typeError
  | stepFailed (errors : List (Scalar × String))
  | deadlock (blocked : List Scalar)
  | saveState
  | step (stepId : Scalar)
  deriving DecidableEq

/-- What a run meets outside the engine: the rendering of a template, `none` when it is empty or
raises, the order in which Python iterates over a set, by the order in which its elements were
added, and the bound on the steps of a batch. -/
structure Env (ω : Type) where
  render : String → Context ω → Option String
  iterate : List Scalar → List Scalar := fun ids => ids
  maxConcurrentTasks : ℕ+ := 10
  iterate_perm : ∀ ids, (iterate ids).Perm ids := by exact fun _ => List.Perm.refl _

def failPolicy : Node := .scalar (.text "fail")

def skipPolicy : Node := .scalar (.text "skip")

def fallbackPolicy : Node := .scalar (.text "fallback")

/-- `step_def.get("on_failure", "fail")`. -/
def StepDef.policy (step : StepDef) : Node := step.onFailure.getD failPolicy

/-- `step_def.get("fallback_step")`, `none` for a value that counts as false. -/
def StepDef.fallback (step : StepDef) : Option Node := step.fallbackStep.filter Node.truthy

namespace RunState

variable {ω : Type} (s : RunState ω)

/-- `state.steps[step_id].status`. -/
def statusOf (stepId : Scalar) : Option StepStatus := (s.steps.lookup stepId).map StepState.status

/-- The state with one step changed. -/
def modify (stepId : Scalar) (f : StepState ω → StepState ω)
    (keeps : ∀ row, (f row).stepId = row.stepId) : RunState ω :=
  { s with steps := s.steps.update (fun row => decide (row.stepId = stepId)) f keeps }

def setRunning (stepId : Scalar) : RunState ω :=
  s.modify stepId (fun row => { row with status := .running }) fun _ => rfl

def setSuccess (stepId : Scalar) (output : ω) : RunState ω :=
  s.modify stepId (fun row => { row with status := .success, output := some output, error := none })
    fun _ => rfl

/-- The error of a failed step; with the policy `skip` its status becomes `skipped`. -/
def setFailed (stepId : Scalar) (status : StepStatus) (error : String) : RunState ω :=
  s.modify stepId (fun row => { row with status := status, error := some error }) fun _ => rfl

def withStatus (status : RunStatus) : RunState ω := { s with status := status }

end RunState

/-! ## Dependencies -/

/-- The value of `step_dependencies` for a step: what can be iterated over, or another value. -/
inductive Deps
  | iterable (items : List (Option Scalar))
  | notIterable (value : Scalar)

/-- A single text stands for the list of it. -/
def Node.deps : Node → Deps
  | .scalar (.text value) => .iterable [some (.text value)]
  | .scalar value => .notIterable value
  | .sequence items => .iterable items
  | .mapping keys => .iterable (keys.map some)

/-- `not deps`. -/
def Deps.empty : Deps → Bool
  | .iterable items => items.isEmpty
  | .notIterable value => !value.truthy

/-- A key whose value is not `null`. -/
def nonNull (node : Option Node) : Option Node := node.filter fun node => node ≠ .scalar .null

/-- `dependencies`, or else `depends_on`. -/
def StepDef.explicitDeps (step : StepDef) : Option Node :=
  nonNull step.dependencies <|> nonNull step.dependsOn

/-- The loop that fills `step_dependencies`; a step without dependencies of its own depends on the
step before it. -/
def resolveDeps : Option Scalar → List StepDef → List (Scalar × Deps)
  | _, [] => []
  | previous, step :: rest =>
      let deps :=
        match step.explicitDeps with
        | some node => node.deps
        | none => .iterable (previous.toList.map some)
      (step.id, deps) :: resolveDeps (some step.id) rest

namespace Definition

variable (d : Definition)

def stepDependencies : List (Scalar × Deps) := resolveDeps none d.steps

lemma stepDependencies_keys : d.stepDependencies.map Prod.fst = d.ids := by
  unfold stepDependencies ids
  generalize d.steps = steps
  generalize (none : Option Scalar) = previous
  induction steps generalizing previous with
  | nil => rfl
  | cons step steps ih => simp [resolveDeps, ih]

/-- `step_dependencies.get(step_id)`. -/
def depsOf (stepId : Scalar) : Option Deps :=
  (d.stepDependencies.find? fun entry => entry.1 = stepId).map Prod.snd

/-- `step_id in explicit_dependency_steps`. -/
def isExplicit (stepId : Scalar) : Bool :=
  match d.step stepId with
  | some step => step.explicitDeps.isSome
  | none => false

end Definition

section Activation

variable {ω : Type} (env : Env ω) (d : Definition) (s : RunState ω) (context : Context ω)

/-- `_get_next_step_id`. A sequence or mapping with both delimiters among its items fails inside
the `try` block, every other value that is no text fails outside of it. -/
def nextStepId (step : StepDef) : Except WorkflowError (Option Scalar) :=
  match step.nextStep.filter Node.truthy with
  | none => .ok none
  | some (.scalar (.text template)) =>
      if occursIn "\x7b\x7b" template && occursIn "\x7d\x7d" template then
        .ok ((env.render template context).map Scalar.text)
      else .ok (some (.text template))
  | some (.scalar _) => .error .typeError
  | some (.sequence items) =>
      if some (.text "\x7b\x7b") ∈ items ∧ some (.text "\x7d\x7d") ∈ items then .ok none
      else .error .typeError
  | some (.mapping keys) =>
      if .text "\x7b\x7b" ∈ keys ∧ .text "\x7d\x7d" ∈ keys then .ok none else .error .typeError

/-- `active_steps.add(step_id)`. -/
def addActive (active : List Scalar) (stepId : Scalar) : List Scalar :=
  if stepId ∈ active then active else active ++ [stepId]

/-- `if next_id: …`. -/
def addNext (active : List Scalar) (next : Option Scalar) : List Scalar :=
  match next.filter Scalar.truthy with
  | none => active
  | some next => addActive active next

/-- The explicit dependents of a finished step become active. -/
def addDependent (stepId : Scalar) (active : List Scalar) (entry : Scalar × Deps) :
    Except WorkflowError (List Scalar) :=
  if d.isExplicit entry.1 then
    match entry.2 with
    | .notIterable _ => .error .typeError
    | .iterable items => .ok (if some stepId ∈ items then addActive active entry.1 else active)
  else .ok active

/-- The body of the inner loop for one active step. -/
def activateFrom (active : List Scalar) (stepId : Scalar) : Except WorkflowError (List Scalar) :=
  match s.statusOf stepId with
  | none => .ok active
  | some status =>
    match d.step stepId with
    | none => .error (.keyError stepId)
    | some step =>
      match status with
      | .success | .skipped => do
          let next ← nextStepId env context step
          if next = some stepId then .error (.cycle stepId)
          else d.stepDependencies.foldlM (addDependent d stepId) (addNext active next)
      | .failed =>
          if step.policy = skipPolicy then do
            let next ← nextStepId env context step
            .ok (addNext active next)
          else if step.policy = fallbackPolicy then
            match step.fallback with
            | none => .ok active
            | some (.scalar fallback) => .ok (addActive active fallback)
            | some _ => .error .typeError
          else .ok active
      | .pending | .running => .ok active

/-- One pass of `while changed`. -/
def activatePass (active : List Scalar) : Except WorkflowError (List Scalar) :=
  (env.iterate active).foldlM (activateFrom env d s context) active

/-- `while changed`. The first argument bounds the passes that change something. -/
def propagate : ℕ → List Scalar → Except WorkflowError (List Scalar)
  | 0, active => .ok active
  | passes + 1, active => do
      let next ← activatePass env d s context active
      if next.length = active.length then .ok active else propagate passes next

/-- The steps that are active before anything is propagated. -/
def initialActive : List Scalar :=
  let roots := d.stepDependencies.filter fun entry =>
    entry.2.empty && (s.statusOf entry.1).isSome
  let ended := s.steps.rows.filter fun row => row.status.ended
  (d.ids.head?.toList ++ roots.map Prod.fst ++ ended.map StepState.stepId).foldl addActive []

/-- Every step of the definition can add itself, its next step and its fallback step. -/
def maxPasses : ℕ := 3 * d.steps.length + 1

def activeSteps : Except WorkflowError (List Scalar) :=
  propagate env d s context (maxPasses d) (initialActive d s)

/-- A dependency that lets a step start. -/
def dependencyMet (stepId dependency : Scalar) : Bool :=
  match s.statusOf dependency with
  | some .success | some .skipped => true
  | some .failed =>
      match d.step dependency with
      | some step =>
          decide (step.onFailure = some fallbackPolicy) &&
            decide (step.fallbackStep = some (.scalar stepId))
      | none => false
  | _ => false

/-- `all_deps_ok`. -/
def dependenciesMet (stepId : Scalar) : List (Option Scalar) → Except WorkflowError Bool
  | [] => .ok true
  | none :: _ => .error .typeError
  | some dependency :: rest =>
      if dependencyMet d s stepId dependency then dependenciesMet stepId rest else .ok false

/-- The body of the loop that collects the ready steps. -/
def addReady (ready : List Scalar) (stepId : Scalar) : Except WorkflowError (List Scalar) :=
  if s.statusOf stepId = some .pending then
    match d.depsOf stepId with
    | none => .error (.keyError stepId)
    | some (.notIterable _) => .error .typeError
    | some (.iterable items) => do
        let met ← dependenciesMet d s stepId items
        .ok (if met then ready ++ [stepId] else ready)
  else .ok ready

def readySteps (active : List Scalar) : Except WorkflowError (List Scalar) :=
  (env.iterate active).foldlM (addReady d s) []

end Activation

end AgentSystem.Workflow
