import Mathlib

/-!
# Workflow definitions

The steps of a workflow as its YAML front matter gives them, and the checks that a definition has
to pass before it is executed. A mapping without a key reads as `none`.
-/
namespace AgentSystem.Workflow

/-- A YAML value that can be a dictionary key. Booleans and floats are numbers, since Python takes
`True`, `1` and `1.0` for the same key; dates and the like are `other`. -/
inductive Scalar
  | null
  | text (value : String)
  | number (value : ℚ)
  | other (literal : String)
  deriving DecidableEq

/-- A YAML value. The items of a sequence that are no scalars are `none`, and of a mapping only the
keys are ever looked at. -/
inductive Node
  | scalar (value : Scalar)
  | sequence (items : List (Option Scalar))
  | mapping (keys : List Scalar)
  deriving DecidableEq

instance : LawfulBEq (Option Scalar) := inferInstance

/-- `isinstance(value, str)`. -/
def Scalar.isText : Scalar → Bool
  | .text _ => true
  | _ => false

/-- `bool(value)`. -/
def Scalar.truthy : Scalar → Bool
  | .null => false
  | .text value => decide (value ≠ "")
  | .number value => decide (value ≠ 0)
  | .other _ => true

def Node.truthy : Node → Bool
  | .scalar value => value.truthy
  | .sequence items => !items.isEmpty
  | .mapping keys => !keys.isEmpty

/-- `sub in text`. -/
def occursIn (sub text : String) : Bool := decide (sub.toList <:+: text.toList)

structure StepDef where
  stepId : Option Node
  dependencies : Option Node := none
  dependsOn : Option Node := none
  nextStep : Option Node := none
  fallbackStep : Option Node := none
  onFailure : Option Node := none
  deriving DecidableEq

/-- `step["step_id"]`, which is a scalar in every definition that is accepted. -/
def StepDef.id (step : StepDef) : Scalar :=
  match step.stepId with
  | some (.scalar value) => value
  | _ => .null

/-- The id can be a dictionary key. -/
def StepDef.hashable (step : StepDef) : Bool :=
  match step.stepId with
  | some (.scalar _) => true
  | _ => false

/-- The exceptions of `_validate_step_graph`: its `ValueError`s and the `TypeError` of a value that
is no dictionary key. -/
inductive GraphError
  | stepsNotList
  | emptyStepId
  | duplicateStepId
  | stepNotMapping
  | badDependencies (stepId : Scalar)
  | unknownDependency (stepId dependency : Scalar)
  | unknownTarget (stepId : Scalar) (fieldName target : String)
  | dependencyCycle (stepId : Scalar)
  | nextStepCycle (stepId : Scalar)
  | typeError
  deriving DecidableEq

/-- `step.get("dependencies", step.get("depends_on"))`: a key with the value `null` counts. -/
def StepDef.rawDeps (step : StepDef) : Node :=
  step.dependencies.getD (step.dependsOn.getD (.scalar .null))

/-- The check that every dependency is known. -/
def knownDependencies (known : List Scalar) (stepId : Scalar) :
    List (Option Scalar) → Except GraphError (List Scalar)
  | [] => .ok []
  | none :: _ => .error .typeError
  | some dependency :: rest =>
      if dependency ∉ known then .error (.unknownDependency stepId dependency)
      else (knownDependencies known stepId rest).map (dependency :: ·)

/-- The dependencies that the validator sees; `previous` is the step before, if there is one. -/
def validatedDeps (known : List Scalar) (previous : Option Scalar) (step : StepDef) :
    Except GraphError (List Scalar) :=
  match step.rawDeps with
  | .scalar .null => knownDependencies known step.id (previous.toList.map some)
  | .scalar (.text dependency) => knownDependencies known step.id [some (.text dependency)]
  | .sequence items => knownDependencies known step.id items
  | _ => .error (.badDependencies step.id)

/-- The check of `next_step` and `fallback_step`. -/
def checkTarget (known : List Scalar) (step : StepDef) (fieldName : String) (target : Option Node) :
    Except GraphError Unit :=
  match target with
  | some (.scalar (.text target)) =>
      if !occursIn "\x7b\x7b" target && decide (Scalar.text target ∉ known) then
        .error (.unknownTarget step.id fieldName target)
      else .ok ()
  | _ => .ok ()

/-- The loop over the steps, with the dependencies of each as result. -/
def checkSteps (known : List Scalar) :
    Option Scalar → List (Option StepDef) → Except GraphError (List (Scalar × List Scalar))
  | _, [] => .ok []
  | _, none :: _ => .error .stepNotMapping
  | previous, some step :: rest => do
      let deps ← validatedDeps known previous step
      checkTarget known step "next_step" step.nextStep
      checkTarget known step "fallback_step" step.fallbackStep
      let others ← checkSteps known (some step.id) rest
      return (step.id, deps) :: others

/-- The nested `visit` and `visit_next` on their sets `visiting` and `visited`; the error is the
step at which a cycle was found. The first argument bounds the depth of the recursion; every level
marks one more step as being visited, so one more than the number of steps is enough. -/
def visit (next : Scalar → List Scalar) :
    ℕ → List Scalar × List Scalar → Scalar → Except Scalar (List Scalar × List Scalar)
  | 0, _, stepId => .error stepId
  | depth + 1, (visiting, visited), stepId =>
    if stepId ∈ visiting then .error stepId
    else if stepId ∈ visited then .ok (visiting, visited)
    else
      ((next stepId).foldlM (visit next depth) (stepId :: visiting, visited)).map fun sets =>
        (sets.1.erase stepId, stepId :: sets.2)

/-- `dependencies[step_id]`. -/
def depsOf (dependencies : List (Scalar × List Scalar)) (stepId : Scalar) : List Scalar :=
  ((dependencies.find? fun entry => entry.1 = stepId).map Prod.snd).getD []

/-- `next_edges`: the targets that are fixed texts. -/
def nextEdges (steps : List StepDef) (stepId : Scalar) : List Scalar :=
  match (steps.find? fun step => step.id = stepId).bind StepDef.nextStep with
  | some (.scalar (.text target)) =>
      if occursIn "\x7b\x7b" target then [] else [.text target]
  | _ => []

def cycleCheck (error : Scalar → GraphError) (next : Scalar → List Scalar) (ids : List Scalar) :
    Except GraphError Unit :=
  match ids.foldlM (visit next (ids.length + 1)) ([], []) with
  | .error stepId => .error (error stepId)
  | .ok _ => .ok ()

/-- `_validate_step_graph` on the value of `steps`, `none` for one that is no list and for an
element that is no mapping. -/
def validateStepGraph (steps : Option (List (Option StepDef))) : Except GraphError Unit :=
  match steps with
  | none => .error .stepsNotList
  | some steps =>
      let mappings := steps.reduceOption
      if ∃ step ∈ mappings, (step.stepId.getD (.scalar .null)).truthy = false then
        .error .emptyStepId
      else if ∃ step ∈ mappings, step.hashable = false then .error .typeError
      else if ¬ (mappings.map StepDef.id).Nodup then .error .duplicateStepId
      else do
        let known := mappings.map StepDef.id
        let dependencies ← checkSteps known none steps
        cycleCheck .dependencyCycle (depsOf dependencies) known
        cycleCheck .nextStepCycle (nextEdges mappings) known

/-- A definition that the validator accepts. -/
structure Definition where
  steps : List StepDef
  valid : validateStepGraph (some (steps.map some)) = .ok ()

namespace Definition

variable (d : Definition)

def ids : List Scalar := d.steps.map StepDef.id

/-- `steps_map.get(step_id)`. -/
def step (stepId : Scalar) : Option StepDef := d.steps.find? fun step => step.id = stepId

lemma reduceOption_map_some {α : Type*} (items : List α) : (items.map some).reduceOption = items := by
  induction items with
  | nil => rfl
  | cons item items ih => simp [List.reduceOption_cons_of_some, ih]

lemma ids_nodup : d.ids.Nodup := by
  by_contra hdup
  have hvalid := d.valid
  unfold validateStepGraph at hvalid
  simp only [reduceOption_map_some] at hvalid
  split_ifs at hvalid with hempty hkeys hids
  exact hdup hids

end Definition

end AgentSystem.Workflow
