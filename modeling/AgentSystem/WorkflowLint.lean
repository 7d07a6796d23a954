import AgentSystem.WorkflowGraph

/-!
# The linter and the engine

`lint_declarative_workflow` and `_validate_step_graph` check the steps of one front matter by rules of their
own: which steps each of them refuses, and when they agree.
-/
namespace AgentSystem.Workflow

open DepthFirst

/-! ## The checks of the engine -/

/-- The dependencies that the engine reads, `none` where it cannot. -/
def readDeps (previous : Option Scalar) (step : StepDef) : Option (List Scalar) :=
  match step.rawDeps with
  | .scalar .null => some previous.toList
  | .scalar (.text dependency) => some [.text dependency]
  | .sequence items => items.mapM id
  | _ => none

/-- A target that is a text without a placeholder. -/
def fixedTarget : Option Node → Option Scalar
  | some (.scalar (.text target)) => if occursIn "\x7b\x7b" target then none else some (.text target)
  | _ => none

/-- The graph of the dependencies. -/
def readGraph (steps : List StepDef) : List (Scalar × List Scalar) :=
  (withPrevious none steps).map fun entry => (entry.2.id, (readDeps entry.1 entry.2).getD [])

/-- The checks on one step. -/
structure StepSound (known : List Scalar) (previous : Option Scalar) (step : StepDef) : Prop where
  dependencies : ∃ deps, readDeps previous step = some deps ∧ ∀ dep ∈ deps, dep ∈ known
  nextStep : ∀ target, fixedTarget step.nextStep = some target → target ∈ known
  fallbackStep : ∀ target, fixedTarget step.fallbackStep = some target → target ∈ known

lemma mapM_id_eq_some {items : List (Option Scalar)} {deps : List Scalar} :
    items.mapM id = some deps ↔ items = deps.map some := by
  induction items generalizing deps with
  | nil => cases deps <;> simp
  | cons item items ih =>
    rw [List.mapM_cons, Option.bind_eq_bind, Option.bind_eq_some_iff]
    constructor
    · rintro ⟨dep, hitem, hrest⟩
      obtain ⟨rest, hitems, hcons⟩ := Option.bind_eq_some_iff.mp hrest
      cases hcons
      rw [show item = some dep from hitem, ih.mp hitems, List.map_cons]
    · intro hmap
      cases deps with
      | nil => cases hmap
      | cons dep rest =>
        obtain ⟨hitem, hitems⟩ := List.cons.inj hmap
        exact ⟨dep, hitem, by rw [ih.mpr hitems]; rfl⟩

lemma knownDependencies_iff {known : List Scalar} {stepId : Scalar} {items : List (Option Scalar)}
    {deps : List Scalar} : knownDependencies known stepId items = .ok deps ↔
      items = deps.map some ∧ ∀ dep ∈ deps, dep ∈ known := by
  refine ⟨knownDependencies_ok, ?_⟩
  rintro ⟨rfl, hknown⟩
  induction deps with
  | nil => rfl
  | cons dep deps ih =>
    rw [List.forall_mem_cons] at hknown
    rw [List.map_cons, knownDependencies, if_neg (not_not_intro hknown.1), ih hknown.2]
    rfl

lemma validatedDeps_iff {known : List Scalar} {previous : Option Scalar} {step : StepDef}
    {deps : List Scalar} : validatedDeps known previous step = .ok deps ↔
      readDeps previous step = some deps ∧ ∀ dep ∈ deps, dep ∈ known := by
  have hmap : ∀ items : List Scalar, items.map some = deps.map some ↔ some items = some deps := by
    intro items
    rw [(List.map_injective_iff.mpr (Option.some_injective Scalar)).eq_iff, Option.some.injEq]
  unfold validatedDeps readDeps
  generalize step.rawDeps = raw
  split
  · rw [knownDependencies_iff, hmap]
  next dependency => rw [knownDependencies_iff, ← hmap [.text dependency], List.map_singleton]
  · rw [knownDependencies_iff, mapM_id_eq_some]
  · simp

lemma checkTarget_iff {known : List Scalar} {step : StepDef} {fieldName : String} {target : Option Node} :
    checkTarget known step fieldName target = .ok () ↔
      ∀ scalar, fixedTarget target = some scalar → scalar ∈ known := by
  unfold checkTarget fixedTarget
  split
  next text =>
    cases hplace : occursIn "\x7b\x7b" text with
    | true => simp [hplace]
    | false => simp [hplace]
  · simp

lemma bind_eq_ok {ε α β : Type} {x : Except ε α} {f : α → Except ε β} {result : β} :
    x >>= f = .ok result ↔ ∃ value, x = .ok value ∧ f value = .ok result := by
  cases x with
  | error error => exact iff_of_false nofun (by rintro ⟨value, h, -⟩; cases h)
  | ok value =>
    constructor
    · intro h
      exact ⟨value, rfl, h⟩
    · rintro ⟨other, hother, h⟩
      cases hother
      exact h

/-- The loop over the steps ends exactly if every step is sound, with the graph that it reads. -/
lemma checkSteps_iff {known : List Scalar} {previous : Option Scalar} {steps : List StepDef}
    {checked : List (Scalar × List Scalar)} : checkSteps known previous (steps.map some) = .ok checked ↔
      (∀ entry ∈ withPrevious previous steps, StepSound known entry.1 entry.2) ∧
        checked = (withPrevious previous steps).map fun entry =>
          (entry.2.id, (readDeps entry.1 entry.2).getD []) := by
  induction steps generalizing previous checked with
  | nil =>
    rw [List.map_nil, checkSteps, Except.ok.injEq, withPrevious, List.map_nil, eq_comm]
    exact (and_iff_right (List.forall_mem_nil _)).symm
  | cons step steps ih =>
    rw [List.map_cons, checkSteps, bind_eq_ok, withPrevious, List.forall_mem_cons, List.map_cons]
    constructor
    · rintro ⟨deps, hdeps, hrest⟩
      obtain ⟨⟨⟩, hnext, hrest⟩ := bind_eq_ok.mp hrest
      obtain ⟨⟨⟩, hfallback, hrest⟩ := bind_eq_ok.mp hrest
      obtain ⟨others, hothers, hchecked⟩ := bind_eq_ok.mp hrest
      obtain ⟨hsound, rfl⟩ := ih.mp hothers
      obtain ⟨hread, hknown⟩ := validatedDeps_iff.mp hdeps
      cases hchecked
      refine ⟨⟨⟨⟨deps, hread, hknown⟩, checkTarget_iff.mp hnext, checkTarget_iff.mp hfallback⟩, hsound⟩, ?_⟩
      rw [hread]
      rfl
    · rintro ⟨⟨hstep, hsound⟩, rfl⟩
      obtain ⟨deps, hread, hknown⟩ := hstep.dependencies
      refine ⟨deps, validatedDeps_iff.mpr ⟨hread, hknown⟩, ?_⟩
      refine bind_eq_ok.mpr ⟨(), checkTarget_iff.mpr hstep.nextStep, ?_⟩
      refine bind_eq_ok.mpr ⟨(), checkTarget_iff.mpr hstep.fallbackStep, ?_⟩
      refine bind_eq_ok.mpr ⟨_, ih.mpr ⟨hsound, rfl⟩, ?_⟩
      rw [hread]
      rfl

/-- The check for cycles accepts exactly the graphs without one. -/
lemma cycleCheck_iff {error : Scalar → GraphError} {next : Scalar → List Scalar} {ids : List Scalar}
    (hwithin : Within next ids) : cycleCheck error next ids = .ok () ↔ Acyclic next := by
  refine ⟨cycleCheck_acyclic hwithin, fun hacyclic => ?_⟩
  obtain ⟨state, hsearch⟩ := (searchAll_acyclic hwithin (Nat.lt_succ_self _)).mpr hacyclic
  have hfold := foldlM_toOption (visit_toOption next (ids.length + 1)) ids ([], [])
  rw [← foldlM_toOption (fun _ _ => rfl), ← searchAll, hsearch] at hfold
  rw [cycleCheck]
  cases hvisit : ids.foldlM (visit next (ids.length + 1)) ([], []) with
  | error stepId =>
    rw [hvisit] at hfold
    cases hfold
  | ok sets => rfl

/-! ## What the engine accepts -/

section Steps

variable {steps : List StepDef}

lemma withPrevious_map_id (previous : Option Scalar) :
    ((withPrevious previous steps).map fun entry => entry.2.id) = steps.map StepDef.id := by
  conv_rhs => rw [← withPrevious_steps previous steps]
  rw [List.map_map]
  rfl

/-- Edges start at the steps. -/
lemma readGraph_within : Within (depsOf (readGraph steps)) (steps.map StepDef.id) := by
  intro id hid
  have hnone : (readGraph steps).find? (fun entry => entry.1 = id) = none := by
    rw [List.find?_eq_none]
    intro entry hentry hkey
    apply hid
    rw [← withPrevious_map_id none]
    obtain ⟨item, hitem, rfl⟩ := List.mem_map.mp hentry
    exact of_decide_eq_true hkey ▸ List.mem_map_of_mem hitem
  rw [depsOf, hnone]
  rfl

lemma nextEdges_within : Within (nextEdges steps) (steps.map StepDef.id) := by
  intro id hid
  have hnone : steps.find? (fun step => step.id = id) = none := by
    rw [List.find?_eq_none]
    intro step hstep hkey
    exact hid (of_decide_eq_true hkey ▸ List.mem_map_of_mem hstep)
  rw [nextEdges, hnone]
  rfl

/-- What the engine asks of the steps. -/
structure StepsSound (steps : List StepDef) : Prop where
  named : ∀ step ∈ steps, (step.stepId.getD (.scalar .null)).truthy = true
  hashable : ∀ step ∈ steps, step.hashable = true
  distinct : (steps.map StepDef.id).Nodup
  each : ∀ entry ∈ withPrevious none steps, StepSound (steps.map StepDef.id) entry.1 entry.2
  dependencies : Acyclic (depsOf (readGraph steps))
  nextSteps : Acyclic (nextEdges steps)

/-- The engine accepts exactly the sound steps. -/
lemma validateStepGraph_iff : validateStepGraph (some (steps.map some)) = .ok () ↔ StepsSound steps := by
  unfold validateStepGraph
  simp only [Definition.reduceOption_map_some]
  split_ifs with hempty hkeys hids
  · refine iff_of_false nofun fun h => ?_
    obtain ⟨step, hstep, hfalsy⟩ := hempty
    exact absurd (h.named step hstep) (by rw [hfalsy]; exact Bool.false_ne_true)
  · refine iff_of_false nofun fun h => ?_
    obtain ⟨step, hstep, hkey⟩ := hkeys
    exact absurd (h.hashable step hstep) (by rw [hkey]; exact Bool.false_ne_true)
  · rw [bind_eq_ok]
    constructor
    · rintro ⟨checked, hchecked, hcycles⟩
      obtain ⟨heach, rfl⟩ := checkSteps_iff.mp hchecked
      obtain ⟨⟨⟩, hdependencies, hnext⟩ := bind_eq_ok.mp hcycles
      exact
        { named := fun step hstep => by simpa using fun hfalsy => hempty ⟨step, hstep, hfalsy⟩
          hashable := fun step hstep => by simpa using fun hkey => hkeys ⟨step, hstep, hkey⟩
          distinct := hids
          each := heach
          dependencies := (cycleCheck_iff readGraph_within).mp hdependencies
          nextSteps := (cycleCheck_iff nextEdges_within).mp hnext }
    · intro h
      refine ⟨readGraph steps, checkSteps_iff.mpr ⟨h.each, rfl⟩, bind_eq_ok.mpr ⟨(), ?_, ?_⟩⟩
      · exact (cycleCheck_iff readGraph_within).mpr h.dependencies
      · exact (cycleCheck_iff nextEdges_within).mpr h.nextSteps
  · exact iff_of_false nofun fun h => hids h.distinct

end Steps

/-! ## Front matter -/

/-- `^[a-zA-Z0-9_-]+$`, that takes a line feed at the end as well. -/
def matchesId (text : String) : Bool :=
  let body := if text.toList.getLast? = some '\n' then text.toList.dropLast else text.toList
  !body.isEmpty && body.all fun c => c.isAlphanum || c = '_' || c = '-'

/-- A step that satisfies the schema, without what it calls. The schema says nothing about `dependencies` and
`fallback_step`; a `next_step` that is null is `some none`. -/
structure SchemaStep where
  id : Option String := none
  stepId : Option String := none
  dependsOn : Option (List String) := none
  nextStep : Option (Option String) := none
  dependencies : Option Node := none
  fallbackStep : Option Node := none
  named : id.isSome ∨ stepId.isSome
  idPattern : ∀ text, id = some text → matchesId text = true
  stepIdPattern : ∀ text, stepId = some text → matchesId text = true

inductive LintError
  | missingId
  | duplicateId (stepId : String)
  | unknownDependency (stepId dependency : String)
  | unknownNextStep (stepId target : String)
  deriving DecidableEq

namespace SchemaStep

/-- `step.get("id") or step.get("step_id")`, empty where both are missing. -/
def lintId (step : SchemaStep) : String :=
  match step.id with
  | some id => if id = "" then step.stepId.getD "" else id
  | none => step.stepId.getD ""

/-- The mapping as the engine reads it. -/
def toStepDef (step : SchemaStep) : StepDef where
  stepId := step.stepId.map fun text => .scalar (.text text)
  dependencies := step.dependencies
  dependsOn := step.dependsOn.map fun deps => .sequence (deps.map fun dep => some (.text dep))
  nextStep := step.nextStep.map fun target => .scalar ((target.map Scalar.text).getD .null)
  fallbackStep := step.fallbackStep

end SchemaStep

/-- The first loop of `_validate_declarative_steps`. -/
def collectIds (stepIds : List String) : List SchemaStep → Except LintError (List String)
  | [] => .ok stepIds
  | step :: steps =>
      if step.lintId = "" then .error .missingId
      else if step.lintId ∈ stepIds then .error (.duplicateId step.lintId)
      else collectIds (step.lintId :: stepIds) steps

def checkDependsOn (stepIds : List String) (step : SchemaStep) : List String → Except LintError Unit
  | [] => .ok ()
  | dep :: deps =>
      if dep ∉ stepIds then .error (.unknownDependency step.lintId dep)
      else checkDependsOn stepIds step deps

def checkNextStep (stepIds : List String) (step : SchemaStep) : Except LintError Unit :=
  match step.nextStep with
  | some (some target) =>
      if target ≠ "" ∧ target ∉ stepIds then .error (.unknownNextStep step.lintId target) else .ok ()
  | _ => .ok ()

/-- The second loop of `_validate_declarative_steps`. -/
def checkReferences (stepIds : List String) : List SchemaStep → Except LintError Unit
  | [] => .ok ()
  | step :: steps => do
      checkDependsOn stepIds step (step.dependsOn.getD [])
      checkNextStep stepIds step
      checkReferences stepIds steps

/-- `_validate_declarative_steps`. -/
def validateDeclarativeSteps (steps : List SchemaStep) : Except LintError (List String) := do
  let stepIds ← collectIds [] steps
  checkReferences stepIds steps
  return stepIds

/-! ## Defects -/

/-- What the linter refuses. -/
inductive LintDefect (steps : List SchemaStep) : Prop
  | repeatedId (h : ¬ (steps.map SchemaStep.lintId).Nodup)
  | unknownDependency (step : SchemaStep) (hstep : step ∈ steps) (dep : String)
      (hdep : dep ∈ step.dependsOn.getD []) (h : dep ∉ steps.map SchemaStep.lintId)
  | unknownNextStep (step : SchemaStep) (hstep : step ∈ steps) (target : String)
      (htarget : step.nextStep = some (some target)) (hne : target ≠ "")
      (h : target ∉ steps.map SchemaStep.lintId)

/-- What the engine refuses. -/
inductive EngineDefect (steps : List SchemaStep) : Prop
  | noStepId (step : SchemaStep) (hstep : step ∈ steps) (h : step.stepId = none)
  | repeatedStepId (h : ¬ (steps.map SchemaStep.stepId).Nodup)
  | unreadable (entry : Option Scalar × StepDef)
      (hentry : entry ∈ withPrevious none (steps.map SchemaStep.toStepDef))
      (h : readDeps entry.1 entry.2 = none)
  | unknownDependency (entry : Option Scalar × StepDef)
      (hentry : entry ∈ withPrevious none (steps.map SchemaStep.toStepDef)) (deps : List Scalar)
      (hdeps : readDeps entry.1 entry.2 = some deps) (dep : Scalar) (hdep : dep ∈ deps)
      (h : dep ∉ (steps.map SchemaStep.toStepDef).map StepDef.id)
  | unknownTarget (step : StepDef) (hstep : step ∈ steps.map SchemaStep.toStepDef) (target : Scalar)
      (htarget : fixedTarget step.nextStep = some target ∨ fixedTarget step.fallbackStep = some target)
      (h : target ∉ (steps.map SchemaStep.toStepDef).map StepDef.id)
  | dependencyCycle (id : Scalar)
      (h : Relation.TransGen (Edge (depsOf (readGraph (steps.map SchemaStep.toStepDef)))) id id)
  | nextStepCycle (id : Scalar)
      (h : Relation.TransGen (Edge (nextEdges (steps.map SchemaStep.toStepDef))) id id)

section Defects

variable {steps : List SchemaStep}

lemma matchesId_ne_empty {text : String} (h : matchesId text = true) : text ≠ "" := by
  rintro rfl
  cases h

namespace SchemaStep

/-- Every step has an id. -/
lemma lintId_ne_empty (step : SchemaStep) : step.lintId ≠ "" := by
  unfold lintId
  cases hid : step.id with
  | some id =>
    have hne := matchesId_ne_empty (step.idPattern id hid)
    simp [hne]
  | none =>
    cases hstep : step.stepId with
    | some stepId => exact matchesId_ne_empty (step.stepIdPattern stepId hstep)
    | none =>
      have hnamed := step.named
      simp [hid, hstep] at hnamed

end SchemaStep

lemma collectIds_iff {stepIds ids : List String} : collectIds stepIds steps = .ok ids ↔
    (steps.map SchemaStep.lintId).reverse ++ stepIds = ids ∧ (steps.map SchemaStep.lintId).Nodup ∧
      ∀ step ∈ steps, step.lintId ∉ stepIds := by
  induction steps generalizing stepIds with
  | nil => simp [collectIds]
  | cons step steps ih =>
    rw [collectIds, if_neg step.lintId_ne_empty]
    by_cases hmem : step.lintId ∈ stepIds
    · rw [if_pos hmem]
      exact iff_of_false nofun fun h => h.2.2 step List.mem_cons_self hmem
    · rw [if_neg hmem, ih, List.map_cons, List.reverse_cons, List.nodup_cons, List.append_assoc,
        List.singleton_append, List.forall_mem_cons]
      refine and_congr_right fun _ => ?_
      constructor
      · rintro ⟨hnodup, hnew⟩
        refine ⟨⟨fun hrepeated => ?_, hnodup⟩, hmem, fun other hother hold => ?_⟩
        · obtain ⟨other, hother, heq⟩ := List.mem_map.mp hrepeated
          exact hnew other hother (heq ▸ List.mem_cons_self)
        · exact hnew other hother (List.mem_cons_of_mem _ hold)
      · rintro ⟨⟨hfirst, hnodup⟩, -, hold⟩
        refine ⟨hnodup, fun other hother hmem => ?_⟩
        rcases List.mem_cons.mp hmem with heq | hmem
        · exact hfirst (heq ▸ List.mem_map_of_mem hother)
        · exact hold other hother hmem

lemma checkDependsOn_iff {stepIds : List String} {step : SchemaStep} {deps : List String} :
    checkDependsOn stepIds step deps = .ok () ↔ ∀ dep ∈ deps, dep ∈ stepIds := by
  induction deps with
  | nil => exact iff_of_true rfl (List.forall_mem_nil _)
  | cons dep deps ih =>
    rw [checkDependsOn, List.forall_mem_cons, ← ih]
    split_ifs with hdep
    · exact (and_iff_right hdep).symm
    · exact iff_of_false nofun fun h => hdep h.1

lemma checkNextStep_iff {stepIds : List String} {step : SchemaStep} :
    checkNextStep stepIds step = .ok () ↔
      ∀ target, step.nextStep = some (some target) → target ≠ "" → target ∈ stepIds := by
  unfold checkNextStep
  split
  next target htarget =>
    rw [htarget]
    split_ifs with h
    · exact iff_of_false nofun fun hall => h.2 (hall target rfl h.1)
    · refine iff_of_true rfl fun other hother hne => ?_
      cases hother
      exact not_not.mp fun hmem => h ⟨hne, hmem⟩
  next hother => exact iff_of_true rfl fun target htarget => absurd htarget (hother target)

lemma checkReferences_iff {stepIds : List String} : checkReferences stepIds steps = .ok () ↔
    ∀ step ∈ steps, (∀ dep ∈ step.dependsOn.getD [], dep ∈ stepIds) ∧
      ∀ target, step.nextStep = some (some target) → target ≠ "" → target ∈ stepIds := by
  induction steps with
  | nil => exact iff_of_true rfl (List.forall_mem_nil _)
  | cons step steps ih =>
    rw [checkReferences, List.forall_mem_cons, ← ih, ← @checkDependsOn_iff _ step,
      ← checkNextStep_iff]
    constructor
    · intro h
      obtain ⟨⟨⟩, hdeps, h⟩ := bind_eq_ok.mp h
      obtain ⟨⟨⟩, hnext, hrest⟩ := bind_eq_ok.mp h
      exact ⟨⟨hdeps, hnext⟩, hrest⟩
    · rintro ⟨⟨hdeps, hnext⟩, hrest⟩
      exact bind_eq_ok.mpr ⟨(), hdeps, bind_eq_ok.mpr ⟨(), hnext, hrest⟩⟩

/-- The linter accepts exactly the steps without a defect that it looks for. -/
lemma validateDeclarativeSteps_iff :
    (∃ stepIds, validateDeclarativeSteps steps = .ok stepIds) ↔ ¬ LintDefect steps := by
  constructor
  · rintro ⟨stepIds, h⟩ hdefect
    obtain ⟨collected, hcollect, h⟩ := bind_eq_ok.mp h
    obtain ⟨⟨⟩, hreferences, -⟩ := bind_eq_ok.mp h
    obtain ⟨rfl, hnodup, -⟩ := collectIds_iff.mp hcollect
    have hchecked := checkReferences_iff.mp hreferences
    simp only [List.append_nil, List.mem_reverse] at hchecked
    cases hdefect with
    | repeatedId hrepeated => exact hrepeated hnodup
    | unknownDependency step hstep dep hdep hunknown => exact hunknown ((hchecked step hstep).1 dep hdep)
    | unknownNextStep step hstep target htarget hne hunknown =>
      exact hunknown ((hchecked step hstep).2 target htarget hne)
  · intro hnone
    have hnodup : (steps.map SchemaStep.lintId).Nodup := not_not.mp fun h => hnone (.repeatedId h)
    refine ⟨_, bind_eq_ok.mpr ⟨_, collectIds_iff.mpr ⟨rfl, hnodup, fun _ _ => List.not_mem_nil⟩,
      bind_eq_ok.mpr ⟨(), checkReferences_iff.mpr fun step hstep => ⟨fun dep hdep => ?_,
        fun target htarget hne => ?_⟩, rfl⟩⟩⟩
    · rw [List.append_nil, List.mem_reverse]
      exact not_not.mp fun h => hnone (.unknownDependency step hstep dep hdep h)
    · rw [List.append_nil, List.mem_reverse]
      exact not_not.mp fun h => hnone (.unknownNextStep step hstep target htarget hne h)

/-- A step id as a scalar. -/
def idScalar (stepId : Option String) : Scalar := (stepId.map Scalar.text).getD .null

lemma idScalar_injective : Function.Injective idScalar := by
  intro a b h
  cases a <;> cases b <;> simp_all [idScalar]

lemma toStepDef_id (step : SchemaStep) : step.toStepDef.id = idScalar step.stepId := by
  unfold StepDef.id SchemaStep.toStepDef idScalar
  cases step.stepId <;> rfl

lemma map_toStepDef_nodup : ((steps.map SchemaStep.toStepDef).map StepDef.id).Nodup ↔
    (steps.map SchemaStep.stepId).Nodup := by
  rw [← List.nodup_map_iff idScalar_injective, List.map_map, List.map_map]
  simp only [Function.comp_def, toStepDef_id]

/-- The engine accepts exactly the steps without a defect that it looks for. -/
lemma stepsSound_iff : StepsSound (steps.map SchemaStep.toStepDef) ↔ ¬ EngineDefect steps := by
  constructor
  · intro h hdefect
    cases hdefect with
    | noStepId step hstep hnone =>
      have htruthy := h.named step.toStepDef (List.mem_map_of_mem hstep)
      rw [SchemaStep.toStepDef, hnone] at htruthy
      cases htruthy
    | repeatedStepId hrepeated => exact hrepeated (map_toStepDef_nodup.mp h.distinct)
    | unreadable entry hentry hnone =>
      obtain ⟨deps, hread, -⟩ := (h.each entry hentry).dependencies
      rw [hnone] at hread
      cases hread
    | unknownDependency entry hentry deps hdeps dep hdep hunknown =>
      obtain ⟨read, hread, hknown⟩ := (h.each entry hentry).dependencies
      rw [hdeps] at hread
      cases hread
      exact hunknown (hknown dep hdep)
    | unknownTarget step hstep target htarget hunknown =>
      rw [← withPrevious_steps none (steps.map SchemaStep.toStepDef)] at hstep
      obtain ⟨entry, hentry, rfl⟩ := List.mem_map.mp hstep
      rcases htarget with hnext | hfallback
      · exact hunknown ((h.each entry hentry).nextStep target hnext)
      · exact hunknown ((h.each entry hentry).fallbackStep target hfallback)
    | dependencyCycle id hcycle => exact h.dependencies id hcycle
    | nextStepCycle id hcycle => exact h.nextSteps id hcycle
  · intro hnone
    have hnamed : ∀ step ∈ steps, ∃ text, step.stepId = some text ∧ text ≠ "" := by
      intro step hstep
      cases htext : step.stepId with
      | none => exact absurd (.noStepId step hstep htext) hnone
      | some text => exact ⟨text, rfl, matchesId_ne_empty (step.stepIdPattern text htext)⟩
    exact
      { named := fun step hstep => by
          obtain ⟨source, hsource, rfl⟩ := List.mem_map.mp hstep
          obtain ⟨text, htext, hne⟩ := hnamed source hsource
          simp [SchemaStep.toStepDef, htext, Node.truthy, Scalar.truthy, hne]
        hashable := fun step hstep => by
          obtain ⟨source, hsource, rfl⟩ := List.mem_map.mp hstep
          obtain ⟨text, htext, hne⟩ := hnamed source hsource
          simp [SchemaStep.toStepDef, StepDef.hashable, htext]
        distinct := map_toStepDef_nodup.mpr (not_not.mp fun h => hnone (.repeatedStepId h))
        each := fun entry hentry => by
          have hstep : entry.2 ∈ steps.map SchemaStep.toStepDef := by
            rw [← withPrevious_steps none (steps.map SchemaStep.toStepDef)]
            exact List.mem_map_of_mem hentry
          refine ⟨?_, fun target hnext => ?_, fun target hfallback => ?_⟩
          · cases hread : readDeps entry.1 entry.2 with
            | none => exact absurd (.unreadable entry hentry hread) hnone
            | some deps =>
              refine ⟨deps, rfl, fun dep hdep => ?_⟩
              exact not_not.mp fun h => hnone (.unknownDependency entry hentry deps hread dep hdep h)
          · exact not_not.mp fun h => hnone (.unknownTarget entry.2 hstep target (.inl hnext) h)
          · exact not_not.mp fun h => hnone (.unknownTarget entry.2 hstep target (.inr hfallback) h)
        dependencies := fun id hcycle => hnone (.dependencyCycle id hcycle)
        nextSteps := fun id hcycle => hnone (.nextStepCycle id hcycle) }

/-- The linter and the engine agree on a front matter exactly if it has a defect that the linter looks for and
one that the engine looks for, or none of either kind. -/
theorem linter_agrees_iff (steps : List SchemaStep) :
    ((∃ stepIds, validateDeclarativeSteps steps = .ok stepIds) ↔
      validateStepGraph (some (steps.map fun step => some step.toStepDef)) = .ok ()) ↔
        (LintDefect steps ↔ EngineDefect steps) := by
  have hmap : (steps.map fun step => some step.toStepDef) = (steps.map SchemaStep.toStepDef).map some := by
    rw [List.map_map]
    rfl
  rw [hmap, validateDeclarativeSteps_iff, validateStepGraph_iff, stepsSound_iff, not_iff_not]

end Defects

def waitingStep (stepId dependency : String) (h : matchesId stepId = true) : SchemaStep where
  stepId := some stepId
  dependsOn := some [dependency]
  named := .inr rfl
  idPattern := by simp
  stepIdPattern text htext := Option.some.inj htext ▸ h

/-- Two steps that wait for each other. -/
def cyclicSteps : List SchemaStep :=
  [waitingStep "plan" "review" (by decide), waitingStep "review" "plan" (by decide)]

/-- The linter does not see the cycle. -/
theorem cyclic_steps_linted :
    (∃ stepIds, validateDeclarativeSteps cyclicSteps = .ok stepIds) ∧
      validateStepGraph (some (cyclicSteps.map fun step => some step.toStepDef)) =
        .error (.dependencyCycle (.text "plan")) :=
  ⟨⟨["review", "plan"], by decide⟩, by decide⟩

end AgentSystem.Workflow
