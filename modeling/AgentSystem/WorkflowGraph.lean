import AgentSystem.DepthFirst
import AgentSystem.WorkflowState

/-!
# The validated and the executed graph

The validator and `execute` read the dependencies of a step by rules of their own. Where both read
the same, the graph that is executed is known and acyclic.
-/
namespace AgentSystem.Workflow

open DepthFirst

/-! ## The checks of the validator -/

lemma knownDependencies_ok {known : List Scalar} {stepId : Scalar} {items : List (Option Scalar)}
    {deps : List Scalar} (h : knownDependencies known stepId items = .ok deps) :
    items = deps.map some ∧ ∀ dep ∈ deps, dep ∈ known := by
  induction items generalizing deps with
  | nil =>
      cases h
      exact ⟨rfl, nofun⟩
  | cons item items ih =>
      cases item with
      | none => cases h
      | some dep =>
          rw [knownDependencies] at h
          split_ifs at h with hunknown
          cases hrest : knownDependencies known stepId items with
          | error error =>
              rw [hrest] at h
              cases h
          | ok rest =>
              rw [hrest] at h
              cases h
              obtain ⟨rfl, hknown⟩ := ih hrest
              refine ⟨rfl, fun other hother => ?_⟩
              rcases List.mem_cons.mp hother with rfl | hmem
              · exact hunknown
              · exact hknown other hmem

lemma validatedDeps_known {known : List Scalar} {previous : Option Scalar} {step : StepDef}
    {deps : List Scalar} (h : validatedDeps known previous step = .ok deps) :
    ∀ dep ∈ deps, dep ∈ known := by
  unfold validatedDeps at h
  split at h
  · exact (knownDependencies_ok h).2
  · exact (knownDependencies_ok h).2
  · exact (knownDependencies_ok h).2
  · cases h

/-- The dependencies that `execute` reads for a step. -/
def executedDeps (previous : Option Scalar) (step : StepDef) : Deps :=
  match step.explicitDeps with
  | some node => node.deps
  | none => .iterable (previous.toList.map some)

/-- Both readings of a step have the same elements. -/
def SameReading (executed : Deps) (validated : List Scalar) : Prop :=
  ∃ items, executed = .iterable items ∧ ∀ item, item ∈ items ↔ item ∈ validated.map some

/-- The key `dependencies` is there with the value `null`, and `depends_on` has another value. -/
def StepDef.shadowed (step : StepDef) : Option Node :=
  if step.dependencies = some (.scalar .null) then nonNull step.dependsOn else none

lemma nonNull_some {node : Node} (h : node ≠ .scalar .null) : nonNull (some node) = some node := by
  simp [nonNull, h]

lemma nonNull_null : nonNull (some (.scalar .null)) = none := by
  simp [nonNull]

/-- A value that is not `null` reads the same on both sides. -/
lemma sameReading_node {known : List Scalar} {previous : Option Scalar} {step : StepDef}
    {deps : List Scalar} (hnode : step.rawDeps ≠ .scalar .null)
    (h : validatedDeps known previous step = .ok deps) : SameReading step.rawDeps.deps deps := by
  unfold validatedDeps at h
  split at h
  · next heq => exact absurd heq hnode
  · next dependency heq =>
      rw [heq]
      exact ⟨_, rfl, fun item => by rw [(knownDependencies_ok h).1]⟩
  · next items heq =>
      rw [heq]
      exact ⟨_, rfl, fun item => by rw [(knownDependencies_ok h).1]⟩
  · cases h

/-- A step that does not name its dependencies depends on the step before it for both. -/
lemma sameReading_previous {known : List Scalar} {previous : Option Scalar} {step : StepDef}
    {deps : List Scalar} (hnode : step.rawDeps = .scalar .null)
    (h : validatedDeps known previous step = .ok deps) :
    previous.toList.map some = deps.map some := by
  rw [validatedDeps, hnode] at h
  exact (knownDependencies_ok h).1

/-- The two readings of a step name the same value, or the validator reads none. -/
lemma explicitDeps_cases (step : StepDef) :
    step.rawDeps ≠ .scalar .null ∧ step.explicitDeps = some step.rawDeps ∧ step.shadowed = none ∨
      step.rawDeps = .scalar .null ∧ step.explicitDeps = step.shadowed := by
  rw [StepDef.explicitDeps, StepDef.rawDeps, StepDef.shadowed]
  cases hdeps : step.dependencies with
  | none =>
      rw [if_neg nofun, Option.getD_none]
      cases hon : step.dependsOn with
      | none => exact .inr ⟨rfl, rfl⟩
      | some node =>
          by_cases hnull : node = .scalar .null
          · subst hnull
            exact .inr ⟨rfl, by rw [nonNull_null]; rfl⟩
          · refine .inl ⟨hnull, ?_, rfl⟩
            rw [nonNull_some hnull]
            rfl
  | some node =>
      by_cases hnull : node = .scalar .null
      · subst hnull
        rw [if_pos rfl, nonNull_null]
        exact .inr ⟨rfl, rfl⟩
      · rw [if_neg (fun h => hnull (Option.some.inj h)), nonNull_some hnull]
        exact .inl ⟨hnull, rfl, rfl⟩

/-- Where the readings of one step agree. -/
lemma sameReading_iff {known : List Scalar} {previous : Option Scalar} {step : StepDef}
    {deps : List Scalar} (h : validatedDeps known previous step = .ok deps) :
    SameReading (executedDeps previous step) deps ↔
      ∀ node, step.shadowed = some node → SameReading node.deps previous.toList := by
  rcases explicitDeps_cases step with ⟨hnode, hexplicit, hshadowed⟩ | ⟨hnode, hexplicit⟩
  · rw [executedDeps, hexplicit, hshadowed]
    exact ⟨fun _ => nofun, fun _ => sameReading_node hnode h⟩
  · have hprevious := sameReading_previous hnode h
    rw [executedDeps, hexplicit]
    cases hshadowed : step.shadowed with
    | none => exact ⟨fun _ => nofun, fun _ => ⟨_, rfl, fun item => by rw [hprevious]⟩⟩
    | some node =>
        constructor
        · intro hsame other hother
          cases hother
          rw [SameReading, hprevious]
          exact hsame
        · intro hsame
          have hnode := hsame node rfl
          rw [SameReading, hprevious] at hnode
          exact hnode

/-! ## The steps of a definition -/

/-- Every step with the id of the step before it. -/
def withPrevious : Option Scalar → List StepDef → List (Option Scalar × StepDef)
  | _, [] => []
  | previous, step :: steps => (previous, step) :: withPrevious (some step.id) steps

lemma withPrevious_steps (previous : Option Scalar) (steps : List StepDef) :
    (withPrevious previous steps).map Prod.snd = steps := by
  induction steps generalizing previous with
  | nil => rfl
  | cons step steps ih => rw [withPrevious, List.map_cons, ih]

lemma resolveDeps_eq (previous : Option Scalar) (steps : List StepDef) :
    resolveDeps previous steps =
      (withPrevious previous steps).map fun entry => (entry.2.id, executedDeps entry.1 entry.2) := by
  induction steps generalizing previous with
  | nil => rfl
  | cons step steps ih =>
      rw [resolveDeps, withPrevious, List.map_cons, ih]
      rfl

lemma checkSteps_ok {known : List Scalar} {previous : Option Scalar} {steps : List StepDef}
    {checked : List (Scalar × List Scalar)}
    (h : checkSteps known previous (steps.map some) = .ok checked) :
    List.Forall₂ (fun entry pair => pair.1 = entry.2.id ∧
      validatedDeps known entry.1 entry.2 = .ok pair.2) (withPrevious previous steps) checked := by
  induction steps generalizing previous checked with
  | nil =>
      cases h
      exact .nil
  | cons step steps ih =>
      rw [List.map_cons, checkSteps] at h
      cases hdeps : validatedDeps known previous step with
      | error error =>
          rw [hdeps] at h
          cases h
      | ok deps =>
          rw [hdeps] at h
          cases hnext : checkTarget known step "next_step" step.nextStep with
          | error error =>
              rw [hnext] at h
              cases h
          | ok _ =>
              rw [hnext] at h
              cases hfallback : checkTarget known step "fallback_step" step.fallbackStep with
              | error error =>
                  rw [hfallback] at h
                  cases h
              | ok _ =>
                  rw [hfallback] at h
                  cases hrest : checkSteps known (some step.id) (steps.map some) with
                  | error error =>
                      rw [hrest] at h
                      cases h
                  | ok others =>
                      rw [hrest] at h
                      cases h
                      exact .cons ⟨rfl, hdeps⟩ (ih hrest)

section Readings

variable {α β : Type} {R : α → β → Prop} {entries : List α} {checked : List β}

lemma forall₂_mem (h : List.Forall₂ R entries checked) {entry : α} (hentry : entry ∈ entries) :
    ∃ pair ∈ checked, R entry pair := by
  induction h with
  | nil => cases hentry
  | cons hpair _ ih =>
      rcases List.mem_cons.mp hentry with rfl | hrest
      · exact ⟨_, List.mem_cons_self, hpair⟩
      · obtain ⟨pair, hmem, h⟩ := ih hrest
        exact ⟨pair, List.mem_cons_of_mem _ hmem, h⟩

lemma forall₂_map_eq {γ : Type} {f : α → γ} {g : β → γ} (h : List.Forall₂ R entries checked)
    (hkey : ∀ entry pair, R entry pair → g pair = f entry) : checked.map g = entries.map f := by
  induction h with
  | nil => rfl
  | cons hpair _ ih => rw [List.map_cons, List.map_cons, hkey _ _ hpair, ih]

end Readings

/-! ## The cycle checks -/

lemma visit_toOption (next : Scalar → List Scalar) (depth : ℕ) (sets : List Scalar × List Scalar)
    (stepId : Scalar) :
    (visit next depth sets stepId).toOption = (search next depth sets stepId).toOption := by
  induction depth generalizing sets stepId with
  | zero => rfl
  | succ depth ih =>
      obtain ⟨visiting, visited⟩ := sets
      rw [visit, search]
      split_ifs with hvisiting hvisited
      · rfl
      · rfl
      · have hfold := foldlM_toOption ih (next stepId) (stepId :: visiting, visited)
        rw [← foldlM_toOption (fun _ _ => rfl)] at hfold
        cases hsearch : (next stepId).foldlM (search next depth) (stepId :: visiting, visited) with
        | error failure =>
            rw [hsearch] at hfold
            cases hvisit : (next stepId).foldlM (visit next depth) (stepId :: visiting, visited) with
            | error error => rfl
            | ok state =>
                rw [hvisit] at hfold
                cases hfold
        | ok state =>
            rw [hsearch] at hfold
            cases hvisit : (next stepId).foldlM (visit next depth) (stepId :: visiting, visited) with
            | error error =>
                rw [hvisit] at hfold
                cases hfold
            | ok state' =>
                rw [hvisit] at hfold
                cases hfold
                have hpath : state.1 = stepId :: visiting := foldlM_search_path hsearch
                change some (state.1.erase stepId, stepId :: state.2) =
                  some (visiting, stepId :: state.2)
                rw [hpath, List.erase_cons_head]

/-- A graph that passes the check has no cycle. -/
lemma cycleCheck_acyclic {error : Scalar → GraphError} {next : Scalar → List Scalar}
    {ids : List Scalar} (hwithin : Within next ids) (h : cycleCheck error next ids = .ok ()) :
    Acyclic next := by
  apply (searchAll_acyclic hwithin (Nat.lt_succ_self _)).mp
  have hfold := foldlM_toOption (visit_toOption next (ids.length + 1)) ids ([], [])
  rw [← foldlM_toOption (fun _ _ => rfl), ← searchAll] at hfold
  rw [cycleCheck] at h
  cases hvisit : ids.foldlM (visit next (ids.length + 1)) ([], []) with
  | error stepId =>
      rw [hvisit] at h
      cases h
  | ok state =>
      rw [hvisit] at hfold
      cases hsearch : searchAll next (ids.length + 1) ids with
      | error failure =>
          rw [hsearch] at hfold
          cases hfold
      | ok state' => exact ⟨state', rfl⟩

namespace Definition

variable (d : Definition)

/-- `dependencies` of the validator. -/
def validatedDependencies : List (Scalar × List Scalar) :=
  ((checkSteps d.ids none (d.steps.map some)).toOption).getD []

lemma valid_checks :
    checkSteps d.ids none (d.steps.map some) = .ok d.validatedDependencies ∧
      cycleCheck .dependencyCycle (Workflow.depsOf d.validatedDependencies) d.ids = .ok () := by
  have hvalid := d.valid
  unfold validateStepGraph at hvalid
  simp only [reduceOption_map_some] at hvalid
  split_ifs at hvalid with hempty hkeys hids
  rw [← ids] at hvalid
  rw [validatedDependencies]
  cases hcheck : checkSteps d.ids none (d.steps.map some) with
  | error error =>
      rw [hcheck] at hvalid
      cases hvalid
  | ok checked =>
      rw [hcheck] at hvalid
      refine ⟨rfl, ?_⟩
      change (cycleCheck .dependencyCycle (Workflow.depsOf checked) d.ids >>= _) = _ at hvalid
      change cycleCheck .dependencyCycle (Workflow.depsOf checked) d.ids = _
      cases hcycle : cycleCheck .dependencyCycle (Workflow.depsOf checked) d.ids with
      | error error =>
          rw [hcycle] at hvalid
          cases hvalid
      | ok _ => rfl

lemma withPrevious_ids :
    ((withPrevious none d.steps).map fun entry => entry.2.id) = d.ids := by
  rw [ids, ← congrArg (List.map StepDef.id) (withPrevious_steps none d.steps), List.map_map]
  rfl

lemma validatedDependencies_keys : d.validatedDependencies.map Prod.fst = d.ids := by
  rw [← withPrevious_ids]
  exact forall₂_map_eq (checkSteps_ok d.valid_checks.1) fun _ _ h => h.1

/-- A step with the step before it, and what the validator and `execute` have read for it. -/
lemma readings {entry : Option Scalar × StepDef} (hentry : entry ∈ withPrevious none d.steps) :
    d.depsOf entry.2.id = some (executedDeps entry.1 entry.2) ∧
      validatedDeps d.ids entry.1 entry.2 =
        .ok (Workflow.depsOf d.validatedDependencies entry.2.id) := by
  constructor
  · have hunique : (d.stepDependencies.map Prod.fst).Nodup := d.stepDependencies_keys ▸ d.ids_nodup
    have hmem : (entry.2.id, executedDeps entry.1 entry.2) ∈ d.stepDependencies := by
      rw [stepDependencies, resolveDeps_eq]
      exact List.mem_map.mpr ⟨entry, hentry, rfl⟩
    rw [depsOf, (find?_key_eq_some hunique).mpr ⟨hmem, rfl⟩]
    rfl
  · obtain ⟨pair, hmem, hkey, hdeps⟩ := forall₂_mem (checkSteps_ok d.valid_checks.1) hentry
    have hunique : (d.validatedDependencies.map Prod.fst).Nodup :=
      d.validatedDependencies_keys ▸ d.ids_nodup
    rw [hdeps, Workflow.depsOf, (find?_key_eq_some hunique).mpr ⟨hmem, hkey⟩]
    rfl

/-- A step waits for another one in `execute`. -/
def Schedules (stepId dependency : Scalar) : Prop :=
  ∃ items, d.depsOf stepId = some (.iterable items) ∧ some dependency ∈ items

/-- What `execute` schedules by is what was checked; so it is acyclic and names only known steps. -/
structure GraphsAgree : Prop where
  same : ∀ step ∈ d.steps, ∃ executed, d.depsOf step.id = some executed ∧
    SameReading executed (Workflow.depsOf d.validatedDependencies step.id)
  acyclic : ∀ stepId, ¬Relation.TransGen d.Schedules stepId stepId
  known : ∀ stepId dependency, d.Schedules stepId dependency → dependency ∈ d.ids

/-- A step that hides its `depends_on` behind a `dependencies: null` names there just the step
before it. -/
def ShadowedRepeat : Prop :=
  ∀ entry ∈ withPrevious none d.steps, ∀ node, entry.2.shadowed = some node →
    SameReading node.deps entry.1.toList

variable {d}

lemma exists_withPrevious {step : StepDef} (hstep : step ∈ d.steps) :
    ∃ entry ∈ withPrevious none d.steps, entry.2 = step := by
  rw [← withPrevious_steps none d.steps] at hstep
  obtain ⟨entry, hentry, heq⟩ := List.mem_map.mp hstep
  exact ⟨entry, hentry, heq⟩

lemma same_iff :
    (∀ step ∈ d.steps, ∃ executed, d.depsOf step.id = some executed ∧
      SameReading executed (Workflow.depsOf d.validatedDependencies step.id)) ↔
        d.ShadowedRepeat := by
  constructor
  · intro hsame entry hentry
    obtain ⟨hexecuted, hvalidated⟩ := d.readings hentry
    have hstep : entry.2 ∈ d.steps := by
      rw [← withPrevious_steps none d.steps]
      exact List.mem_map_of_mem hentry
    obtain ⟨executed, heq, hreading⟩ := hsame entry.2 hstep
    rw [hexecuted] at heq
    cases heq
    exact (sameReading_iff hvalidated).mp hreading
  · intro hrepeat step hstep
    obtain ⟨entry, hentry, rfl⟩ := exists_withPrevious hstep
    obtain ⟨hexecuted, hvalidated⟩ := d.readings hentry
    exact ⟨_, hexecuted, (sameReading_iff hvalidated).mpr (hrepeat entry hentry)⟩

/-- With the same readings, what `execute` waits for is an edge that was checked. -/
lemma schedules_edge (hrepeat : d.ShadowedRepeat) {stepId dependency : Scalar}
    (h : d.Schedules stepId dependency) :
    Edge (Workflow.depsOf d.validatedDependencies) stepId dependency ∧ dependency ∈ d.ids := by
  obtain ⟨items, hitems, hmem⟩ := h
  have hkey : stepId ∈ d.ids := by
    rw [← d.stepDependencies_keys]
    obtain ⟨pair, hpair, -⟩ := Option.map_eq_some_iff.mp hitems
    have hid : pair.1 = stepId := by simpa using List.find?_some hpair
    rw [← hid]
    exact List.mem_map_of_mem (List.mem_of_find?_eq_some hpair)
  obtain ⟨step, hstep, rfl⟩ := List.mem_map.mp hkey
  obtain ⟨entry, hentry, rfl⟩ := exists_withPrevious hstep
  obtain ⟨hexecuted, hvalidated⟩ := d.readings hentry
  obtain ⟨items', heq, hsame⟩ := (sameReading_iff hvalidated).mpr (hrepeat entry hentry)
  rw [hexecuted, heq] at hitems
  cases hitems
  obtain ⟨dep, hdep, hdep'⟩ := List.mem_map.mp ((hsame _).mp hmem)
  cases hdep'
  exact ⟨hdep, validatedDeps_known hvalidated _ hdep⟩

lemma validated_within : Within (Workflow.depsOf d.validatedDependencies) d.ids := by
  intro stepId hunknown
  have hnone : (d.validatedDependencies.find? fun entry => entry.1 = stepId) = none := by
    apply List.find?_eq_none.mpr
    intro entry hentry heq
    apply hunknown
    rw [← d.validatedDependencies_keys, ← of_decide_eq_true heq]
    exact List.mem_map_of_mem hentry
  rw [Workflow.depsOf, hnone]
  rfl

/-- The executed graph is the validated one exactly if no step hides other dependencies behind a
`dependencies: null`. -/
theorem graphsAgree_iff (d : Definition) : d.GraphsAgree ↔ d.ShadowedRepeat := by
  constructor
  · intro h
    exact same_iff.mp h.same
  · intro hrepeat
    refine ⟨same_iff.mpr hrepeat, fun stepId hcycle => ?_, fun stepId dependency h =>
      (schedules_edge hrepeat h).2⟩
    apply cycleCheck_acyclic validated_within d.valid_checks.2 stepId
    exact Relation.TransGen.mono (fun _ _ h => (schedules_edge hrepeat h).1) stepId stepId hcycle

/-- Two steps that hide that they wait for each other. -/
def shadowedWorkflow : Definition where
  steps :=
    [{ stepId := some (.scalar (.text "a")), dependencies := some (.scalar .null),
       dependsOn := some (.scalar (.text "b")) },
     { stepId := some (.scalar (.text "b")), dependencies := some (.scalar .null),
       dependsOn := some (.scalar (.text "a")) }]
  valid := rfl

/-- The validator accepts them, and `execute` waits for each of them before the other. -/
theorem shadowed_steps_wait :
    shadowedWorkflow.Schedules (.text "a") (.text "b") ∧
      shadowedWorkflow.Schedules (.text "b") (.text "a") ∧ ¬shadowedWorkflow.GraphsAgree := by
  have hab : shadowedWorkflow.Schedules (.text "a") (.text "b") :=
    ⟨[some (.text "b")], rfl, List.mem_singleton_self _⟩
  have hba : shadowedWorkflow.Schedules (.text "b") (.text "a") :=
    ⟨[some (.text "a")], rfl, List.mem_singleton_self _⟩
  exact ⟨hab, hba, fun h => h.acyclic (.text "a") (.head hab (.single hba))⟩

end Definition

end AgentSystem.Workflow
