import AgentSystem.DepthFirst
import AgentSystem.KeyedTable
import AgentSystem.MissionContracts

/-!
# The graph of an execution plan

Which tasks a plan accepts. The search of `validate_plan_graph` is the search of the library that
forgets the path to a cycle.
-/
namespace AgentSystem.Missions

open DepthFirst

/-- The texts of the errors about the tasks of a plan. -/
def graphErrors : List String :=
  ["execution plan task IDs must be unique", "execution plan task order values must be unique",
   "execution plan tasks cannot depend on themselves",
   "execution plan dependencies must reference existing tasks",
   "execution plan dependencies must be acyclic"]

lemma visit_eq_search (tasks : List PlanTask) (depth : ℕ) (sets : List TaskId × List TaskId)
    (taskId : TaskId) :
    (search (dependenciesOf tasks) depth sets taskId).toOption = visit tasks depth sets taskId := by
  induction depth generalizing sets taskId with
  | zero => rfl
  | succ depth ih =>
      obtain ⟨visiting, visited⟩ := sets
      rw [search, visit]
      split_ifs with hvisiting hvisited
      · rfl
      · rfl
      · rw [← foldlM_toOption ih]
        cases hfold : (dependenciesOf tasks taskId).foldlM (search (dependenciesOf tasks) depth)
            (taskId :: visiting, visited) with
        | error failure => rfl
        | ok state =>
            have hpath : state.1 = taskId :: visiting := foldlM_search_path hfold
            change some (visiting, taskId :: state.2) =
              some (state.1.erase taskId, taskId :: state.2)
            rw [hpath, List.erase_cons_head]

lemma foldlM_visit (tasks : List PlanTask) (depth : ℕ) (ids : List TaskId) :
    ids.foldlM (visit tasks depth) ([], []) =
      (searchAll (dependenciesOf tasks) depth ids).toOption :=
  (foldlM_toOption (visit_eq_search tasks depth) ids ([], [])).symm

lemma toOption_ne_none {ε α : Type} {result : Except ε α} :
    result.toOption ≠ none ↔ ∃ value, result = .ok value := by
  cases result with
  | error failure => exact ⟨fun h => absurd rfl h, nofun⟩
  | ok value => exact ⟨fun _ => ⟨value, rfl⟩, fun _ => nofun⟩

/-! ## Dependencies -/

section Dependencies

variable {tasks : List PlanTask}

lemma dependenciesOf_within (tasks : List PlanTask) :
    Within (dependenciesOf tasks) (tasks.map PlanTask.taskId) := by
  intro taskId hunknown
  have hnone : (tasks.find? fun task => task.taskId = taskId) = none := by
    apply List.find?_eq_none.mpr
    intro task htask heq
    exact hunknown (List.mem_map.mpr ⟨task, htask, of_decide_eq_true heq⟩)
  rw [dependenciesOf, hnone]
  rfl

/-- Ids that occur once lead to the task that has them. -/
lemma dependenciesOf_taskId (hids : (tasks.map PlanTask.taskId).Nodup) {task : PlanTask}
    (htask : task ∈ tasks) : dependenciesOf tasks task.taskId = task.dependencies := by
  have hfound : (tasks.find? fun other => other.taskId = task.taskId) = some task :=
    (find?_key_eq_some hids).mpr ⟨htask, rfl⟩
  rw [dependenciesOf, hfound]
  rfl

lemma forall_dependenciesOf (hids : (tasks.map PlanTask.taskId).Nodup)
    {p : TaskId → TaskId → Prop} :
    (∀ taskId, ∀ dependency ∈ dependenciesOf tasks taskId, p taskId dependency) ↔
      ∀ task ∈ tasks, ∀ dependency ∈ task.dependencies, p task.taskId dependency := by
  constructor
  · intro h task htask dependency hdependency
    apply h
    rwa [dependenciesOf_taskId hids htask]
  · intro h taskId dependency hdependency
    by_cases hknown : taskId ∈ tasks.map PlanTask.taskId
    · obtain ⟨task, htask, rfl⟩ := List.mem_map.mp hknown
      rw [dependenciesOf_taskId hids htask] at hdependency
      exact h task htask dependency hdependency
    · rw [dependenciesOf_within tasks taskId hknown] at hdependency
      cases hdependency

lemma dependencyError_eq_none {knownIds : List TaskId} {task : PlanTask} :
    dependencyError knownIds task = none ↔
      task.taskId ∉ task.dependencies ∧ ∀ dependency ∈ task.dependencies, dependency ∈ knownIds := by
  rw [dependencyError]
  split_ifs with hself hunknown
  · exact ⟨nofun, fun h => absurd hself h.1⟩
  · refine ⟨nofun, fun h => ?_⟩
    obtain ⟨dependency, hmem, hnone⟩ := hunknown
    exact absurd (h.2 dependency hmem) hnone
  · push Not at hunknown
    exact ⟨fun _ => ⟨hself, hunknown⟩, fun _ => rfl⟩

lemma dependencyError_mem {knownIds : List TaskId} {task : PlanTask} {error : String}
    (h : dependencyError knownIds task = some error) : error ∈ graphErrors := by
  rw [dependencyError] at h
  split_ifs at h
  · cases h
    decide
  · cases h
    decide

/-- The tasks have an order in which every task comes after its dependencies. -/
def HasTopologicalOrder (tasks : List PlanTask) : Prop :=
  ∃ order : List TaskId, order.Perm (tasks.map PlanTask.taskId) ∧
    ∀ task ∈ tasks, ∀ dependency ∈ task.dependencies,
      order.idxOf dependency < order.idxOf task.taskId

lemma foldlM_visit_ne_none (hids : (tasks.map PlanTask.taskId).Nodup)
    (hknown : ∀ task ∈ tasks, ∀ dependency ∈ task.dependencies,
      dependency ∈ tasks.map PlanTask.taskId) :
    (tasks.map PlanTask.taskId).foldlM (visit tasks (tasks.length + 1)) ([], []) ≠ none ↔
      HasTopologicalOrder tasks := by
  have hwithin := dependenciesOf_within tasks
  have hclosed : Closed (dependenciesOf tasks) (tasks.map PlanTask.taskId) := fun taskId _ =>
    (forall_dependenciesOf hids (p := fun _ dependency =>
      dependency ∈ tasks.map PlanTask.taskId)).mpr hknown taskId
  have hdepth : (tasks.map PlanTask.taskId).length < tasks.length + 1 := by
    rw [List.length_map]
    omega
  rw [foldlM_visit, toOption_ne_none, searchAll_acyclic hwithin hdepth,
    acyclic_iff_order hids hwithin hclosed]
  apply exists_congr
  intro order
  apply and_congr_right
  intro _
  exact forall_dependenciesOf hids

end Dependencies

/-! ## Acceptance -/

/-- What the validator asks of the tasks before the search for a cycle. -/
def TasksWellFormed (tasks : List PlanTask) : Prop :=
  (tasks.map PlanTask.taskId).Nodup ∧ (tasks.map PlanTask.order).Nodup ∧
    ∀ task ∈ tasks, ∀ dependency ∈ task.dependencies, dependency ∈ tasks.map PlanTask.taskId

lemma HasTopologicalOrder.irrefl {tasks : List PlanTask} (h : HasTopologicalOrder tasks)
    {task : PlanTask} (htask : task ∈ tasks) : task.taskId ∉ task.dependencies := by
  obtain ⟨order, -, hlower⟩ := h
  exact fun hself => lt_irrefl _ (hlower task htask task.taskId hself)

/-- The errors after the search are not about the graph. -/
lemma planError_later {tasks : List PlanTask} (hform : TasksWellFormed tasks)
    (horder : HasTopologicalOrder tasks) (revision : ℕ+) (approvalStatus : ApprovalStatus)
    (approvedRevision : Option ℕ+) (requiredVerification : List VerificationGateName) :
    ∀ error ∈ graphErrors,
      planError tasks revision approvalStatus approvedRevision requiredVerification ≠
        some error := by
  obtain ⟨hids, horders, hknown⟩ := hform
  have hloop : tasks.findSome? (dependencyError (tasks.map PlanTask.taskId)) = none := by
    apply List.findSome?_eq_none_iff.mpr
    intro task htask
    exact dependencyError_eq_none.mpr ⟨horder.irrefl htask, hknown task htask⟩
  have hsearch := (foldlM_visit_ne_none hids hknown).mpr horder
  intro error herror heq
  simp only [planError, hids, horders, hloop, hsearch, not_true_eq_false, if_false] at heq
  split_ifs at heq <;> cases heq <;> revert herror <;> decide

lemma planError_graph {tasks : List PlanTask} {revision : ℕ+} {approvalStatus : ApprovalStatus}
    {approvedRevision : Option ℕ+} {requiredVerification : List VerificationGateName}
    (h : ∀ error ∈ graphErrors,
      planError tasks revision approvalStatus approvedRevision requiredVerification ≠
        some error) : TasksWellFormed tasks ∧ HasTopologicalOrder tasks := by
  by_cases hids : (tasks.map PlanTask.taskId).Nodup
  · by_cases horders : (tasks.map PlanTask.order).Nodup
    · cases hloop : tasks.findSome? (dependencyError (tasks.map PlanTask.taskId)) with
      | some error =>
          obtain ⟨task, -, herror⟩ := List.exists_of_findSome?_eq_some hloop
          apply absurd _ (h error (dependencyError_mem herror))
          simp only [planError, hids, horders, hloop, not_true_eq_false, if_false]
      | none =>
          have hknown : ∀ task ∈ tasks, ∀ dependency ∈ task.dependencies,
              dependency ∈ tasks.map PlanTask.taskId := fun task htask =>
            (dependencyError_eq_none.mp (List.findSome?_eq_none_iff.mp hloop task htask)).2
          refine ⟨⟨hids, horders, hknown⟩, (foldlM_visit_ne_none hids hknown).mp fun hnone => ?_⟩
          apply h "execution plan dependencies must be acyclic" (by decide)
          simp only [planError, hids, horders, hloop, hnone, not_true_eq_false, if_false, if_true]
    · apply absurd _ (h "execution plan task order values must be unique" (by decide))
      simp only [planError, hids, horders, not_true_eq_false, not_false_eq_true, if_false, if_true]
  · apply absurd _ (h "execution plan task IDs must be unique" (by decide))
    simp only [planError, hids, not_false_eq_true, if_true]

/-- A plan is not refused for its graph exactly if ids and orders are distinct, dependencies are known
and the tasks have a topological order; and the search ends, since however much deeper it may go, it
gives the same. -/
theorem validate_plan_graph_exact (tasks : List PlanTask) (revision : ℕ+)
    (approvalStatus : ApprovalStatus) (approvedRevision : Option ℕ+)
    (requiredVerification : List VerificationGateName) :
    ((∀ error ∈ graphErrors,
        planError tasks revision approvalStatus approvedRevision requiredVerification ≠
          some error) ↔
      (tasks.map PlanTask.taskId).Nodup ∧ (tasks.map PlanTask.order).Nodup ∧
        (∀ task ∈ tasks, ∀ dependency ∈ task.dependencies,
          dependency ∈ tasks.map PlanTask.taskId) ∧ HasTopologicalOrder tasks) ∧
    ∀ extra : ℕ,
      (tasks.map PlanTask.taskId).foldlM (visit tasks (tasks.length + 1 + extra)) ([], []) =
        (tasks.map PlanTask.taskId).foldlM (visit tasks (tasks.length + 1)) ([], []) := by
  refine ⟨⟨fun h => ?_, ?_⟩, fun extra => ?_⟩
  · obtain ⟨⟨hids, horders, hknown⟩, horder⟩ := planError_graph h
    exact ⟨hids, horders, hknown, horder⟩
  · rintro ⟨hids, horders, hknown, horder⟩
    exact planError_later ⟨hids, horders, hknown⟩ horder revision approvalStatus approvedRevision
      requiredVerification
  · have hdeeper := searchAll_deeper (dependenciesOf_within tasks) (tasks.map PlanTask.taskId) extra
    rw [List.length_map] at hdeeper
    rw [foldlM_visit, foldlM_visit, hdeeper]

end AgentSystem.Missions
